import HeaderFlattening.Text.Basic

/-!
Tokens of a line: the single delimiters `,()[]{};` and the maximal runs of characters that are
neither delimiters nor blanks. Each token keeps the blanks before it, so that a line is the
concatenation of its tokens, gaps included, and of the blanks at its end; `append_tail` says so.
-/

set_option autoImplicit false
namespace HeaderFlattening

/-- A token and the blanks between it and the token before it. -/
structure Token where
  gap : Text
  text : Text
  deriving DecidableEq, Repr

/-- A span of bytes, the end excluded. -/
structure Span where
  start : Nat
  stop : Nat
  deriving DecidableEq, Repr

def Span.length (s : Span) : Nat := s.stop - s.start

/-- A line that has more tokens than the limit allows. -/
structure TooManyTokens where
  limit : Nat
  deriving DecidableEq, Repr

def TooManyTokens.message (e : TooManyTokens) : Text :=
  "more than ".toList ++ Text.ofNat e.limit ++ " tokens on one line".toList

namespace Token

/-- The characters that are tokens by themselves. -/
def delimiters : List Char := [',', '(', ')', '[', ']', '{', '}', ';']

def isDelimiter (c : Char) : Bool := delimiters.contains c

/-- A character that other such characters join to a longer token. -/
def isInner (c : Char) : Bool := !Text.isBlank c && !isDelimiter c

/-- The token as it stands in the line. -/
def source (t : Token) : Text := t.gap ++ t.text

/-- The tokens that result when `c` is put before a text with tokens `ts` and tail `tail`. -/
def prepend (c : Char) (ts : List Token) (tail : Text) : List Token × Text :=
  match ts with
  | [] => if Text.isBlank c then ([], c :: tail) else ([⟨[], [c]⟩], tail)
  | t :: ts =>
    if Text.isBlank c then (⟨c :: t.gap, t.text⟩ :: ts, tail)
    else if isInner c && t.gap.isEmpty && t.text.head?.any isInner then (⟨[], c :: t.text⟩ :: ts, tail)
    else (⟨[], [c]⟩ :: t :: ts, tail)

/-- The tokens of a text and the blanks after the last of them. -/
def scan : Text → List Token × Text
  | [] => ([], [])
  | c :: s => prepend c (scan s).1 (scan s).2

def tokenize (s : Text) (limit : Nat) : Except TooManyTokens (List Token) :=
  let tokens := (scan s).1
  if limit < tokens.length then .error ⟨limit⟩ else .ok tokens

/-- The spans of tokens that follow each other from byte offset `start`. -/
def spans : Nat → List Token → List Span
  | _, [] => []
  | start, t :: ts =>
    let first := start + t.gap.byteLength
    let stop := first + t.text.byteLength
    ⟨first, stop⟩ :: spans stop ts

theorem prepend_source (c : Char) (ts : List Token) (tail : Text) :
    (prepend c ts tail).1.flatMap source ++ (prepend c ts tail).2 =
      c :: (ts.flatMap source ++ tail) := by
  unfold prepend
  split
  · split <;> simp [source]
  · split
    · simp [source]
    · split
      · rename_i h
        simp only [Bool.and_eq_true, List.isEmpty_iff] at h
        simp [source, h.1.2]
      · simp [source]

/-- Nothing of the text is lost. -/
theorem append_tail (s : Text) : (scan s).1.flatMap source ++ (scan s).2 = s := by
  induction s with
  | nil => rfl
  | cons c s ih => rw [scan, prepend_source, ih]

end Token
end HeaderFlattening
