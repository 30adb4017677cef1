/-!
Header text as a list of characters, measured in the bytes of its UTF-8 form. A byte offset is a
place in a text only when it falls between two characters: `splitAt?` finds the place or says that
there is none.
-/

set_option autoImplicit false
namespace HeaderFlattening

/-- Source text, tokens, names and paths are lists of characters. -/
abbrev Text := List Char

theorem mem_intercalate {α : Type} {a : α} {separator : List α} {parts : List (List α)}
    (h : a ∈ separator.intercalate parts) : a ∈ separator ∨ a ∈ parts.flatten := by
  induction parts with
  | nil => cases h
  | cons x parts ih =>
    cases parts with
    | nil =>
      rw [List.intercalate_singleton] at h
      exact .inr (by simpa using h)
    | cons y parts =>
      rw [List.intercalate_cons_cons, List.mem_append, List.mem_append] at h
      rw [List.flatten_cons, List.mem_append]
      rcases h with (first | separates) | rest
      · exact .inr (.inl first)
      · exact .inl separates
      · exact (ih rest).imp_right .inr

namespace Text

def byteLength : Text → Nat
  | [] => 0
  | c :: t => c.utf8Size + byteLength t

def bytes (t : Text) : List UInt8 :=
  t.flatMap String.utf8EncodeChar

/-- The text whose UTF-8 form is `bytes`, if there is one. -/
def ofBytes? (bytes : List UInt8) : Option Text :=
  (String.fromUTF8? ⟨bytes.toArray⟩).map String.toList

/-- The text before and after byte offset `n`; none past the end or inside a character. -/
def splitAt? : Nat → Text → Option (Text × Text)
  | 0, t => some ([], t)
  | _ + 1, [] => none
  | n + 1, c :: t =>
    if c.utf8Size ≤ n + 1 then
      (splitAt? (n + 1 - c.utf8Size) t).map fun parts => (c :: parts.1, parts.2)
    else none

/-- The characters that separate tokens: space, tab, line feed, carriage return, vertical tab and
form feed. -/
def isBlank (c : Char) : Bool :=
  c = ' ' || c = '\t' || c = '\n' || c = '\r' || c = '\x0b' || c = '\x0c'

/-- The characters that `trim` removes. -/
def isTrimmed (c : Char) : Bool :=
  c = ' ' || c = '\t' || c = '\r' || c = '\n'

/-- The text without the spaces, tabs and line ends at either end. -/
def trim (t : Text) : Text :=
  ((t.dropWhile isTrimmed).reverse.dropWhile isTrimmed).reverse

/-- Letters, digits, `_`, and `~` for the names of destructors, in ASCII. -/
def isNameChar (c : Char) : Bool :=
  c.isAlphanum || c = '_' || c = '~'

def isIdentifier (t : Text) : Bool :=
  !t.isEmpty && t.all isNameChar

def ofNat (n : Nat) : Text :=
  Nat.toDigits 10 n

def ofInt : Int → Text
  | .ofNat n => ofNat n
  | .negSucc n => '-' :: ofNat (n + 1)

def join (delimiter : Text) : List Text → Text
  | [] => []
  | [t] => t
  | t :: ts => t ++ delimiter ++ join delimiter ts

theorem join_eq_intercalate (delimiter : Text) (parts : List Text) :
    join delimiter parts = delimiter.intercalate parts := by
  induction parts with
  | nil => rfl
  | cons part parts ih =>
    cases parts with
    | nil => exact List.intercalate_singleton.symm
    | cons next parts =>
      rw [List.intercalate_cons_cons, ← ih]
      rfl

/-- The lines of a text. Each keeps its line feed; the last may have none. -/
def lines : Text → List Text
  | [] => []
  | c :: t =>
    if c = '\n' then [c] :: lines t
    else
      match lines t with
      | [] => [[c]]
      | l :: ls => (c :: l) :: ls

/-- Nothing is lost when a text is cut into lines. -/
theorem flatten_lines (t : Text) : (lines t).flatten = t := by
  induction t with
  | nil => rfl
  | cons c t ih =>
    by_cases h : c = '\n'
    · simp [lines, h, ih]
    · rw [lines, if_neg h]
      cases hl : lines t with
      | nil => simp_all
      | cons l ls => simp_all

@[simp] theorem byteLength_append (s t : Text) :
    byteLength (s ++ t) = byteLength s + byteLength t := by
  induction s with
  | nil => simp [byteLength]
  | cons c s ih => simp [byteLength, ih, Nat.add_assoc]

/-- A split at a byte offset loses nothing and cuts where it was asked to. -/
theorem append_of_splitAt? {n : Nat} {t a b : Text} (h : splitAt? n t = some (a, b)) :
    a ++ b = t ∧ byteLength a = n := by
  induction t generalizing n a with
  | nil =>
    cases n with
    | zero => simp_all [splitAt?, byteLength]
    | succ n => simp [splitAt?] at h
  | cons c t ih =>
    cases n with
    | zero => simp_all [splitAt?, byteLength]
    | succ n =>
      rw [splitAt?] at h
      split at h
      · obtain ⟨⟨a', b'⟩, hp, he⟩ := Option.map_eq_some_iff.1 h
        obtain ⟨rfl, rfl⟩ := Prod.mk.inj he
        obtain ⟨h1, h2⟩ := ih hp
        refine ⟨by simp [h1], ?_⟩
        simp only [byteLength]
        omega
      · simp at h

end Text
end HeaderFlattening
