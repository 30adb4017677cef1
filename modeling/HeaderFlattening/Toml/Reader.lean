import HeaderFlattening.Text.Basic

/-!
Readers take a beginning of a text and give what it means and the rest of the text. `many` repeats a
reader for as long as it makes progress, so that every repetition ends.
-/

set_option autoImplicit false
namespace HeaderFlattening.Toml

abbrev Reader (α : Type) := Text → Option (α × Text)

namespace Reader

/-- Repeats a reader until it fails or takes nothing. -/
def many {α : Type} (p : Reader α) (s : Text) : List α × Text :=
  match p s with
  | none => ([], s)
  | some (a, rest) =>
    if _shorter : rest.length < s.length then
      let after := many p rest
      (a :: after.1, after.2)
    else ([], s)
termination_by s.length

def char (c : Char) : Reader Unit
  | [] => none
  | d :: s => if d = c then some ((), s) else none

def literal (t : Text) : Reader Unit := fun s =>
  if t.isPrefixOf s then some ((), s.drop t.length) else none

def orElse {α : Type} (p q : Reader α) : Reader α := fun s =>
  match p s with
  | some r => some r
  | none => q s

/-- Readings of `p` with a separator between each two, at least one. -/
def separated {α : Type} (separator : Char) (p : Reader α) : Reader (List α) := fun s => do
  let (a, s) ← p s
  let (more, s) := many (fun s => do p (← char separator s).2) s
  return (a :: more, s)

def isInlineBlank (c : Char) : Bool := c = ' ' || c = '\t'

def skipBlanks (s : Text) : Text := s.dropWhile isInlineBlank

def newline : Reader Unit
  | '\n' :: s => some ((), s)
  | '\r' :: '\n' :: s => some ((), s)
  | _ => none

/-- A character that strings and comments may hold: a tab or any character but the ASCII controls. -/
def isPlain (c : Char) : Bool := c = '\t' || (0x20 ≤ c.toNat && c.toNat ≠ 0x7f)

/-- A comment, up to the end of its line. -/
def comment : Reader Unit
  | '#' :: s => some ((), s.dropWhile isPlain)
  | _ => none

/-- A blank, a line end, or a comment with its line end. -/
def gap : Reader Unit := fun s =>
  match s with
  | [] => none
  | c :: rest =>
    if isInlineBlank c then some ((), rest)
    else if c = '#' then (comment s).bind fun r => newline r.2
    else newline s

def skipGaps (s : Text) : Text := (many gap s).2

/-- What may end a line: blanks, a comment, and a line end or the end of the text. -/
def lineEnd : Reader Unit := fun s =>
  let s := skipBlanks s
  let s := match comment s with
    | some (_, rest) => rest
    | none => s
  if s.isEmpty then some ((), s) else newline s

end Reader
end HeaderFlattening.Toml
