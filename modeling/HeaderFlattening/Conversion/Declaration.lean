import HeaderFlattening.Conversion.Mode
import HeaderFlattening.Line

/-!
What the tokens of a line say about types: openers with their names and braces, closers, and enums
that stand on one line.
-/

set_option autoImplicit false
namespace HeaderFlattening

/-- Where the body of a declared type starts. -/
inductive BracePlacement where
  /-- The brace follows the name. -/
  | sameLine
  /-- A later line has the brace. -/
  | deferred
  | forward
  deriving DecidableEq, Repr

structure TypeDeclaration where
  name : Text
  brace : BracePlacement
  deriving DecidableEq, Repr

/-- The words behind the keyword, without a leading `__declspec(X)`. -/
def TypeDeclaration.skipDeclspec : List Text → List Text
  | words@(w :: lparen :: _ :: rparen :: rest) =>
    if w = "__declspec".toList ∧ lparen = ['('] ∧ rparen = [')'] then rest else words
  | words => words

/-- Reads `KEYWORD [__declspec(X)] [NAME]` and what follows it from the words of a line. Any word but
an opening brace counts as a name. -/
def TypeDeclaration.ofWords? (keyword : Text) : List Text → Option TypeDeclaration
  | [] => none
  | w :: rest =>
    if w = keyword then
      let (name, rest) :=
        match skipDeclspec rest with
        | [] => ([], [])
        | name :: after => if name = ['{'] then ([], name :: after) else (name, after)
      let brace :=
        match rest.head? with
        | some ['{'] => BracePlacement.sameLine
        | some [';'] => .forward
        | _ => .deferred
      some ⟨name, brace⟩
    else none

/-- `};` or `} NAME;` at the start of a line. -/
def Line.isTypeCloser (l : Line) : Bool :=
  match l.words with
  | brace :: next :: rest =>
    brace = ['}'] && (next = [';'] || (next.isIdentifier && rest.head? = some [';']))
  | _ => false

/-- The line that closes the flat form of a type. -/
def closerText (name : Text) : Text :=
  if name.isEmpty then "\x7d;\n".toList else "\x7d ".toList ++ name ++ ";\n".toList

/-- The first line of the flat form of a type. -/
def openerText (keyword name : Text) : Text :=
  if name.isEmpty then keyword ++ "\n".toList
  else "typedef ".toList ++ keyword ++ " _".toList ++ name ++ "\n".toList

/-- The body of an enum on one line: the tokens between the braces and the closing brace. -/
structure EnumLine where
  inner : List Token
  close : Token
  deriving DecidableEq, Repr

namespace EnumLine

/-- What may stand behind the closing brace: `;` or `NAME;`. -/
def isTail : List Text → Bool
  | [semicolon] => semicolon = [';']
  | [name, semicolon] => name.isIdentifier && semicolon = [';']
  | _ => false

/-- Finds the body between the first opening and the first closing brace of a line, which have to
stand in this order and with nothing but the end of the declaration behind them. -/
def ofTokens? (tokens : List Token) : Option EnumLine :=
  let isOpen (t : Token) : Bool := t.text = ['{']
  let isClose (t : Token) : Bool := t.text = ['}']
  if (tokens.takeWhile (!isOpen ·)).any isClose then none
  else
    match tokens.dropWhile (!isOpen ·) with
    | [] => none
    | _ :: rest =>
      match rest.dropWhile (!isClose ·) with
      | [] => none
      | close :: tail =>
        if isTail (tail.map Token.text) then some ⟨rest.takeWhile (!isClose ·), close⟩ else none

/-- The name of an enum value, with the name of the class in front if there is one. -/
def valueName (className : Option Text) (name : Text) : Text :=
  match className with
  | some c => c ++ "_".toList ++ name
  | none => name

/-- Renames the identifiers that follow a brace or a comma. Gives the text of the tokens and the new
names. `separated` tells whether a brace or a comma has just gone before. -/
def rename (className : Option Text) : (separated : Bool) → List Token → Text × List Text
  | _, [] => ([], [])
  | separated, t :: ts =>
    let after := rename className (t.text = ['{'] || t.text = [',']) ts
    if separated && t.text.isIdentifier then
      let name := valueName className t.text
      (t.gap ++ name ++ after.1, name :: after.2)
    else (t.source ++ after.1, after.2)

def body (e : EnumLine) (className : Option Text) : Text :=
  (rename className true e.inner).1 ++ e.close.gap

def values (e : EnumLine) (className : Option Text) : List Text :=
  (rename className true e.inner).2

/-- The flat form of the whole declaration. -/
def text (e : EnumLine) (className : Option Text) (name : Text) : Text :=
  let braced := "\x7b".toList ++ e.body className ++ "\x7d".toList
  if name.isEmpty then "enum ".toList ++ braced ++ ";\n".toList
  else
    "typedef enum _".toList ++ name ++ " ".toList ++ braced ++ " ".toList ++ name ++ ";\n".toList

end EnumLine
end HeaderFlattening
