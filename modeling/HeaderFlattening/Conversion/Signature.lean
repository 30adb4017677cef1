import HeaderFlattening.Conversion.State

/-!
Functions as the tokens of the lines show them. A signature starts at a parenthesis behind a name, on
the same line or on an earlier one, and ends at the closing parenthesis; the function ends with its
body, or at a semicolon before any brace.
-/

set_option autoImplicit false
namespace HeaderFlattening

/-- What reading the tokens of a line has changed so far. -/
structure Scan where
  function : FunctionState
  cursor : Cursor
  suppress : Bool := false
  functions : List FunctionRecord := []
  trace : List Event := []
  deriving DecidableEq, Repr

namespace Scan

/-- Whether a parenthesis behind `previous` opens a signature; `twoBack` is the token before that one
on the same line. -/
def isCallable (previous : Text) (twoBack : Option Text) : Bool :=
  previous.isIdentifier || "operator".toList.isPrefixOf previous
    || twoBack = some "operator".toList

/-- The parameter that a comma or a closing parenthesis ends. -/
def addParam (c : Cursor) : Cursor :=
  if c.previous.isIdentifier then { c with params := c.params.insert c.previous } else c

def outside (startsInline : Bool) (twoBack : Option Text) (token : Text) (s : Scan) : Scan :=
  if startsInline then { s with suppress := true }
  else if token = ['('] ∧ isCallable s.cursor.previous twoBack then
    { s with
      function := .signature
      suppress := true
      cursor := { s.cursor with name := s.cursor.previous, params := {} } }
  else s

def inSignature (token : Text) (s : Scan) : Scan :=
  if token = [','] then { s with cursor := addParam s.cursor }
  else if token = [')'] then
    let cursor := addParam s.cursor
    { s with
      cursor
      function := .body 0
      functions := s.functions ++ [⟨cursor.name, cursor.params.toList⟩]
      trace := s.trace ++ [.functionEntered cursor.name cursor.params] }
  else s

/-- One token behind a signature, before any brace was counted. A semicolon there ends a mere
declaration, which makes no reason to suppress a `source` that declares something of another kind. -/
def behindSignature (source token : Text) (s : Scan) : Scan :=
  if token = [';'] then
    { s with
      function := .outside
      suppress := s.suppress || !source.isDeclaration
      trace := s.trace ++ [.declarationSkipped s.cursor.name] }
  else s

/-- One token of the line `source`. -/
def step (startsInline : Bool) (source : Text) (twoBack : Option Text) (token : Text) (s : Scan) : Scan :=
  let s :=
    match s.function with
    | .outside => outside startsInline twoBack token s
    | .signature => inSignature token s
    | .body depth => if depth = 0 then behindSignature source token s else s
  { s with cursor := { s.cursor with previous := token } }

/-- Reads tokens of the line `source` up to a `#define` or a `typedef`; `twoBack` and `oneBack` are the
tokens before them on the line. -/
def tokens (startsInline : Bool) (source : Text) :
    (twoBack oneBack : Option Text) → List Text → Scan → Scan
  | _, _, [], s => s
  | twoBack, oneBack, t :: ts, s =>
    if t = "#define".toList ∨ t = "typedef".toList then s
    else tokens startsInline source oneBack (some t) ts (step startsInline source twoBack t s)

/-- Reads a line that starts outside a function body. -/
def line (l : Line) (function : FunctionState) (cursor : Cursor) : Scan :=
  tokens (l.word? 0 = some "inline".toList) l.text none none l.words { function, cursor }

end Scan

/-- The number of braces that a line opens, less the number that it closes. -/
def Line.braceBalance (l : Line) : Int :=
  (l.words.count ['{'] : Int) - l.words.count ['}']

def Line.hasBrace (l : Line) : Bool :=
  l.words.any fun w => w = ['{'] || w = ['}']

/-- The function state behind a line of a body. A line without braces changes nothing. -/
def FunctionState.afterBodyLine (depth : Int) (l : Line) : FunctionState :=
  if l.hasBrace then
    if depth + l.braceBalance ≤ 0 then .outside else .body (depth + l.braceBalance)
  else .body depth

end HeaderFlattening
