import HeaderFlattening.Toml.Moment
import HeaderFlattening.Toml.Number
import HeaderFlattening.Toml.Quoted

/-!
TOML documents. Arrays and inline tables nest less than `depthLimit` deep, and a key has fewer parts
than that.
-/

set_option autoImplicit false
namespace HeaderFlattening.Toml

def depthLimit : Nat := 80

/-- A character of a key without quotes. -/
def isBareKeyChar (c : Char) : Bool := c.isAlphanum || c = '_' || c = '-'

def bareKey : Reader Text := fun s =>
  let key := s.takeWhile isBareKeyChar
  if key.isEmpty then none else some (key, s.dropWhile isBareKeyChar)

def keyPart : Reader Text := fun s => do
  let (key, s) ← Reader.orElse lineString bareKey (Reader.skipBlanks s)
  return (key, Reader.skipBlanks s)

def key : Reader (List Text) := fun s => do
  let (path, s) ← Reader.separated '.' keyPart s
  if path.length < depthLimit then return (path, s) else none

def assignment (value : Reader Value) : Reader Assignment := fun s => do
  let (path, s) ← key s
  let (_, s) ← Reader.char '=' s
  let (v, s) ← value (Reader.skipBlanks s)
  return (⟨path, v⟩, s)

/-- The rest of an array, behind its opening bracket. -/
def arrayRest (value : Reader Value) : Reader Value := fun s => do
  let item : Reader Value := fun s => do
    let (v, s) ← value (Reader.skipGaps s)
    return (v, Reader.skipGaps s)
  match Reader.separated ',' item s with
  | some (items, s) =>
    let s := match Reader.char ',' s with
      | some (_, s) => Reader.skipGaps s
      | none => s
    let (_, s) ← Reader.char ']' s
    return (.array items, s)
  | none =>
    let (_, s) ← Reader.char ']' (Reader.skipGaps s)
    return (.array [], s)

/-- The rest of an inline table, behind its opening brace. -/
def inlineTableRest (value : Reader Value) : Reader Value := fun s => do
  let item : Reader Assignment := fun s => do
    let (a, s) ← assignment value s
    return (a, Reader.skipBlanks s)
  let (items, s) := (Reader.separated ',' item s).getD ([], Reader.skipBlanks s)
  let (_, s) ← Reader.char '\x7d' s
  return (.table .inline (← Entries.assignAll [] items), s)

def boolean : Reader Value := fun s =>
  match Reader.literal "true".toList s with
  | some (_, s) => some (.boolean true, s)
  | none => (Reader.literal "false".toList s).map fun r => (.boolean false, r.2)

/-- A value that nests less than `depth` deep. -/
def value : (depth : Nat) → Reader Value
  | _, [] => none
  | depth, c :: s =>
    if c = '"' || c = '\x27' then (string (c :: s)).map fun r => (.string r.1, r.2)
    else if c = '[' then
      match depth with
      | 0 => none
      | depth + 1 => arrayRest (value depth) s
    else if c = '\x7b' then
      match depth with
      | 0 => none
      | depth + 1 => inlineTableRest (value depth) s
    else if c = 't' || c = 'f' then boolean (c :: s)
    else Reader.orElse moment (Reader.orElse float integer) (c :: s)

inductive Statement where
  | header (repeated : Bool) (path : List Text)
  | assignment (a : Assignment)
  /-- A line with at most a comment. -/
  | blank

def header : Reader Statement
  | '[' :: '[' :: s => do
    let (path, s) ← key s
    let (_, s) ← Reader.literal "]]".toList s
    return (.header true path, s)
  | '[' :: s => do
    let (path, s) ← key s
    let (_, s) ← Reader.char ']' s
    return (.header false path, s)
  | _ => none

/-- What a line says, up to its end. -/
def content : Reader Statement
  | [] => some (.blank, [])
  | c :: s =>
    if c = '[' then header (c :: s)
    else if c = '#' || c = '\n' || c = '\r' then some (.blank, c :: s)
    else (assignment (value (depthLimit - 1)) (c :: s)).map fun r => (.assignment r.1, r.2)

/-- A line with its end. -/
def statement : Reader Statement := fun s => do
  let (st, s) ← content (Reader.skipBlanks s)
  let (_, s) ← Reader.lineEnd s
  return (st, s)

/-- The assignments before the first header, and the sections. -/
def sections : List Statement → List Assignment × List Section
  | [] => ([], [])
  | .header repeated path :: rest =>
    let (body, more) := sections rest
    ([], ⟨repeated, path, body⟩ :: more)
  | .assignment a :: rest =>
    let (body, more) := sections rest
    (a :: body, more)
  | .blank :: rest => sections rest

/-- The text behind a byte order mark. -/
def skipByteOrderMark : Text → Text
  | '\ufeff' :: s => s
  | s => s

/-- The root table of a document, if the text is one. -/
def parse? (t : Text) : Option Entries :=
  match Reader.many statement (skipByteOrderMark t) with
  | (statements, []) =>
    let (body, more) := sections statements
    Entries.ofSections body more
  | _ => none

end HeaderFlattening.Toml
