import HeaderFlattening.Text.Basic

/-!
Values of a TOML document, and how tables grow from dotted keys and from headers. A table may be
described in several places only under rules that depend on how it first came up, which is why every
table keeps its origin.
-/

set_option autoImplicit false
namespace HeaderFlattening.Toml

/-- How a table came up. -/
inductive Origin where
  /-- Written between braces; nothing can be added to it. -/
  | inline
  /-- Under a header of its own. -/
  | header
  /-- As a part of the header of another table. -/
  | implied
  /-- As a part of a dotted key. -/
  | dotted
  deriving DecidableEq, Repr

inductive Value where
  | string (text : Text)
  | integer (n : Int)
  /-- A floating-point number as it is written. -/
  | float (source : Text)
  | boolean (b : Bool)
  | moment (source : Text)
  | array (items : List Value)
  | table (origin : Origin) (entries : List (Text × Value))
  /-- Tables under headers that are repeated. -/
  | tables (items : List Value)

/-- The keys and values of a table, in the order in which they came up. -/
abbrev Entries := List (Text × Value)

structure Assignment where
  path : List Text
  value : Value

structure Section where
  /-- Whether the header adds to a list of tables. -/
  repeated : Bool
  path : List Text
  body : List Assignment

namespace Entries

/-- Gives a key a value, in the place of the value that it had. -/
def put (es : Entries) (key : Text) (v : Value) : Entries :=
  if (es.lookup key).isSome then es.map fun e => if e.1 = key then (key, v) else e
  else es ++ [(key, v)]

/-- Changes the entries of the last of several tables. -/
def modifyLast? (f : Entries → Option Entries) (items : List Value) : Option (List Value) :=
  match items.getLast? with
  | some (.table origin sub) => (f sub).map fun sub => items.dropLast ++ [.table origin sub]
  | _ => none

/-- Adds an assignment. A table that a dotted key runs through has to come from dotted keys in the
end; on the way it may also be implied by headers or be the last of several tables. -/
def assign (v : Value) : (path : List Text) → Entries → Option Entries
  | [], _ => none
  | [key], es => if (es.lookup key).isSome then none else some (es ++ [(key, v)])
  | key :: next :: rest, es =>
    let path := next :: rest
    match es.lookup key with
    | none => (assign v path []).map fun sub => es ++ [(key, .table .dotted sub)]
    | some (.table .dotted sub) =>
      (assign v path sub).map fun sub => es.put key (.table .dotted sub)
    | some (.table .implied sub) =>
      if rest.isEmpty then none
      else (assign v path sub).map fun sub => es.put key (.table .implied sub)
    | some (.tables items) =>
      if rest.isEmpty then none
      else (modifyLast? (assign v path) items).map fun items => es.put key (.tables items)
    | _ => none

def assignAll (es : Entries) : List Assignment → Option Entries
  | [] => some es
  | a :: more => do assignAll (← assign a.value a.path es) more

/-- Adds a section under the last part of its header. A single header may name a new table or one that
other headers imply; a repeated header may name a new list or one of its kind. -/
def addSection (repeated : Bool) (body : List Assignment) (key : Text) (es : Entries) :
    Option Entries :=
  if repeated then do
    let earlier ← match es.lookup key with
      | none => some []
      | some (.tables items) => some items
      | _ => none
    return es.put key (.tables (earlier ++ [.table .header (← assignAll [] body)]))
  else do
    let base ← match es.lookup key with
      | none => some []
      | some (.table .implied sub) => some sub
      | _ => none
    return es.put key (.table .header (← assignAll base body))

/-- Follows the path of a header to its last part. Tables that are missing on the way are implied. -/
def place (repeated : Bool) (body : List Assignment) : (path : List Text) → Entries → Option Entries
  | [], _ => none
  | [key], es => addSection repeated body key es
  | key :: next :: rest, es =>
    let path := next :: rest
    match es.lookup key with
    | none => (place repeated body path []).map fun sub => es ++ [(key, .table .implied sub)]
    | some (.table .inline _) => none
    | some (.table origin sub) =>
      (place repeated body path sub).map fun sub => es.put key (.table origin sub)
    | some (.tables items) =>
      (modifyLast? (place repeated body path) items).map fun items => es.put key (.tables items)
    | _ => none

def placeAll (es : Entries) : List Section → Option Entries
  | [] => some es
  | s :: more => do placeAll (← place s.repeated s.body s.path es) more

def ofSections (body : List Assignment) (sections : List Section) : Option Entries := do
  placeAll (← assignAll [] body) sections

end Entries
end HeaderFlattening.Toml
