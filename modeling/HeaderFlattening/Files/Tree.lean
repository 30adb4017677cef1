import HeaderFlattening.Files.FileSystem
import HeaderFlattening.Files.Path

/-!
File trees as values. A location is the list of names from the root; the root is always a folder. A
path is followed part by part, and every part but the last has to lead to a folder.
-/

set_option autoImplicit false
namespace HeaderFlattening

inductive Node where
  | folder
  | file (bytes : List UInt8)
  deriving DecidableEq, Repr

abbrev Location := List Text

structure Tree where
  /-- Where relative paths start. -/
  current : Location
  entries : List (Location × Node)
  deriving DecidableEq, Repr

namespace Tree

/-- What is at a location. -/
def node? (t : Tree) (l : Location) : Option Node :=
  if l.isEmpty then some .folder else t.entries.lookup l

def erase (t : Tree) (l : Location) : Tree :=
  { t with entries := t.entries.filter (·.1 ≠ l) }

def put (t : Tree) (l : Location) (n : Node) : Tree :=
  { t with entries := (t.erase l).entries ++ [(l, n)] }

/-- The most bytes that a name may have. -/
def maxName : Nat := 255

/-- The number of bytes that a path has to stay below. -/
def maxPath : Nat := 4096

def follow (t : Tree) : Location → List Text → Except FileFault Location
  | l, [] => .ok l
  | l, part :: rest =>
    match t.node? l with
    | none => .error .notFound
    | some (.file _) => .error .notADirectory
    | some .folder =>
      if part = Path.here then follow t l rest
      else if part = Path.up then follow t l.dropLast rest
      else if maxName < part.byteLength then .error .nameTooLong
      else follow t (l ++ [part]) rest

def locate (t : Tree) (path : Text) : Except FileFault Location :=
  if path.contains '\x00' then .error .nulInName
  else if path.isEmpty then .error .notFound
  else if maxPath ≤ path.byteLength then .error .nameTooLong
  else t.follow (if Path.isAbsolute path then [] else t.current) (Path.parts path)

/-- The location of something that exists, and what it is. -/
def find (t : Tree) (path : Text) : Except FileFault (Location × Node) := do
  let l ← t.locate path
  match t.node? l with
  | none => throw .notFound
  | some .folder => return (l, .folder)
  | some (.file bytes) =>
    if Path.endsInSlash path then throw .notADirectory else return (l, .file bytes)

def read (t : Tree) (path : Text) : Except FileFault (List UInt8) := do
  match ← t.find path with
  | (_, .folder) => throw .isADirectory
  | (_, .file bytes) => return bytes

/-- Gives the file at a path its content; a missing file is made. -/
def write (t : Tree) (path : Text) (bytes : List UInt8) : Except FileFault Tree := do
  let l ← t.locate path
  if t.node? l = some .folder || Path.endsInSlash path then throw .isADirectory
  return t.put l (.file bytes)

def remove (t : Tree) (path : Text) : Except FileFault Tree := do
  match ← t.find path with
  | (_, .folder) => throw .isADirectory
  | (l, .file _) => return t.erase l

/-- Whether the last part of a path is a name. -/
def endsInName (path : Text) : Bool :=
  match (Path.parts path).getLast? with
  | none => false
  | some part => part ≠ Path.here && part ≠ Path.up

def rename (t : Tree) (source target : Text) : Except FileFault Tree := do
  let (origin, bytes) ← match ← t.find source with
    | (_, .folder) => throw .isADirectory
    | (l, .file bytes) => pure (l, bytes)
  let goal ← t.locate target
  if !endsInName target then throw .busy
  if Path.endsInSlash target then throw .notADirectory
  if t.node? goal = some .folder then throw .isADirectory
  return (t.erase origin).put goal (.file bytes)

def makeFolder (t : Tree) (path : Text) : Except FileFault Tree := do
  let l ← t.locate path
  if (t.node? l).isSome then throw .alreadyExists
  return t.put l .folder

def isFolder (t : Tree) (path : Text) : Bool :=
  match t.find path with
  | .ok (_, .folder) => true
  | _ => false

/-- The tree with the folders on the way to a location. -/
def addFolders (t : Tree) (l : Location) : Tree :=
  (Path.beginnings l).foldl (fun t l => if (t.node? l).isSome then t else t.put l .folder) t

def empty (current : Location) : Tree := addFolders ⟨current, []⟩ current

def withFolder (t : Tree) (path : Text) : Tree := t.addFolders (t.current ++ Path.names path)

def withFile (t : Tree) (path : Text) (bytes : List UInt8) : Tree :=
  let l := t.current ++ Path.names path
  (t.addFolders l.dropLast).put l (.file bytes)

/-- Everything below the current folder, by its path from there. -/
def listing (t : Tree) : List (Text × Node) :=
  t.entries.filterMap fun (l, n) =>
    if t.current.isPrefixOf l && l ≠ t.current then
      some (Path.ofNames false (l.drop t.current.length), n)
    else none

/-- An operation that changes the tree, or fails and leaves it as it is. -/
def change (f : Tree → Except FileFault Tree) : StateM Tree (Except FileFault Unit) := fun t =>
  match f t with
  | .ok t => (.ok (), t)
  | .error fault => (.error fault, t)

/-- An operation that looks at the tree. -/
def query {α : Type} (f : Tree → α) : StateM Tree α := fun t => (f t, t)

instance : FileSystem (StateM Tree) where
  probe path := query fun t => (t.find path).map fun _ => ()
  read path := query fun t => t.read path
  create path := change fun t => t.write path []
  write path bytes := change fun t => t.write path bytes
  rename source target := change fun t => t.rename source target
  remove path := change fun t => t.remove path
  makeFolder path := change fun t => t.makeFolder path
  isFolder path := query fun t => t.isFolder path

end Tree
end HeaderFlattening
