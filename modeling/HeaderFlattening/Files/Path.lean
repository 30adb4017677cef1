import HeaderFlattening.Text.Basic

/-!
Paths as texts. Nothing is normalised when paths are joined; the parts of a path are what stands
between its slashes.
-/

set_option autoImplicit false
namespace HeaderFlattening.Path

def isAbsolute (path : Text) : Bool := path.head? = some '/'

/-- The part that names the folder itself. -/
def here : Text := ['.']

/-- The part that names the folder above. -/
def up : Text := ['.', '.']

def segments : Text → List Text
  | [] => [[]]
  | c :: path =>
    if c = '/' then [] :: segments path
    else
      match segments path with
      | [] => [[c]]
      | segment :: rest => (c :: segment) :: rest

/-- The nonempty parts between the slashes. -/
def parts (path : Text) : List Text := (segments path).filter (!·.isEmpty)

def endsInSlash (path : Text) : Bool := path.getLast? = some '/'

/-- The path to `path` as seen from `base`. An absolute path stands for itself. -/
def join (base path : Text) : Text :=
  if isAbsolute path || base.isEmpty then path
  else if endsInSlash base then base ++ path
  else base ++ '/' :: path

/-- The parts that matter: `.` counts only at the start of a relative path. -/
def names (path : Text) : List Text :=
  match parts path with
  | [] => []
  | first :: rest =>
    if first = here && !isAbsolute path then first :: rest.filter (· ≠ here)
    else (first :: rest).filter (· ≠ here)

/-- The name of the file that the path leads to, if its last part is a name. -/
def fileName? (path : Text) : Option Text :=
  ((parts path).filter (· ≠ here)).getLast?.filter (· ≠ up)

/-- A path from its parts. -/
def ofNames (absolute : Bool) (names : List Text) : Text :=
  (if absolute then ['/'] else []) ++ Text.join ['/'] names

/-- The beginnings of a list, the shortest first. -/
def beginnings {α : Type} : List α → List (List α)
  | [] => [[]]
  | a :: l => [] :: (beginnings l).map (a :: ·)

def above (path : Text) : List Text :=
  (beginnings (names path)).dropLast.reverse.map (ofNames (isAbsolute path))

end HeaderFlattening.Path
