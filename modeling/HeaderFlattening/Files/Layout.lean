import HeaderFlattening.Config
import HeaderFlattening.Files.FileSystem
import HeaderFlattening.Files.Path

/-!
Where the headers of a run are read and written. An output always lies directly in the output folder:
only the last name of the path of a header is kept.
-/

set_option autoImplicit false
namespace HeaderFlattening

structure Layout where
  input : Text
  output : Text
  deriving DecidableEq, Repr

inductive OutputPathError where
  | noFileName (path : Text)
  | noFolder (fault : FileFault)
  deriving DecidableEq, Repr

def OutputPathError.message : OutputPathError → Text
  | .noFileName path => path ++ " does not name a file".toList
  | .noFolder fault => fault.message

namespace Layout

/-- The folders as seen from `base`. -/
def ofFolders (base : Text) (f : Folders) : Layout :=
  ⟨Path.join base f.input, Path.join base f.output⟩

def inputPath (l : Layout) (file : Text) : Text := Path.join l.input file

variable {m : Type → Type} [Monad m] [FileSystem m]

/-- The path of the output for a header. Makes the output folder if it is missing. -/
def outputPath (l : Layout) (file : Text) : m (Except OutputPathError Text) := do
  match Path.fileName? file with
  | none => return .error (.noFileName file)
  | some name =>
    match ← FileSystem.ensureFolder l.output (Path.above l.output) with
    | .ok () => return .ok (Path.join l.output name)
    | .error fault => return .error (.noFolder fault)

end Layout
end HeaderFlattening
