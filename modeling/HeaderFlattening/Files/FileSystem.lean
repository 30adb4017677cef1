import HeaderFlattening.Fault

/-!
The operations on files and folders that the library needs. Everything that works with files is
written over this interface, and so runs on the files of a system as well as on a `Tree`.
-/

set_option autoImplicit false
namespace HeaderFlattening

class FileSystem (m : Type → Type) where
  probe (path : Text) : m (Except FileFault Unit)
  read (path : Text) : m (Except FileFault (List UInt8))
  create (path : Text) : m (Except FileFault Unit)
  write (path : Text) (bytes : List UInt8) : m (Except FileFault Unit)
  /-- Moves a file to another place, where it takes the place of a file that is there. -/
  rename (source target : Text) : m (Except FileFault Unit)
  remove (path : Text) : m (Except FileFault Unit)
  makeFolder (path : Text) : m (Except FileFault Unit)
  isFolder (path : Text) : m Bool

namespace FileSystem

variable {m : Type → Type} [Monad m] [FileSystem m]

/-- Makes a folder; one that is there already is as good. -/
def settleFolder (path : Text) : m (Except FileFault Unit) := do
  match ← makeFolder path with
  | .ok () => return .ok ()
  | .error fault => return if ← isFolder path then .ok () else .error fault

/-- Makes the folder `path` and the missing ones among the folders `above` it, the nearest of which
comes first. The empty path is where one is. -/
def ensureFolder (path : Text) : (above : List Text) → m (Except FileFault Unit)
  | [] => if path.isEmpty then pure (.ok ()) else settleFolder path
  | parent :: rest => do
    if path.isEmpty then return .ok ()
    match ← settleFolder path with
    | .error .notFound =>
      match ← ensureFolder parent rest with
      | .ok () => settleFolder path
      | .error fault => return .error fault
    | settled => return settled

end FileSystem
end HeaderFlattening
