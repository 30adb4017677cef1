import HeaderFlattening.CommandLine.Run

/-!
The program: the command line over the files of the system.
-/

set_option autoImplicit false
namespace HeaderFlattening

def FileFault.ofError : IO.Error → FileFault
  | .noFileOrDirectory .. => .notFound
  | .alreadyExists .. => .alreadyExists
  | .resourceBusy .. => .busy
  | e => .other (toString e).toList

/-- What became of an operation on the files of the system. -/
def attempt {α : Type} (x : IO α) : IO (Except FileFault α) := do
  match ← x.toBaseIO with
  | .ok a => return .ok a
  | .error e => return .error (.ofError e)

instance : FileSystem IO where
  probe path := attempt do
    let _ ← IO.FS.Handle.mk (String.ofList path) .read
  read path := attempt do
    return (← IO.FS.readBinFile (String.ofList path)).toList
  create path := attempt do
    let _ ← IO.FS.Handle.mk (String.ofList path) .write
  write path bytes := attempt (IO.FS.writeBinFile (String.ofList path) ⟨bytes.toArray⟩)
  rename source target := attempt (IO.FS.rename (String.ofList source) (String.ofList target))
  remove path := attempt (IO.FS.removeFile (String.ofList path))
  makeFolder path := attempt (IO.FS.createDir (String.ofList path))
  isFolder path := do
    match ← attempt (IO.FS.realPath (String.ofList path)) with
    | .ok p => p.isDir
    | .error _ => return false

end HeaderFlattening

open HeaderFlattening in
def main (args : List String) : IO UInt32 := do
  let base := (← IO.appDir).toString.toList
  let outcome ← (CommandLine.run base (args.map String.toList) : IO CommandLine.Outcome)
  IO.print (String.ofList outcome.output)
  IO.eprint (String.ofList outcome.complaint)
  return outcome.exit.toUInt32
