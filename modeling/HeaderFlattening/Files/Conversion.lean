import HeaderFlattening.Config.Toml
import HeaderFlattening.Conversion.Session
import HeaderFlattening.Files.FileSystem

/-!
Settings and headers in files. The output of a conversion is written under another name first and
takes the place of the output file only when the whole input was converted.
-/

set_option autoImplicit false
namespace HeaderFlattening

variable {m : Type → Type} [Monad m] [FileSystem m]

/-- Reads and checks the settings in a file. -/
def Config.load (path : Text) : m (Except ConfigError Config) := do
  match ← FileSystem.read path with
  | .error fault => return .error (.unreadable (.file fault))
  | .ok bytes =>
    match Text.ofBytes? bytes with
    | none => return .error (.unreadable .invalidUtf8)
    | some t => return Config.ofToml t

/-- Where the output is written before it is complete. -/
def draftPath (output : Text) : Text := output ++ ".partial".toList

def fileLines : Except FileFault (List UInt8) → List (Except StreamFault Text)
  | .ok bytes => Text.linesOfBytes bytes
  | .error fault => [.error (.file fault)]

def discardDraft (draft : Text) (e : ConvertError) : m (Except ConvertError Report) := do
  let _ ← FileSystem.remove draft
  return .error e

/-- Completes a draft and puts it in the place of the output. -/
def keepDraft (draft output : Text) (c : Converted) : m (Except ConvertError Report) := do
  match ← FileSystem.write draft c.text.bytes with
  | .error fault => discardDraft draft (.stream (.file fault))
  | .ok () =>
    match ← FileSystem.rename draft output with
    | .error fault => return .error (.outputNotWritable output fault)
    | .ok () => return .ok c.report

/-- Converts the header in one file into another. The input is opened before the output is touched,
and read only after the draft of the output was made. -/
def convertFile (config : Config) (input output : Text) : m (Except ConvertError Report) := do
  let draft := draftPath output
  match ← FileSystem.probe input with
  | .error fault => return .error (.inputNotFound input fault)
  | .ok () =>
    match ← FileSystem.create draft with
    | .error fault => return .error (.outputNotWritable output fault)
    | .ok () =>
      match convertLines config (fileLines (← FileSystem.read input)) with
      | .error e => discardDraft draft e
      | .ok converted => keepDraft draft output converted

end HeaderFlattening
