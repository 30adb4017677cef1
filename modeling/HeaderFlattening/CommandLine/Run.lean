import HeaderFlattening.CommandLine.Arguments
import HeaderFlattening.Files.Conversion
import HeaderFlattening.Files.Layout

/-!
Running a command: what it prints, what it complains about, and its exit status.
-/

set_option autoImplicit false
namespace HeaderFlattening.CommandLine

structure Outcome where
  /-- 0 after success, 1 after a failed run, 2 after a command line that makes no sense. -/
  exit : Nat := 0
  output : Text := []
  /-- The words of the error that ended the run. -/
  complaint : Text := []
  deriving DecidableEq, Repr

def versionText : Text := "flathdr 0.1.0\n".toList

def usageText : Text :=
  "Usage: flathdr [-v] convert [-c FILE] [--input-dir DIR] [--output-dir DIR] FILES...\n".toList
    ++ "       flathdr [-v] config [-c FILE]\n".toList

def Outcome.ofStop : Stop → Outcome
  | .help => { output := usageText }
  | .version => { output := versionText }
  | .usage => { exit := 2, complaint := usageText }

def convertedLine (input output : Text) : Text :=
  "Converted ".toList ++ input ++ " -> ".toList ++ output ++ "\n".toList

variable {m : Type → Type} [Monad m] [FileSystem m]

def loadConfig : Option Text → m (Except ConfigError Config)
  | none => pure (.ok {})
  | some path => Config.load path

def convertAll (config : Config) (layout : Layout) : List Text → Outcome → m Outcome
  | [], done => pure done
  | file :: rest, done => do
    let input := layout.inputPath file
    match ← layout.outputPath file with
    | .error e => return { done with exit := 1, complaint := e.message }
    | .ok output =>
      match ← convertFile config input output with
      | .error e => return { done with exit := 1, complaint := e.message }
      | .ok _ =>
        convertAll config layout rest { done with output := done.output ++ convertedLine input output }

def Command.run (base : Text) : Command → m Outcome
  | .convert files settings input output => do
    match ← loadConfig settings with
    | .error e => return { exit := 1, complaint := e.message }
    | .ok c =>
      let folders : Folders := ⟨input.getD c.folders.input, output.getD c.folders.output⟩
      convertAll { c with folders } (.ofFolders base folders) files {}
  | .config settings => do
    match ← loadConfig settings with
    | .error e => return { exit := 1, complaint := e.message }
    | .ok c =>
      match c.toToml with
      | .error e => return { exit := 1, complaint := e.message }
      | .ok t => return { output := t }

def run (base : Text) (words : List Text) : m Outcome :=
  match Command.ofWords words with
  | .error stop => pure (.ofStop stop)
  | .ok command => command.run base

end HeaderFlattening.CommandLine
