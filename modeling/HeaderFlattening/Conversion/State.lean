import HeaderFlattening.Config
import HeaderFlattening.Conversion.Mode
import HeaderFlattening.Conversion.Output
import HeaderFlattening.Diagnostic
import HeaderFlattening.Fault
import HeaderFlattening.Line
import HeaderFlattening.Pattern.Shapes
import HeaderFlattening.Trace

/-!
The state of a conversion and the steps that all stages share: emitting text, putting off the text of
an open class, and writing it once the class is closed. A step that fails keeps the state that it had
reached.
-/

set_option autoImplicit false
namespace HeaderFlattening

structure FunctionRecord where
  name : Text
  params : List Text
  deriving DecidableEq, Repr

structure ClassRecord where
  name : Text
  members : List Text
  deriving DecidableEq, Repr

/-- What is known of the signature being read. -/
structure Cursor where
  name : Text := []
  params : NameList := {}
  /-- The last token read, which carries over from line to line. -/
  previous : Text := []
  deriving DecidableEq, Repr

structure State where
  mode : Mode := {}
  lineNumber : Nat := 0
  line : Line := {}
  /-- The spaces taken from the start of the line. -/
  indent : Text := []
  pendingEnums : List Chunk := []
  /-- The other text of the open class, not written yet. -/
  pendingMembers : List Chunk := []
  /-- The data members of the open class. -/
  memberNames : NameList := {}
  cursor : Cursor := {}
  enumValues : NameList := {}
  functions : List FunctionRecord := []
  classes : List ClassRecord := []
  diagnostics : List Diagnostic := []
  trace : List Event := []
  /-- All text made so far, in the order in which it was made; some of it may still be put off. -/
  emitted : List Chunk := []
  sink : Sink := {}
  deriving DecidableEq, Repr

structure Report where
  lines : Nat
  enumValues : List Text
  functions : List FunctionRecord
  classes : List ClassRecord
  diagnostics : List Diagnostic
  deriving DecidableEq, Repr

def State.report (s : State) : Report :=
  { lines := s.lineNumber
    enumValues := s.enumValues.toList
    functions := s.functions
    classes := s.classes
    diagnostics := s.diagnostics }

/-- A step of a conversion. -/
abbrev Conversion := EStateM ConvertError State

namespace Conversion

def modifyMode (f : Mode → Mode) : Conversion Unit :=
  modify fun s => { s with mode := f s.mode }

def note (e : Event) : Conversion Unit :=
  modify fun s => { s with trace := s.trace ++ [e] }

def remark (d : Diagnostic) : Conversion Unit :=
  modify fun s => { s with diagnostics := s.diagnostics ++ [d] }

/-- Writes to the sink; fails unless the sink keeps all of the text. -/
def write (c : Chunk) : Conversion Unit := do
  let s ← get
  let sink := s.sink.offer c
  set { s with sink }
  if c.text.isEmpty || sink.hasAll then return
  throw (.stream .full)

def writeAll : List Chunk → Conversion Unit
  | [] => pure ()
  | c :: cs => do
    write c
    writeAll cs

def emitDirect (origin : Origin) (text : Text) : Conversion Unit := do
  modify fun s => { s with emitted := s.emitted ++ [⟨origin, text⟩] }
  write ⟨origin, text⟩

/-- Puts the text off while the body of a class is open, and writes it otherwise. -/
def emit (origin : Origin) (text : Text) : Conversion Unit := do
  let s ← get
  let c : Chunk := ⟨origin, text⟩
  if s.mode.classState.isOpen then
    if s.mode.enumBody.isSome then
      set { s with emitted := s.emitted ++ [c], pendingEnums := s.pendingEnums ++ [c] }
    else set { s with emitted := s.emitted ++ [c], pendingMembers := s.pendingMembers ++ [c] }
  else emitDirect origin text

def emitLine : Conversion Unit := do
  emit .copied (← get).line.text

def retokenize (config : Config) : Conversion Unit := do
  let s ← get
  match s.line.retokenize config.rules.maxTokens with
  | .ok line => set { s with line }
  | .error e => throw (.tooManyTokens s.lineNumber e.limit)

/-- Puts another text in the place of the line and finds its tokens. -/
def replaceLine (config : Config) (text : Text) : Conversion Unit := do
  modify fun s => { s with line := .ofText text }
  retokenize config

def addEnumValue (name : Text) : Conversion Unit := do
  let s ← get
  unless s.enumValues.has name do
    set { s with enumValues := s.enumValues.insert name }
    note (.enumValueAdded name)

/-- Moves the blank lines and comments at the end of the put-off text to the enums, so that a comment
stays in front of the enum it belongs to. -/
def takeEnumComments : Conversion Unit :=
  modify fun s =>
    let isComment (c : Chunk) := c.text.isBlankOrComment
    let backwards := s.pendingMembers.reverse
    { s with
      pendingEnums := s.pendingEnums ++ (backwards.takeWhile isComment).reverse
      pendingMembers := (backwards.dropWhile isComment).reverse }

/-- Writes the enums of the class and then its other text. Both are gone afterwards, also after a
failure. -/
def flushPending : Conversion Unit := do
  let s ← get
  set { s with pendingEnums := [], pendingMembers := [] }
  writeAll (s.pendingEnums ++ s.pendingMembers)

end Conversion
end HeaderFlattening
