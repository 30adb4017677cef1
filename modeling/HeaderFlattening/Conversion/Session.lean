import HeaderFlattening.Conversion.Stages

/-!
Whole conversions: line after line through the stages, and what is left to do at the end of the input.
-/

set_option autoImplicit false
namespace HeaderFlattening.Conversion

/-- Takes leading spaces from the line, at most as many as the settings say, and keeps them for a data
member. -/
def unindent (config : Config) : Conversion Unit :=
  modify fun s =>
    let spaces := (s.line.text.take config.rules.unindentWidth).takeWhile (· = ' ')
    { s with indent := spaces, line := .ofText (s.line.text.drop spaces.length) }

def beginLine (config : Config) (raw : Text) : Conversion Unit := do
  modify fun s => { s with lineNumber := s.lineNumber + 1, indent := [], line := .ofText raw }
  if (← get).mode.classState.isActive then unindent config

/-- Sends the line through the stages and emits it if none of them claims it. A line without tokens is
emitted as it is. -/
def classify (config : Config) : Conversion Unit := do
  if !(← get).line.isEmpty then
    if ← firstClaim (stages config) then return
  emitLine

def skipLine (raw : Text) (limit : Nat) : Conversion Unit := do
  let s ← get
  note (.lineSkipped s.lineNumber limit)
  remark {
    severity := .warning
    message := "more than ".toList ++ Text.ofNat limit ++ " tokens, line copied unchanged".toList
    line := some s.lineNumber
    help := some "raise `conversion.max_tokens` to classify this line".toList }
  modify fun s => { s with line := .ofText raw }
  emitLine

/-- A line that has too many tokens, be it only after a stage has changed it, is copied if the settings
say so. -/
def recover (config : Config) (raw : Text) : ConvertError → Conversion Unit
  | .tooManyTokens line limit =>
    match config.rules.overflow with
    | .skip => skipLine raw limit
    | .abort => throw (.tooManyTokens line limit)
  | e => throw e

def processLine (config : Config) (raw : Text) : Conversion Unit := do
  beginLine config raw
  tryCatch (do
    retokenize config
    classify config) (recover config raw)

/-- Ends the input. What an open class has put off is written now. -/
def finish : Conversion Unit := do
  let s ← get
  if let some name := s.mode.classState.name? then
    note (.classUnclosed name)
    remark {
      severity := .warning
      message := "class ".toList ++ name ++ " is not closed at end of input".toList
      line := some s.lineNumber
      help := some "its deferred enums and members were written after the last line".toList }
    flushPending

def processAll (config : Config) : List (Except StreamFault Text) → Conversion Unit
  | [] => finish
  | .error fault :: _ => throw (.stream fault)
  | .ok raw :: rest => do
    processLine config raw
    processAll config rest

end HeaderFlattening.Conversion

namespace HeaderFlattening

structure Converted where
  text : Text
  report : Report
  deriving DecidableEq, Repr

/-- The lines of a file. Each has to be UTF-8 by itself. -/
def Text.linesOfBytes (bytes : List UInt8) : List (Except StreamFault Text) :=
  (cut bytes).map fun line =>
    match Text.ofBytes? line with
    | some t => .ok t
    | none => .error .invalidUtf8
where
  /-- The bytes cut behind each line feed. -/
  cut : List UInt8 → List (List UInt8)
    | [] => []
    | b :: rest =>
      if b = 10 then [b] :: cut rest
      else
        match cut rest with
        | [] => [[b]]
        | l :: ls => (b :: l) :: ls

def Converted.ofResult : EStateM.Result ConvertError State Unit → Except ConvertError Converted
  | .ok _ s => .ok ⟨s.sink.text, s.report⟩
  | .error e _ => .error e

def convertLines (config : Config) (lines : List (Except StreamFault Text)) :
    Except ConvertError Converted :=
  Converted.ofResult ((Conversion.processAll config lines).run {})

def convertText (config : Config) (t : Text) : Except ConvertError Converted :=
  convertLines config (t.lines.map .ok)

def convertBytes (config : Config) (bytes : List UInt8) : Except ConvertError Converted :=
  convertLines config (Text.linesOfBytes bytes)

end HeaderFlattening
