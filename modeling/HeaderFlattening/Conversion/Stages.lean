import HeaderFlattening.Conversion.Declaration
import HeaderFlattening.Conversion.Signature

/-!
The stages that a line goes through. Each tells whether it claimed the line, and then no later stage
sees it. Some stages change the line and leave it to the later ones.
-/

set_option autoImplicit false
namespace HeaderFlattening.Conversion

/-- Runs stages up to the first that claims the line, and tells whether there was one. -/
def firstClaim : List (Conversion Bool) → Conversion Bool
  | [] => pure false
  | stage :: stages => do
    if ← stage then return true
    firstClaim stages

/-- Lines that start with `//` and the lines of block comments are copied. A block comment ends on
the line whose last token ends in the closing mark. -/
def passComments : Conversion Bool := do
  let first := ((← get).line.word? 0).getD []
  if "//".toList.isPrefixOf first then
    emitLine
    return true
  if "/*".toList.isPrefixOf first then
    modifyMode ({ · with inComment := true })
  let s ← get
  if s.mode.inComment then
    if (s.line.lastWord?.getD []).reverse.take 2 = ['/', '*'] then
      modifyMode ({ · with inComment := false })
    emitLine
    return true
  return false

/-- A line that defines a macro with a registered edit is changed. It is not claimed. -/
def editMacro (config : Config) : Conversion Bool := do
  let s ← get
  if s.line.word? 0 = some "#define".toList then
    if let some edit := (s.line.word? 1).bind config.findEdit? then
      match s.line.text.replaceAll edit.search edit.replacement none with
      | .error e => throw (.replacement e)
      | .ok none => pure ()
      | .ok (some text) =>
        note (.macroEdited edit.name)
        replaceLine config text
        remark {
          severity := .info
          message := "rewrote macro ".toList ++ edit.name
          line := some s.lineNumber }
  return false

def openExternC : Conversion Bool := do
  if (← get).line.startsWith ["extern".toList, "\"C\"".toList, ['{']] then
    modifyMode ({ · with inExternC := true })
    return true
  return false

/-- Emits the flat opener of an enum or struct, with the brace if the line has it. -/
def emitOpener (keyword : Text) (d : TypeDeclaration) : Conversion Unit := do
  emit .made (openerText keyword d.name)
  if d.brace = .sameLine then emit .made "\x7b\n".toList

def openEnumBody (d : TypeDeclaration) : Conversion Unit := do
  modifyMode ({ · with enumBody := some ⟨d.name, false⟩ })
  if (← get).mode.classState.isOpen then takeEnumComments
  emitOpener "enum".toList d

/-- Emits the flat form of an enum that stands on one line. -/
def emitEnumLine (name : Text) (e : EnumLine) : Conversion Unit := do
  let className := (← get).mode.classState.name?
  (e.values className).forM addEnumValue
  if (← get).mode.classState.isOpen then takeEnumComments
  modifyMode ({ · with enumBody := some ⟨name, true⟩ })
  emit .made (e.text className name)
  modifyMode ({ · with enumBody := none })

def openEnum : Conversion Bool := do
  let line := (← get).line
  match TypeDeclaration.ofWords? "enum".toList line.words with
  | none => return false
  | some d =>
    match d.brace with
    | .forward => emitLine
    | .sameLine =>
      match EnumLine.ofTokens? line.tokens with
      | some e => emitEnumLine d.name e
      | none => openEnumBody d
    | .deferred => openEnumBody d
    return true

def openStruct : Conversion Bool := do
  match TypeDeclaration.ofWords? "struct".toList (← get).line.words with
  | none => return false
  | some d =>
    if d.brace = .forward then
      emitLine
    else
      emitOpener "struct".toList d
      modifyMode ({ · with structBody := some ⟨d.name, false⟩ })
    return true

def enterClass (classState : ClassState) : Conversion Unit := do
  note (.classEntered (classState.name?.getD []))
  modify fun s => { s with mode := { s.mode with classState }, memberNames := {} }

def openClass : Conversion Bool := do
  match TypeDeclaration.ofWords? "class".toList (← get).line.words with
  | none => return false
  | some d =>
    match d.brace with
    | .forward =>
      emit .made ("struct _".toList ++ d.name ++ ";\n".toList)
    | .sameLine =>
      emit .made ("typedef struct _".toList ++ d.name ++ "\n\x7b\n".toList)
      enterClass (.opened d.name)
    | .deferred =>
      emit .made ("typedef struct _".toList ++ d.name ++ "\n".toList)
      enterClass (.pending d.name)
    return true

/-- `typedef enum` and `typedef struct` without a semicolon on the line: the type is flat already. -/
def openFlatType : Conversion Bool := do
  let words := (← get).line.words
  if words[0]? ≠ some "typedef".toList || words.contains [';'] then return false
  let body : TypeBody := ⟨(words[2]?.filter (· ≠ ['{'])).getD [], true⟩
  if words[1]? = some "enum".toList then
    modifyMode ({ · with enumBody := some body })
    if (← get).mode.classState.isOpen then takeEnumComments
  else if words[1]? = some "struct".toList then
    modifyMode ({ · with structBody := some body })
  else
    return false
  emitLine
  return true

/-- The closing line of a body: copied for a type that was flat already. -/
def emitCloser (body : TypeBody) : Conversion Unit := do
  if body.flat then emitLine else emit .made (closerText body.name)

/-- Closes the open class: the closer of its struct, then what was put off. -/
def closeClass (name : Text) : Conversion Unit := do
  modifyMode ({ · with classState := .none })
  emitDirect .made ("\x7d ".toList ++ name ++ ";\n".toList)
  flushPending
  let s ← get
  note (.classClosed name s.memberNames)
  modify fun s =>
    { s with
      classes := s.classes ++ [⟨name, s.memberNames.toList⟩]
      memberNames := {} }

/-- Closing lines of types: an open enum goes first, then an open struct, then the class. -/
def closeType : Conversion Bool := do
  let s ← get
  if !s.line.isTypeCloser then return false
  if let some body := s.mode.enumBody then
    emitCloser body
    modifyMode ({ · with enumBody := none })
    return true
  if let some body := s.mode.structBody then
    modifyMode ({ · with structBody := none })
    emitCloser body
    return true
  if let some name := s.mode.classState.name? then
    closeClass name
    return true
  return false

/-- A lone closing brace ends an `extern "C"` block and is left out. -/
def closeExternC : Conversion Bool := do
  let s ← get
  if s.line.words = [['}']] && s.mode.inExternC then
    modifyMode ({ · with inExternC := false })
    return true
  return false

def trackTypes : Conversion Bool :=
  firstClaim [openExternC, openEnum, openStruct, openClass, openFlatType, closeType, closeExternC]

def emitSuppressed (config : Config) : Conversion Unit := do
  let s ← get
  match config.rules.suppression with
  | .annotate =>
    emit .suppressed
      ("//(".toList ++ Text.ofInt s.mode.function.level ++ ") ".toList ++ s.line.text)
  | .comment => emit .suppressed ("// ".toList ++ s.line.text)
  | .drop => pure ()

/-- Follows functions over a line outside enums and structs; tells whether the line belongs to one. -/
def followFunction : Conversion Bool := do
  let s ← get
  match s.mode.function with
  | .body depth =>
    let function := FunctionState.afterBodyLine depth s.line
    if function = .outside then note (.functionExited s.cursor.name)
    modifyMode ({ · with function })
    return true
  | function =>
    let scan := Scan.line s.line function s.cursor
    set { s with
      mode := { s.mode with function := scan.function }
      cursor := scan.cursor
      functions := s.functions ++ scan.functions
      trace := s.trace ++ scan.trace }
    return function ≠ .outside || scan.suppress

/-- The lines of functions and of prototypes are suppressed. -/
def trackFunctions (config : Config) : Conversion Bool := do
  let s ← get
  if s.mode.enumBody.isSome || s.mode.structBody.isSome then return false
  if ← followFunction then
    emitSuppressed config
    return true
  return false

def defineConstants : Conversion Bool := do
  match Pattern.constMember.replace "#define $1 ($2)".toList (← get).line.text with
  | some text =>
    emit .made text
    return true
  | none => return false

def recordFirstWord : Conversion Bool := do
  if let some value := (← get).line.word? 0 then addEnumValue value
  return false

/-- Records the value that a line of an enum body starts with, under the name of the class in front.
The line is not claimed. -/
def recordEnumValue (config : Config) : Conversion Bool := do
  let s ← get
  if s.mode.enumBody.isNone then return false
  match (s.line.word? 0).filter Text.isIdentifier with
  | none => return false
  | some first =>
    if let some className := s.mode.classState.name? then
      if let some span := s.line.span? 0 then
        match s.line.text.splice (EnumLine.valueName className first) span.start span.length none with
        | .error e => throw (.replacement e)
        | .ok text => replaceLine config text
    recordFirstWord

/-- Virtual methods of structs become function pointers. -/
def convertMethods (config : Config) : Conversion Bool := do
  let s ← get
  if s.mode.structBody.isNone then return false
  match Pattern.virtualMethod.replace config.rules.methodTemplate s.line.text with
  | some text =>
    emit .made text
    return true
  | none => return false

/-- The data members of a class are recorded and written at once, with their indentation. -/
def liftMember : Conversion Bool := do
  let s ← get
  match s.line.text.declaredName? with
  | none => return false
  | some name =>
    unless s.memberNames.has name do
      set { s with memberNames := s.memberNames.insert name }
      note (.memberAdded name)
    emitDirect .member (s.indent ++ s.line.text)
    return true

/-- The words of a line that is nothing but an access specifier. -/
def accessWords : List (List Text) :=
  [["public:".toList], ["private:".toList], ["protected:".toList]]

/-- The opening brace of a class, which is copied, its access specifiers, which are left out, and its
data members. -/
def liftMembers : Conversion Bool := do
  let s ← get
  if !s.mode.classState.isActive || s.line.isEmpty then return false
  match if s.line.words = [['{']] then s.mode.classState.awaited? else none with
  | some name =>
    modifyMode ({ · with classState := .opened name })
    emitDirect .copied s.line.text
    return true
  | none => if accessWords.contains s.line.words then return true else liftMember

def stages (config : Config) : List (Conversion Bool) :=
  [passComments, editMacro config, trackTypes, trackFunctions config, defineConstants,
    recordEnumValue config, convertMethods config, liftMembers]

end HeaderFlattening.Conversion
