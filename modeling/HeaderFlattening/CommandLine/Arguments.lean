import HeaderFlattening.Text.Basic

/-!
The words of a command line. Options may stand before and behind operands; `--` ends them. An option is
given at most once, and no value or operand is empty. Words are judged in their order: the first word
that makes no sense and the first option that asks for help or for the version end the reading.
-/

set_option autoImplicit false
namespace HeaderFlattening.CommandLine

inductive Flag where
  | help
  | version
  | verbose
  | config
  | inputDir
  | outputDir
  deriving DecidableEq, Repr

def Flag.takesValue : Flag → Bool
  | .config | .inputDir | .outputDir => true
  | _ => false

inductive Command where
  | convert (files : List Text) (config input output : Option Text)
  | config (config : Option Text)
  deriving DecidableEq, Repr

inductive Stop where
  | help
  | version
  | usage
  deriving DecidableEq, Repr

/-- What may stand at a level of the command line besides options. -/
inductive Operands where
  /-- The name of a command and all that belongs to it. -/
  | command
  | none
  | files
  deriving DecidableEq, Repr

/-- The spellings of an option. -/
structure Spelling where
  flag : Flag
  long : Text
  short : Option Char := none
  deriving DecidableEq, Repr

structure Given where
  /-- The options with their values, which are empty for those that take none. -/
  options : List (Flag × Text) := []
  operands : List Text := []
  deriving DecidableEq, Repr

namespace Given

def value? (g : Given) (f : Flag) : Option Text := g.options.lookup f

def add (g : Given) (f : Flag) (value : Text) : Except Stop Given :=
  match f with
  | .help => .error .help
  | .version => .error .version
  | f =>
    if (g.value? f).isSome || (f.takesValue && value.isEmpty) then .error .usage
    else .ok { g with options := g.options ++ [(f, value)] }

def addOperand (kind : Operands) (g : Given) (word : Text) : Except Stop Given :=
  if kind = .files && !word.isEmpty then .ok { g with operands := g.operands ++ [word] }
  else .error .usage

end Given

/-- Whether a word looks like an option, so that it is no value of the option before it. -/
def looksLikeOption (word : Text) : Bool := word.head? = some '-' && word ≠ ['-']

/-- Takes the next word as the value of an option. -/
def takeValue : List Text → Except Stop (Text × List Text)
  | [] => .error .usage
  | word :: rest => if looksLikeOption word then .error .usage else .ok (word, rest)

/-- An option in its long spelling, perhaps with `=` and a value. -/
def readLong (spellings : List Spelling) (body : Text) (rest : List Text) (g : Given) :
    Except Stop (Given × List Text) := do
  let name := body.takeWhile (· ≠ '=')
  let some s := spellings.find? (·.long = name) | throw .usage
  match body.dropWhile (· ≠ '='), s.flag.takesValue with
  | [], false => return (← g.add s.flag [], rest)
  | [], true =>
    let (value, rest) ← takeValue rest
    return (← g.add s.flag value, rest)
  | _ :: value, true => return (← g.add s.flag value, rest)
  | _ :: _, false => throw .usage

/-- Options in their short spellings, written together. The first that takes a value takes what is
left of the word, without a leading `=`, or else the next word. -/
def readShort (spellings : List Spelling) (rest : List Text) :
    (letters : Text) → Given → Except Stop (Given × List Text)
  | [], g => return (g, rest)
  | c :: letters, g => do
    let some s := spellings.find? (·.short = some c) | throw .usage
    if !s.flag.takesValue then
      readShort spellings rest letters (← g.add s.flag [])
    else if letters.isEmpty then
      let (value, rest) ← takeValue rest
      return (← g.add s.flag value, rest)
    else
      let value := if letters.head? = some '=' then letters.tail else letters
      return (← g.add s.flag value, rest)

/-- Reads the words at one level of the command line; what is behind the name of a command is left
unread. -/
def readWords (spellings : List Spelling) (kind : Operands) :
    (fuel : Nat) → List Text → Given → Except Stop (Given × List Text)
  | 0, words, g => return (g, words)
  | _ + 1, [], g => return (g, [])
  | fuel + 1, word :: rest, g => do
    if word = "--".toList then
      return (← rest.foldlM (Given.addOperand kind) g, [])
    else if "--".toList.isPrefixOf word then
      let (g, rest) ← readLong spellings (word.drop 2) rest g
      readWords spellings kind fuel rest g
    else if looksLikeOption word then
      let (g, rest) ← readShort spellings rest (word.drop 1) g
      readWords spellings kind fuel rest g
    else if kind = .command then
      return (g, word :: rest)
    else
      readWords spellings kind fuel rest (← g.addOperand kind word)

def read (spellings : List Spelling) (kind : Operands) (words : List Text) :
    Except Stop (Given × List Text) :=
  readWords spellings kind words.length words {}

def everywhere : List Spelling := [
  { flag := .help, long := "help".toList, short := some 'h' },
  { flag := .verbose, long := "verbose".toList, short := some 'v' }]

def topSpellings : List Spelling :=
  { flag := .version, long := "version".toList, short := some 'V' } :: everywhere

def configSpellings : List Spelling :=
  { flag := .config, long := "config".toList, short := some 'c' } :: everywhere

def convertSpellings : List Spelling :=
  { flag := .inputDir, long := "input-dir".toList } ::
  { flag := .outputDir, long := "output-dir".toList } :: configSpellings

def readConvert (words : List Text) : Except Stop Command := do
  let (g, _) ← read convertSpellings .files words
  if g.operands.isEmpty then throw .usage
  return .convert g.operands (g.value? .config) (g.value? .inputDir) (g.value? .outputDir)

def readConfig (words : List Text) : Except Stop Command := do
  let (g, _) ← read configSpellings .none words
  return .config (g.value? .config)

/-- The words behind `help` may name a command. -/
def readHelp (words : List Text) : Stop :=
  if words = [] || words = ["convert".toList] || words = ["config".toList]
      || words = ["help".toList] then .help
  else .usage

/-- Reads a whole command line, without the name of the program. -/
def Command.ofWords (words : List Text) : Except Stop Command := do
  match (← read topSpellings .command words).2 with
  | [] => throw .usage
  | name :: rest =>
    if name = "convert".toList then readConvert rest
    else if name = "config".toList then readConfig rest
    else if name = "help".toList then throw (readHelp rest)
    else throw .usage

end HeaderFlattening.CommandLine
