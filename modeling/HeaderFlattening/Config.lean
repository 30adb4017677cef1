import HeaderFlattening.Text.Quoted

/-!
The settings of a conversion, their defaults, and which settings are refused.
-/

set_option autoImplicit false
namespace HeaderFlattening

/-- What becomes of the lines of member functions and prototypes. -/
inductive Suppression where
  | annotate
  | comment
  | drop
  deriving DecidableEq, Repr

/-- What becomes of a line with too many tokens. -/
inductive Overflow where
  | abort
  | skip
  deriving DecidableEq, Repr

/-- Where headers are found and where converted headers go. -/
structure Folders where
  input : Text := "input_files".toList
  output : Text := "output_files".toList
  deriving DecidableEq, Repr

structure Rules where
  /-- The most spaces that are taken from the start of a line in a class. -/
  unindentWidth : Nat := 4
  /-- The most tokens that a line may have. -/
  maxTokens : Nat := 1023
  suppression : Suppression := .annotate
  overflow : Overflow := .abort
  /-- What a virtual method of a struct becomes: group 1 is the result, 2 the calling convention and
  its space, 3 the name and 4 the parameters. -/
  methodTemplate : Text := "$1 (*$3)($4);".toList
  deriving DecidableEq, Repr

/-- A change in the lines that define one given macro. -/
structure MacroEdit where
  name : Text
  search : Text
  replacement : Text
  deriving DecidableEq, Repr

structure Config where
  folders : Folders := {}
  rules : Rules := {}
  edits : List MacroEdit := [{
    name := "GDIP_WMF_RECORD_TO_EMFPLUS".toList
    search := "(EmfPlusRecordType)".toList
    replacement := "(enum _EmfPlusRecordType)".toList }]
  deriving DecidableEq, Repr

inductive InvalidConfig where
  | unindentWidth (width : Nat)
  | noTokens
  | emptyTemplate
  | incompleteEdit (edit : MacroEdit)
  deriving DecidableEq, Repr

/-- The entry as messages show it. -/
def MacroEdit.quoted (r : MacroEdit) : Text :=
  "MacroRewrite \x7b macro_name: ".toList ++ r.name.quoted ++ ", search: ".toList
    ++ r.search.quoted ++ ", replace: ".toList ++ r.replacement.quoted ++ " \x7d".toList

namespace Config

/-- The greatest width that is accepted. -/
def maxUnindentWidth : Nat := 16

def findEdit? (c : Config) (name : Text) : Option MacroEdit :=
  c.edits.find? (·.name = name)

def isIncomplete (r : MacroEdit) : Bool := r.name.isEmpty || r.search.isEmpty

/-- The first reason to refuse the settings, if there is one. -/
def invalid? (c : Config) : Option InvalidConfig :=
  if maxUnindentWidth < c.rules.unindentWidth then some (.unindentWidth c.rules.unindentWidth)
  else if c.rules.maxTokens = 0 then some .noTokens
  else if c.rules.methodTemplate.isEmpty then some .emptyTemplate
  else (c.edits.find? isIncomplete).map .incompleteEdit

end Config

def InvalidConfig.message : InvalidConfig → Text
  | .unindentWidth width =>
    "unindent_width must be at most ".toList ++ Text.ofNat Config.maxUnindentWidth
      ++ ", got ".toList ++ Text.ofNat width
  | .noTokens => "max_tokens must be at least 1".toList
  | .emptyTemplate => "virtual_method_template must not be empty".toList
  | .incompleteEdit r =>
    "rewrite entries need a macro name and a search string: ".toList ++ r.quoted

end HeaderFlattening
