import HeaderFlattening.Pattern.Template
import HeaderFlattening.Text.Word
import HeaderFlattening.Text.Space

/-!
The shapes of text that the conversion looks for in a line.
-/

set_option autoImplicit false
namespace HeaderFlattening.Pattern

def word : Pattern := atLeastOne Text.isWord

/-- `virtual RESULT [CONVENTION ]NAME(PARAMETERS)[ = 0];` with groups for the result, the convention
and its space, the name, the parameters and the pure mark. -/
def virtualMethod : Pattern := sequence [
  literal "virtual ".toList, .group 1 word, char ' ',
  optional (.group 2 (.seq word (char ' '))), .group 3 word, char '(',
  .group 4 (.many (· ≠ ')')), char ')', optional (.group 5 (literal " = 0".toList)), char ';']

/-- `const TYPE NAME = VALUE;` with groups for the name and the value. -/
def constMember : Pattern := sequence [
  literal "const ".toList, word, char ' ', .group 1 word, literal " = ".toList,
  .group 2 (atLeastOne (· ≠ ';')), char ';']

/-- `TYPE NAME;` where the type may hold stars, with groups for the type and the name. -/
def declaration : Pattern := sequence [
  .group 1 (atLeastOne fun c => Text.isWord c || c = '*'), char ' ', .group 2 word, char ';']

/-- White space up to a `//` or up to the end of the text. -/
def blankOrComment : Pattern := sequence [
  .atStart, .many Text.isSpace, .group 1 (.alt (literal "//".toList) .atEnd)]

end HeaderFlattening.Pattern

namespace HeaderFlattening.Text

/-- A text with nothing but white space, or with a comment behind the white space. -/
def isBlankOrComment (t : Text) : Bool := Pattern.blankOrComment.occursIn t

/-- The name in the first declaration whose type does not end in `return`. -/
def declaredName? (t : Text) : Option Text :=
  ((Pattern.declaration.hits t).find? fun h =>
    !"return".toList.isSuffixOf ((h.group? 1).getD [])).bind (·.group? 2)

def isDeclaration (t : Text) : Bool := t.declaredName?.isSome

end HeaderFlattening.Text
