import HeaderFlattening.Token

/-!
The line at hand: its text and the tokens found in it. A change of the text drops the tokens, and
only `retokenize` brings them back, so that tokens never belong to an earlier text.
-/

set_option autoImplicit false
namespace HeaderFlattening

structure Line where
  text : Text := []
  tokens : List Token := []
  deriving DecidableEq, Repr

namespace Line

/-- A line that has not been cut into tokens yet. -/
def ofText (t : Text) : Line := ⟨t, []⟩

/-- Finds the tokens of the text. On failure the line stays as it was. -/
def retokenize (l : Line) (limit : Nat) : Except TooManyTokens Line := do
  return { l with tokens := ← Token.tokenize l.text limit }

def words (l : Line) : List Text := l.tokens.map Token.text

def isEmpty (l : Line) : Bool := l.tokens.isEmpty

def word? (l : Line) (i : Nat) : Option Text := l.words[i]?

def lastWord? (l : Line) : Option Text := l.words.getLast?

def span? (l : Line) (i : Nat) : Option Span := (Token.spans 0 l.tokens)[i]?

/-- Whether the first tokens are exactly these. -/
def startsWith (l : Line) (expected : List Text) : Bool := expected.isPrefixOf l.words

end Line
end HeaderFlattening
