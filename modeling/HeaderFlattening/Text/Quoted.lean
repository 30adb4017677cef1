import HeaderFlattening.Text.Basic
import HeaderFlattening.Text.Hidden

/-!
The quoted form that messages use for a text: between double quotes, with a backslash before a quote
and a backslash, and with characters that cannot be seen written by name or by code point.
-/

set_option autoImplicit false
namespace HeaderFlattening.Text

def quotedChar (c : Char) : Text :=
  match c with
  | '"' => ['\\', '"']
  | '\\' => ['\\', '\\']
  | '\n' => ['\\', 'n']
  | '\r' => ['\\', 'r']
  | '\t' => ['\\', 't']
  | '\x00' => ['\\', '0']
  | c =>
    if isHidden c then ['\\', 'u', '\x7b'] ++ Nat.toDigits 16 c.toNat ++ ['\x7d']
    else [c]

def quoted (t : Text) : Text :=
  '"' :: t.flatMap quotedChar ++ ['"']

end HeaderFlattening.Text
