/-!
White space beyond ASCII: the characters with the Unicode property White_Space. They matter only to
patterns; tokens are separated by the ASCII blanks.
-/

set_option autoImplicit false
namespace HeaderFlattening.Text

/-- A character with the property White_Space. -/
def isSpace (c : Char) : Bool :=
  let n := c.toNat
  (9 ≤ n && n ≤ 13) || n = 0x20 || n = 0x85 || n = 0xa0 || n = 0x1680 || (0x2000 ≤ n && n ≤ 0x200a)
    || n = 0x2028 || n = 0x2029 || n = 0x202f || n = 0x205f || n = 0x3000

end HeaderFlattening.Text
