import HeaderFlattening.Pattern.Search
import HeaderFlattening.Text.Splice

/-!
Replacement templates. In a template `$$` stands for a dollar sign and `$d`, with a digit `d`, for
what group `d` took; a digit above the number of groups makes no reference, and then the dollar sign
stands for itself. `expand` gives the filled template and `replace` a text with its matches replaced;
`expandBehind?` and `replaceInPass?` work with byte offsets and put the result out piece by piece, in
one pass over the bytes of the template and one over the matches.
-/

set_option autoImplicit false
namespace HeaderFlattening.Pattern

/-- The group that a digit names, if there are that many groups. -/
def groupRef? (groups : Nat) (d : Char) : Option Nat :=
  if d.isDigit && d.toNat - '0'.toNat ≤ groups then some (d.toNat - '0'.toNat) else none

/-- The template filled in from a match. -/
def expand (groups : Nat) (h : Hit) : (template : Text) → Text
  | [] => []
  | [c] => [c]
  | c :: d :: t =>
    if c = '$' then
      if d = '$' then '$' :: expand groups h t
      else
        match groupRef? groups d with
        | some i => (h.group? i).getD [] ++ expand groups h t
        | none => c :: expand groups h (d :: t)
    else c :: expand groups h (d :: t)

/-- What a dollar sign stands for together with the character behind it, if they make a reference. -/
def reference? (groups : Nat) (h : Hit) (d : Char) : Option Text :=
  if d = '$' then some ['$'] else (groupRef? groups d).map fun i => (h.group? i).getD []

/-- The pass over the bytes of a template from byte `i` on. What stands between `start` and `i` has
been passed over and is still to be copied; a slice that does not lie between characters would end the
pass without a result. -/
def expandFrom (groups : Nat) (h : Hit) (template : Text) (start i : Nat) (out : Text) :
    List UInt8 → Option Text
  | b :: d :: bytes =>
    match if Char.ofUInt8 b = '$' then reference? groups h (Char.ofUInt8 d) else none with
    | some part => do
      let literal ← template.slice? start i
      expandFrom groups h template (i + 2) (i + 2) (out ++ literal ++ part) bytes
    | none => expandFrom groups h template start (i + 1) out (d :: bytes)
  | _ => do
    let literal ← template.slice? start template.byteLength
    return out ++ literal

/-- What was put out before, and behind it the filled template. It is filled in one pass over its
bytes, and the text between references is copied in one piece. -/
def expandBehind? (groups : Nat) (h : Hit) (template out : Text) : Option Text :=
  expandFrom groups h template 0 0 out template.bytes

/-- The piece as it stands after the replacement. -/
def Piece.replaced (groups : Nat) (template : Text) : Piece → Text
  | .other c => [c]
  | .hit h => expand groups h template

/-- Every match replaced by the filled template; none without a match, which is not the same as a
replacement that restores the text. -/
def replace (p : Pattern) (template s : Text) : Option Text :=
  if p.occursIn s then some ((p.pieces s).flatMap (Piece.replaced p.groupCount template))
  else none

/-- The pass over the matches of a text, of which the bytes before `last` have been dealt with. What
stands before a match, and at the end what stands behind all of them, is copied in one piece. -/
def replaceFrom (groups : Nat) (template s : Text) (last : Nat) (out : Text) :
    List Located → Option Text
  | [] => do
    let behind ← s.slice? last s.byteLength
    return out ++ behind
  | m :: ms => do
    let between ← s.slice? last m.start
    let filled ← expandBehind? groups m.hit template (out ++ between)
    replaceFrom groups template s m.stop filled ms

/-- The replacement made in one pass over the matches. A slice that does not lie between characters
would end the pass without a result, which is not the same as the result for a text without a match. -/
def replaceInPass? (p : Pattern) (template s : Text) : Option (Option Text) :=
  match located 0 (p.pieces s) with
  | [] => some none
  | ms => (replaceFrom p.groupCount template s 0 [] ms).map some

end HeaderFlattening.Pattern
