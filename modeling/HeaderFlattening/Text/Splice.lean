import HeaderFlattening.Text.Basic

/-!
Replacing parts of a text: every occurrence of a search text, or the bytes of one span. Both take an
optional capacity, the most bytes that the result may have, and fail rather than cut it short.
-/

set_option autoImplicit false
namespace HeaderFlattening

inductive TextError where
  /-- The result would need more bytes than there is room for. -/
  | tooLong (needed capacity : Nat)
  /-- The span does not lie in the text, or one of its ends is inside a character. -/
  | outside (start length size : Nat)
  deriving DecidableEq, Repr

def TextError.message : TextError → Text
  | .tooLong needed capacity =>
    "Result needs ".toList ++ Text.ofNat needed ++ " bytes but the buffer holds ".toList
      ++ Text.ofNat capacity
  | .outside start length size =>
    "Range ".toList ++ Text.ofNat start ++ "+".toList ++ Text.ofNat length
      ++ " is outside a string of ".toList ++ Text.ofNat size ++ " bytes".toList

namespace Text

/-- Whether `needed` bytes fit. -/
def checkCapacity (needed : Nat) : Option Nat → Except TextError Unit
  | none => .ok ()
  | some capacity => if capacity < needed then .error (.tooLong needed capacity) else .ok ()

/-- The parts of a text between the occurrences of `search`, found from the left and not overlapping.
A text without an occurrence is one part. -/
def split (search : Text) : Text → List Text
  | [] => [[]]
  | c :: t =>
    if _found : search ≠ [] ∧ search.isPrefixOf (c :: t) = true then
      [] :: split search ((c :: t).drop search.length)
    else
      match split search t with
      | [] => [[c]]
      | part :: parts => (c :: part) :: parts
termination_by t => t.length
decreasing_by
  · have : 0 < search.length := List.length_pos_iff.2 _found.1
    simp only [List.length_drop, List.length_cons]
    omega
  · simp

/-- The length of a text in which `count` occurrences of a text of length `search` give way to one of
length `replacement`. It is worked out in machine words: of what does not fit, the lowest bits stay. -/
def resultSize (subject search replacement count : UInt64) : UInt64 :=
  subject - count * search + count * replacement

/-- Every occurrence of `search` replaced; none when there is nothing to replace, which a capacity
never forbids. The length is worked out and checked before the result is built. -/
def replaceAll (subject search replacement : Text) (capacity : Option Nat) :
    Except TextError (Option Text) :=
  if search.isEmpty then .ok none
  else
    let parts := split search subject
    let count := parts.length - 1
    if count = 0 then .ok none
    else do
      let needed := resultSize (.ofNat subject.byteLength) (.ofNat search.byteLength)
        (.ofNat replacement.byteLength) (.ofNat count)
      checkCapacity needed.toNat capacity
      return some (join replacement parts)

/-- The text between two byte offsets; none unless both are places in the text, in this order. -/
def slice? (t : Text) (start stop : Nat) : Option Text :=
  if start ≤ stop then do
    let (_, rest) ← t.splitAt? start
    let (part, _) ← rest.splitAt? (stop - start)
    return part
  else none

/-- The text with the `length` bytes from `start` replaced. A sum of the two that is too large for a
machine word lies beyond the end of every text as well. -/
def splice (t replacement : Text) (start length : Nat) (capacity : Option Nat) :
    Except TextError Text :=
  let outside := .error (.outside start length t.byteLength)
  match splitAt? start t with
  | none => outside
  | some (before, rest) =>
    match splitAt? length rest with
    | none => outside
    | some (_, after) => do
      checkCapacity (t.byteLength - length + replacement.byteLength) capacity
      return before ++ replacement ++ after

end Text
end HeaderFlattening
