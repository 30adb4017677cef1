/-!
Classes of characters given as ascending lists of closed ranges of code points.
-/

set_option autoImplicit false
namespace HeaderFlattening.Text

/-- Whether `n` lies in one of the ranges, which ascend, so that the search stops at the first range
that starts beyond `n`. -/
def inRanges : List (Nat × Nat) → Nat → Bool
  | [], _ => false
  | (low, high) :: rest, n => if n < low then false else n ≤ high || inRanges rest n

end HeaderFlattening.Text
