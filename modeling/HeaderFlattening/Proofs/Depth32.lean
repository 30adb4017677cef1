import HeaderFlattening.Proofs.Braces
import Mathlib.Algebra.Group.Int.Defs
import Mathlib.Algebra.Group.Nat.Defs

/-!
The depth in a function body as it is kept: in 32 bits. A sum that does not fit is no number here. As
long as there are few enough braces all sums are found, and they are those of the plain depth.
-/

set_option autoImplicit false
namespace HeaderFlattening

/-- The sum, unless it overflows. -/
def checkedSum (a b : Int32) : Option Int32 :=
  if (a + b).toInt = a.toInt + b.toInt then some (a + b) else none

/-- Adds up the braces among the words, one for each that opens and -1 for each that closes. -/
def checkedBalance (sum : Int32) : List Text → Option Int32
  | [] => some sum
  | w :: ws =>
    if w = ['{'] then do
      checkedBalance (← checkedSum sum 1) ws
    else if w = ['}'] then do
      checkedBalance (← checkedSum sum (-1)) ws
    else checkedBalance sum ws

/-- A sum that fits in 32 bits is found. -/
theorem exists_checkedSum {a b : Int32} (fits : (a.toInt + b.toInt).natAbs < 2 ^ 31) :
    ∃ c, checkedSum a b = some c ∧ c.toInt = a.toInt + b.toInt := by
  have same : (a + b).toInt = a.toInt + b.toInt := by
    rw [Int32.toInt_add]
    apply Int.bmod_eq_of_le <;> omega
  exact ⟨a + b, if_pos same, same⟩

/-- Words with few braces are counted in 32 bits. -/
theorem exists_checkedBalance {sum : Int32} {ws : List Text}
    (fits : sum.toInt.natAbs + braceCount ws < 2 ^ 31) :
    ∃ c, checkedBalance sum ws = some c ∧ c.toInt = sum.toInt + braceBalance ws := by
  induction ws generalizing sum with
  | nil => exact ⟨sum, rfl, (Int.add_zero _).symm⟩
  | cons w ws ih =>
    rw [braceCount_cons] at fits
    -- one more brace moves the sum by one and leaves room for the others
    have one (d : Int32) (unit : d.toInt.natAbs ≤ 1) (brace : w = ['{'] ∨ w = ['}']) :
        ∃ c, (checkedSum sum d >>= fun sum => checkedBalance sum ws) = some c ∧
          c.toInt = sum.toInt + (d.toInt + braceBalance ws) := by
      rw [if_pos brace] at fits
      obtain ⟨next, found, moved⟩ := exists_checkedSum (a := sum) (b := d) (by omega)
      have room : next.toInt.natAbs + braceCount ws < 2 ^ 31 := by omega
      obtain ⟨c, rest, total⟩ := ih room
      exact ⟨c, by rw [found]; exact rest, by omega⟩
    rw [checkedBalance, braceBalance_cons]
    split_ifs with opens closes
    · exact one 1 (by decide) (.inl opens)
    · exact one (-1) (by decide) (.inr closes)
    · rw [if_neg (not_or.2 ⟨opens, closes⟩)] at fits
      rw [Int.zero_add]
      exact ih fits

/-- Where the conversion is with respect to a function, with a depth of 32 bits. -/
inductive FunctionState32 where
  | outside
  | signature
  | body (depth : Int32)
  deriving DecidableEq

namespace FunctionState32

/-- The same with a depth of any size. -/
def widen : FunctionState32 → FunctionState
  | .outside => .outside
  | .signature => .signature
  | .body depth => .body depth.toInt

def level? : FunctionState32 → Option Int32
  | .outside => some 0
  | .signature => some (-1)
  | .body depth => checkedSum 1 depth

/-- The function state behind a line of a body. Without braces on the line nothing is added to the
depth. -/
def afterBodyLine? (depth : Int32) (l : Line) : Option FunctionState32 := do
  let balance ← checkedBalance 0 l.words
  if l.hasBrace then
    let depth ← checkedSum depth balance
    return if depth ≤ 0 then .outside else .body depth
  else return .body depth

/-- The depth of 32 bits follows a line of a body as the plain depth does. -/
theorem exists_afterBodyLine {depth : Int32} {l : Line}
    (fits : depth.toInt.natAbs + braceCount l.words < 2 ^ 31) :
    ∃ f, afterBodyLine? depth l = some f ∧ f.widen = .afterBodyLine depth.toInt l := by
  obtain ⟨balance, counted, total⟩ : ∃ c, checkedBalance 0 l.words = some c ∧ _ :=
    exists_checkedBalance (by rw [Int32.toInt_zero]; omega)
  rw [Int32.toInt_zero, Int.zero_add] at total
  unfold afterBodyLine? FunctionState.afterBodyLine
  rw [counted]
  cases brace : l.hasBrace with
  | false => exact ⟨.body depth, rfl, rfl⟩
  | true =>
    have small := natAbs_braceBalance_le l.words
    obtain ⟨next, found, moved⟩ := exists_checkedSum (a := depth) (b := balance) (by omega)
    have sum : next.toInt = depth.toInt + l.braceBalance := by
      rw [moved, total]
      rfl
    refine ⟨if next ≤ 0 then .outside else .body next, ?_, ?_⟩
    · show (checkedSum depth balance >>= _) = _
      rw [found]
      rfl
    · have sign : next ≤ 0 ↔ next.toInt ≤ 0 := Int32.le_iff_toInt_le
      rw [if_pos rfl, ← sum]
      simp only [sign]
      split_ifs <;> rfl

/-- 32 bits hold a depth that is not too great, and the level that it makes. -/
theorem exists_widen_eq {f : FunctionState}
    (fits : ∀ depth, f = .body depth → 0 ≤ depth ∧ depth < 2 ^ 31 - 1) :
    ∃ g : FunctionState32, g.widen = f ∧ g.level?.map Int32.toInt = some f.level := by
  cases f with
  | outside => exact ⟨.outside, rfl, rfl⟩
  | signature => exact ⟨.signature, rfl, rfl⟩
  | body depth =>
    obtain ⟨nonneg, less⟩ := fits depth rfl
    have same : (Int32.ofInt depth).toInt = depth :=
      Int32.toInt_ofInt_of_le (by omega) (by omega)
    have one : (1 : Int32).toInt = 1 := rfl
    obtain ⟨level, found, sum⟩ := exists_checkedSum (a := 1) (b := .ofInt depth) (by omega)
    refine ⟨.body (.ofInt depth), congrArg FunctionState.body same, ?_⟩
    show (checkedSum 1 (.ofInt depth)).map Int32.toInt = some (1 + depth)
    rw [found, Option.map_some, sum, one, same]

end FunctionState32
end HeaderFlattening
