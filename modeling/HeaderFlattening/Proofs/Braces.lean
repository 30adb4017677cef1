import HeaderFlattening.Conversion.Signature
import HeaderFlattening.Proofs.Occurrences

/-!
Counting braces among words, and what a replacement does to the number of them in a text: it adds none
unless it has more of them than what it replaces.
-/

set_option autoImplicit false
namespace HeaderFlattening

/-- How many of the words are braces. -/
def braceCount (ws : List Text) : Nat := ws.count ['{'] + ws.count ['}']

/-- The braces that open among the words, less those that close. -/
def braceBalance (ws : List Text) : Int := (ws.count ['{'] : Int) - ws.count ['}']

@[simp] theorem braceCount_append (xs ys : List Text) :
    braceCount (xs ++ ys) = braceCount xs + braceCount ys := by
  simp only [braceCount, List.count_append]
  omega

@[simp] theorem braceBalance_append (xs ys : List Text) :
    braceBalance (xs ++ ys) = braceBalance xs + braceBalance ys := by
  simp only [braceBalance, List.count_append]
  omega

theorem braceCount_cons (w : Text) (ws : List Text) :
    braceCount (w :: ws) = braceCount ws + if w = ['{'] ∨ w = ['}'] then 1 else 0 := by
  simp only [braceCount, List.count_cons, beq_iff_eq]
  split_ifs <;> simp_all <;> omega

theorem braceBalance_cons (w : Text) (ws : List Text) :
    braceBalance (w :: ws) =
      (if w = ['{'] then 1 else if w = ['}'] then -1 else 0) + braceBalance ws := by
  simp only [braceBalance, List.count_cons, beq_iff_eq]
  split_ifs <;> simp_all <;> omega

theorem braceBalance_of_braceCount {ws : List Text} (h : braceCount ws = 0) : braceBalance ws = 0 := by
  unfold braceCount at h
  unfold braceBalance
  omega

theorem natAbs_braceBalance_le (ws : List Text) : (braceBalance ws).natAbs ≤ braceCount ws := by
  unfold braceBalance braceCount
  omega

theorem Line.hasBrace_iff (l : Line) : l.hasBrace = true ↔ braceCount l.words ≠ 0 := by
  have none (c : Char) : l.words.count [c] ≠ 0 ↔ [c] ∈ l.words := by
    rw [Ne, List.count_eq_zero, not_not]
  have either : braceCount l.words ≠ 0 ↔ l.words.count ['{'] ≠ 0 ∨ l.words.count ['}'] ≠ 0 := by
    unfold braceCount
    omega
  rw [either, none, none, hasBrace, List.any_eq_true]
  simp only [Bool.or_eq_true, decide_eq_true_eq]
  constructor
  · rintro ⟨w, mem, rfl | rfl⟩
    · exact .inl mem
    · exact .inr mem
  · rintro (mem | mem)
    · exact ⟨_, mem, .inl rfl⟩
    · exact ⟨_, mem, .inr rfl⟩

namespace Text

variable {c : Char}

theorem count_join_le {a b : Text} (le : a.count c ≤ b.count c) (parts : List Text) :
    (join a parts).count c ≤ (join b parts).count c := by
  induction parts with
  | nil => exact Nat.le_refl _
  | cons part parts ih =>
    cases parts with
    | nil => exact Nat.le_refl _
    | cons next parts =>
      simp only [join, List.count_append] at ih ⊢
      omega

/-- A replacement adds no character of which it has no more than what it replaces. -/
theorem count_replaceAll_le {subject search replacement result : Text}
    (le : replacement.count c ≤ search.count c)
    (h : subject.replaceAll search replacement none = .ok (some result)) :
    result.count c ≤ subject.count c := by
  obtain ⟨-, rfl⟩ := of_replaceAll h
  calc
    (join replacement (split search subject)).count c
        ≤ (join search (split search subject)).count c := count_join_le le _
    _ = subject.count c := by rw [join_split]

end Text

/-- No edit has more braces of a kind in its replacement than in what it replaces. -/
def Config.AddsNoBraces (config : Config) : Prop :=
  ∀ e ∈ config.edits, e.replacement.count '{' ≤ e.search.count '{' ∧
    e.replacement.count '}' ≤ e.search.count '}'

instance (config : Config) : Decidable config.AddsNoBraces :=
  inferInstanceAs (Decidable (∀ e ∈ config.edits, _ ∧ _))

example : Config.AddsNoBraces {} := by decide

end HeaderFlattening
