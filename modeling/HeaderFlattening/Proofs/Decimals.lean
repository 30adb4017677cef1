import HeaderFlattening.Toml.Document
import Mathlib.Tactic.SplitIfs

/-!
A number that is written is read back. A line that starts with digits is no date, no time and no
floating-point number, as nothing but a line end follows the digits.
-/

set_option autoImplicit false
namespace HeaderFlattening.Toml

/-- Digits and a line end behind them. -/
def IsNumberLine (s : Text) : Prop :=
  ∃ ds rest, (∀ c ∈ ds, c.isDigit = true) ∧ s = ds ++ '\n' :: rest

variable {s ds rest : Text} {c : Char}

theorem IsNumberLine.char (h : IsNumberLine s) (digit : c.isDigit = false) (line : c ≠ '\n') :
    Reader.char c s = none := by
  obtain ⟨ds, rest, digits, rfl⟩ := h
  cases ds with
  | nil => exact if_neg (Ne.symm line)
  | cons d ds =>
    refine if_neg ?_
    rintro rfl
    exact Bool.false_ne_true (digit.symm.trans (digits d List.mem_cons_self))

theorem IsNumberLine.number {count n : Nat} {t : Text} (h : IsNumberLine s)
    (read : Moment.number count s = some (n, t)) : IsNumberLine t := by
  obtain ⟨ds, rest, digits, rfl⟩ := h
  simp only [Moment.number] at read
  split_ifs at read with fits
  rw [Bool.and_eq_true] at fits
  obtain ⟨-, rfl⟩ := Prod.mk.inj (Option.some.inj read)
  rcases Nat.lt_or_ge ds.length count with short | long
  · have mem : '\n' ∈ (ds ++ '\n' :: rest).take count := by
      rw [List.take_append]
      refine List.mem_append_right _ ?_
      obtain ⟨k, eq⟩ := Nat.exists_eq_succ_of_ne_zero (Nat.sub_ne_zero_of_lt short)
      rw [eq, List.take_succ_cons]
      exact List.mem_cons_self
    exact absurd (List.all_eq_true.1 fits.2 _ mem) (by decide)
  · refine ⟨ds.drop count, rest, fun c mem => digits c (List.mem_of_mem_drop mem), ?_⟩
    rw [List.drop_append_of_le_length long]

theorem moment_of_isNumberLine (h : IsNumberLine s) : moment s = none := by
  have date : Moment.date s = none := by
    unfold Moment.date
    cases read : Moment.number 4 s with
    | none => rfl
    | some r =>
      have dash : Reader.char '-' r.2 = none := (h.number read).char (by decide) (by decide)
      simp only [Option.bind_eq_bind, Option.bind_some, dash, Option.bind_none]
  have time : Moment.time s = none := by
    unfold Moment.time Moment.between
    cases read : Moment.number 2 s with
    | none => rfl
    | some r =>
      have colon : Reader.char ':' r.2 = none := (h.number read).char (by decide) (by decide)
      simp only [Option.bind_eq_bind, Option.bind_some]
      split_ifs
      · simp only [Option.pure_def, Option.bind_some, colon, Option.bind_none]
      · rfl
  unfold moment Reader.orElse Moment.dateAndTime
  simp only [date, time, Option.bind_eq_bind, Option.bind_none]

theorem moreDigits_line (digits : ∀ c ∈ ds, c.isDigit = true) (rest : Text) :
    moreDigits Char.isDigit (ds ++ '\n' :: rest) = (ds, '\n' :: rest) := by
  induction ds with
  | nil => cases rest <;> rfl
  | cons c ds ih =>
    have first := digits c List.mem_cons_self
    have others := ih fun d mem => digits d (List.mem_cons_of_mem c mem)
    obtain ⟨d, t, eq⟩ : ∃ d t, ds ++ '\n' :: rest = d :: t :=
      List.exists_cons_of_ne_nil (by simp)
    rw [eq] at others
    rw [List.cons_append, eq, moreDigits, if_pos first, others]

theorem digitsValue_eq (digits : ∀ c ∈ ds, c.isDigit = true) :
    digitsValue 10 ds = Nat.ofDigitChars 10 ds 0 := by
  have fold (m : Nat) : ds.foldl (fun n c => n * 10 + hexValue c) m = Nat.ofDigitChars 10 ds m := by
    unfold Nat.ofDigitChars
    induction ds generalizing m with
    | nil => rfl
    | cons c ds ih =>
      have value : hexValue c = c.toNat - '0'.toNat := if_pos (digits c List.mem_cons_self)
      rw [List.foldl_cons, List.foldl_cons, value, Nat.mul_comm]
      exact ih (fun d mem => digits d (List.mem_cons_of_mem c mem)) _
  exact fold 0

theorem isDigit_of_mem_ofNat {n : Nat} (h : c ∈ Text.ofNat n) : c.isDigit = true :=
  Nat.isDigit_of_mem_toDigits (by decide) (by decide) h

theorem digitsValue_ofNat (n : Nat) : digitsValue 10 (Text.ofNat n) = n :=
  (digitsValue_eq fun _ => isDigit_of_mem_ofNat).trans (Nat.ofDigitChars_toDigits (by decide) (by decide))

/-- Only zero starts with a zero. -/
theorem head?_ofNat {n : Nat} (h : 0 < n) : (Text.ofNat n).head? ≠ some '0' := by
  induction n using Nat.strongRecOn with
  | ind n ih =>
    unfold Text.ofNat at ih ⊢
    rw [Nat.toDigits_eq_if (by decide)]
    split_ifs with small
    · have nonzero : ∀ n < 10, 0 < n → [Nat.digitChar n].head? ≠ some '0' := by decide
      exact nonzero n small h
    · have front := ih (n / 10) (by omega) (by omega)
      obtain ⟨d, ds, eq⟩ := List.exists_cons_of_ne_nil (Nat.toDigits_ne_nil (n := n / 10) (b := 10))
      rw [eq] at front ⊢
      exact front

theorem exists_ofNat (n : Nat) : ∃ d ds, Text.ofNat n = d :: ds ∧ d.isDigit = true ∧
    (d = '0' → ds = []) := by
  obtain ⟨d, ds, eq⟩ := List.exists_cons_of_ne_nil (Nat.toDigits_ne_nil (n := n) (b := 10))
  refine ⟨d, ds, eq, isDigit_of_mem_ofNat (by rw [Text.ofNat, eq]; exact List.mem_cons_self), ?_⟩
  intro zero
  rcases Nat.eq_zero_or_pos n with rfl | pos
  · exact (List.cons.inj (eq.symm.trans (by decide : Nat.toDigits 10 0 = ['0']))).2
  · exact absurd (congrArg List.head? eq) (zero ▸ head?_ofNat pos)

theorem decimalDigits_ofNat (n : Nat) (rest : Text) :
    decimalDigits (Text.ofNat n ++ '\n' :: rest) = some (Text.ofNat n, '\n' :: rest) := by
  obtain ⟨d, ds, eq, digit, zero⟩ := exists_ofNat n
  by_cases first : d = '0'
  · rw [eq, zero first, first]
    rfl
  · have all : ∀ c ∈ d :: ds, c.isDigit = true := fun c mem => isDigit_of_mem_ofNat (eq ▸ mem)
    have read := moreDigits_line all rest
    rw [eq, List.cons_append] at *
    unfold decimalDigits
    split
    · rename_i same
      exact absurd (List.cons.inj same).1 first
    · rw [digits, if_pos digit, read]

theorem sign_of_digit (digit : c.isDigit = true) (s : Text) : sign (c :: s) = (false, c :: s) := by
  unfold sign
  split
  · rename_i eq
    rw [(List.cons.inj eq).1] at digit
    exact absurd digit (by decide)
  · rename_i eq
    rw [(List.cons.inj eq).1] at digit
    exact absurd digit (by decide)
  · rfl

theorem sign_ofNat (n : Nat) (rest : Text) :
    sign (Text.ofNat n ++ rest) = (false, Text.ofNat n ++ rest) := by
  obtain ⟨d, ds, eq, digit, -⟩ := exists_ofNat n
  rw [eq]
  exact sign_of_digit digit _

theorem float_ofNat (n : Nat) (rest : Text) : float (Text.ofNat n ++ '\n' :: rest) = none := by
  have decimal : decimalFloat (Text.ofNat n ++ '\n' :: rest) = none := by
    unfold decimalFloat
    rw [sign_ofNat]
    simp only [decimalDigits_ofNat]
    rfl
  have special : specialFloat (Text.ofNat n ++ '\n' :: rest) = none := by
    obtain ⟨d, ds, eq, digit, -⟩ := exists_ofNat n
    unfold specialFloat Reader.orElse Reader.literal
    rw [sign_ofNat, eq]
    have noInf : 'i' ≠ d := by
      rintro rfl
      exact absurd digit (by decide)
    have noNan : 'n' ≠ d := by
      rintro rfl
      exact absurd digit (by decide)
    simp [noInf, noNan]
  unfold float Reader.orElse
  rw [decimal]
  exact special

theorem inRange_natCast {n : Nat} (h : n < integerBound) : inRange n = some (.integer n) := by
  unfold inRange
  rw [if_pos]
  generalize integerBound = bound at h ⊢
  omega

theorem integer_decimal (based : ∀ c t, c ∈ ['x', 'o', 'b'] → s ≠ '0' :: c :: t)
    (positive : sign s = (false, s)) (read : decimalDigits s = some (ds, rest)) :
    integer s = (inRange (digitsValue 10 ds)).map fun v => (v, rest) := by
  unfold integer
  split
  · exact absurd rfl (based 'x' _ (by decide))
  · exact absurd rfl (based 'o' _ (by decide))
  · exact absurd rfl (based 'b' _ (by decide))
  · rw [positive]
    simp only [read, Option.bind_eq_bind]
    rw [Option.bind_some, if_neg Bool.false_ne_true]
    cases inRange (digitsValue 10 ds) <;> rfl

theorem integer_ofNat {n : Nat} (bound : n < integerBound) (rest : Text) :
    integer (Text.ofNat n ++ '\n' :: rest) = some (.integer n, '\n' :: rest) := by
  have based : ∀ c t, c ∈ ['x', 'o', 'b'] → Text.ofNat n ++ '\n' :: rest ≠ '0' :: c :: t := by
    intro c t letter eq
    obtain ⟨d, ds, text, digit, zero⟩ := exists_ofNat n
    rw [text, List.cons_append] at eq
    obtain ⟨first, behind⟩ := List.cons.inj eq
    rw [zero first] at behind
    rw [← (List.cons.inj behind).1] at letter
    exact absurd letter (by decide)
  rw [integer_decimal based (sign_ofNat n _) (decimalDigits_ofNat n rest), digitsValue_ofNat,
    inRange_natCast bound]
  rfl

/-- A number that is written is read back. -/
theorem value_ofNat {n : Nat} (bound : n < integerBound) (depth : Nat) (rest : Text) :
    value depth (Text.ofNat n ++ '\n' :: rest) = some (.integer n, '\n' :: rest) := by
  have noMoment : moment (Text.ofNat n ++ '\n' :: rest) = none :=
    moment_of_isNumberLine ⟨_, rest, fun _ => isDigit_of_mem_ofNat, rfl⟩
  have number : Reader.orElse moment (Reader.orElse float integer) (Text.ofNat n ++ '\n' :: rest) =
      some (.integer n, '\n' :: rest) := by
    unfold Reader.orElse
    simp only [noMoment, float_ofNat, integer_ofNat bound]
  obtain ⟨d, ds, eq, digit, -⟩ := exists_ofNat n
  have ne {c : Char} (other : c.isDigit = false) : d ≠ c := by
    rintro rfl
    exact Bool.false_ne_true (other.symm.trans digit)
  rw [eq, List.cons_append] at number ⊢
  rw [value.eq_def]
  simp only [ne (c := '"') (by decide), ne (c := '\x27') (by decide), ne (c := '[') (by decide),
    ne (c := '\x7b') (by decide), ne (c := 't') (by decide), ne (c := 'f') (by decide),
    decide_false, Bool.or_self, Bool.false_eq_true, if_false]
  exact number

end HeaderFlattening.Toml
