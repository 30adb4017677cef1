import HeaderFlattening.Toml.Quoted
import Mathlib.Tactic.SplitIfs

/-!
A string that is written is read back. Between double quotes each character is read back from its
escaped form; between single quotes it stands as it is. Of several quotes in a row at most two stand
before the closing three, so that the closing ones are found where they are.
-/

set_option autoImplicit false
namespace HeaderFlattening.Toml

variable {c q : Char} {s t rest : Text}

theorem toNat_lt_of_isCode (h : isCode c = true) : c.toNat < 128 := by
  simp only [isCode, Reader.isPlain, Bool.and_eq_true, Bool.not_eq_true', Bool.or_eq_false_iff,
    Bool.and_eq_false_iff, decide_eq_false_iff_not] at h
  omega

theorem plain_of_not_isCode (h : isCode c = false) : c = '\n' ∨ Reader.isPlain c = true := by
  simp only [isCode, Bool.and_eq_false_iff, Bool.not_eq_false', decide_eq_false_iff_not] at h
  exact h.symm.imp_left Classical.not_not.1

/-- The number of a control character is read back. -/
theorem codePoint_hexByte {n : Nat} (h : n < 128) (s : Text) :
    codePoint 4 ('0' :: '0' :: (hexByte n ++ s)) = some (Char.ofNat n, s) := by
  have digits : ∀ n < 128, ('0' :: '0' :: hexByte n).all isHexDigit = true ∧
      digitsValue 16 ('0' :: '0' :: hexByte n) = n := by decide +kernel
  obtain ⟨all, value⟩ := digits n h
  have valid : n.isValidChar := .inl (by omega)
  have taken : ('0' :: '0' :: (hexByte n ++ s)).take 4 = '0' :: '0' :: hexByte n := rfl
  have left : ('0' :: '0' :: (hexByte n ++ s)).drop 4 = s := rfl
  have length : ('0' :: '0' :: hexByte n).length = 4 := rfl
  simp only [codePoint, taken, left, length, all, value, valid, decide_true, Bool.and_self, if_true]

/-- A character is shown as an escape that is read back, or as it is. -/
theorem exists_shown (lines : Bool) (c : Char) :
    (∃ code, shown lines c = '\\' :: code ∧ ∀ s, escape (code ++ s) = some (c, s) ∧
      continuation (code ++ s) = none) ∨
    (shown lines c = [c] ∧ c ≠ '\\' ∧ c ≠ '\r' ∧
      (Reader.isPlain c = true ∨ (c = '\n' ∧ lines = true))) := by
  unfold shown
  split
  · exact .inl ⟨['b'], rfl, fun s => ⟨rfl, rfl⟩⟩
  · exact .inl ⟨['t'], rfl, fun s => ⟨rfl, rfl⟩⟩
  · cases lines with
    | true => exact .inr ⟨rfl, by decide, by decide, .inr ⟨rfl, rfl⟩⟩
    | false => exact .inl ⟨['n'], rfl, fun s => ⟨rfl, rfl⟩⟩
  · exact .inl ⟨['f'], rfl, fun s => ⟨rfl, rfl⟩⟩
  · exact .inl ⟨['r'], rfl, fun s => ⟨rfl, rfl⟩⟩
  · exact .inl ⟨['\\'], rfl, fun s => ⟨rfl, rfl⟩⟩
  · rename_i backspace tab newline feed return' backslash
    split_ifs with code
    · refine .inl ⟨'u' :: '0' :: '0' :: hexByte c.toNat, rfl, fun s => ⟨?_, rfl⟩⟩
      have read := codePoint_hexByte (toNat_lt_of_isCode code) s
      rw [Char.ofNat_toNat] at read
      exact read
    · have plain := plain_of_not_isCode (Bool.eq_false_iff.2 code)
      exact .inr ⟨rfl, backslash, return', .inl (plain.resolve_left newline)⟩

/-! Between double quotes -/

theorem basicRest_escape (h : escape s = some (c, rest)) :
    basicRest ('\\' :: s) = (basicRest rest).map fun r => (c :: r.1, r.2) := by
  rw [basicRest, if_neg (by decide), if_pos rfl]
  split <;> simp_all

theorem basicRest_plain (quote : c ≠ '"') (backslash : c ≠ '\\') (plain : Reader.isPlain c = true)
    (s : Text) : basicRest (c :: s) = (basicRest s).map fun r => (c :: r.1, r.2) := by
  rw [basicRest, if_neg quote, if_neg backslash, if_pos plain]

theorem basicRest_shown (h : c ≠ '"') (s : Text) :
    basicRest (shown false c ++ s) = (basicRest s).map fun r => (c :: r.1, r.2) := by
  rcases exists_shown false c with ⟨code, eq, read⟩ | ⟨eq, backslash, -, plain | ⟨-, lines⟩⟩
  · rw [eq]
    exact basicRest_escape (read s).1
  · rw [eq]
    exact basicRest_plain h backslash plain s
  · cases lines

/-- A text on one line between double quotes is read back. -/
theorem basicRest_escaped (t rest : Text) :
    basicRest (escaped 0 false 0 t ++ '"' :: rest) = some (t, rest) := by
  induction t with
  | nil => rw [escaped, List.nil_append, basicRest, if_pos rfl]
  | cons c t ih =>
    rw [escaped]
    split_ifs with quote more
    · rw [quote, List.cons_append, List.cons_append, basicRest_escape rfl, ih]
      rfl
    · exact absurd (Nat.zero_le 0) more
    · rw [List.append_assoc, basicRest_shown quote, ih]
      rfl

/-! Between single quotes -/

theorem literalRest_append (quote : '\x27' ∉ t) (plain : ∀ c ∈ t, Reader.isPlain c = true)
    (rest : Text) : literalRest (t ++ '\x27' :: rest) = some (t, rest) := by
  induction t with
  | nil => rfl
  | cons c t ih =>
    rw [List.mem_cons, not_or] at quote
    have others := ih quote.2 fun d mem => plain d (List.mem_cons_of_mem c mem)
    rw [List.cons_append, literalRest, if_neg (Ne.symm quote.1),
      if_pos (plain c List.mem_cons_self), others]
    rfl

/-! Runs of quotes -/

theorem quoteRun_cons_self (q : Char) (s : Text) : quoteRun q (q :: s) = quoteRun q s + 1 := by
  simp [quoteRun]

theorem quoteRun_cons_of_ne (h : c ≠ q) (s : Text) : quoteRun q (c :: s) = 0 := by
  simp [quoteRun, h]

/-- The closing quotes, with up to two quotes before them. -/
theorem closing_replicate (apart : rest.head? ≠ some q) {n : Nat} (few : n ≤ 2) :
    closing q (List.replicate n q ++ q :: q :: q :: rest) = some (List.replicate n q, rest) := by
  have none : quoteRun q rest = 0 := by
    cases rest with
    | nil => rfl
    | cons c rest => exact quoteRun_cons_of_ne (fun same => apart (congrArg some same)) rest
  have run : quoteRun q (List.replicate n q ++ q :: q :: q :: rest) = n + 3 := by
    induction n with
    | zero => simp only [List.replicate_zero, List.nil_append, quoteRun_cons_self, none]
    | succ n ih =>
      rw [List.replicate_succ, List.cons_append, quoteRun_cons_self, ih (by omega)]
  have split : List.replicate n q ++ q :: q :: q :: rest =
      (List.replicate n q ++ [q, q, q]) ++ rest := by
    rw [List.append_assoc]
    rfl
  have length : (List.replicate n q ++ [q, q, q]).length = n + 3 := by simp
  have most : min (n + 3) 5 = n + 3 := by omega
  simp only [closing, run, most, if_pos (Nat.le_add_left 3 n), Nat.add_sub_cancel]
  rw [split, ← length, List.drop_left]

theorem closing_of_run (h : quoteRun q s ≤ 2) : closing q s = none := by
  unfold closing
  rw [if_neg]
  omega

theorem closing_of_ne (h : c ≠ q) (s : Text) : closing q (c :: s) = none :=
  closing_of_run (by rw [quoteRun_cons_of_ne h]; omega)

/-! Between three double quotes -/

theorem basicLines_closing {r : Text × Text} (h : closing '"' s = some r) : basicLines s = some r := by
  rw [basicLines.eq_def, h]

theorem basicLines_escape (noLine : continuation s = none) (h : escape s = some (c, rest)) :
    basicLines ('\\' :: s) = (basicLines rest).map fun r => (c :: r.1, r.2) := by
  rw [basicLines.eq_def, closing_of_ne (by decide)]
  simp only [if_true]
  split
  · simp_all
  · split <;> simp_all

theorem basicLines_plain (open' : closing '"' (c :: s) = none) (backslash : c ≠ '\\')
    (return' : c ≠ '\r') (plain : c = '\n' ∨ Reader.isPlain c = true) :
    basicLines (c :: s) = (basicLines s).map fun r => (c :: r.1, r.2) := by
  rw [basicLines.eq_def, open']
  simp only [if_neg backslash, if_neg return']
  rw [if_pos (by simpa using plain)]

theorem basicLines_shown (h : c ≠ '"') (s : Text) :
    basicLines (shown true c ++ s) = (basicLines s).map fun r => (c :: r.1, r.2) := by
  rcases exists_shown true c with ⟨code, eq, read⟩ | ⟨eq, backslash, return', plain⟩
  · rw [eq]
    exact basicLines_escape (read s).2 (read s).1
  · rw [eq]
    exact basicLines_plain (closing_of_ne h s) backslash return' (plain.symm.imp_left And.left)

/-- Of the quotes that start an escaped text, at most two stand together: the text holds nothing else,
or something else follows them. -/
theorem quoteRun_escaped (t rest : Text) {run : Nat} (few : run ≤ 2) :
    (∃ n, t = List.replicate n '"' ∧ escaped 2 true run t = t ∧ n + run ≤ 2) ∨
      quoteRun '"' (escaped 2 true run t ++ rest) + run ≤ 2 := by
  induction t generalizing run with
  | nil => exact .inl ⟨0, rfl, rfl, by omega⟩
  | cons c t ih =>
    rw [escaped]
    split_ifs with quote full
    · refine .inr ?_
      rw [List.cons_append, quoteRun_cons_of_ne (by decide)]
      omega
    · subst quote
      rcases @ih (run + 1) (by omega) with ⟨n, eq, same, fit⟩ | less
      · refine .inl ⟨n + 1, ?_, by rw [same], by omega⟩
        rw [List.replicate_succ, ← eq]
      · refine .inr ?_
        rw [List.cons_append, quoteRun_cons_self]
        omega
    · refine .inr ?_
      rcases exists_shown true c with ⟨code, eq, -⟩ | ⟨eq, -⟩
      · rw [eq, List.cons_append, List.cons_append, quoteRun_cons_of_ne (by decide)]
        omega
      · rw [eq, List.cons_append, List.cons_append, quoteRun_cons_of_ne quote]
        omega

/-- A text between three double quotes is read back. -/
theorem basicLines_escaped (apart : rest.head? ≠ some '"') (t : Text) {run : Nat} (few : run ≤ 2) :
    basicLines (escaped 2 true run t ++ '"' :: '"' :: '"' :: rest) = some (t, rest) := by
  induction t generalizing run with
  | nil => exact basicLines_closing (closing_replicate (n := 0) apart (by omega))
  | cons c t ih =>
    rcases quoteRun_escaped (c :: t) ('"' :: '"' :: '"' :: rest) few with ⟨n, eq, same, fit⟩ | less
    · rw [same, eq]
      exact basicLines_closing (closing_replicate apart (by omega))
    · have open' : closing '"' (escaped 2 true run (c :: t) ++ '"' :: '"' :: '"' :: rest) = none :=
        closing_of_run (by omega)
      rw [escaped] at open' ⊢
      split_ifs at open' ⊢ with quote full
      · rw [quote, List.cons_append, List.cons_append, basicLines_escape rfl rfl, ih (by omega)]
        rfl
      · rw [List.cons_append] at open' ⊢
        rw [basicLines_plain open' (by rw [quote]; decide) (by rw [quote]; decide)
          (.inr (by rw [quote]; decide)), ih (by omega)]
        rfl
      · rw [List.append_assoc, basicLines_shown quote, ih (by omega)]
        rfl

/-! Between three single quotes -/

theorem quoteRun_le_longestRun (q : Char) (t : Text) : quoteRun q t ≤ longestRun q t := by
  cases t with
  | nil => exact Nat.le_refl 0
  | cons c t => exact Nat.le_max_left _ _

theorem quoteRun_append (q : Char) (t s : Text) :
    t = List.replicate (quoteRun q t) q ∨ quoteRun q (t ++ s) = quoteRun q t := by
  induction t with
  | nil => exact .inl rfl
  | cons c t ih =>
    by_cases same : c = q
    · rw [same, List.cons_append, quoteRun_cons_self, quoteRun_cons_self]
      refine ih.imp (fun eq => ?_) (fun eq => by rw [eq])
      rw [List.replicate_succ, ← eq]
    · rw [List.cons_append, quoteRun_cons_of_ne same, quoteRun_cons_of_ne same]
      exact .inr rfl

theorem literalLines_closing {r : Text × Text} (h : closing '\x27' s = some r) :
    literalLines s = some r := by
  rw [literalLines.eq_def, h]

theorem literalLines_plain (open' : closing '\x27' (c :: s) = none) (code : isCode c = false) :
    literalLines (c :: s) = (literalLines s).map fun r => (c :: r.1, r.2) := by
  have return' : c ≠ '\r' := by
    rintro rfl
    exact absurd code (by decide)
  have plain : (decide (c = '\n') || Reader.isPlain c) = true := by
    rw [Bool.or_eq_true, decide_eq_true_eq]
    exact plain_of_not_isCode code
  rw [literalLines.eq_def, open']
  split
  · simp_all
  · simp_all

/-- A text between three single quotes is read back. -/
theorem literalLines_append (apart : rest.head? ≠ some '\x27') {t : Text}
    (codes : ∀ c ∈ t, isCode c = false) (few : longestRun '\x27' t ≤ 2) :
    literalLines (t ++ '\x27' :: '\x27' :: '\x27' :: rest) = some (t, rest) := by
  induction t with
  | nil => exact literalLines_closing (closing_replicate (n := 0) apart (by omega))
  | cons c t ih =>
    have short := Nat.le_trans (quoteRun_le_longestRun '\x27' (c :: t)) few
    rcases quoteRun_append '\x27' (c :: t) ('\x27' :: '\x27' :: '\x27' :: rest) with eq | stops
    · rw [eq]
      exact literalLines_closing (closing_replicate apart short)
    · have open' := closing_of_run (stops ▸ short)
      have others := ih (fun d mem => codes d (List.mem_cons_of_mem c mem))
        (Nat.le_trans (Nat.le_max_right _ _) few)
      rw [List.cons_append] at open' ⊢
      rw [literalLines_plain open' (codes c List.mem_cons_self), others]
      rfl

/-! All forms -/

theorem string_of_line (basic : ∀ r, s ≠ '"' :: '"' :: '"' :: r)
    (literal : ∀ r, s ≠ '\x27' :: '\x27' :: '\x27' :: r) : string s = lineString s := by
  unfold string
  split
  · exact absurd rfl (basic _)
  · exact absurd rfl (literal _)
  · rfl

/-- The line end that is written first is the one that does not count. -/
theorem skipNewline_opening (h : '\n' ∉ t → ∀ c ∈ s.head?, c ≠ '\n' ∧ c ≠ '\r') :
    skipNewline (opening t ++ s) = s := by
  unfold opening
  split_ifs with lines
  · rfl
  · have ends := h (mt List.contains_iff_mem.2 lines)
    cases s with
    | nil => rfl
    | cons c s =>
      obtain ⟨newline, return'⟩ := ends c rfl
      unfold skipNewline Reader.newline
      simp [newline, return']

theorem head?_escaped {quotes : Nat} {lines : Bool} {run : Nat} (t s : Text) :
    ∀ c ∈ (escaped quotes lines run t ++ '"' :: s).head?, c = '"' ∨ c = '\\' ∨ (c ∈ t ∧ c ≠ '\r') := by
  intro d first
  cases t with
  | nil => exact .inl (Option.some.inj first).symm
  | cons c t =>
    rw [escaped] at first
    split_ifs at first with quote full
    · exact .inr (.inl (Option.some.inj first).symm)
    · exact .inl ((Option.some.inj first).symm.trans quote)
    · rcases exists_shown lines c with ⟨code, eq, -⟩ | ⟨eq, -, return', -⟩
      · rw [eq] at first
        exact .inr (.inl (Option.some.inj first).symm)
      · rw [eq] at first
        obtain rfl := Option.some.inj first
        exact .inr (.inr ⟨List.mem_cons_self, return'⟩)

theorem escaped_ne_quote (c : Char) (t s r : Text) : escaped 0 false 0 (c :: t) ++ s ≠ '"' :: r := by
  intro eq
  have first := congrArg List.head? eq
  rw [escaped] at first
  split_ifs at first with quote full
  · cases first
  · exact full (Nat.zero_le 0)
  · rcases exists_shown false c with ⟨code, eq, -⟩ | ⟨eq, -⟩
    · rw [eq] at first
      cases first
    · rw [eq] at first
      exact quote (Option.some.inj first)

theorem string_basic (apart : rest.head? ≠ some '"') (t : Text) :
    string (Form.basic.write t ++ rest) = some (t, rest) := by
  have source : Form.basic.write t ++ rest = '"' :: (escaped 0 false 0 t ++ '"' :: rest) := by
    simp [Form.write]
  rw [source, string_of_line]
  · exact basicRest_escaped t rest
  · intro r eq
    have behind := (List.cons.inj eq).2
    cases t with
    | nil => exact apart (congrArg List.head? (List.cons.inj behind).2)
    | cons c t => exact escaped_ne_quote c t _ _ behind
  · exact fun r eq => absurd (List.cons.inj eq).1 (by decide)

theorem string_literal (codes : ∀ c ∈ t, Reader.isPlain c = true) (quote : '\x27' ∉ t) (ne : t ≠ [])
    (rest : Text) : string (Form.literal.write t ++ rest) = some (t, rest) := by
  have source : Form.literal.write t ++ rest = '\x27' :: (t ++ '\x27' :: rest) := by
    simp [Form.write]
  rw [source, string_of_line]
  · exact literalRest_append quote codes rest
  · exact fun r eq => absurd (List.cons.inj eq).1 (by decide)
  · intro r eq
    obtain ⟨c, t, rfl⟩ := List.exists_cons_of_ne_nil ne
    exact quote (List.mem_cons.2 (.inl (List.cons.inj (List.cons.inj eq).2).1.symm))

theorem string_basicLines (apart : rest.head? ≠ some '"') (t : Text) :
    string (Form.basicLines.write t ++ rest) = some (t, rest) := by
  have source : Form.basicLines.write t ++ rest =
      '"' :: '"' :: '"' :: (opening t ++ (escaped 2 true 0 t ++ '"' :: '"' :: '"' :: rest)) := by
    simp [Form.write]
  have skip : skipNewline (opening t ++ (escaped 2 true 0 t ++ '"' :: '"' :: '"' :: rest)) =
      escaped 2 true 0 t ++ '"' :: '"' :: '"' :: rest := by
    refine skipNewline_opening fun line c first => ?_
    rcases head?_escaped t _ c first with rfl | rfl | ⟨mem, return'⟩
    · decide
    · decide
    · exact ⟨fun eq => line (eq ▸ mem), return'⟩
  rw [source, string, skip]
  exact basicLines_escaped apart t (Nat.zero_le 2)

theorem string_literalLines (apart : rest.head? ≠ some '\x27') (codes : ∀ c ∈ t, isCode c = false)
    (few : longestRun '\x27' t ≤ 2) : string (Form.literalLines.write t ++ rest) = some (t, rest) := by
  have source : Form.literalLines.write t ++ rest =
      '\x27' :: '\x27' :: '\x27' :: (opening t ++ (t ++ '\x27' :: '\x27' :: '\x27' :: rest)) := by
    simp [Form.write]
  have skip : skipNewline (opening t ++ (t ++ '\x27' :: '\x27' :: '\x27' :: rest)) =
      t ++ '\x27' :: '\x27' :: '\x27' :: rest := by
    refine skipNewline_opening fun line c first => ?_
    cases t with
    | nil =>
      obtain rfl := Option.some.inj first
      decide
    | cons d t =>
      obtain rfl := Option.some.inj first
      refine ⟨fun eq => line (eq ▸ List.mem_cons_self), ?_⟩
      rintro rfl
      exact absurd (codes _ List.mem_cons_self) (by decide)
  rw [source, string, skip]
  exact literalLines_append apart codes few

/-- A text that is written is read back, in whatever form it is written. -/
theorem string_writeString (basic : rest.head? ≠ some '"') (literal : rest.head? ≠ some '\x27')
    (t : Text) : string (writeString t ++ rest) = some (t, rest) := by
  unfold writeString Form.of
  dsimp only
  split_ifs with plain quoted escapes long lines
  · exact string_basic basic t
  · simp only [Bool.and_eq_true, Bool.not_eq_true'] at quoted
    obtain ⟨⟨codes, lines⟩, quote⟩ := quoted
    have line : '\n' ∉ t := fun mem => Bool.false_ne_true (lines.symm.trans (List.contains_iff_mem.2 mem))
    refine string_literal (fun c mem => ?_) (fun mem => ?_) ?_ rest
    · have code := Bool.eq_false_iff.2 (List.any_eq_false.1 codes c mem)
      exact (plain_of_not_isCode code).resolve_left fun same => line (same ▸ mem)
    · exact Bool.false_ne_true (quote.symm.trans (List.contains_iff_mem.2 mem))
    · rintro rfl
      exact plain rfl
  · exact string_basicLines basic t
  · simp only [Bool.and_eq_true, Bool.not_eq_true', decide_eq_true_eq] at long
    refine string_literalLines literal (fun c mem => ?_) long.2
    exact Bool.eq_false_iff.2 (List.any_eq_false.1 long.1 c mem)
  · exact string_basicLines basic t
  · exact string_basic basic t

end HeaderFlattening.Toml
