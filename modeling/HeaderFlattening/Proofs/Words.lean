import HeaderFlattening.Line
import HeaderFlattening.Text.Word
import Mathlib.Tactic.SplitIfs

/-!
The words of a line as they follow from its text: blanks in front do not matter, a delimiter is a
word by itself, and a run of other characters is one word if no such character follows it.
-/

set_option autoImplicit false
namespace HeaderFlattening
namespace Token

/-- The texts of the tokens in a text. -/
def wordsOf (s : Text) : List Text := (scan s).1.map Token.text

theorem not_inner_of_isDelimiter {c : Char} (h : isDelimiter c = true) : isInner c = false := by
  rw [isInner, h, Bool.not_true, Bool.and_false]

theorem not_inner_of_isBlank {c : Char} (h : Text.isBlank c = true) : isInner c = false := by
  rw [isInner, h]
  rfl

theorem not_blank_of_isInner {c : Char} (h : isInner c = true) : Text.isBlank c = false := by
  cases blank : Text.isBlank c with
  | false => rfl
  | true => exact absurd (h.symm.trans (not_inner_of_isBlank blank)) (by decide)

theorem inner_of_apart (ok : Char → Bool) {c : Char} (h : ok c = true)
    (blanks : [' ', '\t', '\n', '\r', '\x0b', '\x0c'].all (!ok ·) = true)
    (others : delimiters.all (!ok ·) = true) : isInner c = true := by
  rw [isInner, Bool.and_eq_true]
  constructor
  · rw [Bool.not_eq_true']
    refine Bool.eq_false_iff.2 fun blank => ?_
    have mem : c ∈ [' ', '\t', '\n', '\r', '\x0b', '\x0c'] := by
      simpa [Text.isBlank, or_assoc] using blank
    have apart := List.all_eq_true.1 blanks c mem
    rw [h] at apart
    exact Bool.false_ne_true apart
  · rw [Bool.not_eq_true']
    refine Bool.eq_false_iff.2 fun delimiter => ?_
    have apart := List.all_eq_true.1 others c (List.contains_iff_mem.1 delimiter)
    rw [h] at apart
    exact Bool.false_ne_true apart

theorem inner_of_isNameChar {c : Char} (h : Text.isNameChar c = true) : isInner c = true :=
  inner_of_apart _ h (by decide) (by decide)

theorem inner_of_isWord {c : Char} (h : Text.isWord c = true) : isInner c = true :=
  inner_of_apart _ h (by decide) (by decide)

theorem not_blank_of_isDelimiter {c : Char} (h : isDelimiter c = true) : Text.isBlank c = false := by
  cases blank : Text.isBlank c with
  | false => rfl
  | true =>
    have all : delimiters.all (!Text.isBlank ·) = true := by decide
    have apart := List.all_eq_true.1 all c (List.contains_iff_mem.1 h)
    rw [blank] at apart
    exact absurd apart Bool.false_ne_true

theorem wordsOf_cons_blank {c : Char} (h : Text.isBlank c = true) (s : Text) :
    wordsOf (c :: s) = wordsOf s := by
  unfold wordsOf
  rw [scan]
  cases tokens : (scan s).1 with
  | nil => simp [prepend, h]
  | cons t ts => simp [prepend, h]

theorem wordsOf_blank_append {b : Text} (h : b.all Text.isBlank = true) (s : Text) :
    wordsOf (b ++ s) = wordsOf s := by
  induction b with
  | nil => rfl
  | cons c b ih =>
    rw [List.all_cons, Bool.and_eq_true] at h
    rw [List.cons_append, wordsOf_cons_blank h.1, ih h.2]

theorem wordsOf_blank {b : Text} (h : b.all Text.isBlank = true) : wordsOf b = [] := by
  rw [← List.append_nil b, wordsOf_blank_append h]
  rfl

theorem prepend_blank {c : Char} (h : Text.isBlank c = true) (t : Token) (ts : List Token)
    (tail : Text) : prepend c (t :: ts) tail = (⟨c :: t.gap, t.text⟩ :: ts, tail) := if_pos h

theorem prepend_last {c : Char} (h : Text.isBlank c = false) (tail : Text) :
    prepend c [] tail = ([⟨[], [c]⟩], tail) := if_neg (ne_true_of_eq_false h)

theorem prepend_joined {c : Char} {t : Token}
    (h : (isInner c && t.gap.isEmpty && t.text.head?.any isInner) = true) (ts : List Token)
    (tail : Text) : prepend c (t :: ts) tail = (⟨[], c :: t.text⟩ :: ts, tail) := by
  have inner : isInner c = true := by
    rw [Bool.and_eq_true, Bool.and_eq_true] at h
    exact h.1.1
  exact (if_neg (ne_true_of_eq_false (not_blank_of_isInner inner))).trans (if_pos h)

theorem prepend_apart {c : Char} {t : Token} (blank : Text.isBlank c = false)
    (h : (isInner c && t.gap.isEmpty && t.text.head?.any isInner) = false) (ts : List Token)
    (tail : Text) : prepend c (t :: ts) tail = (⟨[], [c]⟩ :: t :: ts, tail) :=
  (if_neg (ne_true_of_eq_false blank)).trans (if_neg (ne_true_of_eq_false h))

/-- Blanks in front of a text go to the gap of its first token. -/
theorem scan_blank_append {b s : Text} {t : Token} {ts : List Token} {tail : Text}
    (h : b.all Text.isBlank = true) (tokens : scan s = (t :: ts, tail)) :
    scan (b ++ s) = (⟨b ++ t.gap, t.text⟩ :: ts, tail) := by
  induction b with
  | nil => exact tokens
  | cons c b ih =>
    rw [List.all_cons, Bool.and_eq_true] at h
    rw [List.cons_append, scan, ih h.2]
    exact prepend_blank h.1 _ ts tail

theorem scan_delimiter {c : Char} (h : isDelimiter c = true) (s : Text) :
    scan (c :: s) = (⟨[], [c]⟩ :: (scan s).1, (scan s).2) := by
  have blank := not_blank_of_isDelimiter h
  rw [scan]
  cases (scan s).1 with
  | nil => exact prepend_last blank _
  | cons t ts =>
    refine prepend_apart blank ?_ ts _
    rw [not_inner_of_isDelimiter h, Bool.false_and, Bool.false_and]

theorem wordsOf_delimiter {c : Char} (h : isDelimiter c = true) (s : Text) :
    wordsOf (c :: s) = [c] :: wordsOf s := by
  unfold wordsOf
  rw [scan_delimiter h]
  rfl

/-- The first token of a text, and the text behind it. -/
structure First (s : Text) (t : Token) (rest : Text) : Prop where
  source : s = t.gap ++ t.text ++ rest
  blank : t.gap.all Text.isBlank = true
  word : t.text ≠ []
  whole : t.text.head?.any isInner = true → rest.head?.any isInner = false

theorem blank_of_scan_nil {s : Text} (h : (scan s).1 = []) : s.all Text.isBlank = true := by
  induction s with
  | nil => rfl
  | cons c s ih =>
    rw [scan] at h
    cases tokens : (scan s).1 with
    | nil =>
      rw [List.all_cons, ih tokens, Bool.and_true]
      cases blank : Text.isBlank c with
      | true => rfl
      | false =>
        rw [tokens, prepend_last blank] at h
        cases h
    | cons t ts =>
      rw [tokens, prepend] at h
      split_ifs at h

theorem head?_not_inner {s : Text} (h : (scan s).1 = []) : s.head?.any isInner = false := by
  have blank := blank_of_scan_nil h
  cases s with
  | nil => rfl
  | cons c s =>
    rw [List.all_cons, Bool.and_eq_true] at blank
    exact not_inner_of_isBlank blank.1

theorem First.head?_not_inner {s rest : Text} {t : Token} (first : First s t rest)
    (h : (t.gap.isEmpty && t.text.head?.any isInner) = false) : s.head?.any isInner = false := by
  rw [first.source]
  cases gap : t.gap with
  | nil =>
    rw [gap] at h
    cases text : t.text with
    | nil => exact absurd text first.word
    | cons d w =>
      rw [text] at h
      exact h
  | cons d g =>
    have blanks := first.blank
    rw [gap, List.all_cons, Bool.and_eq_true] at blanks
    exact not_inner_of_isBlank blanks.1

/-- The tokens behind the first are those of the text behind it. -/
theorem exists_first {s : Text} {t : Token} {ts : List Token} {tail : Text}
    (h : scan s = (t :: ts, tail)) : ∃ rest, First s t rest ∧ scan rest = (ts, tail) := by
  induction s generalizing t ts tail with
  | nil => cases h
  | cons c s ih =>
    rw [scan] at h
    cases tokens : (scan s).1 with
    | nil =>
      rw [tokens] at h
      cases blank : Text.isBlank c with
      | true =>
        rw [prepend, if_pos blank] at h
        cases h
      | false =>
        rw [prepend_last blank] at h
        cases h
        refine ⟨s, ⟨rfl, rfl, List.cons_ne_nil _ _, fun _ => Token.head?_not_inner tokens⟩, ?_⟩
        rw [← tokens]
    | cons u us =>
      obtain ⟨rest, first, behind⟩ := ih (Prod.ext tokens rfl)
      rw [tokens] at h
      cases blank : Text.isBlank c with
      | true =>
        rw [prepend_blank blank] at h
        cases h
        refine ⟨rest, ⟨?_, ?_, first.word, first.whole⟩, behind⟩
        · exact congrArg (c :: ·) first.source
        · exact Bool.and_eq_true_iff.2 ⟨blank, first.blank⟩
      | false =>
        cases joins : isInner c && u.gap.isEmpty && u.text.head?.any isInner with
        | true =>
          rw [prepend_joined joins] at h
          cases h
          simp only [Bool.and_eq_true, List.isEmpty_iff] at joins
          refine ⟨rest, ⟨?_, rfl, List.cons_ne_nil _ _, fun _ => first.whole joins.2⟩, behind⟩
          have source := first.source
          rw [joins.1.2, List.nil_append] at source
          exact congrArg (c :: ·) source
        | false =>
          rw [prepend_apart blank joins] at h
          cases h
          refine ⟨s, ⟨rfl, rfl, List.cons_ne_nil _ _, fun inner => ?_⟩, ?_⟩
          · rw [show isInner c = true from inner, Bool.true_and] at joins
            exact first.head?_not_inner joins
          · rw [← tokens]

/-- A run of inner characters is one token if no such character follows it. -/
theorem scan_inner {w s : Text} (ne : w ≠ []) (inner : w.all isInner = true)
    (stops : s.head?.any isInner = false) :
    scan (w ++ s) = (⟨[], w⟩ :: (scan s).1, (scan s).2) := by
  induction w with
  | nil => exact absurd rfl ne
  | cons c w ih =>
    rw [List.all_cons, Bool.and_eq_true] at inner
    have blank := not_blank_of_isInner inner.1
    rw [List.cons_append, scan]
    cases w with
    | nil =>
      rw [List.nil_append]
      cases tokens : (scan s).1 with
      | nil => exact prepend_last blank _
      | cons t ts =>
        obtain ⟨rest, first, -⟩ := exists_first (Prod.ext tokens rfl)
        refine prepend_apart blank ?_ ts _
        rw [inner.1, Bool.true_and]
        cases joins : t.gap.isEmpty && t.text.head?.any isInner with
        | false => rfl
        | true =>
          rw [Bool.and_eq_true, List.isEmpty_iff] at joins
          obtain ⟨d, v, text⟩ := List.exists_cons_of_ne_nil first.word
          rw [first.source, joins.1, text] at stops
          rw [text] at joins
          exact joins.2.symm.trans stops
    | cons d w =>
      rw [ih (List.cons_ne_nil d w) inner.2]
      refine prepend_joined ?_ _ _
      rw [List.all_cons, Bool.and_eq_true] at inner
      rw [inner.1]
      exact inner.2.1

theorem wordsOf_inner {w s : Text} (ne : w ≠ []) (inner : w.all isInner = true)
    (stops : s.head?.any isInner = false) : wordsOf (w ++ s) = w :: wordsOf s := by
  unfold wordsOf
  rw [scan_inner ne inner stops]
  rfl

/-- A delimiter parts the tokens before it from those behind it. -/
theorem scan_append_delimiter {c : Char} (h : isDelimiter c = true) (a b : Text) :
    scan (a ++ c :: b) = ((scan a).1 ++ ⟨(scan a).2, [c]⟩ :: (scan b).1, (scan b).2) := by
  induction a with
  | nil => exact scan_delimiter h b
  | cons d a ih =>
    have apart (t : Token) (text : t.text = [c]) :
        (isInner d && t.gap.isEmpty && t.text.head?.any isInner) = false := by
      rw [text, List.head?_cons, Option.any_some, not_inner_of_isDelimiter h, Bool.and_false]
    rw [List.cons_append, scan, ih, scan]
    cases (scan a).1 with
    | nil =>
      cases blank : Text.isBlank d with
      | true =>
        rw [List.nil_append, prepend_blank blank, prepend, if_pos blank]
        rfl
      | false =>
        rw [List.nil_append, prepend_apart blank (apart _ rfl), prepend_last blank]
        rfl
    | cons t ts =>
      rw [List.cons_append]
      cases blank : Text.isBlank d with
      | true =>
        rw [prepend_blank blank, prepend_blank blank]
        rfl
      | false =>
        cases joins : isInner d && t.gap.isEmpty && t.text.head?.any isInner with
        | true =>
          rw [prepend_joined joins, prepend_joined joins]
          rfl
        | false =>
          rw [prepend_apart blank joins, prepend_apart blank joins]
          rfl

theorem scan_blank {b : Text} (h : b.all Text.isBlank = true) : scan b = ([], b) := by
  induction b with
  | nil => rfl
  | cons c b ih =>
    rw [List.all_cons, Bool.and_eq_true] at h
    rw [scan, ih h.2]
    exact if_pos h.1

/-- Behind blanks the first token goes on as far as it can. -/
theorem scan_first {b w : Text} (blank : b.all Text.isBlank = true) (ne : w ≠ [])
    (inner : w.all isInner = true) (s : Text) :
    scan (b ++ (w ++ s)) = (⟨b, w ++ s.takeWhile isInner⟩ :: (scan (s.dropWhile isInner)).1,
      (scan (s.dropWhile isInner)).2) := by
  have all : (w ++ s.takeWhile isInner).all isInner = true := by
    rw [List.all_append, inner, List.all_takeWhile]
    rfl
  have stops : (s.dropWhile isInner).head?.any isInner = false := by
    have behind := List.head?_dropWhile_not isInner s
    cases rest : (s.dropWhile isInner).head? with
    | none => rfl
    | some c =>
      rw [rest] at behind
      exact behind
  have scanned := scan_inner (s := s.dropWhile isInner) (by simp [ne]) all stops
  rw [List.append_assoc, List.takeWhile_append_dropWhile] at scanned
  have front := scan_blank_append blank scanned
  rw [List.append_nil] at front
  exact front

theorem mem_of_mem_wordsOf {s w : Text} (h : w ∈ wordsOf s) {c : Char} (mem : c ∈ w) : c ∈ s := by
  obtain ⟨t, token, rfl⟩ := List.mem_map.1 h
  rw [← append_tail s]
  apply List.mem_append_left
  exact List.mem_flatMap.2 ⟨t, token, List.mem_append_right _ mem⟩

theorem wordsOf_append_delimiter {c : Char} (h : isDelimiter c = true) (a b : Text) :
    wordsOf (a ++ c :: b) = wordsOf a ++ [c] :: wordsOf b := by
  unfold wordsOf
  rw [scan_append_delimiter h, List.map_append]
  rfl

/-- A delimiter in the text is one of its words. -/
theorem mem_wordsOf_delimiter {c : Char} (h : isDelimiter c = true) {s : Text} (mem : c ∈ s) :
    [c] ∈ wordsOf s := by
  obtain ⟨a, b, rfl⟩ := List.append_of_mem mem
  rw [wordsOf_append_delimiter h]
  exact List.mem_append_right _ List.mem_cons_self

/-- The words of a text that goes on with a blank or a delimiter. -/
theorem wordsOf_append {b : Text} (stops : b.head?.any isInner = false) (a : Text) :
    wordsOf (a ++ b) = wordsOf a ++ wordsOf b := by
  induction length : a.length using Nat.strongRecOn generalizing a with
  | _ n ih =>
    have word : (a.takeWhile isInner).all isInner = true := List.all_takeWhile
    have behind := List.head?_dropWhile_not isInner a
    have parts := List.takeWhile_append_dropWhile (p := isInner) (l := a)
    generalize a.takeWhile isInner = w at word parts
    generalize a.dropWhile isInner = rest at behind parts
    subst parts
    -- The first word, if there is one, ends in front of any such text.
    obtain ⟨first, front⟩ : ∃ first, ∀ s : Text, s.head?.any isInner = false →
        wordsOf (w ++ s) = first ++ wordsOf s := by
      by_cases ne : w = []
      · exact ⟨[], fun s _ => by rw [ne]; rfl⟩
      · exact ⟨[w], fun s stops => wordsOf_inner ne word stops⟩
    cases rest with
    | nil =>
      have whole : wordsOf (w ++ []) = first ++ wordsOf [] := front [] rfl
      rw [whole, List.append_nil, front b stops]
      exact congrArg (· ++ wordsOf b) (List.append_nil first).symm
    | cons c rest =>
      have outer : isInner c = false := behind
      obtain ⟨here, next⟩ : ∃ here, ∀ s : Text, wordsOf (c :: s) = here ++ wordsOf s := by
        cases blank : Text.isBlank c with
        | true => exact ⟨[], wordsOf_cons_blank blank⟩
        | false =>
          rw [isInner, blank, Bool.not_false, Bool.true_and, Bool.not_eq_false'] at outer
          exact ⟨[[c]], wordsOf_delimiter outer⟩
      have shorter : rest.length < n := by
        rw [← length, List.length_append, List.length_cons]
        omega
      rw [List.append_assoc, List.cons_append, front (c :: (rest ++ b)) outer, front (c :: rest) outer,
        next, next, ih _ shorter rest rfl, List.append_assoc, List.append_assoc]

/-- Only the blanks of a text are in no word. -/
theorem flatten_wordsOf (s : Text) : (wordsOf s).flatten = s.filter (!Text.isBlank ·) := by
  unfold wordsOf
  induction s with
  | nil => rfl
  | cons c s ih =>
    rw [scan, List.filter_cons, ← ih]
    cases blank : Text.isBlank c with
    | true => cases (scan s).1 <;> simp [prepend, blank]
    | false =>
      cases (scan s).1 with
      | nil => simp [prepend, blank]
      | cons t ts =>
        cases joins : isInner c && t.gap.isEmpty && t.text.head?.any isInner with
        | true =>
          rw [prepend_joined joins]
          rfl
        | false =>
          rw [prepend_apart blank joins]
          rfl

theorem scan_append_blank {c : Char} (h : Text.isBlank c = true) (s : Text) :
    scan (s ++ [c]) = ((scan s).1, (scan s).2 ++ [c]) := by
  induction s with
  | nil => exact if_pos h
  | cons d s ih =>
    rw [List.cons_append, scan, ih, scan]
    unfold prepend
    cases (scan s).1 <;> simp only <;> split_ifs <;> rfl

/-- The line feed at the end of a line is in no token. -/
theorem notMem_source_of_line {s : Text} (h : '\n' ∉ s.dropLast) {t : Token}
    (mem : t ∈ (scan s).1) : '\n' ∉ t.source := by
  have within {a : Text} (plain : '\n' ∉ a) (mem : t ∈ (scan a).1) : '\n' ∉ t.source := by
    intro feed
    refine plain ?_
    rw [← append_tail a]
    exact List.mem_append_left _ (List.mem_flatMap.2 ⟨t, mem, feed⟩)
  rcases List.eq_nil_or_concat s with rfl | ⟨a, c, rfl⟩
  · cases mem
  · rw [List.concat_eq_append] at h mem
    rw [List.dropLast_concat] at h
    by_cases feed : c = '\n'
    · rw [scan_append_blank (by rw [feed]; decide)] at mem
      exact within h mem
    · refine within (a := a ++ [c]) ?_ mem
      rw [List.mem_append, List.mem_singleton, not_or]
      exact ⟨h, Ne.symm feed⟩

/-- A delimiter stands in no token but its own. -/
theorem text_eq_of_delimiter_mem {c : Char} (h : isDelimiter c = true) {s : Text} {u : Token}
    (token : u ∈ (scan s).1) (mem : c ∈ u.source) : u.text = [c] := by
  have apart {d : Char} (other : isDelimiter d = false) : c ≠ d := by
    intro eq
    rw [← eq, h] at other
    cases other
  induction s generalizing u with
  | nil => cases token
  | cons d s ih =>
    rw [scan] at token
    unfold prepend at token
    split at token
    · split_ifs at token
      · cases token
      · rw [List.mem_singleton.1 token] at mem ⊢
        rw [List.mem_singleton.1 mem]
    · rename_i t ts tokens
      rw [tokens] at ih
      split_ifs at token with blank joins
      · rcases List.mem_cons.1 token with rfl | later
        · have notBlank : c ≠ d := by
            intro eq
            rw [← eq, not_blank_of_isDelimiter h] at blank
            cases blank
          have inside : c ∈ t.source := (List.mem_cons.1 mem).resolve_left notBlank
          exact ih (u := t) List.mem_cons_self inside
        · exact ih (List.mem_cons_of_mem _ later) mem
      · rw [Bool.and_eq_true, Bool.and_eq_true] at joins
        rcases List.mem_cons.1 token with rfl | later
        · have notInner : c ≠ d := by
            intro eq
            rw [← eq, not_inner_of_isDelimiter h] at joins
            cases joins.1.1
          have inside := (List.mem_cons.1 mem).resolve_left notInner
          have whole := ih List.mem_cons_self (List.mem_append_right _ inside)
          rw [whole, List.head?_cons, Option.any_some, not_inner_of_isDelimiter h] at joins
          cases joins.2
        · exact ih (List.mem_cons_of_mem _ later) mem
      · rcases List.mem_cons.1 token with rfl | later
        · rw [List.mem_singleton.1 mem]
        · exact ih later mem

/-- A delimiter is a word as often as it is a character. -/
theorem count_wordsOf {c : Char} (h : isDelimiter c = true) (t : Text) :
    (wordsOf t).count [c] = t.count c := by
  have own : ∀ w ∈ wordsOf t, c ∈ w → w = [c] := by
    intro w mem inside
    obtain ⟨u, token, rfl⟩ := List.mem_map.1 mem
    exact text_eq_of_delimiter_mem h token (List.mem_append_right _ inside)
  have flat {ws : List Text} (own : ∀ w ∈ ws, c ∈ w → w = [c]) : ws.count [c] = ws.flatten.count c := by
    induction ws with
    | nil => rfl
    | cons w ws ih =>
      rw [List.count_cons, List.flatten_cons, List.count_append,
        ih fun v mem => own v (List.mem_cons_of_mem _ mem), Nat.add_comm]
      by_cases inside : c ∈ w
      · rw [own w List.mem_cons_self inside]
        simp
      · have other : w ≠ [c] := fun eq => inside (eq ▸ List.mem_singleton_self c)
        simp [List.count_eq_zero_of_not_mem inside, other]
  calc
    (wordsOf t).count [c] = (wordsOf t).flatten.count c := flat own
    _ = (t.filter (!Text.isBlank ·)).count c := by rw [flatten_wordsOf]
    _ = t.count c := List.count_filter (by rw [not_blank_of_isDelimiter h]; rfl)

theorem not_mem_flatMap_source {c : Char} (h : isDelimiter c = true) {s : Text} {ts : List Token}
    (tokens : ∀ u ∈ ts, u ∈ (scan s).1) (none : ∀ u ∈ ts, u.text ≠ [c]) :
    c ∉ ts.flatMap source := by
  intro mem
  obtain ⟨u, token, inside⟩ := List.mem_flatMap.1 mem
  exact none u token (text_eq_of_delimiter_mem h (tokens u token) inside)

theorem not_mem_gap {c : Char} (h : isDelimiter c = true) {s : Text} {u : Token}
    (token : u ∈ (scan s).1) : c ∉ u.gap := by
  generalize tokens : scan s = scanned at token
  obtain ⟨ts, tail⟩ := scanned
  induction ts generalizing s with
  | nil => cases token
  | cons t ts ih =>
    obtain ⟨rest, first, behind⟩ := exists_first tokens
    rcases List.mem_cons.1 token with rfl | later
    · intro mem
      have blank := List.all_eq_true.1 first.blank c mem
      rw [not_blank_of_isDelimiter h] at blank
      cases blank
    · exact ih behind later

end Token

end HeaderFlattening
