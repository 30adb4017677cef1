import HeaderFlattening.Proofs.Words
import HeaderFlattening.Proofs.Spans

/-!
Tokens told by where they stand. A delimiter is a token, and so is a run of inner characters that
goes on neither to the left nor to the right; `tokenize` finds the places of all of these and of
nothing else, in the order of the text.
-/

set_option autoImplicit false
namespace HeaderFlattening

/-- The byte lies in the span. -/
def Span.Holds (span : Span) (k : Nat) : Prop := span.start ≤ k ∧ k < span.stop

namespace Token

/-- A text that is a token where it stands between `before` and `after`. -/
inductive Stands (before after : Text) : Text → Prop where
  | delimiter {c : Char} : isDelimiter c = true → Stands before after [c]
  | run {w : Text} : w ≠ [] → w.all isInner = true → before.getLast?.any isInner = false →
      after.head?.any isInner = false → Stands before after w

/-- The span is the place of a token of the text. -/
def IsPlace (t : Text) (span : Span) : Prop :=
  ∃ before w after, t = before ++ (w ++ after) ∧ Stands before after w ∧
    span = ⟨Text.byteLength before, Text.byteLength (before ++ w)⟩

theorem Stands.ne_nil {before after w : Text} (h : Stands before after w) : w ≠ [] := by
  cases h with
  | delimiter => simp
  | run ne => exact ne

theorem Stands.not_blank {before after w : Text} (h : Stands before after w) {c : Char}
    (mem : c ∈ w) : Text.isBlank c = false := by
  cases h with
  | delimiter d =>
    rw [List.mem_singleton.1 mem]
    exact not_blank_of_isDelimiter d
  | run _ inner => exact not_blank_of_isInner (List.all_eq_true.1 inner c mem)

/-- A token that starts with an inner character is a whole run. -/
theorem Stands.run_of_head {before after w : Text} {c : Char} (h : Stands before after (c :: w))
    (head : isInner c = true) :
    (c :: w).all isInner = true ∧ before.getLast?.any isInner = false ∧
      after.head?.any isInner = false := by
  generalize word : c :: w = v at h
  cases h with
  | delimiter d =>
    obtain ⟨rfl, -⟩ := List.cons.inj word
    rw [not_inner_of_isDelimiter d] at head
    cases head
  | run _ inner left right => exact ⟨inner, left, right⟩

/-- Only one token starts at a place. -/
theorem Stands.eq_of_start {before a b v w : Text} (hv : Stands before a v)
    (hw : Stands before b w) (h : v ++ a = w ++ b) : v = w := by
  obtain ⟨c, v, rfl⟩ := List.exists_cons_of_ne_nil hv.ne_nil
  obtain ⟨d, w, rfl⟩ := List.exists_cons_of_ne_nil hw.ne_nil
  obtain ⟨rfl, -⟩ := List.cons.inj h
  by_cases head : isInner c = true
  · obtain ⟨vInner, -, aStops⟩ := hv.run_of_head head
    obtain ⟨wInner, -, bStops⟩ := hw.run_of_head head
    have first := congrArg (List.takeWhile isInner) h
    have stops {s : Text} (h : s.head?.any isInner = false) : s.takeWhile isInner = [] := by
      cases s <;> simp_all
    rwa [List.takeWhile_append_of_pos (List.all_eq_true.1 vInner), stops aStops,
      List.takeWhile_append_of_pos (List.all_eq_true.1 wInner), stops bStops, List.append_nil,
      List.append_nil] at first
  · cases hv with
    | delimiter =>
      cases hw with
      | delimiter => rfl
      | run _ inner => simp_all
    | run _ inner => simp_all

/-- A token that starts inside another token is that token. -/
theorem Stands.nil_of_overlap {before m a b v w : Text} (hv : Stands before a v)
    (hw : Stands (before ++ m) b w) (h : v ++ a = m ++ (w ++ b))
    (inside : Text.byteLength m < Text.byteLength v) : m = [] := by
  rcases List.append_eq_append_iff.1 h with ⟨x, rfl, -⟩ | ⟨x, rfl, rest⟩
  · rw [Text.byteLength_append] at inside
    omega
  · rcases List.eq_nil_or_concat m with rfl | ⟨m, d, rfl⟩
    · rfl
    -- The other token has an inner character on its left, and its first character is inner.
    · obtain ⟨e, w, rfl⟩ := List.exists_cons_of_ne_nil hw.ne_nil
      cases x with
      | nil => simp at inside
      | cons c x =>
        obtain ⟨rfl, -⟩ := List.cons.inj rest
        generalize word : m.concat d ++ e :: x = u at hv
        cases hv with
        | delimiter =>
          have length := congrArg List.length word
          simp at length
          omega
        | run _ inner =>
          subst word
          simp at inner
          have left := (hw.run_of_head inner.2.2.1).2.1
          simp [inner.2.1] at left

theorem eq_of_holds {t : Text} {p q : Span} (hp : IsPlace t p) (hq : IsPlace t q) {k : Nat}
    (inP : p.Holds k) (inQ : q.Holds k) : p = q := by
  -- It does not matter which of the two places starts first.
  have ordered {before m a b v w : Text} (hv : Stands before a v) (hw : Stands (before ++ m) b w)
      (h : v ++ a = m ++ (w ++ b)) (low : Text.byteLength (before ++ m) ≤ k)
      (high : k < Text.byteLength (before ++ v)) : m = [] ∧ v = w := by
    have inside : Text.byteLength m < Text.byteLength v := by
      rw [Text.byteLength_append] at low high
      omega
    obtain rfl := hv.nil_of_overlap hw h inside
    rw [List.append_nil] at hw
    exact ⟨rfl, hv.eq_of_start hw h⟩
  obtain ⟨before, v, a, source, hv, rfl⟩ := hp
  obtain ⟨front, w, b, same, hw, rfl⟩ := hq
  rw [source] at same
  rcases List.append_eq_append_iff.1 same with ⟨m, rfl, rest⟩ | ⟨m, rfl, rest⟩
  · obtain ⟨rfl, rfl⟩ := ordered hv hw rest inQ.1 inP.2
    rw [List.append_nil]
  · obtain ⟨rfl, rfl⟩ := ordered hw hv rest inP.1 inQ.2
    rw [List.append_nil]

/-- A byte of a character is in the place of a token only if the character is in the token. -/
theorem mem_of_holds {before after a b w : Text} {c : Char} {k : Nat}
    (h : before ++ c :: after = a ++ (w ++ b)) (low : Text.byteLength before ≤ k)
    (high : k < Text.byteLength (before ++ [c]))
    (holds : Span.Holds ⟨Text.byteLength a, Text.byteLength (a ++ w)⟩ k) : c ∈ w := by
  obtain ⟨start, stop⟩ := holds
  simp only [Text.byteLength_append, Text.byteLength, Nat.add_zero] at high start stop
  rw [← List.append_assoc] at h
  rcases List.append_eq_append_iff.1 h with ⟨m, front, rest⟩ | ⟨m, front, rest⟩
  · -- `c` stands in `a` or in `w`.
    cases m with
    | nil =>
      have lengths := congrArg Text.byteLength front
      simp at lengths
      omega
    | cons d m =>
      obtain ⟨rfl, -⟩ := List.cons.inj rest
      rcases List.append_eq_append_iff.1 front with ⟨x, rfl, rest⟩ | ⟨x, rfl, rest⟩
      · simp [rest]
      · cases x with
        | nil =>
          rw [List.nil_append] at rest
          simp [← rest]
        | cons e x =>
          obtain ⟨rfl, -⟩ := List.cons.inj rest
          simp [Text.byteLength] at start
          omega
  · rw [front] at low
    simp at low
    omega

/-- A text that does not go on with the run in which `before` ends. -/
def Apart (before s : Text) : Prop :=
  before.getLast?.any isInner = true → s.head?.any isInner = false

theorem word_of_mem {s : Text} {u : Token} (h : u ∈ (scan s).1) :
    (∃ c, isDelimiter c = true ∧ u.text = [c]) ∨ u.text ≠ [] ∧ u.text.all isInner = true := by
  have single {c : Char} (blank : Text.isBlank c = false) :
      (∃ d, isDelimiter d = true ∧ [c] = [d]) ∨ [c] ≠ [] ∧ [c].all isInner = true := by
    by_cases delimiter : isDelimiter c = true
    · exact .inl ⟨c, delimiter, rfl⟩
    · simp [isInner, blank, delimiter]
  induction s generalizing u with
  | nil => cases h
  | cons c s ih =>
    rw [scan, prepend.eq_def] at h
    split at h
    · split_ifs at h with blank
      · cases h
      · rw [List.mem_singleton.1 h]
        exact single (Bool.eq_false_iff.2 blank)
    · rename_i t ts tokens
      rw [tokens] at ih
      have inRest := ih (u := t) List.mem_cons_self
      split_ifs at h with blank joins
      · rcases List.mem_cons.1 h with rfl | later
        · exact inRest
        · exact ih (List.mem_cons_of_mem _ later)
      · rcases List.mem_cons.1 h with rfl | later
        · simp only [Bool.and_eq_true] at joins
          rcases inRest with ⟨d, delimiter, text⟩ | ⟨-, inner⟩
          · rw [text] at joins
            simp [not_inner_of_isDelimiter delimiter] at joins
          · simp [joins.1.1, inner]
        · exact ih (List.mem_cons_of_mem _ later)
      · rcases List.mem_cons.1 h with rfl | later
        · exact single (Bool.eq_false_iff.2 blank)
        · exact ih later

/-- The first token of a text stands where it is, and what follows is apart from it. -/
theorem First.stands {before s rest : Text} {u : Token} {us : List Token} {tail : Text}
    (first : First s u rest) (tokens : scan s = (u :: us, tail)) (apart : Apart before s) :
    Stands (before ++ u.gap) rest u.text ∧ Apart (before ++ u.source) rest := by
  have word := word_of_mem (s := s) (u := u) (by simp [tokens])
  rcases word with ⟨c, delimiter, text⟩ | ⟨ne, inner⟩
  · refine ⟨text ▸ .delimiter delimiter, fun last => ?_⟩
    simp [Token.source, text, not_inner_of_isDelimiter delimiter] at last
  · obtain ⟨c, w, text⟩ := List.exists_cons_of_ne_nil ne
    rw [text, List.all_cons, Bool.and_eq_true] at inner
    have stops := first.whole (by simp [text, inner.1])
    refine ⟨.run ne (by simp [text, inner]) ?_ stops, fun _ => stops⟩
    rcases List.eq_nil_or_concat u.gap with none | ⟨gap, b, blanks⟩
    · rw [none, List.append_nil]
      refine Bool.eq_false_iff.2 fun last => ?_
      have head := apart last
      rw [first.source, none, text] at head
      simp [inner.1] at head
    · have blank := List.all_eq_true.1 first.blank b (by simp [blanks])
      simp [blanks, not_inner_of_isBlank blank]

/-- Each span that is found is the place of a token. -/
theorem isPlace_of_mem_spans {before s tail : Text} {ts : List Token} (apart : Apart before s)
    (tokens : scan s = (ts, tail)) {span : Span}
    (mem : span ∈ spans (Text.byteLength before) ts) : IsPlace (before ++ s) span := by
  induction ts generalizing before s with
  | nil => cases mem
  | cons u us ih =>
    obtain ⟨rest, first, behind⟩ := exists_first tokens
    obtain ⟨stands, next⟩ := first.stands tokens apart
    have whole : before ++ s = before ++ u.source ++ rest := by
      simp [first.source, source]
    rcases List.mem_cons.1 mem with rfl | later
    · refine ⟨before ++ u.gap, u.text, rest, ?_, stands, ?_⟩
      · simp [whole, source]
      · simp [Nat.add_assoc]
    · rw [whole]
      refine ih next behind ?_
      simpa [source, Nat.add_assoc] using later

theorem start_le_of_mem_spans {start : Nat} {ts : List Token} {span : Span}
    (mem : span ∈ spans start ts) : start ≤ span.start := by
  induction ts generalizing start with
  | nil => cases mem
  | cons u us ih =>
    rcases List.mem_cons.1 mem with rfl | later
    · simp
    · have below := ih later
      omega

/-- Spans come in the order of the text and do not overlap. -/
theorem pairwise_spans (start : Nat) (ts : List Token) :
    (spans start ts).Pairwise (fun a b => a.stop ≤ b.start) := by
  induction ts generalizing start with
  | nil => exact List.Pairwise.nil
  | cons u us ih => exact List.Pairwise.cons (fun _ later => start_le_of_mem_spans later) (ih _)

theorem IsPlace.start_lt_stop {t : Text} {span : Span} (h : IsPlace t span) :
    span.start < span.stop := by
  obtain ⟨before, w, after, -, stands, rfl⟩ := h
  obtain ⟨c, w, rfl⟩ := List.exists_cons_of_ne_nil stands.ne_nil
  have size := c.utf8Size_pos
  simp [Text.byteLength]
  omega

/-- Every character that is not blank is in one of the spans, with all its bytes. -/
theorem exists_span_of_not_blank {s tail a b : Text} {c : Char} {ts : List Token} (start : Nat)
    (tokens : scan s = (ts, tail)) (h : s = a ++ c :: b) (solid : Text.isBlank c = false) :
    ∃ span ∈ spans start ts, span.start ≤ start + Text.byteLength a ∧
      start + Text.byteLength (a ++ [c]) ≤ span.stop := by
  induction ts generalizing s a start with
  | nil =>
    have blank := blank_of_scan_nil (s := s) (by rw [tokens])
    simp [h, solid] at blank
  | cons u us ih =>
    obtain ⟨rest, first, behind⟩ := exists_first tokens
    rw [first.source] at h
    rcases List.append_eq_append_iff.1 h with ⟨m, rfl, more⟩ | ⟨m, front, more⟩
    · obtain ⟨span, mem, low, high⟩ :=
        ih (start + u.gap.byteLength + u.text.byteLength) behind more
      refine ⟨span, List.mem_cons_of_mem _ mem, ?_, ?_⟩ <;> simp at low high ⊢ <;> omega
    · cases m with
      | nil =>
        obtain ⟨span, mem, low, high⟩ :=
          ih (a := []) (start + u.gap.byteLength + u.text.byteLength) behind more.symm
        rw [List.append_nil] at front
        refine ⟨span, List.mem_cons_of_mem _ mem, ?_, ?_⟩ <;>
          simp [← front, Text.byteLength] at low high ⊢ <;> omega
      | cons d m =>
        -- `c` stands in the first token, and not in its gap.
        obtain ⟨rfl, -⟩ := List.cons.inj more
        refine ⟨_, List.mem_cons_self, ?_, ?_⟩
        · rcases List.append_eq_append_iff.1 front with ⟨x, rfl, -⟩ | ⟨x, gap, inGap⟩
          · simp
          · cases x with
            | nil => simp [gap]
            | cons e x =>
              obtain ⟨rfl, -⟩ := List.cons.inj inGap
              have blank := List.all_eq_true.1 first.blank c (by simp [gap])
              simp [solid] at blank
        · have lengths := congrArg Text.byteLength front
          simp [Text.byteLength] at lengths ⊢
          omega

theorem mem_spans_iff (t : Text) (span : Span) :
    span ∈ spans 0 (scan t).1 ↔ IsPlace t span := by
  have apart : Apart [] t := fun last => by simp at last
  have found {span : Span} (mem : span ∈ spans 0 (scan t).1) : IsPlace t span :=
    isPlace_of_mem_spans apart rfl mem
  refine ⟨found, fun place => ?_⟩
  -- The first character of a token lies in a span that is found, which is then this very span.
  obtain ⟨before, w, after, source, stands, rfl⟩ := id place
  obtain ⟨c, w, rfl⟩ := List.exists_cons_of_ne_nil stands.ne_nil
  have solid := stands.not_blank (c := c) List.mem_cons_self
  have tokens : scan t = ((scan t).1, (scan t).2) := rfl
  obtain ⟨other, mem, low, high⟩ := exists_span_of_not_blank 0 tokens source solid
  have size := c.utf8Size_pos
  simp [Text.byteLength] at low high
  have same := eq_of_holds place (found mem) (k := Text.byteLength before)
    ⟨Nat.le_refl _, by simp [Text.byteLength]; omega⟩ ⟨low, by omega⟩
  rwa [same]

/-- The tokens of a text have places that come one behind the other, none of them empty. No blank is
in one of them, and every byte of every other character is in just one. When there are more of them
than the limit, tokenizing fails; else it gives them all. -/
theorem tokenize_places (t : Text) (limit : Nat) :
    ∃ places : List Span,
      (∀ span, span ∈ places ↔ IsPlace t span) ∧
      places.Pairwise (fun a b => a.stop ≤ b.start) ∧
      (∀ span ∈ places, span.start < span.stop) ∧
      (∀ before c after, t = before ++ c :: after → ∀ k, Text.byteLength before ≤ k →
        k < Text.byteLength (before ++ [c]) →
        if Text.isBlank c = true then ∀ span ∈ places, ¬ span.Holds k
        else ∃! span, span ∈ places ∧ span.Holds k) ∧
      (tokenize t limit).map (spans 0) =
        if limit < places.length then .error ⟨limit⟩ else .ok places := by
  refine ⟨spans 0 (scan t).1, mem_spans_iff t, pairwise_spans 0 _, ?_, ?_, ?_⟩
  · intro span mem
    exact ((mem_spans_iff t span).1 mem).start_lt_stop
  · intro before c after source k low high
    split_ifs with blank
    · intro span mem holds
      obtain ⟨a, w, b, place, stands, rfl⟩ := (mem_spans_iff t span).1 mem
      have solid := stands.not_blank (mem_of_holds (source.symm.trans place) low high holds)
      simp [blank] at solid
    · have tokens : scan t = ((scan t).1, (scan t).2) := rfl
      obtain ⟨span, mem, first, last⟩ :=
        exists_span_of_not_blank 0 tokens source (Bool.eq_false_iff.2 blank)
      have holds : span.Holds k := ⟨by omega, by omega⟩
      refine ⟨span, ⟨mem, holds⟩, fun other ⟨otherMem, otherHolds⟩ => ?_⟩
      exact eq_of_holds ((mem_spans_iff t other).1 otherMem) ((mem_spans_iff t span).1 mem)
        otherHolds holds
  · rw [length_spans]
    unfold tokenize
    simp only []
    split_ifs <;> rfl

example : (tokenize "op+ (é)".toList 4).map (spans 0) = .ok [⟨0, 3⟩, ⟨4, 5⟩, ⟨5, 7⟩, ⟨7, 8⟩] ∧
    (tokenize "op+ (é)".toList 3).map (spans 0) = .error ⟨3⟩ := by decide

end Token
end HeaderFlattening
