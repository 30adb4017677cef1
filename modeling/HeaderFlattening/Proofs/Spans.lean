import HeaderFlattening.Proofs.Arrival

/-!
The places of tokens in a line. However its text is set and its tokens are looked for, the tokens are
those of the text or there are none. So each span lies in the text, between characters, with its token
there, and another text can be put in its place.
-/

set_option autoImplicit false
namespace HeaderFlattening

theorem Text.splitAt?_append (a b : Text) : Text.splitAt? a.byteLength (a ++ b) = some (a, b) := by
  induction a with
  | nil => simp [Text.byteLength, Text.splitAt?]
  | cons c a ih =>
    have pos := c.utf8Size_pos
    obtain ⟨n, size⟩ : ∃ n, c.utf8Size + Text.byteLength a = n + 1 :=
      ⟨c.utf8Size + Text.byteLength a - 1, by omega⟩
    have left : n + 1 - c.utf8Size = Text.byteLength a := by omega
    rw [Text.byteLength, size, List.cons_append, Text.splitAt?, if_pos (by omega), left, ih]
    rfl

theorem Text.splice_between (a w b v : Text) :
    Text.splice (a ++ (w ++ b)) v a.byteLength w.byteLength none = .ok (a ++ v ++ b) := by
  unfold Text.splice
  rw [Text.splitAt?_append]
  simp only [Text.splitAt?_append]
  rfl

theorem Text.slice?_append (a w b : Text) :
    Text.slice? (a ++ (w ++ b)) (Text.byteLength a) (Text.byteLength (a ++ w)) = some w := by
  have length : Text.byteLength (a ++ w) - Text.byteLength a = Text.byteLength w := by
    rw [Text.byteLength_append, Nat.add_sub_cancel_left]
  unfold Text.slice?
  rw [if_pos (by rw [Text.byteLength_append]; exact Nat.le_add_right _ _), length,
    Text.splitAt?_append]
  simp only [Option.bind_eq_bind, Option.bind_some, Text.splitAt?_append]
  rfl

theorem Text.slice?_right (a w : Text) :
    Text.slice? (a ++ w) (Text.byteLength a) (Text.byteLength (a ++ w)) = some w := by
  have slice := Text.slice?_append a w []
  rwa [List.append_nil] at slice

/-- The word stands in the text at the span, which starts and stops between characters. -/
def Span.Covers (span : Span) (t w : Text) : Prop :=
  ∃ before after, t = before ++ w ++ after ∧ span.start = Text.byteLength before ∧
    span.stop = Text.byteLength (before ++ w)

theorem Span.Covers.length_eq {span : Span} {t w : Text} (h : span.Covers t w) :
    span.length = Text.byteLength w := by
  obtain ⟨before, after, -, start, stop⟩ := h
  rw [Span.length, start, stop, Text.byteLength_append, Nat.add_sub_cancel_left]

/-- Any text can be put in the place of the word. -/
theorem Span.Covers.exists_splice {span : Span} {t w : Text} (h : span.Covers t w) :
    ∃ before after, t = before ++ w ++ after ∧
      ∀ v, t.splice v span.start span.length none = .ok (before ++ v ++ after) := by
  have length := h.length_eq
  obtain ⟨before, after, rfl, start, -⟩ := h
  refine ⟨before, after, rfl, fun v => ?_⟩
  rw [start, length, List.append_assoc, Text.splice_between]

namespace Token

theorem length_spans (start : Nat) (ts : List Token) : (spans start ts).length = ts.length := by
  induction ts generalizing start with
  | nil => rfl
  | cons t ts ih => rw [spans, List.length_cons, List.length_cons, ih]

/-- The span of a token starts behind all that stands before the token. -/
theorem exists_getElem?_spans {ts : List Token} {i : Nat} {t : Token} (h : ts[i]? = some t)
    (start : Nat) :
    ∃ before after, ts.flatMap source = before ++ t.text ++ after ∧
      (spans start ts)[i]? =
        some ⟨start + Text.byteLength before, start + Text.byteLength (before ++ t.text)⟩ := by
  induction ts generalizing i start with
  | nil => cases h
  | cons u ts ih =>
    cases i with
    | zero =>
      obtain rfl := Option.some.inj h
      refine ⟨u.gap, ts.flatMap source, rfl, ?_⟩
      simp only [spans, List.getElem?_cons_zero, Text.byteLength_append, Nat.add_assoc]
    | succ i =>
      obtain ⟨before, after, source_eq, span⟩ :=
        ih h (start + u.gap.byteLength + u.text.byteLength)
      refine ⟨u.source ++ before, after, ?_, ?_⟩
      · rw [List.flatMap_cons, source_eq]
        simp only [List.append_assoc]
      · rw [spans, List.getElem?_cons_succ, span]
        simp only [source, Text.byteLength_append, Nat.add_assoc]

theorem getElem?_spans_append (start : Nat) (seen : List Token) (u : Token)
    (more : List Token) :
    (spans start (seen ++ u :: more))[seen.length]? =
      some ⟨start + Text.byteLength (seen.flatMap source ++ u.gap),
        start + Text.byteLength (seen.flatMap source ++ u.source)⟩ := by
  induction seen generalizing start with
  | nil =>
    simp only [List.nil_append, List.flatMap_nil, spans, List.length_nil, List.getElem?_cons_zero,
      source, Text.byteLength_append, Nat.add_assoc]
  | cons v seen ih =>
    rw [List.cons_append, spans, List.length_cons, List.getElem?_cons_succ, ih, List.flatMap_cons]
    simp only [source, Text.byteLength_append, Nat.add_assoc]

end Token

namespace Line

/-- What can be done to a line: another text is set, or its tokens are looked for. -/
inductive Change where
  | setText (t : Text)
  | retokenize (limit : Nat)

/-- The line behind a change. Too many tokens leave it as it was. -/
def after (l : Line) : Change → Line
  | .setText t => .ofText t
  | .retokenize limit => (l.retokenize limit).toOption.getD l

/-- The tokens are those of the text, all of them, or there are none. -/
def Current (l : Line) : Prop := l.tokens = [] ∨ l = .cut l.text

/-- What tokens and spans are asked for lies in the text: a place in the row of tokens has both a word
and a span that covers it, or neither. -/
def Sound (l : Line) : Prop :=
  ∀ i, (l.word? i = none ∧ l.span? i = none) ∨
    ∃ w span, l.word? i = some w ∧ l.span? i = some span ∧ span.Covers l.text w

theorem current_ofText (t : Text) : (ofText t).Current := .inl rfl

theorem current_cut (t : Text) : (cut t).Current := .inr rfl

theorem retokenize_eq (l : Line) (limit : Nat) :
    l.retokenize limit =
      if limit < (Token.scan l.text).1.length then .error ⟨limit⟩ else .ok (cut l.text) := by
  unfold retokenize Token.tokenize
  simp only []
  split_ifs <;> rfl

theorem cut_of_retokenize {t : Text} {limit : Nat} {l : Line}
    (h : (ofText t).retokenize limit = .ok l) : l = .cut t := by
  rw [retokenize_eq] at h
  split_ifs at h
  cases h
  rfl

theorem Current.after {l : Line} (h : l.Current) (c : Change) : (l.after c).Current := by
  cases c with
  | setText t => exact current_ofText t
  | retokenize limit =>
    show ((l.retokenize limit).toOption.getD l).Current
    rw [retokenize_eq]
    split_ifs
    · exact h
    · exact current_cut l.text

theorem Current.foldl_after {l : Line} (h : l.Current) (changes : List Change) :
    (changes.foldl Line.after l).Current := by
  induction changes generalizing l with
  | nil => exact h
  | cons c changes ih => exact ih (h.after c)

theorem sound_of_tokens_nil {l : Line} (h : l.tokens = []) : l.Sound := by
  intro i
  refine .inl ⟨?_, ?_⟩
  · rw [word?, words, h]
    rfl
  · rw [span?, h]
    rfl

theorem sound_cut (t : Text) : (cut t).Sound := by
  intro i
  cases token : (Token.scan t).1[i]? with
  | none =>
    have past := List.getElem?_eq_none_iff.1 token
    refine .inl ⟨?_, ?_⟩
    · rw [word?, words, cut, List.getElem?_map, token]
      rfl
    · rw [span?, cut, List.getElem?_eq_none_iff, Token.length_spans]
      exact past
  | some first =>
    obtain ⟨before, after, source, span⟩ := Token.exists_getElem?_spans token 0
    rw [Nat.zero_add, Nat.zero_add] at span
    refine .inr ⟨first.text, _, ?_, span, before, after ++ (Token.scan t).2, ?_, rfl, rfl⟩
    · rw [word?, words, cut, List.getElem?_map, token]
      rfl
    · show t = _
      rw [← List.append_assoc, ← source, Token.append_tail]

theorem Current.sound {l : Line} (h : l.Current) : l.Sound := by
  rcases h with none | found
  · exact sound_of_tokens_nil none
  · rw [found]
    exact sound_cut l.text

end Line
end HeaderFlattening
