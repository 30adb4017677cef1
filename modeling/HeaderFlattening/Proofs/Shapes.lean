import HeaderFlattening.Pattern.Shapes
import Mathlib.Tactic.SplitIfs

/-!
What the shapes find in lines of a known form. A shape that cannot do without a character finds
nothing in a text without it; and the preferred way to match is found part by part when each run of
characters ends where the next part of the text begins.
-/

set_option autoImplicit false
namespace HeaderFlattening

theorem Text.before_append_right (w s : Text) : Text.before (w ++ s) s = w := by
  simp [Text.before]

namespace Pattern

theorem occursIn_of_match? {p : Pattern} {s : Text} {o : Outcome} (h : p.match? true s = some o) :
    p.occursIn s = true := by
  unfold occursIn hits pieces
  cases s with
  | nil =>
    rw [piecesFrom, h]
    rfl
  | cons c s =>
    rw [piecesFrom, h]
    simp only [Bool.false_eq_true, if_false]
    split_ifs <;> rfl

/-- Every match takes the character `c`. -/
def Demands (c : Char) : Pattern → Prop
  | .one ok => ∀ d, ok d = true → d = c
  | .seq p q => p.Demands c ∨ q.Demands c
  | .alt p q => p.Demands c ∧ q.Demands c
  | .group _ p => p.Demands c
  | _ => False

theorem outcomes_of_absent {c : Char} {p : Pattern} (demands : p.Demands c) {first : Bool} {s : Text}
    (absent : c ∉ s) : p.outcomes first s = [] := by
  induction p generalizing first s with
  | one ok =>
    cases s with
    | nil => rfl
    | cons d s =>
      refine if_neg fun taken => absent ?_
      rw [demands d taken]
      exact List.mem_cons_self
  | seq p q ihp ihq =>
    rcases demands with left | right
    · rw [outcomes, ihp left absent]
      rfl
    · refine List.flatMap_eq_nil_iff.2 fun a mem => ?_
      have missing : c ∉ a.rest := fun there => absent ((suffix_of_mem_outcomes mem).mem there)
      rw [ihq right missing]
      rfl
  | alt p q ihp ihq =>
    rw [outcomes, ihp demands.1 absent, ihq demands.2 absent]
    rfl
  | group i p ih =>
    rw [outcomes, ih demands absent]
    rfl
  | _ => exact demands.elim

theorem pieces_of_absent {c : Char} {p : Pattern} (demands : p.Demands c) {first behind : Bool}
    {s : Text} (absent : c ∉ s) : p.piecesFrom first behind s = s.map .other := by
  have none : p.match? first s = none := by
    rw [match?_eq_head?, outcomes_of_absent demands absent]
    rfl
  induction s generalizing first behind with
  | nil =>
    rw [piecesFrom, none]
    rfl
  | cons d s ih =>
    have missing : c ∉ s := fun there => absent (List.mem_cons_of_mem d there)
    rw [piecesFrom, none]
    refine congrArg (Piece.other d :: ·) (ih missing ?_)
    rw [match?_eq_head?, outcomes_of_absent demands missing]
    rfl

theorem hits_of_absent {c : Char} {p : Pattern} (demands : p.Demands c) {s : Text} (absent : c ∉ s) :
    p.hits s = [] := by
  rw [hits, pieces, pieces_of_absent demands absent]
  refine List.filterMap_eq_nil_iff.2 fun piece mem => ?_
  obtain ⟨d, -, rfl⟩ := List.mem_map.1 mem
  rfl

theorem replace_of_absent {c : Char} {p : Pattern} (demands : p.Demands c) (template : Text) {s : Text}
    (absent : c ∉ s) : p.replace template s = none := by
  refine if_neg ?_
  rw [occursIn, hits_of_absent demands absent]
  exact Bool.false_ne_true

theorem demands_char (c : Char) : (char c).Demands c := fun _ => of_decide_eq_true

theorem constMember_semicolon : constMember.Demands ';' :=
  .inr (.inr (.inr (.inr (.inr (.inr (demands_char ';'))))))

theorem constMember_equals : constMember.Demands '=' :=
  .inr (.inr (.inr (.inr (.inl (.inr (.inl (demands_char '=')))))))

theorem declaration_semicolon : declaration.Demands ';' := .inr (.inr (.inr (demands_char ';')))

/-- The first of the ways to match. -/
def Prefers (p : Pattern) (first : Bool) (s : Text) (o : Outcome) : Prop :=
  ∃ others, p.outcomes first s = o :: others

variable {p q : Pattern} {first : Bool} {s : Text} {a b : Outcome}

theorem Prefers.match?_eq (h : p.Prefers first s a) : p.match? first s = some a := by
  obtain ⟨others, eq⟩ := h
  rw [match?_eq_head?, eq]
  rfl

theorem prefers_one {ok : Char → Bool} {c : Char} (h : ok c = true) :
    (Pattern.one ok).Prefers first (c :: s) { rest := s } := ⟨[], if_pos h⟩

theorem prefers_char (c : Char) : (char c).Prefers first (c :: s) { rest := s } :=
  prefers_one (decide_eq_true rfl)

/-- A run goes up to the first character that is not of its class. -/
theorem prefers_many {ok : Char → Bool} {w : Text} (all : w.all ok = true)
    (stops : s.head?.any ok = false) : (Pattern.many ok).Prefers first (w ++ s) { rest := s } := by
  unfold Prefers
  rw [outcomes]
  induction w with
  | nil =>
    cases s with
    | nil => exact ⟨[], rfl⟩
    | cons c s => exact ⟨[], if_neg (ne_true_of_eq_false stops)⟩
  | cons c w ih =>
    rw [List.all_cons, Bool.and_eq_true] at all
    obtain ⟨others, eq⟩ := ih all.2
    rw [List.cons_append, runs, if_pos all.1, runs_append, eq]
    exact ⟨_, rfl⟩

theorem Prefers.seq (h : p.Prefers first s a) (k : ∀ later, q.Prefers later a.rest b) :
    (Pattern.seq p q).Prefers first s (a.andThen b) := by
  obtain ⟨others, eq⟩ := h
  obtain ⟨more, rest⟩ := k (first && a.rest.length = s.length)
  unfold Prefers
  rw [outcomes, eq, List.flatMap_cons, rest]
  exact ⟨_, rfl⟩

theorem Prefers.group (h : p.Prefers first s a) (i : Nat) :
    (Pattern.group i p).Prefers first s (a.remember i s) := by
  obtain ⟨others, eq⟩ := h
  exact ⟨others.map fun o => o.remember i s, by rw [outcomes, eq]; rfl⟩

theorem Prefers.left (h : p.Prefers first s a) : (Pattern.alt p q).Prefers first s a := by
  obtain ⟨others, eq⟩ := h
  exact ⟨others ++ q.outcomes first s, by rw [outcomes, eq]; rfl⟩

theorem Prefers.right (none : p.outcomes first s = []) (h : q.Prefers first s a) :
    (Pattern.alt p q).Prefers first s a := by
  obtain ⟨others, eq⟩ := h
  exact ⟨others, by rw [outcomes, none, eq]; rfl⟩

theorem prefers_atLeastOne {ok : Char → Bool} {w : Text} (ne : w ≠ []) (all : w.all ok = true)
    (stops : s.head?.any ok = false) : (atLeastOne ok).Prefers first (w ++ s) { rest := s } := by
  obtain ⟨c, w, rfl⟩ := List.exists_cons_of_ne_nil ne
  rw [List.all_cons, Bool.and_eq_true] at all
  exact (prefers_one all.1).seq fun _ => prefers_many all.2 stops

theorem outcomes_seq_nil (h : p.outcomes first s = []) : (Pattern.seq p q).outcomes first s = [] := by
  rw [outcomes, h]
  rfl

theorem outcomes_group_nil (i : Nat) (h : p.outcomes first s = []) :
    (Pattern.group i p).outcomes first s = [] := by
  rw [outcomes, h]
  rfl

/-- The characters in front of a match are passed over. -/
theorem pieces_skip {b s : Text} (h : ∀ c ∈ b, ∀ first t, p.outcomes first (c :: t) = [])
    {o : Outcome} (found : ∀ first, p.Prefers first s o) (shorter : o.rest.length < s.length) :
    p.pieces (b ++ s) = b.map .other ++ .hit (o.toHit s) :: p.piecesFrom false true o.rest := by
  have search (first : Bool) : p.piecesFrom first false (b ++ s) =
      b.map .other ++ .hit (o.toHit s) :: p.piecesFrom false true o.rest := by
    induction b generalizing first with
    | nil =>
      cases s with
      | nil => exact absurd shorter (Nat.not_lt_zero _)
      | cons c s =>
        rw [List.nil_append, piecesFrom, (found first).match?_eq]
        simp only [shorter, if_true]
        rfl
    | cons c b ih =>
      have none : p.match? first (c :: (b ++ s)) = none := by
        rw [match?_eq_head?, h c List.mem_cons_self]
        rfl
      rw [List.cons_append, piecesFrom, none]
      exact congrArg (Piece.other c :: ·) (ih (fun d mem => h d (List.mem_cons_of_mem c mem)) false)
  exact search true

theorem hits_skip {b s : Text} (h : ∀ c ∈ b, ∀ first t, p.outcomes first (c :: t) = [])
    {o : Outcome} (found : ∀ first, p.Prefers first s o) (shorter : o.rest.length < s.length) :
    ∃ more, p.hits (b ++ s) = o.toHit s :: more := by
  have none : (b.map Piece.other).filterMap Piece.hit? = [] := by
    refine List.filterMap_eq_nil_iff.2 fun piece mem => ?_
    obtain ⟨c, -, rfl⟩ := List.mem_map.1 mem
    rfl
  rw [hits, pieces_skip h found shorter, List.filterMap_append, none]
  exact ⟨_, rfl⟩

/-- A text with one match, which is replaced by the filled template. -/
theorem replace_single {b : Text} (h : ∀ c ∈ b, ∀ first t, p.outcomes first (c :: t) = [])
    {o : Outcome} (found : ∀ first, p.Prefers first s o) (shorter : o.rest.length < s.length) {d : Char}
    (demands : p.Demands d) (single : d ∉ o.rest) (template : Text) :
    p.replace template (b ++ s) =
      some (b ++ (expand p.groupCount (o.toHit s) template ++ o.rest)) := by
  have pieces := pieces_skip h found shorter
  rw [pieces_of_absent demands single] at pieces
  have occurs : p.occursIn (b ++ s) = true := by
    unfold occursIn hits
    rw [pieces]
    simp [Piece.hit?]
  have passed (t : Text) :
      (t.map Piece.other).flatMap (Piece.replaced p.groupCount template) = t := by
    rw [List.flatMap_map]
    exact List.flatMap_singleton' t
  rw [replace, if_pos occurs, pieces, List.flatMap_append, List.flatMap_cons, passed, passed]
  rfl

theorem prefers_declaration {type name : Text} (trail : Text) (typed : type ≠ [])
    (word : type.all (fun c => Text.isWord c || c = '*') = true) (named : name ≠ [])
    (nameWord : name.all Text.isWord = true) :
    ∃ o : Outcome, (∀ first, declaration.Prefers first (type ++ ' ' :: (name ++ ';' :: trail)) o) ∧
      o.rest = trail ∧ o.group 1 = some type ∧ o.group 2 = some name := by
  have typeRun (later : Bool) : (atLeastOne fun c => Text.isWord c || c = '*').Prefers later
      (type ++ ' ' :: (name ++ ';' :: trail)) { rest := ' ' :: (name ++ ';' :: trail) } :=
    prefers_atLeastOne typed word (by decide : (Text.isWord ' ' || decide (' ' = '*')) = false)
  have nameRun (later : Bool) : Pattern.word.Prefers later (name ++ ';' :: trail)
      { rest := ';' :: trail } :=
    prefers_atLeastOne named nameWord (by decide : Text.isWord ';' = false)
  refine ⟨_, fun first => ((typeRun first).group 1).seq fun _ => (prefers_char ' ').seq fun later =>
    ((nameRun later).group 2).seq fun _ => prefers_char ';', rfl, ?_, ?_⟩
  · exact congrArg some (Text.before_append_right type _)
  · exact congrArg some (Text.before_append_right name _)

variable {o : Outcome}

theorem exists_of_mem_seq (h : o ∈ (Pattern.seq p q).outcomes first s) :
    ∃ a later b, a ∈ p.outcomes first s ∧ b ∈ q.outcomes later a.rest ∧ o = a.andThen b := by
  obtain ⟨a, left, h⟩ := List.mem_flatMap.1 h
  obtain ⟨b, right, rfl⟩ := List.mem_map.1 h
  exact ⟨a, _, b, left, right, rfl⟩

theorem source_of_mem_char {c : Char} (h : o ∈ (char c).outcomes first s) :
    s = c :: o.rest ∧ ∀ i, o.group i = none := by
  cases s with
  | nil => cases h
  | cons d s =>
    unfold char at h
    rw [outcomes] at h
    split_ifs at h with ok
    · obtain rfl := List.mem_singleton.1 h
      exact ⟨by rw [of_decide_eq_true ok], fun _ => rfl⟩
    · cases h

theorem source_of_mem_literal {w : Text} (h : o ∈ (literal w).outcomes first s) :
    s = w ++ o.rest ∧ ∀ i, o.group i = none := by
  fun_induction literal w generalizing first s o with
  | case1 =>
    obtain rfl := List.mem_singleton.1 h
    exact ⟨rfl, fun _ => rfl⟩
  | case2 c => exact source_of_mem_char h
  | case3 c w ne ih =>
    obtain ⟨a, later, b, left, right, rfl⟩ := exists_of_mem_seq h
    obtain ⟨source, none⟩ := source_of_mem_char left
    obtain ⟨rest, none'⟩ := ih right
    refine ⟨?_, fun i => ?_⟩
    · rw [source, rest]
      rfl
    · show (a.group i).or (b.group i) = Option.none
      rw [none, none']
      rfl

theorem outcomes_literal_of_ne {w : Text} {c : Char} (ne : w ≠ []) (head : w.head? ≠ some c)
    (first : Bool) (t : Text) : (literal w).outcomes first (c :: t) = [] := by
  rw [List.eq_nil_iff_forall_not_mem]
  intro o mem
  have source := (source_of_mem_literal mem).1
  cases w with
  | nil => exact ne rfl
  | cons d w =>
    rw [List.cons_append, List.cons.injEq] at source
    exact head (congrArg some source.1.symm)

theorem exists_of_mem_runs {ok : Char → Bool} (h : o ∈ runs ok [] s) :
    ∃ w, w.all ok = true ∧ s = w ++ o.rest := by
  induction s with
  | nil =>
    obtain rfl := List.mem_singleton.1 h
    exact ⟨[], rfl, rfl⟩
  | cons c s ih =>
    rw [runs] at h
    split_ifs at h with good
    · rw [runs_append, List.mem_append, List.mem_singleton] at h
      rcases h with h | rfl
      · obtain ⟨w, all, source⟩ := ih h
        refine ⟨c :: w, ?_, congrArg (c :: ·) source⟩
        rw [List.all_cons, good, all]
        rfl
      · exact ⟨[], rfl, rfl⟩
    · obtain rfl := List.mem_singleton.1 h
      exact ⟨[], rfl, rfl⟩

theorem exists_of_mem_atLeastOne {ok : Char → Bool} (h : o ∈ (atLeastOne ok).outcomes first s) :
    ∃ w, w ≠ [] ∧ w.all ok = true ∧ s = w ++ o.rest := by
  obtain ⟨a, later, b, left, right, rfl⟩ := exists_of_mem_seq h
  cases s with
  | nil => cases left
  | cons c s =>
    rw [outcomes] at left
    split_ifs at left with good
    · obtain rfl := List.mem_singleton.1 left
      obtain ⟨w, all, source⟩ := exists_of_mem_runs right
      refine ⟨c :: w, List.cons_ne_nil c w, ?_, congrArg (c :: ·) source⟩
      rw [List.all_cons, good, all]
      rfl
    · cases left

end Pattern

namespace Text

theorem notMem_of_all {p : Char → Bool} {t : Text} (all : t.all p = true) {c : Char}
    (other : p c = false) : c ∉ t := by
  intro mem
  simp [List.all_eq_true.1 all c mem] at other

/-- Where a text is cut at a mark is settled if neither mark comes before the other. -/
theorem mark_inj {α : Type} {x y u v : List α} {c d : α} (before : c ∉ u) (behind : d ∉ x)
    (h : x ++ c :: y = u ++ d :: v) : x = u ∧ c = d ∧ y = v := by
  rcases List.append_eq_append_iff.1 h with ⟨z, rfl, rest⟩ | ⟨z, rfl, rest⟩
  · cases z with
    | nil => exact ⟨(List.append_nil x).symm, List.cons_eq_cons.1 rest⟩
    | cons e z =>
      obtain ⟨rfl, -⟩ := List.cons_eq_cons.1 rest
      exact absurd (List.mem_append_right _ List.mem_cons_self) before
  · cases z with
    | nil =>
      obtain ⟨same, behind⟩ := List.cons_eq_cons.1 rest
      exact ⟨List.append_nil u, same.symm, behind.symm⟩
    | cons e z =>
      obtain ⟨rfl, -⟩ := List.cons_eq_cons.1 rest
      exact absurd (List.mem_append_right _ List.mem_cons_self) behind

theorem last_mark_inj {α : Type} {x y u v : List α} {c : α} (before : c ∉ y) (behind : c ∉ v)
    (h : x ++ c :: y = u ++ c :: v) : x = u ∧ y = v := by
  have reversed := congrArg List.reverse h
  simp only [List.reverse_append, List.reverse_cons, List.append_assoc, List.singleton_append]
    at reversed
  obtain ⟨last, -, front⟩ := mark_inj (by simpa using behind) (by simpa using before) reversed
  exact ⟨List.reverse_inj.1 front, List.reverse_inj.1 last⟩

theorem isSpace_of_isBlank {c : Char} (h : isBlank c = true) : isSpace c = true := by
  simp only [isBlank, Bool.or_eq_true, decide_eq_true_eq, or_assoc] at h
  rcases h with rfl | rfl | rfl | rfl | rfl | rfl <;> decide

theorem isBlankOrComment_of_space {b t : Text} (spaces : b.all isSpace = true)
    (rest : t = [] ∨ ∃ u, t = '/' :: '/' :: u) : isBlankOrComment (b ++ t) = true := by
  have stops : t.head?.any isSpace = false := by
    rcases rest with rfl | ⟨u, rfl⟩
    · rfl
    · exact (by decide : isSpace '/' = false)
  have mark : ∃ o, ∀ later,
      (Pattern.alt (Pattern.literal "//".toList) .atEnd).Prefers later t o := by
    rcases rest with rfl | ⟨u, rfl⟩
    · exact ⟨_, fun _ => .right rfl ⟨[], rfl⟩⟩
    · exact ⟨_, fun _ => .left ((Pattern.prefers_char '/').seq fun _ => Pattern.prefers_char '/')⟩
  obtain ⟨o, mark⟩ := mark
  have start : Pattern.atStart.Prefers true (b ++ t) { rest := b ++ t } := ⟨[], rfl⟩
  have found := start.seq fun _ =>
    (Pattern.prefers_many spaces stops).seq fun later => (mark later).group 1
  exact Pattern.occursIn_of_match? found.match?_eq

theorem isBlankOrComment_of_blank {b t : Text} (blanks : b.all isBlank = true)
    (rest : t = [] ∨ ∃ u, t = '/' :: '/' :: u) : isBlankOrComment (b ++ t) = true :=
  isBlankOrComment_of_space
    (List.all_eq_true.2 fun c mem => isSpace_of_isBlank (List.all_eq_true.1 blanks c mem)) rest

theorem isBlankOrComment_slashes (t : Text) : isBlankOrComment ('/' :: '/' :: t) = true :=
  isBlankOrComment_of_blank (List.all_nil) (.inr ⟨t, rfl⟩)

theorem declaredName?_of_absent {t : Text} (h : ';' ∉ t) : declaredName? t = none := by
  rw [declaredName?, Pattern.hits_of_absent Pattern.declaration_semicolon h]
  rfl

/-- `TYPE NAME;` declares the name, whatever follows. -/
theorem declaredName?_eq {indent type name trail : Text} (blanks : indent.all isBlank = true)
    (typed : type ≠ []) (word : type.all (fun c => isWord c || c = '*') = true)
    (named : name ≠ []) (nameWord : name.all isWord = true)
    (notReturn : "return".toList.isSuffixOf type = false) :
    declaredName? (indent ++ (type ++ ' ' :: (name ++ ';' :: trail))) = some name := by
  -- No declaration starts at a blank.
  have skip : ∀ c ∈ indent, ∀ first t, Pattern.declaration.outcomes first (c :: t) = [] := by
    intro c mem first t
    have no : ¬(isWord c || decide (c = '*')) = true := by
      have blank := List.all_eq_true.1 blanks c mem
      simp only [isBlank, Bool.or_eq_true, decide_eq_true_eq, or_assoc] at blank
      rcases blank with rfl | rfl | rfl | rfl | rfl | rfl <;> decide
    exact Pattern.outcomes_seq_nil (Pattern.outcomes_group_nil 1 (Pattern.outcomes_seq_nil (if_neg no)))
  obtain ⟨o, found, rest, one, two⟩ := Pattern.prefers_declaration trail typed word named nameWord
  have shorter : o.rest.length < (type ++ ' ' :: (name ++ ';' :: trail)).length := by
    rw [rest]
    simp only [List.length_append, List.length_cons]
    omega
  obtain ⟨more, hits⟩ := Pattern.hits_skip skip found shorter
  rw [declaredName?, hits, List.find?_cons_of_pos]
  · exact two
  · rw [show (o.toHit _).group? 1 = some type from one]
    exact congrArg (!·) notReturn

end Text
end HeaderFlattening
