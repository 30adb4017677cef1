import HeaderFlattening.Proofs.Shapes
import HeaderFlattening.Proofs.Occurrences
import HeaderFlattening.Proofs.Templates

/-!
The matches of a pattern in a text, told by the places where they stand: each is the leftmost one behind
the match before it, and what the pattern prefers at its place. A search finds just these, and a
replacement puts something in their place and leaves the text between them. The slices it is put
together from all lie between characters.
-/

set_option autoImplicit false
namespace HeaderFlattening.Pattern

/-- A match between the text before it and the text behind it. -/
structure Match where
  before : Text
  taken : Text
  after : Text
  group : Nat → Option Text

namespace Match

def start (m : Match) : Nat := m.before.length

def stop (m : Match) : Nat := m.before.length + m.taken.length

def hit (m : Match) : Hit := ⟨m.taken, m.group⟩

/-- The match replaced by a text. -/
def patch (m : Match) (u : Text) : Text.Patch := ⟨m.start, m.stop, u⟩

/-- The match stands in the text, and is what the pattern prefers at its place. -/
structure In (m : Match) (p : Pattern) (t : Text) : Prop where
  source : t = m.before ++ (m.taken ++ m.after)
  preferred : p.Prefers m.before.isEmpty (m.taken ++ m.after) ⟨m.after, m.group⟩

/-- The match counts for a search that goes on from character `n`. An empty one does not count at that
place itself if a match has `ended` there. -/
structure Counts (m : Match) (p : Pattern) (t : Text) (n : Nat) (ended : Bool) : Prop where
  inside : m.In p t
  behind : n ≤ m.start
  fresh : ended = true → m.taken = [] → m.start ≠ n

end Match

/-- The matches that a search from character `n` on comes to, one after the other. Each is the leftmost
of those that count where the one before it has ended. -/
inductive Successive (p : Pattern) (t : Text) : Nat → Bool → List Match → Prop
  | done {n : Nat} {ended : Bool} (none : ∀ m : Match, ¬ m.Counts p t n ended) :
      Successive p t n ended []
  | next {n : Nat} {ended : Bool} {m : Match} {ms : List Match} (counts : m.Counts p t n ended)
      (leftmost : ∀ m' : Match, m'.Counts p t n ended → m.start ≤ m'.start)
      (more : Successive p t m.stop true ms) : Successive p t n ended (m :: ms)

variable {p : Pattern} {t : Text} {n : Nat} {ended : Bool} {ms ms' : List Match}

namespace Match

/-- One match at most is preferred at a place. -/
theorem In.eq_of_start {m m' : Match} (h : m.In p t) (h' : m'.In p t) (same : m.start = m'.start) :
    m = m' := by
  have source := h.source.symm.trans h'.source
  have found := h.preferred.match?_eq
  have found' := h'.preferred.match?_eq
  obtain ⟨before, taken, after, group⟩ := m
  obtain ⟨before', taken', after', group'⟩ := m'
  simp only at source found found'
  obtain ⟨rfl, rest⟩ := List.append_inj source same
  rw [rest, found'] at found
  obtain ⟨rfl, rfl⟩ := Outcome.mk.inj (Option.some.inj found)
  rw [List.append_cancel_right rest]

variable {before s : Text} {o : Outcome}

/-- What the pattern prefers at a place is a match. -/
theorem in_of_match? (found : p.match? before.isEmpty s = some o) :
    In ⟨before, s.before o.rest, o.rest, o.group⟩ p (before ++ s) := by
  have whole := before_append (suffix_of_match? found)
  rw [match?_eq_head?] at found
  obtain ⟨others, eq⟩ := List.head?_eq_some_iff.1 found
  exact ⟨congrArg (before ++ ·) whole.symm, others, by rw [whole]; exact eq⟩

theorem In.start_ne {m : Match} (h : m.In p (before ++ s))
    (none : p.match? before.isEmpty s = none) : m.start ≠ before.length := by
  intro here
  obtain ⟨rfl, rfl⟩ := List.append_inj h.source here.symm
  rw [h.preferred.match?_eq] at none
  cases none

theorem In.start_le {m : Match} (h : m.In p t) : m.start ≤ t.length := by
  rw [h.source, List.length_append]
  exact Nat.le_add_right _ _

/-- Where nothing is taken from the text, an empty match stands. -/
theorem In.taken_eq_nil {m : Match} (h : m.In p (before ++ s)) (here : m.start = before.length)
    (found : p.match? before.isEmpty s = some o) (whole : s.length ≤ o.rest.length) :
    m.taken = [] := by
  rw [h.eq_of_start (in_of_match? found) here]
  exact taken_toHit_of_le whole

end Match

namespace Successive

theorem unique (h : Successive p t n ended ms) (h' : Successive p t n ended ms') : ms = ms' := by
  induction h generalizing ms' with
  | done none =>
    cases h' with
    | done => rfl
    | next counts => exact absurd counts (none _)
  | next counts leftmost more ih =>
    cases h' with
    | done none => exact absurd counts (none _)
    | next counts' leftmost' more' =>
      obtain rfl := counts.inside.eq_of_start counts'.inside
        (Nat.le_antisymm (leftmost _ counts') (leftmost' _ counts))
      rw [ih more']

/-- A place where no match counts can be left out of the search. -/
theorem of_succ (h : Successive p t (n + 1) false ms)
    (none : ∀ m : Match, m.Counts p t n ended → m.start ≠ n) : Successive p t n ended ms := by
  have later {m : Match} (counts : m.Counts p t n ended) : m.Counts p t (n + 1) false := by
    have apart := none m counts
    have behind := counts.behind
    exact ⟨counts.inside, by omega, nofun⟩
  cases h with
  | done none' => exact .done fun m counts => none' m (later counts)
  | next counts leftmost more =>
    have behind := counts.behind
    refine .next ⟨counts.inside, by omega, fun _ _ => by omega⟩ (fun m' counts' => ?_) more
    exact leftmost m' (later counts')

theorem le_head (h : Successive p t n ended ms) : ∀ m ∈ ms.head?, n ≤ m.start := by
  cases h with
  | done => simp
  | next counts => simpa using counts.behind

/-- Matches that are replaced by themselves leave the text as it is. -/
theorem patched_taken (h : Successive p t n ended ms) :
    t.patched n (ms.map fun m => m.patch m.taken) = t.drop n := by
  induction h with
  | done => rfl
  | @next n ended m ms counts leftmost more ih =>
    have here : t.drop m.start = m.taken ++ t.drop m.stop := by
      rw [Match.stop, ← List.drop_drop, Match.start, counts.inside.source, List.drop_left,
        List.drop_left]
    obtain ⟨k, start⟩ := Nat.exists_eq_add_of_le counts.behind
    have gap : m.start - n = k := by omega
    calc
      t.patched n ((m :: ms).map fun m => m.patch m.taken)
        = (t.drop n).take (m.start - n) ++ m.taken ++ t.drop m.stop := by rw [← ih]; rfl
      _ = (t.drop n).take k ++ (t.drop n).drop k := by
        rw [gap, List.append_assoc, ← here, start, List.drop_drop]
      _ = t.drop n := List.take_append_drop k _

end Successive

/-- The pieces of the text behind `before` are the matches that a search from there comes to and the
characters between them. -/
structure Cut (p : Pattern) (before s : Text) (ended : Bool) (pieces : List Piece)
    (ms : List Match) : Prop where
  successive : Successive p (before ++ s) before.length ended ms
  few : ms.length ≤ s.length + (if ended then 0 else 1)
  hits : pieces.filterMap Piece.hit? = ms.map Match.hit
  replaced : ∀ groups template, pieces.flatMap (Piece.replaced groups template) =
    Text.patched (before ++ s) before.length
      (ms.map fun m => m.patch (expand groups m.hit template))

namespace Cut

variable {before s : Text} {c : Char} {pieces : List Piece}

theorem at_end
    (none : ∀ m : Match, m.Counts p (before ++ []) before.length ended → m.start ≠ before.length) :
    Cut p before [] ended [] [] := by
  refine ⟨.done fun m counts => none m counts ?_, Nat.zero_le _, rfl, fun _ _ => by simp [Text.patched]⟩
  have le := counts.inside.start_le
  rw [List.append_nil] at le
  exact Nat.le_antisymm le counts.behind

/-- A character at which no match counts is passed over. -/
theorem other (h : Cut p (before ++ [c]) s false pieces ms)
    (none : ∀ m : Match, m.Counts p (before ++ c :: s) before.length ended → m.start ≠ before.length) :
    Cut p before (c :: s) ended (.other c :: pieces) ms := by
  have whole : before ++ [c] ++ s = before ++ c :: s := by simp
  have successive := h.successive
  have replaced := h.replaced
  rw [whole, List.length_append, List.length_singleton] at successive replaced
  refine ⟨successive.of_succ none, ?_, h.hits, fun groups template => ?_⟩
  · have few := h.few
    simp only [Bool.false_eq_true, if_false, List.length_cons] at few ⊢
    omega
  · rw [List.flatMap_cons, replaced, Text.patched_cons]
    · rfl
    · intro patch mem
      rw [List.head?_map] at mem
      obtain ⟨m, head, rfl⟩ := Option.map_eq_some_iff.1 mem
      exact successive.le_head m head

/-- What the pattern prefers at the place itself goes before the matches behind it. -/
theorem hit {o : Outcome} (found : p.match? before.isEmpty s = some o)
    (counts : ended = true → o.rest.length < s.length)
    (h : Cut p (before ++ s.before o.rest) o.rest true pieces ms) :
    Cut p before s ended (.hit (o.toHit s) :: pieces)
      (⟨before, s.before o.rest, o.rest, o.group⟩ :: ms) := by
  have whole := before_append (suffix_of_match? found)
  have length := congrArg List.length whole
  rw [List.length_append] at length
  have successive := h.successive
  have replaced := h.replaced
  rw [List.append_assoc, whole, List.length_append] at successive replaced
  refine ⟨.next ⟨Match.in_of_match? found, Nat.le_refl _, fun ends empty => ?_⟩
    (fun m counts => counts.behind) successive, ?_, ?_, fun groups template => ?_⟩
  · have shorter := counts ends
    have none : (s.before o.rest).length = 0 := congrArg List.length empty
    omega
  · have few := h.few
    rw [if_pos rfl] at few
    rw [List.length_cons]
    cases ended with
    | false =>
      simp only [Bool.false_eq_true, if_false]
      omega
    | true =>
      have shorter := counts rfl
      rw [if_pos rfl]
      omega
  · rw [List.filterMap_cons_some (by rfl), h.hits, List.map_cons]
    rfl
  · rw [List.flatMap_cons, replaced, List.map_cons]
    exact (Text.patched_here before s _ _ _).symm

/-- An empty match is not asked for again at its place. -/
theorem hit_empty {o : Outcome} (found : p.match? before.isEmpty s = some o)
    (whole : s.length ≤ o.rest.length) (h : Cut p before s true pieces ms) :
    ∃ m, Cut p before s false (.hit (o.toHit s) :: pieces) (m :: ms) := by
  have empty : s.before o.rest = [] := taken_toHit_of_le whole
  have rest : o.rest = s := by simpa [empty] using before_append (suffix_of_match? found)
  refine ⟨_, hit found nofun ?_⟩
  rwa [empty, rest, List.append_nil]

end Cut

/-- Wherever a search is taken up, it comes to an end with the matches that it should come to. -/
theorem exists_cut (first behind : Bool) (before s : Text) (place : first = before.isEmpty) :
    ∃ ms, Cut p before s behind (p.piecesFrom first behind s) ms := by
  have started (w : Text) {v : Text} (ne : v ≠ []) : false = (w ++ v).isEmpty := by
    simp [ne]
  -- Where the preferred match is empty, nothing counts behind another match.
  have stale {s : Text} {o : Outcome} {before : Text} (found : p.match? before.isEmpty s = some o)
      (whole : s.length ≤ o.rest.length) (m : Match)
      (counts : m.Counts p (before ++ s) before.length true) : m.start ≠ before.length :=
    fun here => counts.fresh rfl (counts.inside.taken_eq_nil here found whole) here
  fun_induction piecesFrom p first behind s generalizing before with
  | case1 first behind none =>
    subst place
    exact ⟨[], .at_end fun m counts => counts.inside.start_ne none⟩
  | case2 first o found =>
    subst place
    exact ⟨[], .at_end (stale found (Nat.zero_le _))⟩
  | case3 first behind o found fresh =>
    subst place
    obtain rfl := Bool.eq_false_iff.2 fresh
    have rest : Cut p before [] true [] [] := .at_end (stale found (Nat.zero_le _))
    obtain ⟨m, cut⟩ := rest.hit_empty found (Nat.zero_le _)
    exact ⟨[m], cut⟩
  | case4 first behind c s none ih =>
    subst place
    obtain ⟨ms, cut⟩ := ih (before ++ [c]) (started before (List.cons_ne_nil c []))
    exact ⟨ms, cut.other fun m counts => counts.inside.start_ne none⟩
  | case5 first behind c s o found shorter ih =>
    subst place
    have taken : Text.before (c :: s) o.rest ≠ [] := by
      intro empty
      have whole := before_append (suffix_of_match? found)
      rw [empty, List.nil_append] at whole
      rw [whole] at shorter
      exact Nat.lt_irrefl _ shorter
    obtain ⟨ms, cut⟩ := ih (before ++ Text.before (c :: s) o.rest) (started before taken)
    exact ⟨_, cut.hit found fun _ => shorter⟩
  | case6 first c s o found whole ih =>
    subst place
    obtain ⟨ms, cut⟩ := ih (before ++ [c]) (started before (List.cons_ne_nil c []))
    exact ⟨ms, cut.other (stale found (Nat.le_of_not_lt whole))⟩
  | case7 first behind c s o found whole fresh ih =>
    subst place
    obtain rfl := Bool.eq_false_iff.2 fresh
    have le := Nat.le_of_not_lt whole
    obtain ⟨ms, cut⟩ := ih (before ++ [c]) (started before (List.cons_ne_nil c []))
    obtain ⟨m, cut⟩ := (cut.other (stale found le)).hit_empty found le
    exact ⟨m :: ms, cut⟩

/-- The replacement, told by the matches that the search has come to. -/
theorem Cut.replace_eq {s : Text} (h : Cut p [] s false (p.pieces s) ms) (template : Text) :
    p.replace template s =
      if ms = [] then none
      else some (s.patched 0 (ms.map fun m => m.patch (expand p.groupCount m.hit template))) := by
  have occurs : p.occursIn s = true ↔ ms ≠ [] := by
    unfold occursIn Pattern.hits
    rw [h.hits]
    simp
  unfold replace
  rw [h.replaced]
  by_cases none : ms = []
  · rw [if_pos none, if_neg fun found => occurs.1 found none]
  · rw [if_neg none, if_pos (occurs.2 none)]
    rfl

/-- The first match of a text that has one, and what it becomes. -/
theorem exists_of_replace {template e : Text} (h : p.replace template t = some e) :
    ∃ x u o first z, t = x ++ u ∧ p.match? first u = some o ∧
      e = x ++ (expand p.groupCount (o.toHit u) template ++ z) := by
  obtain ⟨ms, cut⟩ := @exists_cut p true false [] t rfl
  rw [cut.replace_eq] at h
  cases ms with
  | nil => cases h
  | cons m ms =>
    cases cut.successive with
    | next counts =>
      have inside : m.In p t := counts.inside
      have front : t.take m.start = m.before := by
        rw [inside.source]
        exact List.take_left
      have hit : Outcome.toHit ⟨m.after, m.group⟩ (m.taken ++ m.after) = m.hit := by
        rw [Outcome.toHit, Text.before_append_right]
        rfl
      have made : t.take m.start ++ expand p.groupCount m.hit template ++ _ = e :=
        Option.some.inj h
      rw [front, ← hit, List.append_assoc] at made
      exact ⟨m.before, m.taken ++ m.after, _, _, _, inside.source, inside.preferred.match?_eq,
        made.symm⟩

theorem map_hit_located (i : Nat) (ps : List Piece) :
    (located i ps).map Located.hit = ps.filterMap Piece.hit? := by
  fun_induction located i ps with
  | case1 => rfl
  | case2 i c ps ih => exact ih
  | case3 i h ps stop ih => exact congrArg (h :: ·) ih

/-- The pass over the matches from any place of a text on, with `pending` not copied yet. -/
theorem replaceFrom_eq (groups : Nat) (template : Text) (ps : List Piece) (seen pending out : Text) :
    replaceFrom groups template (seen ++ (pending ++ ps.flatMap Piece.source)) seen.byteLength out
        (located (Text.byteLength (seen ++ pending)) ps) =
      some (out ++ (pending ++ ps.flatMap (Piece.replaced groups template))) := by
  induction ps generalizing seen pending out with
  | nil =>
    rw [List.flatMap_nil, List.flatMap_nil, List.append_nil, located, replaceFrom, Text.slice?_right]
    rfl
  | cons piece ps ih =>
    cases piece with
    | other c =>
      have step := ih seen (pending ++ [c]) out
      simpa [located, Piece.source, Piece.replaced, Text.byteLength, Nat.add_assoc] using step
    | hit h =>
      have step := ih (seen ++ (pending ++ h.taken)) [] (out ++ pending ++ expand groups h template)
      have stop : Text.byteLength (seen ++ (pending ++ h.taken)) =
          Text.byteLength (seen ++ pending) + h.taken.byteLength := by
        rw [← List.append_assoc, Text.byteLength_append]
      rw [List.append_nil, stop] at step
      simp only [located, replaceFrom, Text.slice?_append, expandBehind?_eq, Option.bind_eq_bind,
        Option.bind_some]
      simpa [Piece.source, Piece.replaced] using step

/-- The slices all lie between characters, and the pass over the matches gives the replacement. -/
theorem replaceInPass?_eq (p : Pattern) (template s : Text) :
    p.replaceInPass? template s = some (p.replace template s) := by
  have pass := replaceFrom_eq p.groupCount template (p.pieces s) [] [] []
  have hits := map_hit_located 0 (p.pieces s)
  simp only [List.nil_append, flatMap_source_pieces, Text.byteLength] at pass
  unfold replaceInPass? replace occursIn Pattern.hits
  rw [← hits]
  cases found : located 0 (p.pieces s) with
  | nil => rfl
  | cons m ms =>
    rw [found] at pass
    exact congrArg (Option.map some) pass

/-- A text has one list of successive matches, which is not longer than the text by more than one.
Without a match nothing is replaced; else each match is replaced by the template filled from it, and
all other text stays. So the reference to the whole match gives the text again, and an escaped text is
put in the place of every match. The pass over the matches always comes to an end with this result. -/
theorem replace_successive (p : Pattern) (s : Text) :
    ∃ ms : List Match,
      (∀ others, Successive p s 0 false others ↔ others = ms) ∧
      ms.length ≤ s.length + 1 ∧
      (∀ template, p.replaceInPass? template s = some (p.replace template s)) ∧
      (∀ template, p.replace template s =
        if ms = [] then none
        else some (s.patched 0 (ms.map fun m => m.patch (expand p.groupCount m.hit template)))) ∧
      (p.replace "$0".toList s = if ms = [] then none else some s) ∧
      ∀ u, p.replace (escaped u) s =
        if ms = [] then none else some (s.patched 0 (ms.map fun m => m.patch u)) := by
  obtain ⟨ms, cut⟩ := @exists_cut p true false [] s rfl
  refine ⟨ms, fun others => ⟨fun h => h.unique cut.successive, fun same => same ▸ cut.successive⟩,
    cut.few, fun template => replaceInPass?_eq p template s, cut.replace_eq, ?_, fun u => ?_⟩
  · have whole : s.patched 0 (ms.map fun m => m.patch m.taken) = s := cut.successive.patched_taken
    simp only [cut.replace_eq, expand_whole, Match.hit, whole]
  · simp only [cut.replace_eq, expand_escaped]

example : (many (· = 'x')).replaceInPass? "-$0".toList "éxxb".toList =
    some (some "-é-xxb-".toList) := by cbv

end HeaderFlattening.Pattern
