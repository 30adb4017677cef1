import HeaderFlattening.Config
import HeaderFlattening.Proofs.Shapes

/-!
Virtual methods as structs declare them. The shape for methods finds a declaration whole and once: the
convention is optional, but a name that stands alone is followed by a parenthesis and no space, so that
there is only one way to read it.
-/

set_option autoImplicit false
namespace HeaderFlattening

/-- The parts of `virtual RESULT [CONVENTION ]NAME(PARAMETERS)[ = 0];`. -/
structure VirtualMethod where
  result : Text
  convention : Option Text
  name : Text
  params : Text
  /-- Whether ` = 0` stands behind the parameters. -/
  isPure : Bool
  deriving DecidableEq, Repr

namespace VirtualMethod

/-- The convention with the space behind it. -/
def spaced (m : VirtualMethod) : Option Text := m.convention.map (· ++ [' '])

def mark (m : VirtualMethod) : Option Text := if m.isPure then some " = 0".toList else none

/-- The declaration in front of `behind`. -/
def before (m : VirtualMethod) (behind : Text) : Text :=
  "virtual ".toList ++ (m.result ++ ' ' :: (m.spaced.getD [] ++ (m.name ++ '(' :: (m.params ++ ')' ::
    (m.mark.getD [] ++ ';' :: behind)))))

def text (m : VirtualMethod) : Text := m.before []

/-- A text of word characters. -/
def IsWord (w : Text) : Prop := w ≠ [] ∧ w.all Text.isWord = true

instance (w : Text) : Decidable (IsWord w) := inferInstanceAs (Decidable (_ ∧ _))

structure Valid (m : VirtualMethod) : Prop where
  result : IsWord m.result
  convention : ∀ w ∈ m.convention, IsWord w
  name : IsWord m.name
  params : ')' ∉ m.params

instance (m : VirtualMethod) : Decidable m.Valid :=
  decidable_of_iff
    (IsWord m.result ∧ (∀ w ∈ m.convention, IsWord w) ∧ IsWord m.name ∧ ')' ∉ m.params)
    ⟨fun ⟨a, b, c, d⟩ => ⟨a, b, c, d⟩, fun ⟨a, b, c, d⟩ => ⟨a, b, c, d⟩⟩

/-- The match that takes the declaration. -/
def hit (m : VirtualMethod) : Pattern.Hit where
  taken := m.text
  group
    | 1 => some m.result
    | 2 => m.spaced
    | 3 => some m.name
    | 4 => some m.params
    | 5 => m.mark
    | _ => none

/-- What the declaration becomes. -/
def expanded (m : VirtualMethod) (template : Text) : Text :=
  Pattern.expand Pattern.virtualMethod.groupCount m.hit template

theorem before_eq (m : VirtualMethod) (behind : Text) : m.before behind = m.text ++ behind := by
  unfold text before
  generalize "virtual ".toList = keyword
  simp only [List.append_assoc, List.cons_append, List.nil_append]

theorem groupCount_virtualMethod : Pattern.virtualMethod.groupCount = 5 := rfl

/-- By default a method becomes a pointer to a function, and the convention is left out. -/
theorem expanded_default (m : VirtualMethod) : m.expanded ({} : Rules).methodTemplate =
    m.result ++ " (*".toList ++ m.name ++ ")(".toList ++ m.params ++ ");".toList := by
  unfold expanded
  rw [groupCount_virtualMethod]
  simp [Pattern.expand, Pattern.groupRef?, Pattern.Hit.group?, hit]

end VirtualMethod

namespace Pattern

variable {p q : Pattern} {first : Bool} {s : Text} {a b o : Outcome}

theorem prefers_literal (first : Bool) (w s : Text) :
    (literal w).Prefers first (w ++ s) { rest := s } := by
  fun_induction literal w generalizing first with
  | case1 => exact ⟨[], rfl⟩
  | case2 c => exact prefers_char c
  | case3 c w ne ih => exact (prefers_char c).seq fun later => ih later

theorem Prefers.congr (h : p.Prefers first s a) (rest : a.rest = b.rest)
    (group : ∀ i, a.group i = b.group i) : p.Prefers first s b := by
  obtain ⟨ra, ga⟩ := a
  obtain ⟨rb, gb⟩ := b
  obtain rfl : ra = rb := rest
  obtain rfl : ga = gb := funext group
  exact h

/-- A group takes what its part takes. -/
theorem Prefers.group_taken {w : Text} (h : p.Prefers first (w ++ s) { rest := s }) (i : Nat) :
    (Pattern.group i p).Prefers first (w ++ s)
      { rest := s, group := fun j => if j = i then some w else none } :=
  (h.group i).congr rfl fun j => by rw [Outcome.remember, Text.before_append_right]

/-- An optional part that stands there is taken, and one that cannot match is passed over. -/
theorem prefers_optional_group {i : Nat} {w : Option Text} (s : Text)
    (found : ∀ x ∈ w, p.Prefers first (x ++ s) { rest := s })
    (absent : w = none → p.outcomes first s = []) :
    (optional (.group i p)).Prefers first (w.getD [] ++ s)
      { rest := s, group := fun j => if j = i then w else none } := by
  cases w with
  | none =>
    have passed : (optional (.group i p)).Prefers first s { rest := s } :=
      .right (outcomes_group_nil i (absent rfl)) ⟨[], rfl⟩
    exact passed.congr rfl fun j => (ite_self _).symm
  | some x => exact ((found x rfl).group_taken i).left

/-- A word that a parenthesis follows is not followed by a space. -/
theorem outcomes_word_space {w : Text} (word : w.all Text.isWord = true) (s : Text) :
    (Pattern.seq Pattern.word (char ' ')).outcomes first (w ++ '(' :: s) = [] := by
  refine List.eq_nil_iff_forall_not_mem.2 fun o mem => ?_
  obtain ⟨a, later, b, left, right, -⟩ := exists_of_mem_seq mem
  obtain ⟨v, -, all, source⟩ := exists_of_mem_atLeastOne left
  rw [(source_of_mem_char right).1] at source
  have cut := congrArg (List.dropWhile Text.isWord) source
  rw [List.dropWhile_append_of_pos (List.all_eq_true.1 word),
    List.dropWhile_append_of_pos (List.all_eq_true.1 all),
    List.dropWhile_cons_of_neg (by decide), List.dropWhile_cons_of_neg (by decide)] at cut
  exact absurd (List.cons.inj cut).1 (by decide)

theorem prefers_word {w : Text} (h : VirtualMethod.IsWord w) {c : Char} (stops : Text.isWord c = false)
    (s : Text) : Pattern.word.Prefers first (w ++ c :: s) { rest := c :: s } :=
  prefers_atLeastOne h.1 h.2 stops

/-- A declaration of a virtual method is found whole. -/
theorem prefers_virtualMethod {m : VirtualMethod} (valid : m.Valid) (behind : Text) :
    virtualMethod.Prefers first (m.before behind) { rest := behind, group := m.hit.group } := by
  have convention (later : Bool) : (optional (.group 2 (.seq word (char ' ')))).Prefers later
      (m.spaced.getD [] ++ (m.name ++ '(' :: (m.params ++ ')' :: (m.mark.getD [] ++ ';' :: behind))))
      { rest := m.name ++ '(' :: (m.params ++ ')' :: (m.mark.getD [] ++ ';' :: behind))
        group := fun j => if j = 2 then m.spaced else none } := by
    refine prefers_optional_group _ (fun x mem => ?_) fun _ => outcomes_word_space valid.name.2 _
    obtain ⟨w, given, rfl⟩ := Option.map_eq_some_iff.1 mem
    rw [List.append_assoc]
    exact (prefers_word (valid.convention w given) (by decide) _).seq fun _ => prefers_char ' '
  have mark (later : Bool) : (optional (.group 5 (literal " = 0".toList))).Prefers later
      (m.mark.getD [] ++ ';' :: behind)
      { rest := ';' :: behind, group := fun j => if j = 5 then m.mark else none } := by
    refine prefers_optional_group _ (fun x mem => ?_) fun _ => rfl
    have written : x = " = 0".toList := by
      unfold VirtualMethod.mark at mem
      split_ifs at mem
      · exact (Option.some.inj mem).symm
      · cases mem
    rw [written]
    exact prefers_literal later _ _
  have params (later : Bool) : (Pattern.many (· ≠ ')')).Prefers later
      (m.params ++ ')' :: (m.mark.getD [] ++ ';' :: behind))
      { rest := ')' :: (m.mark.getD [] ++ ';' :: behind) } := by
    refine prefers_many (List.all_eq_true.2 fun c mem => decide_eq_true fun close => ?_) rfl
    exact valid.params (close ▸ mem)
  have found := (prefers_literal first "virtual ".toList _).seq fun _ =>
    ((prefers_word valid.result (by decide) _).group_taken 1).seq fun _ =>
    (prefers_char ' ').seq fun later => (convention later).seq fun _ =>
    ((prefers_word valid.name (by decide) _).group_taken 3).seq fun _ =>
    (prefers_char '(').seq fun later => ((params later).group_taken 4).seq fun _ =>
    (prefers_char ')').seq fun later => (mark later).seq fun _ => prefers_char ';'
  refine found.congr rfl fun i => ?_
  match i with
  | 0 | 1 | 3 | 4 | n + 6 => rfl
  | 2 | 5 => exact Option.or_none

theorem virtualMethod_semicolon : virtualMethod.Demands ';' :=
  .inr (.inr (.inr (.inr (.inr (.inr (.inr (.inr (.inr (demands_char ';')))))))))

/-- A blank starts no declaration of a virtual method. -/
theorem virtualMethod_blank {c : Char} (h : Text.isBlank c = true) (first : Bool) (t : Text) :
    virtualMethod.outcomes first (c :: t) = [] := by
  refine outcomes_seq_nil (outcomes_literal_of_ne (by decide) (fun starts => ?_) first t)
  obtain rfl := Option.some.inj starts
  exact absurd h (by decide)

/-- A line with one virtual method, and what becomes of it. -/
theorem replace_virtualMethod {indent trail : Text} {m : VirtualMethod} (template : Text)
    (blanks : indent.all Text.isBlank = true) (valid : m.Valid) (single : ';' ∉ trail) :
    virtualMethod.replace template (indent ++ m.before trail) =
      some (indent ++ (m.expanded template ++ trail)) := by
  have shorter : trail.length < (m.before trail).length := by
    unfold VirtualMethod.before
    simp only [List.length_append, List.length_cons]
    omega
  have hit : (Outcome.mk trail m.hit.group).toHit (m.before trail) = m.hit := by
    rw [Outcome.toHit, m.before_eq, Text.before_append_right]
    rfl
  have replaced := replace_single (b := indent)
    (fun c mem => virtualMethod_blank (List.all_eq_true.1 blanks c mem))
    (fun _ => prefers_virtualMethod valid trail) shorter virtualMethod_semicolon single template
  rw [hit] at replaced
  exact replaced

end Pattern
end HeaderFlattening
