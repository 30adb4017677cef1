import HeaderFlattening.Proofs.Shapes

/-!
The declarations of a text, told by what stands around each `;`: a name in front of it, one space, and
a type that goes on no further to the left. The search for the shape of a declaration passes over none
of them, and the name declared by a text is that of the first whose type does not end in `return`.
-/

set_option autoImplicit false
namespace HeaderFlattening

/-- A type and a name, each a run of characters, with a space between them and a `;` behind them. -/
structure Declaration where
  before : Text
  type : Text
  name : Text
  after : Text

namespace Declaration

def isTypeChar (c : Char) : Bool := Text.isWord c || c = '*'

/-- The declaration stands in the text, and neither of its runs can be made longer. -/
structure In (d : Declaration) (t : Text) : Prop where
  source : t = d.before ++ (d.type ++ ' ' :: (d.name ++ ';' :: d.after))
  typed : d.type ≠ []
  word : d.type.all isTypeChar = true
  whole : d.before.getLast?.any isTypeChar = false
  named : d.name ≠ []
  nameWord : d.name.all Text.isWord = true

/-- The number of characters in front of the `;`. -/
def semicolon (d : Declaration) : Nat := d.before.length + d.type.length + 1 + d.name.length

variable {d : Declaration} {t : Text}

/-- A declaration is found where its type starts. -/
theorem exists_match {type name : Text} (after : Text) (typed : type ≠ [])
    (word : type.all isTypeChar = true) (named : name ≠ []) (nameWord : name.all Text.isWord = true)
    (first : Bool) :
    ∃ o, Pattern.declaration.match? first (type ++ ' ' :: (name ++ ';' :: after)) = some o := by
  obtain ⟨o, found, -⟩ := Pattern.prefers_declaration after typed word named nameWord
  exact ⟨o, (found first).match?_eq⟩

/-- What is found at a place is a declaration that starts there. -/
theorem exists_of_match {first : Bool} {s : Text} {o : Pattern.Outcome}
    (h : Pattern.declaration.match? first s = some o) :
    ∃ type name, s = type ++ ' ' :: (name ++ ';' :: o.rest) ∧ type ≠ [] ∧
      type.all isTypeChar = true ∧ name ≠ [] ∧ name.all Text.isWord = true ∧
      o.group 1 = some type ∧ o.group 2 = some name := by
  have way := h
  rw [Pattern.match?_eq_head?] at way
  obtain ⟨_, _, b, front, mem, -⟩ := Pattern.exists_of_mem_seq (List.mem_of_head? way)
  obtain ⟨x, _, y, space, ends, -⟩ := Pattern.exists_of_mem_seq mem
  obtain ⟨_, _, v, middle, last, -⟩ := Pattern.exists_of_mem_seq ends
  obtain ⟨a, typeRun, rfl⟩ := List.mem_map.1 front
  obtain ⟨u, nameRun, rfl⟩ := List.mem_map.1 middle
  obtain ⟨type, typed, word, source⟩ := Pattern.exists_of_mem_atLeastOne typeRun
  obtain ⟨name, named, nameWord, rest⟩ := Pattern.exists_of_mem_atLeastOne nameRun
  have blank : a.rest = ' ' :: x.rest := (Pattern.source_of_mem_char space).1
  have mark : u.rest = ';' :: v.rest := (Pattern.source_of_mem_char last).1
  rw [blank, rest, mark] at source
  -- The way to match is settled by the text, so its groups are those of this declaration.
  obtain ⟨p, found, behind, one, two⟩ :=
    Pattern.prefers_declaration v.rest typed word named nameWord
  rw [source, (found first).match?_eq] at h
  obtain rfl := Option.some.inj h
  exact ⟨type, name, by rw [source, behind], typed, word, named, nameWord, one, two⟩

theorem In.plain (h : d.In t) : ';' ∉ d.type ++ ' ' :: d.name := by
  have type : ';' ∉ d.type := Text.notMem_of_all h.word (by decide)
  have name : ';' ∉ d.name := Text.notMem_of_all h.nameWord (by decide)
  simp [type, name]

/-- Of two declarations in a text, the one that starts later starts behind the other. -/
theorem In.eq_or_behind {e : Declaration} (hd : d.In t) (he : e.In t)
    (le : d.before.length ≤ e.before.length) : e = d ∨ d.semicolon < e.before.length := by
  obtain ⟨dBefore, dType, dName, dAfter⟩ := d
  obtain ⟨eBefore, eType, eName, eAfter⟩ := e
  have dPlain := hd.plain
  have ePlain := he.plain
  have dPrefix : dBefore <+: t := ⟨_, hd.source.symm⟩
  have ePrefix : eBefore <+: t := ⟨_, he.source.symm⟩
  obtain ⟨m, rfl⟩ := List.prefix_of_prefix_length_le dPrefix ePrefix le
  have same := hd.source.symm.trans he.source
  have rest : dType ++ ' ' :: dName ++ ';' :: dAfter =
      m ++ (eType ++ ' ' :: eName ++ ';' :: eAfter) := by simpa using same
  by_cases mark : ';' ∈ m
  · right
    rcases List.append_eq_append_iff.1 rest with ⟨z, rfl, -⟩ | ⟨z, short, -⟩
    · cases z with
      | nil => simp_all
      | cons c z =>
        simp [semicolon]
        omega
    · simp [short, mark] at dPlain
  · -- Both end at the same `;`, so they have the same name, and the types end at the same place.
    left
    rw [← List.append_assoc] at rest
    have fresh : ';' ∉ m ++ (eType ++ ' ' :: eName) := by
      rw [List.mem_append, not_or]
      exact ⟨mark, ePlain⟩
    obtain ⟨front, -, rfl⟩ := Text.mark_inj fresh dPlain rest
    rw [← List.append_assoc] at front
    obtain ⟨rfl, rfl⟩ := Text.last_mark_inj (Text.notMem_of_all hd.nameWord (by decide))
      (Text.notMem_of_all he.nameWord (by decide)) front
    rcases List.eq_nil_or_concat m with rfl | ⟨m, c, rfl⟩
    · simp
    · have word := hd.word
      have whole := he.whole
      simp at word whole
      simp [word.2.1] at whole

/-- Where nothing is found no declaration starts. -/
theorem In.length_ne {before s : Text} (inside : d.In (before ++ s)) {first : Bool}
    (none : Pattern.declaration.match? first s = none) : d.before.length ≠ before.length := by
  intro start
  have source := inside.source
  obtain ⟨rfl, rfl⟩ := List.append_inj source start.symm
  obtain ⟨o, found⟩ :=
    exists_match d.after inside.typed inside.word inside.named inside.nameWord first
  simp [none] at found

/-- A type that is found can be made longer. -/
theorem exists_match_cons {c : Char} (typeChar : isTypeChar c = true) {s : Text} {o : Pattern.Outcome}
    {later : Bool} (found : Pattern.declaration.match? later s = some o) (first : Bool) :
    ∃ o, Pattern.declaration.match? first (c :: s) = some o := by
  obtain ⟨type, name, rfl, typed, word, named, nameWord, -⟩ := exists_of_match found
  have longer : (c :: type).all isTypeChar = true := by simp [typeChar, word]
  exact exists_match o.rest (List.cons_ne_nil c type) longer named nameWord first

/-- The declarations that start at a place or behind it, in the order of their `;`, are what is found
from there on. -/
theorem exists_found (first behind : Bool) (before s : Text)
    (apart : before.getLast?.any isTypeChar = true →
      ∀ first, Pattern.declaration.match? first s = none) :
    ∃ ds : List Declaration,
      (∀ d : Declaration, d ∈ ds ↔ d.In (before ++ s) ∧ before.length ≤ d.before.length) ∧
      ds.Pairwise (fun d e => d.semicolon < e.semicolon) ∧
      ((Pattern.declaration.piecesFrom first behind s).filterMap Pattern.Piece.hit?).map
          (fun h => (h.group? 1, h.group? 2)) = ds.map fun d => (some d.type, some d.name) := by
  fun_induction Pattern.piecesFrom Pattern.declaration first behind s generalizing before with
  | case1 first behind none =>
    refine ⟨[], fun d => ?_, List.Pairwise.nil, rfl⟩
    simp only [List.not_mem_nil, false_iff, not_and]
    intro inside le
    have start := inside.length_ne none
    have length := congrArg List.length inside.source
    simp at length
    omega
  | case2 first o found | case3 first behind o found =>
    obtain ⟨type, name, source, -⟩ := exists_of_match found
    simp at source
  | case4 first behind c s none ih =>
    have next (last : (before ++ [c]).getLast?.any isTypeChar = true) (later : Bool) :
        Pattern.declaration.match? later s = Option.none := by
      rw [List.getLast?_concat, Option.any_some] at last
      cases found : Pattern.declaration.match? later s with
      | none => rfl
      | some o =>
        obtain ⟨o, whole⟩ := exists_match_cons last found first
        simp [none] at whole
    obtain ⟨ds, mem, sorted, hits⟩ := ih (before ++ [c]) next
    refine ⟨ds, fun d => ?_, sorted, hits⟩
    rw [mem, List.append_assoc, List.singleton_append, List.length_append, List.length_singleton]
    refine and_congr_right fun inside => ?_
    have start := inside.length_ne none
    omega
  | case5 first behind c s o found shorter ih =>
    obtain ⟨type, name, source, typed, word, named, nameWord, one, two⟩ := exists_of_match found
    have whole : before.getLast?.any isTypeChar = false := by
      refine Bool.eq_false_iff.2 fun last => ?_
      simp [apart last first] at found
    have here : In ⟨before, type, name, o.rest⟩ (before ++ c :: s) :=
      ⟨by rw [source], typed, word, whole, named, nameWord⟩
    have consumed : before ++ type ++ ' ' :: name ++ [';'] ++ o.rest = before ++ c :: s := by
      simp [source]
    obtain ⟨ds, mem, sorted, hits⟩ := ih (before ++ type ++ ' ' :: name ++ [';']) (by
      rw [List.getLast?_concat]
      exact fun last => absurd last (by decide))
    rw [consumed] at mem
    have length : (before ++ type ++ ' ' :: name ++ [';']).length =
        semicolon ⟨before, type, name, o.rest⟩ + 1 := by
      simp [semicolon]
      omega
    rw [length] at mem
    refine ⟨⟨before, type, name, o.rest⟩ :: ds, fun d => ?_, List.Pairwise.cons ?_ sorted, ?_⟩
    · rw [List.mem_cons, mem]
      constructor
      · rintro (rfl | ⟨inside, le⟩)
        · exact ⟨here, Nat.le_refl _⟩
        · simp only [semicolon] at le
          exact ⟨inside, by omega⟩
      · rintro ⟨inside, le⟩
        exact (here.eq_or_behind inside le).imp_right fun behind => ⟨inside, behind⟩
    · intro e later
      obtain ⟨-, le⟩ := (mem e).1 later
      unfold semicolon at le ⊢
      omega
    · rw [List.filterMap_cons_some (by rfl), List.map_cons, hits, List.map_cons]
      simp [Pattern.Hit.group?, Pattern.Outcome.toHit, one, two]
  | case6 first c s o found whole ih | case7 first behind c s o found whole fresh ih =>
    obtain ⟨type, name, source, -⟩ := exists_of_match found
    rw [source] at whole
    simp at whole
    omega

/-- The declared name is looked for among the declarations of the text, all of them, in the order of
their `;`, and is that of the first one whose type does not end in `return`. -/
theorem declaredName?_eq_first (t : Text) :
    ∃ ds : List Declaration,
      (∀ d : Declaration, d ∈ ds ↔ d.In t) ∧
      ds.Pairwise (fun d e => d.semicolon < e.semicolon) ∧
      t.declaredName? =
        (ds.find? fun d => !"return".toList.isSuffixOf d.type).map Declaration.name := by
  obtain ⟨ds, mem, sorted, hits⟩ := exists_found true false [] t (fun last => by simp at last)
  refine ⟨ds, fun d => by simp [mem], sorted, ?_⟩
  unfold Text.declaredName? Pattern.hits Pattern.pieces
  generalize (Pattern.declaration.piecesFrom true false t).filterMap Pattern.Piece.hit? = found at hits
  clear mem sorted
  induction ds generalizing found with
  | nil => simp_all
  | cons d ds ih =>
    obtain ⟨h, more, rfl, eq, hits⟩ := List.map_eq_cons_iff.1 hits
    obtain ⟨one, two⟩ := Prod.mk.inj eq
    rw [List.find?_cons, List.find?_cons, one, Option.getD_some]
    cases "return".toList.isSuffixOf d.type with
    | false => exact two
    | true => exact ih more hits

example : Text.declaredName? "return x; INT y;".toList = some ['y'] := by cbv

end Declaration
end HeaderFlattening
