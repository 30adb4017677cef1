import Mathlib.Data.List.Infix
import Mathlib.Tactic.SplitIfs
import HeaderFlattening.Files.Path

/-!
Paths by their parts. A part is a stretch of a path between slashes; joining a name to a path adds it
as one part, and the paths above a path are spelled by what its names begin with.
-/

set_option autoImplicit false
namespace HeaderFlattening.Path

variable {path base name p : Text} {ns : List Text} {c : Char}

theorem segments_eq_splitOn (path : Text) : segments path = path.splitOn '/' := by
  induction path with
  | nil => exact (List.splitOn_nil _).symm
  | cons c path ih =>
    rw [List.splitOn_cons_eq_if_modifyHead, segments, ih]
    simp only [beq_iff_eq]
    split_ifs
    · rfl
    · cases cut : path.splitOn '/' with
      | nil => exact absurd cut (List.splitOn_ne_nil _ _)
      | cons segment rest => rfl

theorem parts_eq_filter_splitOn (path : Text) :
    parts path = (path.splitOn '/').filter (!·.isEmpty) := by
  rw [parts, segments_eq_splitOn]

theorem of_mem_segments {segment : Text} (mem : segment ∈ segments path) (inside : c ∈ segment) :
    c ≠ '/' ∧ c ∈ path := by
  induction path generalizing segment with
  | nil =>
    obtain rfl : segment = [] := by simpa [segments] using mem
    cases inside
  | cons d path ih =>
    rw [segments] at mem
    split_ifs at mem with slash
    · rcases List.mem_cons.1 mem with rfl | later
      · cases inside
      · exact (ih later inside).imp_right (List.mem_cons_of_mem d)
    · cases cut : segments path with
      | nil =>
        rw [cut] at mem
        obtain rfl : segment = [d] := by simpa using mem
        obtain rfl : c = d := by simpa using inside
        exact ⟨slash, List.mem_cons_self⟩
      | cons first rest =>
        rw [cut] at mem ih
        rcases List.mem_cons.1 mem with rfl | later
        · rcases List.mem_cons.1 inside with rfl | behind
          · exact ⟨slash, List.mem_cons_self⟩
          · exact (ih List.mem_cons_self behind).imp_right (List.mem_cons_of_mem d)
        · exact (ih (List.mem_cons_of_mem _ later) inside).imp_right (List.mem_cons_of_mem d)

/-- A text that can stand between two slashes. -/
def IsPart (part : Text) : Prop := part ≠ [] ∧ '/' ∉ part

theorem isPart_of_mem_parts (mem : name ∈ parts path) : IsPart name := by
  obtain ⟨segment, full⟩ := List.mem_filter.1 mem
  exact ⟨by simpa using full, fun slash => (of_mem_segments segment slash).1 rfl⟩

theorem mem_of_mem_parts (mem : name ∈ parts path) (inside : c ∈ name) : c ∈ path :=
  (of_mem_segments (List.mem_filter.1 mem).1 inside).2

theorem parts_append_slash (front rest : Text) :
    parts (front ++ '/' :: rest) = parts front ++ parts rest := by
  simp only [parts_eq_filter_splitOn, List.splitOn_append_cons_self, List.filter_append]

theorem parts_of_isPart (part : IsPart name) : parts name = [name] := by
  rw [parts_eq_filter_splitOn, List.splitOn_eq_singleton part.2]
  simpa using part.1

theorem isAbsolute_append (part : IsPart name) (rest : Text) :
    isAbsolute (name ++ rest) = false := by
  obtain ⟨full, plain⟩ := part
  cases name with
  | nil => exact absurd rfl full
  | cons c name =>
    have other : c ≠ '/' := fun eq => plain (eq ▸ List.mem_cons_self)
    simp [isAbsolute, other]

theorem isAbsolute_of_isPart (part : IsPart name) : isAbsolute name = false := by
  rw [← List.append_nil name]
  exact isAbsolute_append part []

/-- A name joined to a path is one more part. -/
theorem parts_join (part : IsPart name) : parts (join base name) = parts base ++ [name] := by
  rw [join, isAbsolute_of_isPart part, Bool.false_or]
  split_ifs with empty slash
  · rw [List.isEmpty_iff.1 empty, parts_of_isPart part]
    rfl
  · have last : base.getLast? = some '/' := by simpa [endsInSlash] using slash
    obtain ⟨front, rfl⟩ := List.getLast?_eq_some_iff.1 last
    have closed : parts (front ++ ['/']) = parts front := by
      rw [parts_append_slash]
      exact List.append_nil _
    rw [closed, List.append_assoc, List.singleton_append, parts_append_slash, parts_of_isPart part]
  · rw [parts_append_slash, parts_of_isPart part]

theorem isAbsolute_join (part : IsPart name) : isAbsolute (join base name) = isAbsolute base := by
  rw [join, isAbsolute_of_isPart part, Bool.false_or]
  cases base with
  | nil => exact isAbsolute_of_isPart part
  | cons c base =>
    rw [List.isEmpty_cons, if_neg Bool.false_ne_true]
    split_ifs <;> rfl

/-- A path is read back as the parts that it was made of. -/
theorem parts_ofNames (absolute : Bool) (isPart : ∀ n ∈ ns, IsPart n) :
    parts (ofNames absolute ns) = ns := by
  have relative : parts (Text.join ['/'] ns) = ns := by
    cases ns with
    | nil => rfl
    | cons n ns =>
      rw [parts_eq_filter_splitOn, Text.join_eq_intercalate,
        List.splitOn_intercalate '/' (fun n mem => (isPart n mem).2) (List.cons_ne_nil n ns)]
      exact List.filter_eq_self.2 fun n mem => by simpa using (isPart n mem).1
  cases absolute with
  | false => exact relative
  | true => exact (parts_append_slash [] _).trans relative

theorem isAbsolute_ofNames (absolute : Bool) (isPart : ∀ n ∈ ns, IsPart n) :
    isAbsolute (ofNames absolute ns) = absolute := by
  cases absolute with
  | true => rfl
  | false =>
    cases ns with
    | nil => rfl
    | cons n ns =>
      have first := isPart n List.mem_cons_self
      cases ns with
      | nil => exact isAbsolute_of_isPart first
      | cons m ns =>
        show isAbsolute (n ++ ['/'] ++ Text.join ['/'] (m :: ns)) = false
        rw [List.append_assoc]
        exact isAbsolute_append first _

theorem beginnings_eq_inits {α : Type} (l : List α) : beginnings l = l.inits := by
  induction l with
  | nil => rfl
  | cons a l ih => rw [beginnings, ih, List.inits_cons]

theorem mem_parts_of_mem_names (mem : name ∈ names path) : name ∈ parts path := by
  unfold names at mem
  cases cut : parts path with
  | nil =>
    rw [cut] at mem
    cases mem
  | cons first rest =>
    rw [cut] at mem
    dsimp only at mem
    split_ifs at mem with lead
    · rcases List.mem_cons.1 mem with rfl | later
      · exact List.mem_cons_self
      · exact List.mem_cons_of_mem _ (List.mem_filter.1 later).1
    · exact (List.mem_filter.1 mem).1

theorem exists_names_of_mem_above (mem : p ∈ above path) :
    ∃ front, front <+: names path ∧ p = ofNames (isAbsolute path) front := by
  obtain ⟨front, begins, rfl⟩ := List.mem_map.1 mem
  have initial := List.mem_of_mem_dropLast (List.mem_reverse.1 begins)
  rw [beginnings_eq_inits, List.mem_inits] at initial
  exact ⟨front, initial, rfl⟩

theorem isPart_of_prefix_names (begins : ns <+: names path) (n : Text) (mem : n ∈ ns) : IsPart n :=
  isPart_of_mem_parts (mem_parts_of_mem_names (begins.mem mem))

/-- No character but the slash comes up in a path above that is not in the path. -/
theorem mem_of_mem_above (mem : p ∈ above path) (inside : c ∈ p) (other : c ≠ '/') : c ∈ path := by
  obtain ⟨front, begins, rfl⟩ := exists_names_of_mem_above mem
  rcases List.mem_append.1 inside with root | joined
  · split_ifs at root
    · exact absurd (List.mem_singleton.1 root) other
    · cases root
  · rw [Text.join_eq_intercalate] at joined
    rcases mem_intercalate joined with slash | part
    · exact absurd (List.mem_singleton.1 slash) other
    · obtain ⟨n, begun, there⟩ := List.mem_flatten.1 part
      exact mem_of_mem_parts (mem_parts_of_mem_names (begins.mem begun)) there

/-- The parts of a path that lead somewhere. -/
def steps (path : Text) : List Text := (path.splitOn '/').filter fun c => c ≠ [] ∧ c ≠ here

theorem fileName?_eq_filter (path : Text) :
    fileName? path = (steps path).getLast?.filter (· ≠ up) := by
  have same : (parts path).filter (· ≠ here) = steps path := by
    rw [parts_eq_filter_splitOn, List.filter_filter, steps]
    refine List.filter_congr fun part _ => ?_
    cases part <;> simp
  rw [fileName?, same]

/-- There is no name just if nothing is left of the path or it ends on the way up. -/
theorem fileName?_eq_none_iff :
    fileName? path = none ↔ steps path = [] ∨ (steps path).getLast? = some up := by
  rw [fileName?_eq_filter]
  cases last : (steps path).getLast? with
  | none => simpa using List.getLast?_eq_none_iff.1 last
  | some part =>
    have full : steps path ≠ [] := by
      rintro empty
      rw [empty] at last
      cases last
    simp [Option.filter, full]

theorem of_fileName?_eq_some (named : fileName? path = some name) :
    (steps path).getLast? = some name ∧ IsPart name ∧ name ≠ here ∧ name ≠ up := by
  rw [fileName?_eq_filter, Option.filter_eq_some_iff] at named
  obtain ⟨last, notUp⟩ := named
  obtain ⟨between, kept⟩ := List.mem_filter.1 (List.mem_of_getLast? last)
  have essential : name ≠ [] ∧ name ≠ here := by simpa using kept
  rw [← segments_eq_splitOn] at between
  exact ⟨last, ⟨essential.1, fun slash => (of_mem_segments between slash).1 rfl⟩, essential.2,
    by simpa using notUp⟩

end HeaderFlattening.Path
