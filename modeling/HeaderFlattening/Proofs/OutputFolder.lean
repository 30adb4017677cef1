import HeaderFlattening.Files.Layout
import HeaderFlattening.Proofs.FileConversion
import HeaderFlattening.Proofs.PathParts

/-!
Where the outputs of a run go. Of the path of a header only the last name is kept, so that an output
always lies directly in the output folder. Making that folder makes the missing folders on the way to
it and changes nothing else.
-/

set_option autoImplicit false
namespace HeaderFlattening

namespace Tree

variable {t u v : Tree} {l k : Location} {path p : Text} {front above : List Text}

/-- Where a path starts. -/
def start (t : Tree) (path : Text) : Location := if Path.isAbsolute path then [] else t.current

/-- A beginning of the path leads there. -/
def Passes (t : Tree) (path : Text) (l : Location) : Prop :=
  ∃ front, front <+: Path.parts path ∧ t.follow (t.start path) front = .ok l

theorem MoreFolders.passes (more : MoreFolders t u) (passes : t.Passes path l) :
    u.Passes path l := by
  obtain ⟨front, begins, leads⟩ := passes
  refine ⟨front, begins, ?_⟩
  rw [start, more.current]
  exact more.follow leads

theorem moreFolders_put (free : t.node? l = none) : MoreFolders t (t.put l .folder) := by
  refine ⟨rfl, fun k there => ?_⟩
  have other : k ≠ l := by
    rintro rfl
    cases free.symm.trans there
  rw [node?_put_of_ne t _ other, there]

/-- What was there is there, and what came up is a folder on the way that the path takes. -/
structure Paved (path : Text) (t u : Tree) : Prop where
  current : u.current = t.current
  nodes (l : Location) :
    u.node? l = t.node? l ∨ t.node? l = none ∧ u.node? l = some .folder ∧ u.Passes path l

namespace Paved

theorem refl (path : Text) (t : Tree) : Paved path t t := ⟨rfl, fun _ => .inl rfl⟩

theorem more (h : Paved path t u) : MoreFolders t u := by
  refine ⟨h.current, fun l there => ?_⟩
  rcases h.nodes l with same | ⟨-, made, -⟩
  · rw [same, there]
  · exact made

theorem trans (a : Paved path t u) (b : Paved path u v) : Paved path t v := by
  refine ⟨b.current.trans a.current, fun l => ?_⟩
  rcases a.nodes l with same | ⟨free, made, passes⟩
  · rw [← same]
    exact b.nodes l
  · exact .inr ⟨free, b.more.folder l made, b.more.passes passes⟩

theorem put (free : t.node? l = none) (passes : t.Passes path l) :
    Paved path t (t.put l .folder) := by
  have ne : l ≠ [] := ne_nil_of_not_folder (by rw [free]; nofun)
  refine ⟨rfl, fun k => ?_⟩
  by_cases eq : k = l
  · subst eq
    exact .inr ⟨free, node?_put_self t _ ne, (moreFolders_put free).passes passes⟩
  · exact .inl (node?_put_of_ne t _ eq)

end Paved

/-- The parts that lead nowhere can be put back into the beginning of a path. -/
theorem exists_follow_of_filter {parts : List Text} (begins : front <+: parts.filter (· ≠ Path.here))
    (leads : t.follow l front = .ok k) : ∃ whole, whole <+: parts ∧ t.follow l whole = .ok k := by
  induction parts generalizing l front with
  | nil => exact ⟨front, begins, leads⟩
  | cons part parts ih =>
    cases front with
    | nil => exact ⟨[], List.nil_prefix, leads⟩
    | cons first front =>
      obtain ⟨there, m, enters, behind⟩ := follow_cons_eq_ok_iff.1 leads
      by_cases idle : part = Path.here
      · rw [List.filter_cons_of_neg (by simpa using idle)] at begins
        obtain ⟨whole, begins, leads⟩ := ih begins leads
        exact ⟨part :: whole, (List.prefix_cons_inj part).2 begins,
          follow_cons_eq_ok_iff.2 ⟨there, l, if_pos idle, leads⟩⟩
      · rw [List.filter_cons_of_pos (by simpa using idle), List.cons_prefix_cons] at begins
        obtain ⟨rfl, begins⟩ := begins
        obtain ⟨whole, begins, behind⟩ := ih begins behind
        exact ⟨first :: whole, (List.prefix_cons_inj first).2 begins,
          follow_cons_eq_ok_iff.2 ⟨there, m, enters, behind⟩⟩

theorem passes_of_prefix_names (begins : front <+: Path.names path)
    (leads : t.follow (t.start path) front = .ok l) : t.Passes path l := by
  rw [Path.names] at begins
  rw [Passes]
  cases cut : Path.parts path with
  | nil =>
    rw [cut] at begins
    exact ⟨front, begins, leads⟩
  | cons first rest =>
    rw [cut] at begins
    dsimp only at begins
    split_ifs at begins with lead
    · -- a dot at the start of a relative path is one of its names
      cases front with
      | nil => exact ⟨[], List.nil_prefix, leads⟩
      | cons name front =>
        obtain ⟨rfl, inner⟩ := List.cons_prefix_cons.1 begins
        obtain ⟨there, m, enters, behind⟩ := follow_cons_eq_ok_iff.1 leads
        obtain ⟨whole, initial, behind⟩ := exists_follow_of_filter inner behind
        exact ⟨name :: whole, (List.prefix_cons_inj name).2 initial,
          follow_cons_eq_ok_iff.2 ⟨there, m, enters, behind⟩⟩
    · exact exists_follow_of_filter begins leads

/-- A path above another leads to a place on its way. -/
theorem passes_of_above (way : p = path ∨ p ∈ Path.above path) (leads : t.locate p = .ok l) :
    t.Passes path l := by
  obtain ⟨-, follows⟩ := follow_of_locate leads
  rcases way with rfl | above
  · exact ⟨_, List.prefix_rfl, follows⟩
  · obtain ⟨front, begins, rfl⟩ := Path.exists_names_of_mem_above above
    have isPart := Path.isPart_of_prefix_names begins
    rw [Path.parts_ofNames _ isPart, Path.isAbsolute_ofNames _ isPart] at follows
    exact passes_of_prefix_names begins follows

/-! Making folders. -/

theorem makeFolder_eq_ok_iff :
    t.makeFolder path = .ok u ↔
      ∃ l, t.locate path = .ok l ∧ t.node? l = none ∧ u = t.put l .folder := by
  rw [makeFolder]
  cases t.locate path with
  | error fault => exact iff_of_false nofun (fun ⟨_, h, _⟩ => nomatch h)
  | ok l =>
    change (if (t.node? l).isSome = true then Except.error FileFault.alreadyExists
      else .ok (t.put l .folder)) = .ok u ↔ _
    constructor
    · intro made
      split_ifs at made with taken
      exact ⟨l, rfl, by simpa using taken, (Except.ok.inj made).symm⟩
    · rintro ⟨_, same, free, rfl⟩
      cases same
      rw [if_neg (by simp [free])]

theorem isFolder_eq_true_iff :
    t.isFolder path = true ↔ ∃ l, t.find path = .ok (l, .folder) := by
  rw [isFolder]
  constructor
  · intro folder
    split at folder
    · exact ⟨_, ‹_›⟩
    · cases folder
  · rintro ⟨l, found⟩
    rw [found]

theorem isFolder_of_makeFolder (made : t.makeFolder path = .ok u) : u.isFolder path = true := by
  obtain ⟨l, leads, free, rfl⟩ := makeFolder_eq_ok_iff.1 made
  have ne : l ≠ [] := ne_nil_of_not_folder (by rw [free]; nofun)
  exact isFolder_eq_true_iff.2
    ⟨l, find_of_folder ((moreFolders_put free).locate leads) (node?_put_self t _ ne)⟩

theorem run_settleFolder (t : Tree) (p : Text) :
    (FileSystem.settleFolder p : StateM Tree _).run t =
      match t.makeFolder p with
      | .ok u => (.ok (), u)
      | .error fault => (if t.isFolder p then .ok () else .error fault, t) := by
  rw [FileSystem.settleFolder]
  cases made : t.makeFolder p with
  | ok u =>
    have ran : (FileSystem.makeFolder p : StateM Tree _).run t = (.ok (), u) := run_change_ok made
    rw [run_bind ran]
    rfl
  | error fault =>
    have ran : (FileSystem.makeFolder p : StateM Tree _).run t = (.error fault, t) :=
      run_change_error made
    rw [run_bind ran]
    rfl

theorem follow_ne_nul (t : Tree) (l : Location) (parts : List Text) :
    t.follow l parts ≠ .error .nulInName := by
  induction parts generalizing l with
  | nil => simp [follow]
  | cons part rest ih =>
    rw [follow]
    cases t.node? l with
    | none => simp
    | some n =>
      cases n with
      | file bytes => simp
      | folder =>
        dsimp only
        split_ifs
        · exact ih l
        · exact ih _
        · simp
        · exact ih _

theorem locate_eq_nul_iff : t.locate p = .error .nulInName ↔ '\x00' ∈ p := by
  rw [locate]
  split_ifs with nul empty long
  · exact iff_of_true rfl (by simpa using nul)
  · exact iff_of_false (by simp) (by simpa using nul)
  · exact iff_of_false (by simp) (by simpa using nul)
  · exact iff_of_false (follow_ne_nul t _ _) (by simpa using nul)
  · exact iff_of_false (follow_ne_nul t _ _) (by simpa using nul)

theorem makeFolder_eq_nul_iff : t.makeFolder p = .error .nulInName ↔ '\x00' ∈ p := by
  rw [← locate_eq_nul_iff (t := t), makeFolder]
  cases t.locate p with
  | error fault =>
    change (Except.error fault : Except FileFault Tree) = .error .nulInName ↔ _
    rw [Except.error.injEq, Except.error.injEq]
  | ok l =>
    change (if (t.node? l).isSome = true then Except.error FileFault.alreadyExists
      else .ok (t.put l .folder)) = .error .nulInName ↔ _
    split_ifs <;> exact iff_of_false nofun nofun

/-- What becomes of the attempt to have a folder at `p`, and before it at the paths above, all of them
on the way of `path`. -/
structure Settles (path : Text) (t : Tree) (p : Text) (above : List Text)
    (outcome : Except FileFault Unit × Tree) : Prop where
  paved : Paved path t outcome.2
  folder (done : outcome.1 = .ok ()) (full : p ≠ []) : outcome.2.isFolder p = true
  nul (refused : outcome.1 = .error .nulInName) : ∃ q ∈ p :: above, '\x00' ∈ q

theorem settles_settleFolder (onWay : p = path ∨ p ∈ Path.above path) (above : List Text)
    (t : Tree) : Settles path t p above ((FileSystem.settleFolder p : StateM Tree _).run t) := by
  rw [run_settleFolder]
  cases made : t.makeFolder p with
  | ok u =>
    obtain ⟨l, leads, free, same⟩ := makeFolder_eq_ok_iff.1 made
    refine ⟨?_, fun _ _ => isFolder_of_makeFolder made, nofun⟩
    rw [same]
    exact .put free (passes_of_above onWay leads)
  | error fault =>
    dsimp only
    refine ⟨.refl path t, fun done _ => ?_, fun refused => ⟨p, List.mem_cons_self, ?_⟩⟩
    · by_contra none
      rw [if_neg none] at done
      cases done
    · split_ifs at refused
      cases refused
      exact makeFolder_eq_nul_iff.1 made

theorem settles_ensureFolder (onWay : ∀ q ∈ p :: above, q = path ∨ q ∈ Path.above path) (t : Tree) :
    Settles path t p above ((FileSystem.ensureFolder p above : StateM Tree _).run t) := by
  induction above generalizing p t with
  | nil =>
    rw [FileSystem.ensureFolder]
    split_ifs with empty
    · exact ⟨.refl path t, fun _ full => absurd (List.isEmpty_iff.1 empty) full, nofun⟩
    · exact settles_settleFolder (onWay p List.mem_cons_self) [] t
  | cons parent rest ih =>
    rw [FileSystem.ensureFolder]
    split_ifs with empty
    · exact ⟨.refl path t, fun _ full => absurd (List.isEmpty_iff.1 empty) full, nofun⟩
    · have settles := settles_settleFolder (onWay p List.mem_cons_self) (parent :: rest)
      have first := settles t
      have here : ∀ q ∈ parent :: rest, q = path ∨ q ∈ Path.above path :=
        fun q mem => onWay q (List.mem_cons_of_mem p mem)
      generalize ran : (FileSystem.settleFolder p : StateM Tree _).run t = outcome at first
      obtain ⟨result, u⟩ := outcome
      rw [run_bind ran]
      cases result with
      | ok done => exact ⟨first.paved, first.folder, first.nul⟩
      | error fault =>
        cases fault with
        | notFound =>
          have above := ih here u
          dsimp only
          generalize ran' : (FileSystem.ensureFolder parent rest : StateM Tree _).run u = outcome
            at above
          obtain ⟨result, v⟩ := outcome
          rw [run_bind ran']
          cases result with
          | error fault =>
            refine ⟨first.paved.trans above.paved, nofun, fun refused => ?_⟩
            obtain ⟨q, mem, nul⟩ := above.nul refused
            exact ⟨q, List.mem_cons_of_mem p mem, nul⟩
          | ok done =>
            have last := settles v
            exact ⟨(first.paved.trans above.paved).trans last.paved, last.folder, last.nul⟩
        | _ => exact ⟨first.paved, first.folder, first.nul⟩

/-- A folder whose path holds a NUL is refused before anything is made. -/
theorem run_ensureFolder_nul (nul : '\x00' ∈ p) (above : List Text) (t : Tree) :
    (FileSystem.ensureFolder p above : StateM Tree _).run t = (.error .nulInName, t) := by
  have full : ¬p.isEmpty = true := by
    rw [List.isEmpty_iff]
    rintro rfl
    cases nul
  have absent : t.isFolder p = false := by
    rw [isFolder, find, locate_eq_nul_iff.2 nul]
    rfl
  have refused : (FileSystem.settleFolder p : StateM Tree _).run t = (.error .nulInName, t) := by
    rw [run_settleFolder, makeFolder_eq_nul_iff.2 nul]
    dsimp only
    rw [absent, if_neg Bool.false_ne_true]
  cases above with
  | nil =>
    rw [FileSystem.ensureFolder, if_neg full]
    exact refused
  | cons parent rest =>
    rw [FileSystem.ensureFolder, if_neg full, run_bind refused]
    rfl

/-- The location of a folder that is there; the empty path is where one is. -/
theorem exists_follow_of_isFolder (folder : path ≠ [] → t.isFolder path = true) :
    ∃ d, t.follow (t.start path) (Path.parts path) = .ok d ∧
      (path ≠ [] → t.find path = .ok (d, .folder)) := by
  cases path with
  | nil => exact ⟨t.current, rfl, fun full => absurd rfl full⟩
  | cons c path =>
    obtain ⟨d, found⟩ := isFolder_eq_true_iff.1 (folder (List.cons_ne_nil c path))
    obtain ⟨-, follows⟩ := follow_of_locate (find_eq_ok_iff.1 found).1
    exact ⟨d, follows, fun _ => found⟩

/-- A name joined to the path of a folder leads to a place directly in it. -/
theorem eq_of_locate_join {d : Location} {dir name : Text} (part : Path.IsPart name)
    (here : name ≠ Path.here) (up : name ≠ Path.up)
    (folder : t.follow (t.start dir) (Path.parts dir) = .ok d)
    (leads : t.locate (Path.join dir name) = .ok k) : k = d ++ [name] := by
  obtain ⟨-, follows⟩ := follow_of_locate leads
  rw [Path.parts_join part, Path.isAbsolute_join part] at follows
  obtain ⟨b, leads', rfl⟩ := exists_of_follow_name here up follows
  cases leads'.symm.trans folder
  rfl

end Tree

/-- Whether the error blames a path for what it is, and not for what it leads to. -/
def OutputPathError.isInvalidInput : OutputPathError → Bool
  | .noFileName _ => true
  | .noFolder fault => fault = .nulInName

namespace Layout

open HeaderFlattening.Tree

variable {t u : Tree} {l : Layout} {file name : Text}

/-- How the request for an output path can end, with the tree that it leaves. -/
inductive Ends (t : Tree) (l : Layout) (file : Text) : Except OutputPathError Text → Tree → Prop
  | nameless (named : Path.fileName? file = none) : Ends t l file (.error (.noFileName file)) t
  | nul {name : Text} (named : Path.fileName? file = some name) (nul : '\x00' ∈ l.output) :
      Ends t l file (.error (.noFolder .nulInName)) t
  | blocked {name : Text} {fault : FileFault} {u : Tree} (named : Path.fileName? file = some name)
      (plain : '\x00' ∉ l.output) (other : fault ≠ .nulInName) (paved : Paved l.output t u) :
      Ends t l file (.error (.noFolder fault)) u
  | given {name : Text} {u : Tree} (named : Path.fileName? file = some name)
      (plain : '\x00' ∉ l.output) (paved : Paved l.output t u)
      (folder : l.output ≠ [] → u.isFolder l.output = true) :
      Ends t l file (.ok (Path.join l.output name)) u

theorem ends_outputPath (t : Tree) (l : Layout) (file : Text) :
    Ends t l file ((l.outputPath file : StateM Tree _).run t).1
      ((l.outputPath file : StateM Tree _).run t).2 := by
  rw [outputPath]
  cases named : Path.fileName? file with
  | none => exact .nameless named
  | some name =>
    dsimp only
    by_cases nul : '\x00' ∈ l.output
    · rw [run_bind (run_ensureFolder_nul nul _ t)]
      exact .nul named nul
    · have settles : Settles l.output t l.output (Path.above l.output) _ :=
        settles_ensureFolder (fun q mem => List.mem_cons.1 mem) t
      generalize ran : (FileSystem.ensureFolder l.output (Path.above l.output) : StateM Tree _).run t =
        outcome at settles
      obtain ⟨result, u⟩ := outcome
      rw [run_bind ran]
      cases result with
      | ok done => exact .given named nul settles.paved (settles.folder rfl)
      | error fault =>
        refine .blocked named nul ?_ settles.paved
        rintro rfl
        obtain ⟨q, way, inside⟩ := settles.nul rfl
        rcases List.mem_cons.1 way with rfl | above
        · exact nul inside
        · exact nul (Path.mem_of_mem_above above inside (by decide))

/-- An output path is refused as such just if the path of the header has no name at its end or the path
of the output folder holds a NUL, and then nothing is made. At most the missing folders on the way to
the output folder are made. An output path that is given out is that of the output folder with the last
name of the header's path as one more part; the output folder is there, unless its path is empty and
stands for the current one, and the output path leads to a place directly in it. -/
theorem outputPath_confined (t : Tree) (base : Text) (f : Folders) (file : Text) :
    let l := Layout.ofFolders base f
    let cs := Path.steps file
    let result := ((l.outputPath file : StateM Tree _).run t).1
    let u := ((l.outputPath file : StateM Tree _).run t).2
    (result = .error (.noFileName file) ↔ cs = [] ∨ cs.getLast? = some Path.up) ∧
    ((∃ e, result = .error e ∧ e.isInvalidInput = true) ↔
      (cs = [] ∨ cs.getLast? = some Path.up) ∨ '\x00' ∈ l.output) ∧
    ((∃ e, result = .error e ∧ e.isInvalidInput = true) → u = t) ∧
    Paved l.output t u ∧
    ∀ path, result = .ok path → ∃ name d,
      cs.getLast? = some name ∧ path = Path.join l.output name ∧
      Path.parts path = Path.parts l.output ++ [name] ∧
      u.follow (u.start l.output) (Path.parts l.output) = .ok d ∧
      (l.output ≠ [] → u.find l.output = .ok (d, .folder)) ∧
      ∀ k, u.locate path = .ok k → k = d ++ [name] := by
  intro l cs result u
  have nameless : Path.fileName? file = none ↔ _ := Path.fileName?_eq_none_iff
  have ends : Ends t l file result u := ends_outputPath t l file
  clear_value result u
  rw [← nameless]
  have proper {name : Text} (named : Path.fileName? file = some name) (plain : '\x00' ∉ l.output) :
      ¬(Path.fileName? file = none ∨ '\x00' ∈ l.output) := by
    rw [named]
    simpa using plain
  cases ends with
  | nameless named =>
    exact ⟨iff_of_true rfl named, iff_of_true ⟨_, rfl, rfl⟩ (.inl named), fun _ => rfl, .refl _ t,
      nofun⟩
  | nul named nul =>
    exact ⟨iff_of_false nofun (by rw [named]; nofun), iff_of_true ⟨_, rfl, rfl⟩ (.inr nul),
      fun _ => rfl, .refl _ t, nofun⟩
  | @blocked name fault u named plain other paved =>
    have valid : ¬∃ e, (Except.error (.noFolder fault) : Except OutputPathError Text) = .error e ∧
        e.isInvalidInput = true := by
      rintro ⟨_, same, invalid⟩
      cases same
      exact other (of_decide_eq_true invalid)
    exact ⟨iff_of_false nofun (by rw [named]; nofun), iff_of_false valid (proper named plain),
      fun invalid => absurd invalid valid, paved, nofun⟩
  | @given name u named plain paved folder =>
    have valid : ¬∃ e, (Except.ok (Path.join l.output name) : Except OutputPathError Text) =
        .error e ∧ e.isInvalidInput = true := nofun
    refine ⟨iff_of_false nofun (by rw [named]; nofun), iff_of_false valid (proper named plain),
      fun invalid => absurd invalid valid, paved, fun path done => ?_⟩
    obtain rfl := Except.ok.inj done
    obtain ⟨last, part, here, up⟩ := Path.of_fileName?_eq_some named
    obtain ⟨d, follows, found⟩ := exists_follow_of_isFolder folder
    exact ⟨name, d, last, rfl, Path.parts_join part, follows, found,
      fun k leads => eq_of_locate_join part here up follows leads⟩

/-- A folder whose path holds a NUL is refused as well, whatever the name of the header. -/
theorem nulFolder_refused :
    let l := Layout.ofFolders [] { output := "a\x00b".toList }
    let cs := Path.steps "x.h".toList
    ¬((∃ e, ((l.outputPath "x.h".toList : StateM Tree _).run (.empty [])).1 = .error e ∧
        e.isInvalidInput = true) ↔ cs = [] ∨ cs.getLast? = some Path.up) := by
  intro l cs same
  have refused : ((l.outputPath "x.h".toList : StateM Tree _).run (.empty [])).1 =
      .error (.noFolder .nulInName) := by decide +kernel
  have proper : ¬(cs = [] ∨ cs.getLast? = some Path.up) := by decide +kernel
  exact proper (same.1 ⟨_, refused, rfl⟩)

end Layout
end HeaderFlattening
