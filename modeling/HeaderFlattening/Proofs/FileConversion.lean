import Mathlib.Data.List.Basic
import HeaderFlattening.Proofs.FileTree

/-!
Conversions of files, run on a tree. The draft lies beside the output under a name of its own, so that
nothing but the last step touches the output: a conversion that fails before it takes the draft away
again, and one that succeeds leaves its text at the output and no draft.
-/

set_option autoImplicit false
namespace HeaderFlattening

namespace Path

theorem segments_cons_slash (path : Text) : segments ('/' :: path) = [] :: segments path := by
  rw [segments, if_pos rfl]

theorem segments_cons_of_ne {c : Char} {path segment : Text} {rest : List Text} (ne : c ≠ '/')
    (cut : segments path = segment :: rest) :
    segments (c :: path) = (c :: segment) :: rest := by
  rw [segments, if_neg ne, cut]

/-- What is appended to a path goes on with its last part, up to a slash. -/
theorem exists_segments_append (path suffix : Text) (plain : '/' ∉ suffix) :
    ∃ front last, segments path = front ++ [last] ∧
      segments (path ++ suffix) = front ++ [last ++ suffix] ∧
      (path ≠ [] → endsInSlash path = false → last ≠ []) := by
  induction path with
  | nil =>
    refine ⟨[], [], rfl, ?_, fun h => absurd rfl h⟩
    induction suffix with
    | nil => rfl
    | cons c suffix ih =>
      rw [List.mem_cons, not_or] at plain
      exact segments_cons_of_ne (Ne.symm plain.1) (ih plain.2)
  | cons c path ih =>
    obtain ⟨front, last, cut, longer, full⟩ := ih
    have inner (more : path ≠ []) (open_end : endsInSlash (c :: path) = false) : last ≠ [] := by
      refine full more ?_
      rwa [endsInSlash, List.getLast?_cons_of_ne_nil more] at open_end
    by_cases slash : c = '/'
    · subst slash
      refine ⟨[] :: front, last, ?_, ?_, fun _ open_end => inner ?_ open_end⟩
      · rw [segments_cons_slash, cut, List.cons_append]
      · rw [List.cons_append, segments_cons_slash, longer, List.cons_append]
      · rintro rfl
        cases open_end
    · cases front with
      | nil =>
        exact ⟨[], c :: last, segments_cons_of_ne slash cut, segments_cons_of_ne slash longer,
          fun _ _ => nofun⟩
      | cons first front =>
        refine ⟨(c :: first) :: front, last, segments_cons_of_ne slash cut,
          segments_cons_of_ne slash longer, fun _ open_end => inner ?_ open_end⟩
        rintro rfl
        simp [segments] at cut

end Path

/-- The last part of the path to a draft is the last part of the path to the output, made longer. -/
theorem exists_parts_draftPath (output : Text) :
    ∃ front name, Path.parts (draftPath output) = front ++ [draftPath name] ∧
      (output ≠ [] → Path.endsInSlash output = false → Path.parts output = front ++ [name]) := by
  obtain ⟨front, name, cut, longer, full⟩ :=
    Path.exists_segments_append output ".partial".toList (by decide)
  refine ⟨front.filter (!·.isEmpty), name, ?_, fun some_text open_end => ?_⟩
  · rw [Path.parts, draftPath, longer, List.filter_append]
    simp [draftPath]
  · have kept := full some_text open_end
    rw [Path.parts, cut, List.filter_append]
    simp [kept]

@[simp] theorem endsInSlash_draftPath (output : Text) :
    Path.endsInSlash (draftPath output) = false := by
  simp [Path.endsInSlash, draftPath]

theorem length_draftPath (name : Text) : (draftPath name).length = name.length + 8 := by
  simp [draftPath]

namespace Tree

variable {t u : Tree} {config : Config} {input output path : Text} {d l goal : Location}
  {bytes : List UInt8} {e : ConvertError} {report : Report} {c : Converted}

theorem follow_of_locate (leads : t.locate path = .ok l) :
    path ≠ [] ∧
      t.follow (if Path.isAbsolute path then [] else t.current) (Path.parts path) = .ok l := by
  rw [locate] at leads
  split_ifs at leads with nul empty long absolute
  · exact ⟨by simpa using empty, by rw [if_pos absolute, leads]⟩
  · exact ⟨by simpa using empty, by rw [if_neg absolute, leads]⟩

/-- A draft never lies where the output is to be put. -/
theorem ne_of_replaceable (draft : t.locate (draftPath output) = .ok d)
    (target : t.Replaceable output goal) : goal ≠ d := by
  obtain ⟨front, name, longer, parts⟩ := exists_parts_draftPath output
  obtain ⟨leads, named, open_end, -⟩ := target
  obtain ⟨some_text, followed⟩ := follow_of_locate leads
  rw [parts some_text open_end] at followed
  have own : name ≠ Path.here ∧ name ≠ Path.up := by
    simpa [endsInName, parts some_text open_end] using named
  obtain ⟨b, -, rfl⟩ := exists_of_follow_name own.1 own.2 followed
  have eight := length_draftPath name
  have other : draftPath name ≠ Path.here ∧ draftPath name ≠ Path.up := by
    constructor <;> intro eq <;> rw [eq] at eight <;> simp [Path.here, Path.up] at eight
  obtain ⟨-, reached⟩ := follow_of_locate draft
  rw [longer] at reached
  obtain ⟨b', -, rfl⟩ := exists_of_follow_name other.1 other.2 reached
  intro same
  have short := congrArg List.length (List.cons.inj (List.append_inj' same rfl).2).1
  omega

theorem run_bind {α β : Type} {x : StateM Tree α} {f : α → StateM Tree β} {a : α}
    (does : x.run t = (a, u)) : (x >>= f).run t = (f a).run u := by
  rw [StateT.run_bind, does]
  rfl

theorem run_change_ok {f : Tree → Except FileFault Tree} (does : f t = .ok u) :
    (change f).run t = (.ok (), u) := by
  simp only [change, StateT.run, does]

theorem run_change_error {f : Tree → Except FileFault Tree} {fault : FileFault}
    (fails : f t = .error fault) : (change f).run t = (.error fault, t) := by
  simp only [change, StateT.run, fails]

/-- A file apart from the draft is read as it was before the draft was made. -/
theorem read_of_drafted {x : Location × Node} (free : t.node? d ≠ some .folder)
    (found : t.find input = .ok x) (apart : x.1 ≠ d) (bytes : List UInt8) :
    (t.put d (.file bytes)).read input = t.read input := by
  have same := SameFolders.put_file t bytes free
  have leads := (find_eq_ok_iff.1 found).1
  rw [read, read, same.find leads (node?_put_of_ne t _ apart)]

section Drafted

variable (draft : t.locate (draftPath output) = .ok d) (free : t.node? d ≠ some .folder)
include draft free

theorem write_draft (bytes : List UInt8) :
    t.write (draftPath output) bytes = .ok (t.put d (.file bytes)) :=
  write_eq_ok_iff.2 ⟨d, draft, free, endsInSlash_draftPath output, rfl⟩

/-- A draft that was written is found where it was written. -/
theorem find_draft (bytes : List UInt8) :
    (t.put d (.file bytes)).find (draftPath output) = .ok (d, .file bytes) := by
  have same := SameFolders.put_file t bytes free
  refine find_eq_ok_iff.2 ⟨(same.locate _ _).2 draft, ?_, fun _ => endsInSlash_draftPath output⟩
  exact node?_put_self t _ (ne_nil_of_not_folder free)

/-- A conversion that fails on its lines takes its draft away. -/
theorem run_discardDraft (bytes : List UInt8) (e : ConvertError) :
    (discardDraft (draftPath output) e : StateM Tree _).run (t.put d (.file bytes)) =
      (.error e, t.erase d) := by
  have removed := remove_of_find (find_draft draft free bytes)
  rw [erase_put] at removed
  have ran : (FileSystem.remove (draftPath output) : StateM Tree _).run
      (t.put d (.file bytes)) = (.ok (), t.erase d) := run_change_ok removed
  rw [discardDraft, run_bind ran]
  rfl

/-- A conversion of all lines writes the text to its draft and moves it. -/
theorem run_keepDraft (bytes : List UInt8) (c : Converted) :
    (keepDraft (draftPath output) output c : StateM Tree _).run (t.put d (.file bytes)) =
      match (t.put d (.file c.text.bytes)).rename (draftPath output) output with
      | .ok u => (.ok c.report, u)
      | .error fault => (.error (.outputNotWritable output fault), t.put d (.file c.text.bytes)) := by
  have same := SameFolders.put_file t bytes free
  have wrote := write_draft ((same.locate _ _).2 draft) (fun h => free ((same.folder d).1 h))
    c.text.bytes
  rw [put_put] at wrote
  have ran : (FileSystem.write (draftPath output) c.text.bytes : StateM Tree _).run
      (t.put d (.file bytes)) = (.ok (), t.put d (.file c.text.bytes)) := run_change_ok wrote
  rw [keepDraft, run_bind ran]
  dsimp only
  cases moved : (t.put d (.file c.text.bytes)).rename (draftPath output) output with
  | ok u =>
    have ran : (FileSystem.rename (draftPath output) output : StateM Tree _).run
        (t.put d (.file c.text.bytes)) = (.ok (), u) := run_change_ok moved
    rw [run_bind ran]
    rfl
  | error fault =>
    have ran : (FileSystem.rename (draftPath output) output : StateM Tree _).run
        (t.put d (.file c.text.bytes)) = (.error fault, t.put d (.file c.text.bytes)) :=
      run_change_error moved
    rw [run_bind ran]
    rfl

/-- The move of a full draft to its output. -/
theorem rename_draft_eq_ok_iff (bytes : List UInt8) :
    (t.put d (.file bytes)).rename (draftPath output) output = .ok u ↔
      ∃ goal, t.Replaceable output goal ∧ u = (t.erase d).put goal (.file bytes) := by
  have same := SameFolders.put_file t bytes free
  simp only [rename_eq_ok_iff (find_draft draft free bytes), erase_put, Replaceable, ne_eq,
    same.locate, same.folder]

end Drafted

/-- The lines of the input as they are read when the draft is at `d`. -/
def draftedLines (t : Tree) (input : Text) (d : Location) : List (Except StreamFault Text) :=
  fileLines ((t.put d (.file [])).read input)

/-- How a conversion of a file can end, with the result and the tree that it leaves. -/
inductive Ends (t : Tree) (config : Config) (input output : Text) :
    Except ConvertError Report → Tree → Prop
  | missing {fault : FileFault} (lost : t.find input = .error fault) :
      Ends t config input output (.error (.inputNotFound input fault)) t
  | unmade {fault : FileFault} (shut : t.write (draftPath output) [] = .error fault) :
      Ends t config input output (.error (.outputNotWritable output fault)) t
  | failed {x : Location × Node} {d : Location} {e : ConvertError} (found : t.find input = .ok x)
      (draft : t.locate (draftPath output) = .ok d) (free : t.node? d ≠ some .folder)
      (fails : convertLines config (draftedLines t input d) = .error e) :
      Ends t config input output (.error e) (t.erase d)
  | stuck {x : Location × Node} {d : Location} {c : Converted} {fault : FileFault}
      (found : t.find input = .ok x) (draft : t.locate (draftPath output) = .ok d)
      (free : t.node? d ≠ some .folder)
      (converts : convertLines config (draftedLines t input d) = .ok c)
      (blocked : ∀ l, ¬t.Replaceable output l) :
      Ends t config input output (.error (.outputNotWritable output fault))
        (t.put d (.file c.text.bytes))
  | moved {x : Location × Node} {d goal : Location} {c : Converted} (found : t.find input = .ok x)
      (draft : t.locate (draftPath output) = .ok d) (free : t.node? d ≠ some .folder)
      (converts : convertLines config (draftedLines t input d) = .ok c)
      (target : t.Replaceable output goal) :
      Ends t config input output (.ok c.report) ((t.erase d).put goal (.file c.text.bytes))

theorem run_probe (t : Tree) (path : Text) :
    (FileSystem.probe path : StateM Tree _).run t = ((t.find path).map fun _ => (), t) := rfl

theorem run_read (t : Tree) (path : Text) :
    (FileSystem.read path : StateM Tree _).run t = (t.read path, t) := rfl

/-- Every conversion of a file ends in one of these ways. -/
theorem ends_convertFile (t : Tree) (config : Config) (input output : Text) :
    Ends t config input output ((convertFile config input output : StateM Tree _).run t).1
      ((convertFile config input output : StateM Tree _).run t).2 := by
  rw [convertFile, run_bind (run_probe t input)]
  cases found : t.find input with
  | error fault => exact .missing found
  | ok x =>
    cases made : t.write (draftPath output) [] with
    | error fault =>
      have created : (FileSystem.create (draftPath output) : StateM Tree _).run t =
          (.error fault, t) := run_change_error made
      dsimp only [Except.map]
      rw [run_bind created]
      exact .unmade made
    | ok v =>
      obtain ⟨d, draft, free, -, rfl⟩ := write_eq_ok_iff.1 made
      have created : (FileSystem.create (draftPath output) : StateM Tree _).run t =
          (.ok (), t.put d (.file [])) := run_change_ok made
      dsimp only [Except.map]
      rw [run_bind created]
      dsimp only
      rw [run_bind (run_read _ input)]
      cases converts : convertLines config (fileLines ((t.put d (.file [])).read input)) with
      | error e =>
        dsimp only
        rw [run_discardDraft draft free]
        exact .failed found draft free converts
      | ok c =>
        dsimp only
        rw [run_keepDraft draft free]
        cases moved : (t.put d (.file c.text.bytes)).rename (draftPath output) output with
        | ok w =>
          obtain ⟨goal, target, rfl⟩ := (rename_draft_eq_ok_iff draft free _).1 moved
          exact .moved found draft free converts target
        | error fault =>
          refine .stuck found draft free converts (fun l target => ?_)
          have moves := (rename_draft_eq_ok_iff draft free c.text.bytes).2 ⟨l, target, rfl⟩
          cases moved.symm.trans moves

/-- The whole input converts and its draft can be made, but there is a folder or no name where the
output is to be put. -/
def Stranded (t : Tree) (config : Config) (input output : Text) (c : Converted) : Prop :=
  (∃ bytes, t.read input = .ok bytes ∧ convertBytes config bytes = .ok c) ∧
    (∃ u, t.write (draftPath output) [] = .ok u) ∧ ∀ l, ¬t.Replaceable output l

theorem Stranded.unique {c' : Converted} (a : t.Stranded config input output c)
    (b : t.Stranded config input output c') : c = c' := by
  obtain ⟨⟨bytes, has, converts⟩, -⟩ := a
  obtain ⟨⟨_, has', converts'⟩, -⟩ := b
  cases has.symm.trans has'
  exact Except.ok.inj (converts.symm.trans converts')

theorem exists_find_of_read (has : t.read input = .ok bytes) :
    ∃ l, t.find input = .ok (l, .file bytes) ∧ t.locate input = .ok l := by
  obtain ⟨l, leads, node, open_end⟩ := read_eq_ok_iff.1 has
  exact ⟨l, find_eq_ok_iff.2 ⟨leads, node, fun _ => open_end⟩, leads⟩

/-- The lines of a file apart from the draft are those of its bytes. -/
theorem draftedLines_eq (has : t.read input = .ok bytes) (free : t.node? d ≠ some .folder)
    (apart : t.locate input ≠ .ok d) : draftedLines t input d = Text.linesOfBytes bytes := by
  obtain ⟨l, found, leads⟩ := exists_find_of_read has
  rw [draftedLines, read_of_drafted free found (fun same => apart (same ▸ leads)), has]
  rfl

/-- A conversion that fails on the lines of an input is none of a file that can be read. -/
theorem exists_read_of_converts {x : Location × Node} (found : t.find input = .ok x)
    (free : t.node? d ≠ some .folder) (apart : x.1 ≠ d)
    (converts : convertLines config (draftedLines t input d) = .ok c) :
    ∃ bytes, t.read input = .ok bytes ∧ convertBytes config bytes = .ok c := by
  rw [draftedLines, read_of_drafted free found apart] at converts
  cases has : t.read input with
  | error fault => rw [has] at converts; cases converts
  | ok bytes => exact ⟨bytes, rfl, by rw [has] at converts; exact converts⟩

section Absent

variable (absent : ∀ x, t.find (draftPath output) ≠ .ok x)
  (draft : t.locate (draftPath output) = .ok d)
include absent draft

theorem node?_of_absent : t.node? d = none :=
  Option.eq_none_iff_forall_ne_some.2 fun n node =>
    absent (d, n) (find_eq_ok_iff.2 ⟨draft, node, fun _ => endsInSlash_draftPath output⟩)

theorem apart_of_absent {x : Location × Node} (found : t.find input = .ok x) : x.1 ≠ d := by
  rintro rfl
  cases (node?_of_absent absent draft).symm.trans (find_eq_ok_iff.1 found).2.1

/-- Where there was no draft, taking it away restores the tree. -/
theorem find_erase_of_absent (path : Text) : (t.erase d).find path = t.find path := by
  have nodes (l : Location) : (t.erase d).node? l = t.node? l := by
    by_cases eq : l = d
    · have empty := node?_of_absent absent draft
      rw [eq, node?_erase_self t (ne_nil_of_not_folder (by rw [empty]; nofun)), empty]
    · exact node?_erase_of_ne t eq
  exact find_congr (t := t) (u := t.erase d) rfl nodes path

end Absent

/-- The only failure that leaves a trace is that of the last step: the output is then complete, under
the name of its draft. -/
theorem failed_untouched_iff (absent : ∀ x, t.find (draftPath output) ≠ .ok x)
    (failed : (convertFile config input output : StateM Tree _).run t = (.error e, u)) :
    ((∀ path, u.find path = t.find path) ↔ ∀ c, ¬t.Stranded config input output c) ∧
      ∀ c, t.Stranded config input output c →
        e.code = "flathdr::output_not_writable".toList ∧
        u.read (draftPath output) = .ok c.text.bytes ∧
        ∀ path, t.locate path ≠ t.locate (draftPath output) →
          (u.find path).toOption = (t.find path).toOption := by
  have ends := ends_convertFile t config input output
  rw [failed] at ends
  dsimp only at ends
  cases ends with
  | missing lost =>
    have unready (c : Converted) : ¬t.Stranded config input output c := by
      rintro ⟨⟨bytes, has, -⟩, -⟩
      obtain ⟨l, found, -⟩ := exists_find_of_read has
      cases lost.symm.trans found
    exact ⟨iff_of_true (fun _ => rfl) unready, fun c ready => absurd ready (unready c)⟩
  | unmade shut =>
    have unready (c : Converted) : ¬t.Stranded config input output c := by
      rintro ⟨-, ⟨v, made⟩, -⟩
      cases shut.symm.trans made
    exact ⟨iff_of_true (fun _ => rfl) unready, fun c ready => absurd ready (unready c)⟩
  | failed found draft free fails =>
    have unready (c : Converted) : ¬t.Stranded config input output c := by
      rintro ⟨⟨bytes, has, converts⟩, -⟩
      rw [draftedLines, read_of_drafted free found (apart_of_absent absent draft found), has] at fails
      cases fails.symm.trans converts
    exact ⟨iff_of_true (find_erase_of_absent absent draft) unready,
      fun c ready => absurd ready (unready c)⟩
  | stuck found draft free converts blocked =>
    rename_i x d c fault
    have kept := find_draft draft free c.text.bytes
    have ready : t.Stranded config input output c :=
      ⟨exists_read_of_converts found free (apart_of_absent absent draft found) converts,
        ⟨_, write_draft draft free []⟩, blocked⟩
    refine ⟨iff_of_false (fun clean => absent _ ((clean _).symm.trans kept))
      (fun unready => unready c ready), fun c' ready' => ?_⟩
    cases ready.unique ready'
    refine ⟨rfl, by rw [read, kept]; rfl, fun path elsewhere => ?_⟩
    refine (SameFolders.put_file t _ free).toOption_find (fun l leads => ?_)
    exact node?_put_of_ne t _ (fun eq => elsewhere (by rw [leads, draft, eq]))

/-- A folder where the output is to be put. -/
def folderOutput : Tree :=
  ⟨[], [(["a.h".toList], .file (Text.bytes "int x;\n".toList)), (["out".toList], .folder)]⟩

/-- The conversion is refused and its draft stays. -/
theorem folderOutput_not_untouched :
    ∃ u, (convertFile {} "a.h".toList "out".toList : StateM Tree _).run folderOutput =
        (.error (.outputNotWritable "out".toList .isADirectory), u) ∧
      folderOutput.find (draftPath "out".toList) = .error .notFound ∧
      u.read (draftPath "out".toList) = .ok (Text.bytes "int x;\n".toList) ∧
      ¬∀ path, u.find path = folderOutput.find path := by
  let u := folderOutput.put ["out.partial".toList] (.file (Text.bytes "int x;\n".toList))
  let c : Converted := ⟨"int x;\n".toList, ⟨1, [], [], [], []⟩⟩
  have failed : (convertFile {} "a.h".toList "out".toList : StateM Tree _).run folderOutput =
      (.error (.outputNotWritable "out".toList .isADirectory), u) :=
    Prod.ext (by decide +kernel) (by decide +kernel)
  have missing : folderOutput.find (draftPath "out".toList) = .error .notFound := by decide +kernel
  have absent (x : Location × Node) : folderOutput.find (draftPath "out".toList) ≠ .ok x := by
    rw [missing]
    nofun
  have ready : folderOutput.Stranded {} "a.h".toList "out".toList c := by
    refine ⟨⟨Text.bytes "int x;\n".toList, by decide +kernel, by decide +kernel⟩,
      ⟨_, write_eq_ok_iff.2 ⟨["out.partial".toList], by decide +kernel, by decide +kernel,
        by decide +kernel, rfl⟩⟩, ?_⟩
    rintro l ⟨leads, -, -, free⟩
    have at_folder : folderOutput.locate "out".toList = .ok ["out".toList] := by decide +kernel
    cases leads.symm.trans at_folder
    exact free (by decide +kernel)
  obtain ⟨untouched, left⟩ := failed_untouched_iff absent failed
  obtain ⟨-, draft, -⟩ := left c ready
  exact ⟨u, failed, missing, draft, fun clean => untouched.1 clean c ready⟩

/-- What the move of a draft leaves. -/
theorem moved_draft (draft : t.locate (draftPath output) = .ok d) (free : t.node? d ≠ some .folder)
    (target : t.Replaceable output goal) (bytes : List UInt8) :
    let u := (t.erase d).put goal (.file bytes)
    u.read output = .ok bytes ∧ (∀ x, u.find (draftPath output) ≠ .ok x) ∧
      ∀ path, t.locate path ≠ t.locate output → t.locate path ≠ t.locate (draftPath output) →
        (u.find path).toOption = (t.find path).toOption := by
  intro u
  have other := ne_of_replaceable draft target
  obtain ⟨at_goal, -, open_end, no_folder⟩ := target
  have erased := SameFolders.erase t free
  have same : SameFolders t u :=
    erased.trans (SameFolders.put_file _ _ (fun h => no_folder ((erased.folder goal).1 h)))
  have gone : u.node? d = none := by
    rw [node?_put_of_ne _ _ other.symm, node?_erase_self t (ne_nil_of_not_folder free)]
  refine ⟨?_, fun x still => ?_, fun path not_goal not_draft => ?_⟩
  · refine read_eq_ok_iff.2 ⟨goal, (same.locate _ _).2 at_goal, ?_, open_end⟩
    exact node?_put_self _ _ (ne_nil_of_not_folder no_folder)
  · obtain ⟨l, n⟩ := x
    obtain ⟨leads, node, -⟩ := find_eq_ok_iff.1 still
    cases ((same.locate _ _).1 leads).symm.trans draft
    cases gone.symm.trans node
  · refine same.toOption_find (fun k leads => ?_)
    rw [node?_put_of_ne _ _ (fun eq => not_goal (by rw [leads, at_goal, eq])),
      node?_erase_of_ne _ (fun eq => not_draft (by rw [leads, draft, eq]))]

/-- Converting a file does what converting its bytes does, and otherwise only takes away an old
draft. -/
theorem converted_file (has : t.read input = .ok bytes)
    (apart : t.locate input ≠ t.locate (draftPath output)) :
    (∀ report u, (convertFile config input output : StateM Tree _).run t = (.ok report, u) →
      (∃ c, convertBytes config bytes = .ok c ∧ c.report = report ∧
        u.read output = .ok c.text.bytes) ∧
      (∀ x, u.find (draftPath output) ≠ .ok x) ∧
      ∀ path, t.locate path ≠ t.locate output → t.locate path ≠ t.locate (draftPath output) →
        (u.find path).toOption = (t.find path).toOption) ∧
    ∀ v, t.write (draftPath output) [] = .ok v →
      (∀ e, convertBytes config bytes = .error e →
        ((convertFile config input output : StateM Tree _).run t).1 = .error e) ∧
      ∀ c l, convertBytes config bytes = .ok c → t.Replaceable output l →
        ((convertFile config input output : StateM Tree _).run t).1 = .ok c.report := by
  obtain ⟨l, found, leads⟩ := exists_find_of_read has
  have ends := ends_convertFile t config input output
  refine ⟨fun report u converted => ?_, fun v made => ?_⟩
  · rw [converted] at ends
    dsimp only at ends
    cases ends with
    | moved found' draft free converts target =>
      rw [draftedLines_eq has free (draft ▸ apart)] at converts
      obtain ⟨written, gone, kept⟩ := moved_draft draft free target _
      exact ⟨⟨_, converts, rfl, written⟩, gone, kept⟩
  · generalize (convertFile config input output : StateM Tree _).run t = outcome at ends
    obtain ⟨r, u⟩ := outcome
    dsimp only at ends ⊢
    cases ends with
    | missing lost => cases lost.symm.trans found
    | unmade shut => cases shut.symm.trans made
    | failed found' draft free fails =>
      rw [draftedLines_eq has free (draft ▸ apart)] at fails
      refine ⟨fun e fails' => ?_, fun c goal converts target => ?_⟩
      · cases fails.symm.trans fails'
        rfl
      · cases fails.symm.trans converts
    | stuck found' draft free converts blocked =>
      rw [draftedLines_eq has free (draft ▸ apart)] at converts
      exact ⟨fun e fails => (nomatch converts.symm.trans fails),
        fun c goal converts' target => absurd target (blocked goal)⟩
    | moved found' draft free converts target =>
      rw [draftedLines_eq has free (draft ▸ apart)] at converts
      refine ⟨fun e fails => (nomatch converts.symm.trans fails), fun c goal converts' target' => ?_⟩
      cases converts.symm.trans converts'
      rfl

/-- A file beside an old draft. -/
def oldDraft : Tree :=
  ⟨[], [(["a.h".toList], .file (Text.bytes "const int k = 1;\n".toList)),
    (["a.h.partial".toList], .file (Text.bytes "#".toList)), (["b.h".toList], .file [])]⟩

/-- A file can be converted in its place. -/
theorem oldDraft_converted :
    ∃ u, (convertFile {} "a.h".toList "a.h".toList : StateM Tree _).run oldDraft =
        (.ok ⟨1, [], [], [], []⟩, u) ∧
      u.read "a.h".toList = .ok (Text.bytes "#define k (1)\n".toList) ∧
      (∀ x, u.find (draftPath "a.h".toList) ≠ .ok x) ∧
      (u.find "b.h".toList).toOption = some (["b.h".toList], .file []) := by
  let bytes := Text.bytes "const int k = 1;\n".toList
  let c : Converted := ⟨"#define k (1)\n".toList, ⟨1, [], [], [], []⟩⟩
  have has : oldDraft.read "a.h".toList = .ok bytes := by decide +kernel
  have apart : oldDraft.locate "a.h".toList ≠ oldDraft.locate (draftPath "a.h".toList) := by
    decide +kernel
  have converts : convertBytes {} bytes = .ok c := by decide +kernel
  have made : oldDraft.write (draftPath "a.h".toList) [] =
      .ok (oldDraft.put ["a.h.partial".toList] (.file [])) := by decide +kernel
  have target : oldDraft.Replaceable "a.h".toList ["a.h".toList] := by
    refine ⟨?_, ?_, ?_, ?_⟩ <;> decide +kernel
  obtain ⟨result, outcome⟩ :=
    @converted_file oldDraft {} "a.h".toList "a.h".toList bytes has apart
  have done := (outcome _ made).2 c _ converts target
  obtain ⟨⟨r, u⟩, ran⟩ :
      ∃ x, (convertFile {} "a.h".toList "a.h".toList : StateM Tree _).run oldDraft = x :=
    ⟨_, rfl⟩
  rw [ran] at done
  obtain rfl : r = .ok c.report := done
  obtain ⟨⟨c', converts', -, written⟩, gone, kept⟩ := result c.report u ran
  cases converts.symm.trans converts'
  have other := kept "b.h".toList (by decide +kernel) (by decide +kernel)
  exact ⟨u, ran, written, gone, other.trans (by decide +kernel)⟩

end Tree
end HeaderFlattening
