import Mathlib.Data.List.Basic
import HeaderFlattening.Files.Conversion
import HeaderFlattening.Files.Tree

/-!
File trees and the operations on them. A path is followed through folders only, so whoever knows which
locations are folders knows where every path leads; and each operation on a file changes what is at
one location, or at two when the file is moved.
-/

set_option autoImplicit false
namespace HeaderFlattening

namespace Tree

variable {t u : Tree} {l k : Location} {n : Node} {path : Text} {bytes : List UInt8}

@[simp] theorem node?_nil (t : Tree) : t.node? [] = some .folder := rfl

theorem node?_of_ne_nil (t : Tree) (ne : l ≠ []) : t.node? l = t.entries.lookup l := by
  rw [node?, if_neg (by simpa using ne)]

theorem ne_nil_of_not_folder (free : t.node? l ≠ some .folder) : l ≠ [] := by
  rintro rfl
  exact free rfl

theorem lookup_filter_ne (entries : List (Location × Node)) (l k : Location) :
    (entries.filter (·.1 ≠ l)).lookup k = if k = l then none else entries.lookup k := by
  induction entries with
  | nil => simp
  | cons entry entries ih =>
    obtain ⟨place, n⟩ := entry
    by_cases at_l : place = l
    · rw [List.filter_cons_of_neg (by simpa using at_l), ih, List.lookup_cons]
      by_cases eq : k = l
      · simp [eq]
      · rw [if_neg eq, if_neg eq, beq_false_of_ne (fun h => eq (h.trans at_l))]
    · rw [List.filter_cons_of_pos (by simpa using at_l), List.lookup_cons, List.lookup_cons, ih]
      by_cases eq : k = place
      · subst eq
        simp [at_l]
      · simp only [beq_false_of_ne eq]

theorem node?_erase_self (t : Tree) (ne : l ≠ []) : (t.erase l).node? l = none := by
  rw [node?_of_ne_nil _ ne, erase, lookup_filter_ne, if_pos rfl]

theorem node?_erase_of_ne (t : Tree) (ne : k ≠ l) : (t.erase l).node? k = t.node? k := by
  rw [node?, node?, erase, lookup_filter_ne, if_neg ne]

theorem node?_put_self (t : Tree) (n : Node) (ne : l ≠ []) : (t.put l n).node? l = some n := by
  rw [node?_of_ne_nil _ ne, put, List.lookup_append, erase, lookup_filter_ne, if_pos rfl]
  simp

theorem node?_put_of_ne (t : Tree) (n : Node) (ne : k ≠ l) : (t.put l n).node? k = t.node? k := by
  rw [node?, node?, put, List.lookup_append, erase, lookup_filter_ne, if_neg ne, List.lookup_cons,
    beq_false_of_ne ne]
  simp

theorem erase_put (t : Tree) (l : Location) (n : Node) : (t.put l n).erase l = t.erase l := by
  simp [put, erase]

/-- What is put at a location replaces what was put there before. -/
theorem put_put (t : Tree) (l : Location) (n m : Node) : (t.put l n).put l m = t.put l m := by
  rw [put, erase_put, put]
  rfl

/-! Where the paths lead. -/

/-- Where one part of a path leads from a folder. -/
def enter (l : Location) (part : Text) : Except FileFault Location :=
  if part = Path.here then .ok l
  else if part = Path.up then .ok l.dropLast
  else if maxName < part.byteLength then .error .nameTooLong
  else .ok (l ++ [part])

theorem follow_cons_eq_ok_iff {part : Text} {rest : List Text} :
    t.follow l (part :: rest) = .ok k ↔
      t.node? l = some .folder ∧ ∃ m, enter l part = .ok m ∧ t.follow m rest = .ok k := by
  rw [follow, enter]
  cases t.node? l with
  | none => exact iff_of_false nofun (fun h => nomatch h.1)
  | some n =>
    cases n with
    | file bytes => exact iff_of_false nofun (fun h => nomatch h.1)
    | folder =>
      dsimp only
      split_ifs <;> simp

/-- There are at least the same folders, seen from the same one. -/
structure MoreFolders (t u : Tree) : Prop where
  current : u.current = t.current
  folder (l : Location) (there : t.node? l = some .folder) : u.node? l = some .folder

namespace MoreFolders

theorem follow {parts : List Text} (more : MoreFolders t u) (leads : t.follow l parts = .ok k) :
    u.follow l parts = .ok k := by
  induction parts generalizing l with
  | nil => exact leads
  | cons part rest ih =>
    obtain ⟨there, m, enters, leads⟩ := follow_cons_eq_ok_iff.1 leads
    exact follow_cons_eq_ok_iff.2 ⟨more.folder l there, m, enters, ih leads⟩

theorem locate (more : MoreFolders t u) (leads : t.locate path = .ok l) :
    u.locate path = .ok l := by
  rw [Tree.locate] at leads ⊢
  rw [more.current]
  split_ifs at leads ⊢
  all_goals exact more.follow leads

end MoreFolders

/-- The same locations are folders, seen from the same one. -/
structure SameFolders (t u : Tree) : Prop where
  current : u.current = t.current
  folder (l : Location) : u.node? l = some .folder ↔ t.node? l = some .folder

namespace SameFolders

theorem refl (t : Tree) : SameFolders t t := ⟨rfl, fun _ => Iff.rfl⟩

theorem trans {v : Tree} (a : SameFolders t u) (b : SameFolders u v) : SameFolders t v :=
  ⟨b.current.trans a.current, fun l => (b.folder l).trans (a.folder l)⟩

/-- A file in a place where there is no folder hides none and makes none. -/
theorem put_file (t : Tree) (bytes : List UInt8) (free : t.node? l ≠ some .folder) :
    SameFolders t (t.put l (.file bytes)) := by
  refine ⟨rfl, fun k => ?_⟩
  by_cases eq : k = l
  · subst eq
    rw [node?_put_self _ _ (ne_nil_of_not_folder free)]
    exact iff_of_false nofun free
  · rw [node?_put_of_ne _ _ eq]

theorem erase (t : Tree) (free : t.node? l ≠ some .folder) : SameFolders t (t.erase l) := by
  refine ⟨rfl, fun k => ?_⟩
  by_cases eq : k = l
  · subst eq
    rw [node?_erase_self _ (ne_nil_of_not_folder free)]
    exact iff_of_false nofun free
  · rw [node?_erase_of_ne _ eq]

theorem more (same : SameFolders t u) : MoreFolders t u :=
  ⟨same.current, fun l => (same.folder l).2⟩

theorem less (same : SameFolders t u) : MoreFolders u t :=
  ⟨same.current.symm, fun l => (same.folder l).1⟩

theorem locate (same : SameFolders t u) (path : Text) (l : Location) :
    u.locate path = .ok l ↔ t.locate path = .ok l :=
  ⟨same.less.locate, same.more.locate⟩

end SameFolders

theorem follow_congr (nodes : ∀ l, u.node? l = t.node? l) (parts : List Text) (l : Location) :
    u.follow l parts = t.follow l parts := by
  induction parts generalizing l with
  | nil => rfl
  | cons part rest ih => simp only [follow, nodes, ih]

/-- What a path finds depends on nothing but what is at the locations. -/
theorem find_congr (current : u.current = t.current) (nodes : ∀ l, u.node? l = t.node? l)
    (path : Text) : u.find path = t.find path := by
  simp only [find, locate, follow_congr nodes, current, nodes]

theorem follow_append (t : Tree) (front rest : List Text) (l : Location) :
    t.follow l (front ++ rest) = (t.follow l front).bind (t.follow · rest) := by
  induction front generalizing l with
  | nil => rfl
  | cons part front ih =>
    simp only [List.cons_append, follow]
    split
    · rfl
    · rfl
    · split_ifs
      · exact ih l
      · exact ih _
      · rfl
      · exact ih _

/-- A path to a name leads into a folder. -/
theorem exists_of_follow_name {front : List Text} {name : Text} (here : name ≠ Path.here)
    (up : name ≠ Path.up) (leads : t.follow k (front ++ [name]) = .ok l) :
    ∃ b, t.follow k front = .ok b ∧ l = b ++ [name] := by
  rw [follow_append] at leads
  cases h : t.follow k front with
  | error fault => rw [h] at leads; cases leads
  | ok b =>
    rw [h] at leads
    obtain ⟨-, m, enters, ends⟩ := follow_cons_eq_ok_iff.1 leads
    obtain rfl : m = l := Except.ok.inj ends
    rw [enter, if_neg here, if_neg up] at enters
    split_ifs at enters
    exact ⟨b, rfl, (Except.ok.inj enters).symm⟩

/-! The operations, each by when it succeeds and what it leaves. -/

theorem find_of_none (leads : t.locate path = .ok l) (node : t.node? l = none) :
    t.find path = .error .notFound := by
  simp only [find, leads, bind, Except.bind, node]
  rfl

theorem find_of_folder (leads : t.locate path = .ok l) (node : t.node? l = some .folder) :
    t.find path = .ok (l, .folder) := by
  simp only [find, leads, bind, Except.bind, node]
  rfl

theorem find_of_file (leads : t.locate path = .ok l) (node : t.node? l = some (.file bytes)) :
    t.find path =
      if Path.endsInSlash path then .error .notADirectory else .ok (l, .file bytes) := by
  simp only [find, leads, bind, Except.bind, node]
  rfl

theorem find_eq_ok_iff :
    t.find path = .ok (l, n) ↔
      t.locate path = .ok l ∧ t.node? l = some n ∧
        (n ≠ .folder → Path.endsInSlash path = false) := by
  cases leads : t.locate path with
  | error fault =>
    rw [find, leads]
    exact iff_of_false nofun nofun
  | ok k =>
    rw [Except.ok.injEq]
    constructor
    · intro found
      cases node : t.node? k with
      | none =>
        rw [find_of_none leads node] at found
        cases found
      | some m =>
        cases m with
        | folder =>
          rw [find_of_folder leads node] at found
          cases found
          exact ⟨rfl, node, fun h => absurd rfl h⟩
        | file bytes =>
          rw [find_of_file leads node] at found
          split_ifs at found with slash
          cases found
          exact ⟨rfl, node, fun _ => by simpa using slash⟩
    · rintro ⟨rfl, node, slash⟩
      cases n with
      | folder => exact find_of_folder leads node
      | file bytes => rw [find_of_file leads node, if_neg (by simp [slash nofun])]

/-- A path that leads where nothing was changed finds what it found. -/
theorem SameFolders.find (same : SameFolders t u) (leads : t.locate path = .ok l)
    (node : u.node? l = t.node? l) : u.find path = t.find path := by
  simp only [Tree.find, leads, (same.locate path l).2 leads, bind, Except.bind, node]

/-- Whether a path that leads nowhere runs into a file or into nothing may differ. -/
theorem SameFolders.toOption_find (same : SameFolders t u)
    (node : ∀ l, t.locate path = .ok l → u.node? l = t.node? l) :
    (u.find path).toOption = (t.find path).toOption := by
  cases leads : t.locate path with
  | ok l => rw [same.find leads (node l leads)]
  | error fault =>
    cases leads' : u.locate path with
    | ok l => exact absurd ((same.locate path l).1 leads') (leads ▸ nofun)
    | error fault' =>
      rw [Tree.find, Tree.find, leads, leads']
      rfl

theorem read_eq_ok_iff :
    t.read path = .ok bytes ↔
      ∃ l, t.locate path = .ok l ∧ t.node? l = some (.file bytes) ∧
        Path.endsInSlash path = false := by
  have found (l : Location) : t.find path = .ok (l, .file bytes) ↔ _ := find_eq_ok_iff
  simp only [ne_eq, reduceCtorEq, not_false_eq_true, true_imp_iff] at found
  simp only [← found, read]
  cases t.find path with
  | error fault => exact iff_of_false nofun (fun ⟨_, h⟩ => nomatch h)
  | ok x =>
    obtain ⟨k, n⟩ := x
    cases n with
    | folder => exact iff_of_false nofun (fun ⟨_, h⟩ => nomatch h)
    | file b =>
      constructor
      · intro h
        cases h
        exact ⟨k, rfl⟩
      · rintro ⟨_, h⟩
        cases h
        rfl

theorem write_eq_ok_iff :
    t.write path bytes = .ok u ↔
      ∃ l, t.locate path = .ok l ∧ t.node? l ≠ some .folder ∧ Path.endsInSlash path = false ∧
        u = t.put l (.file bytes) := by
  simp only [write]
  cases t.locate path with
  | error fault => exact iff_of_false nofun (fun ⟨_, h, _⟩ => nomatch h)
  | ok l =>
    change (if (t.node? l = some .folder || Path.endsInSlash path) = true then
      Except.error FileFault.isADirectory else .ok (t.put l (.file bytes))) = .ok u ↔ _
    constructor
    · intro wrote
      split_ifs at wrote with bad
      simp only [Bool.or_eq_true, decide_eq_true_eq, not_or, Bool.not_eq_true] at bad
      exact ⟨l, rfl, bad.1, bad.2, (Except.ok.inj wrote).symm⟩
    · rintro ⟨_, same, free, slash, rfl⟩
      cases same
      rw [if_neg (by simp [free, slash])]

/-- A file that is removed leaves its location empty. -/
theorem remove_of_find (found : t.find path = .ok (l, .file bytes)) :
    t.remove path = .ok (t.erase l) := by
  rw [remove, found]
  rfl

/-- Whether a path leads to a place where a file can be put by moving it there. -/
def Replaceable (t : Tree) (path : Text) (l : Location) : Prop :=
  t.locate path = .ok l ∧ endsInName path = true ∧ Path.endsInSlash path = false ∧
    t.node? l ≠ some .folder

/-- A file that is there is moved exactly when its target can be replaced. -/
theorem rename_eq_ok_iff {source : Text} (found : t.find source = .ok (l, .file bytes)) :
    t.rename source path = .ok u ↔
      ∃ goal, t.Replaceable path goal ∧ u = (t.erase l).put goal (.file bytes) := by
  simp only [rename, found, Replaceable]
  cases t.locate path with
  | error fault => exact iff_of_false nofun (fun ⟨_, ⟨h, _⟩, _⟩ => nomatch h)
  | ok goal =>
    change (if (!endsInName path) = true then Except.error FileFault.busy
      else if Path.endsInSlash path = true then .error .notADirectory
      else if t.node? goal = some .folder then .error .isADirectory
      else .ok ((t.erase l).put goal (.file bytes))) = .ok u ↔ _
    constructor
    · intro moved
      split_ifs at moved with name slash folder
      exact ⟨goal, ⟨rfl, by simpa using name, by simpa using slash, folder⟩,
        (Except.ok.inj moved).symm⟩
    · rintro ⟨_, ⟨same, name, slash, folder⟩, rfl⟩
      cases same
      rw [if_neg (by simp [name]), if_neg (by simp [slash]), if_neg folder]

end Tree
end HeaderFlattening
