import HeaderFlattening.Proofs.Lockstep

/-!
What is recorded stays. The parts of the stages only append to the enum values, functions, classes and
remarks, no name is recorded twice or empty, and remarks are about the line at hand; so this holds of
whole lines, also of those that fail.
-/

set_option autoImplicit false
namespace HeaderFlattening

theorem NameList.prefix_insert (l : NameList) (name : Text) :
    l.toList <+: (l.insert name).toList := by
  unfold NameList.insert
  split_ifs
  · exact List.prefix_rfl
  · exact List.prefix_append _ _

/-- The remarks are about lines up to this one, and none is about an earlier line than the remark
before it. -/
def Dated (number : Nat) (ds : List Diagnostic) : Prop :=
  ∃ lines : List Nat, ds.map Diagnostic.line = lines.map some ∧ lines.Pairwise (· ≤ ·) ∧
    ∀ n ∈ lines, 1 ≤ n ∧ n ≤ number

theorem Dated.mono {n m : Nat} {ds : List Diagnostic} (h : Dated n ds) (le : n ≤ m) : Dated m ds := by
  obtain ⟨lines, eq, ordered, within⟩ := h
  exact ⟨lines, eq, ordered, fun k mem => ⟨(within k mem).1, (within k mem).2.trans le⟩⟩

theorem Dated.append {n : Nat} {ds : List Diagnostic} (h : Dated n ds) (one : 1 ≤ n)
    (d : Diagnostic) : Dated n (ds ++ [{ d with line := some n }]) := by
  obtain ⟨lines, eq, ordered, within⟩ := h
  refine ⟨lines ++ [n], ?_, ?_, ?_⟩
  · rw [List.map_append, List.map_append, eq]
    rfl
  · refine List.pairwise_append.2 ⟨ordered, List.pairwise_singleton _ _, fun k mem m last => ?_⟩
    rw [List.mem_singleton.1 last]
    exact (within k mem).2
  · intro k mem
    rcases List.mem_append.1 mem with old | last
    · exact within k old
    · rw [List.mem_singleton.1 last]
      exact ⟨one, le_rfl⟩

namespace State

/-- Earlier entries stay where they are. -/
structure Extends (a s : State) : Prop where
  enumValues : a.enumValues.toList <+: s.enumValues.toList
  functions : a.functions <+: s.functions
  classes : a.classes <+: s.classes
  diagnostics : a.diagnostics <+: s.diagnostics

/-- No name twice and none empty, and remarks with the numbers of their lines. -/
structure Clean (s : State) : Prop where
  enumValues : s.enumValues.Valid
  memberNames : s.memberNames.Valid
  members : ∀ r ∈ s.classes, NameList.Valid ⟨r.members⟩
  dated : Dated s.lineNumber s.diagnostics

/-- What is recorded, and the names that are yet to be recorded of the class at hand. -/
def ledger (s : State) :=
  (s.enumValues, s.memberNames, s.functions, s.classes, s.diagnostics)

variable {a s t : State}

theorem Extends.refl (s : State) : s.Extends s :=
  ⟨List.prefix_rfl, List.prefix_rfl, List.prefix_rfl, List.prefix_rfl⟩

theorem Extends.congr (h : a.Extends s) (same : t.ledger = s.ledger) : a.Extends t := by
  unfold ledger at same
  obtain ⟨values, -, functions, classes, diagnostics⟩ := by simpa only [Prod.mk.injEq] using same
  constructor
  · rw [values]
    exact h.enumValues
  · rw [functions]
    exact h.functions
  · rw [classes]
    exact h.classes
  · rw [diagnostics]
    exact h.diagnostics

theorem Clean.congr (h : s.Clean) (same : t.ledger = s.ledger) (number : s.lineNumber ≤ t.lineNumber) :
    t.Clean := by
  unfold ledger at same
  obtain ⟨values, members, -, classes, diagnostics⟩ := by simpa only [Prod.mk.injEq] using same
  constructor
  · rw [values]
    exact h.enumValues
  · rw [members]
    exact h.memberNames
  · rw [classes]
    exact h.members
  · rw [diagnostics]
    exact h.dated.mono number

theorem ledger_put (s : State) (c : Chunk) : (s.put c).ledger = s.ledger := by
  unfold put
  split_ifs <;> rfl

end State

namespace Conversion

/-- A line is being read, and the entries of the state `a` are still there. -/
structure Keeping (a s : State) : Prop where
  keeps : a.Extends s
  clean : s.Clean
  begun : 1 ≤ s.lineNumber

variable {a s t : State} {α : Type}

theorem Keeping.congr (h : Keeping a s) (same : t.ledger = s.ledger)
    (number : s.lineNumber ≤ t.lineNumber) : Keeping a t :=
  ⟨h.keeps.congr same, h.clean.congr same number, h.begun.trans number⟩

theorem Keeping.addValue (h : Keeping a s) (name : Text) : Keeping a (s.addValue name) := by
  unfold State.addValue
  split_ifs
  · exact h
  · refine ⟨{ h.keeps with enumValues := ?_ }, { h.clean with enumValues := ?_ }, h.begun⟩
    · exact h.keeps.enumValues.trans (NameList.prefix_insert _ name)
    · exact h.clean.enumValues.insert name

theorem Keeping.addMember (h : Keeping a s) (name : Text) : Keeping a (s.addMember name) := by
  unfold State.addMember
  split_ifs
  · exact h
  · exact ⟨{ h.keeps with }, { h.clean with memberNames := h.clean.memberNames.insert name }, h.begun⟩

theorem Keeping.remarked (h : Keeping a s) (d : Diagnostic) : Keeping a (s.remarked d) := by
  refine ⟨{ h.keeps with diagnostics := ?_ }, { h.clean with dated := ?_ }, h.begun⟩
  · exact h.keeps.diagnostics.trans (List.prefix_append _ _)
  · exact h.clean.dated.append h.begun d

theorem Keeping.followScan (h : Keeping a s) : Keeping a s.followScan :=
  ⟨{ h.keeps with functions := h.keeps.functions.trans (List.prefix_append _ _) }, { h.clean with },
    h.begun⟩

/-- The class at hand is recorded with the names of its members. -/
theorem Keeping.recordClass (h : Keeping a s) (name : Text) :
    Keeping a { s with
      classes := s.classes ++ [⟨name, s.memberNames.toList⟩]
      memberNames := {} } := by
  refine ⟨{ h.keeps with classes := h.keeps.classes.trans (List.prefix_append _ _) },
    { h.clean with memberNames := NameList.valid_empty, members := fun r mem => ?_ }, h.begun⟩
  rcases List.mem_append.1 mem with old | last
  · exact h.clean.members r old
  · rw [List.mem_singleton.1 last]
    exact h.clean.memberNames

/-- One run by itself. -/
def keeping (a : State) : Correspondence := .lasting (fun s t => t = s ∧ Keeping a s) id

theorem agree_self {r : EStateM.Result ConvertError State α} (h : Keeping a (endOf r)) :
    (keeping a).Agree r r := by
  cases r with
  | ok x t => exact .ok ⟨rfl, h⟩
  | error e t =>
    have ends : (keeping a).Agree (.error e t : EStateM.Result ConvertError State α)
        (.error (e.renumber id) t) := .error ⟨rfl, h⟩
    rwa [e.renumber_id] at ends

theorem agree_leaves {x : Conversion α} {b : α} {u : State} (run : Leaves x s b u)
    (h : Keeping a s → Keeping a u) (related : t = s ∧ Keeping a s) :
    (keeping a).Agree (x.run s) (x.run t) := by
  obtain ⟨rfl, kept⟩ := related
  refine agree_self ?_
  rw [← stateAfter_eq_endOf, run.stateAfter_eq]
  exact h kept

theorem parallel_keeps {x : Conversion α} {b : α} {u : State} (run : Leaves x s b u)
    (grows : s.Grows u) (h : Keeping a s → Keeping a u) : Parallel (keeping a) x s t :=
  ⟨.of_leaves run grows, agree_leaves run h⟩

theorem parallel_keeps_write (c : Chunk) (s t : State) : Parallel (keeping a) (write c) s t :=
  parallel_keeps (leaves_write c s) ⟨rfl, rfl, List.prefix_append _ _⟩ fun h => h.congr rfl le_rfl

theorem parallel_keeps_writeAll (cs : List Chunk) (s t : State) :
    Parallel (keeping a) (writeAll cs) s t := by
  induction cs generalizing s t with
  | nil => exact parallel_pure () s t
  | cons c cs ih => exact (parallel_keeps_write c s t).bind fun _ s t => ih s t

theorem parallel_keeps_emitDirect (o : Origin) (x : Text) (s t : State) :
    Parallel (keeping a) (emitDirect o x) s t := by
  refine Parallel.bind (β := Unit) ?_ fun _ s t => parallel_keeps_write ⟨o, x⟩ s t
  exact parallel_keeps (.of_run rfl) (State.grows_of_sink rfl rfl) fun h => h.congr rfl le_rfl

theorem agree_keeps_flushPending (related : t = s ∧ Keeping a s) :
    (keeping a).Agree (flushPending.run s) (flushPending.run t) := by
  obtain ⟨rfl, kept⟩ := related
  exact (parallel_keeps_writeAll (t.pendingEnums ++ t.pendingMembers)
    { t with pendingEnums := [], pendingMembers := [] } _).agree ⟨rfl, kept.congr rfl le_rfl⟩

theorem parallel_keeps_closeClass (name : Text) (s t : State) :
    Parallel (keeping a) (closeClass name) s t := by
  refine Parallel.bind ?_ fun _ s t => (parallel_keeps_emitDirect _ _ s t).bind fun _ s t =>
    Parallel.bind ⟨steady_flushPending s, agree_keeps_flushPending⟩ fun _ s t => ?_
  · exact parallel_keeps (.of_run rfl) (State.grows_of_sink rfl rfl) fun h => h.congr rfl le_rfl
  · refine parallel_keeps (.of_run rfl) (State.grows_of_sink rfl rfl) fun h => ?_
    exact (h.recordClass name).congr rfl le_rfl

theorem agree_keeps_followFunction (related : t = s ∧ Keeping a s) :
    (keeping a).Agree (followFunction.run s) (followFunction.run t) := by
  cases function : s.mode.function with
  | body depth =>
    exact agree_leaves (.of_run (run_followFunction_body function)) (fun h => h.congr rfl le_rfl)
      related
  | outside | signature =>
    exact agree_leaves (.of_run (run_followFunction_scan (by rw [function]; simp)))
      Keeping.followScan related

/-- Each part of a stage takes nothing back. -/
def keepingSession (a : State) : Simulation where
  toCorrespondence := keeping a
  mode {s _} h := ⟨s.mode.inExternC, congrArg State.mode h.1⟩
  line h := by rw [h.1]
  indent h := by rw [h.1]
  lineNumber h := by rw [h.1]; rfl
  begin config raw h := ⟨by rw [h.1], h.2.congr rfl (Nat.le_succ _)⟩
  withLine l h := ⟨by rw [h.1], h.2.congr rfl le_rfl⟩
  noted e h := ⟨by rw [h.1], h.2.congr rfl le_rfl⟩
  remarked d h := ⟨by rw [h.1], h.2.remarked d⟩
  withMode g _ _ _ h := ⟨by rw [h.1], h.2.congr rfl le_rfl⟩
  openBrace _ h := ⟨by rw [h.1], h.2.congr rfl le_rfl⟩
  enterClass c h :=
    ⟨by rw [h.1], { h.2.keeps with }, { h.2.clean with memberNames := NameList.valid_empty }, h.2.begun⟩
  addValue name h := ⟨by rw [h.1], h.2.addValue name⟩
  addMember name _ h := ⟨by rw [h.1], h.2.addMember name⟩
  gather h := ⟨by rw [h.1], h.2.congr rfl le_rfl⟩
  emit o x h := agree_leaves (leaves_emit o x _)
    (fun k => k.congr (State.ledger_put _ _) (State.grows_put _ _).lineNumber.ge) h
  emitDirect o x h := (parallel_keeps_emitDirect o x _ _).agree h
  flushPending h := agree_keeps_flushPending h
  followFunction h := agree_keeps_followFunction h
  closeClass name _ h := (parallel_keeps_closeClass name _ _).agree h
  inExternC h := by rw [h.1]
  withExternC b h := ⟨by rw [h.1], h.2.congr rfl le_rfl⟩

theorem keeping_of_agree {r q : EStateM.Result ConvertError State α} (h : (keeping a).Agree r q) :
    Keeping a (endOf r) := by
  cases h with
  | ok related => exact related.2
  | error related => exact related.2
  | lost gone => exact gone.elim

/-- A line takes nothing back, also if it fails. -/
theorem keeping_processLine (config : Config) (raw : Text) (h : s.Clean) :
    Keeping s (stateAfter (processLine config raw) s) := by
  have begun : Keeping s (s.begin config raw) :=
    ⟨(State.Extends.refl s).congr rfl, h.congr rfl (Nat.le_succ _), Nat.succ_pos _⟩
  have related : (keepingSession s).rel (s.begin config raw) (s.begin config raw) := ⟨rfl, begun⟩
  rw [stateAfter_eq_endOf, run_processLine]
  exact keeping_of_agree ((parallel_recovered config raw _ _).agree related)

theorem clean_reachable {config : Config} {room : Option Nat} (h : Reachable config room s) :
    s.Clean := by
  induction h with
  | start =>
    exact ⟨NameList.valid_empty, NameList.valid_empty, fun r mem => absurd mem List.not_mem_nil,
      [], rfl, List.Pairwise.nil, fun n mem => absurd mem List.not_mem_nil⟩
  | line raw _ ih => exact (keeping_processLine config raw ih).clean

/-- The end of the input takes nothing back either. -/
theorem keeping_finish {config : Config} {room : Option Nat} (h : Reachable config room s) :
    s.Extends (stateAfter finish s) ∧ (stateAfter finish s).Clean := by
  have clean := clean_reachable h
  cases h with
  | start => exact ⟨State.Extends.refl _, clean⟩
  | @line s raw h =>
    have begun := (keeping_processLine config raw (clean_reachable h)).begun
    have related : (keepingSession (stateAfter (processLine config raw) s)).rel _ _ :=
      ⟨rfl, State.Extends.refl _, clean, begun⟩
    have kept := keeping_of_agree ((parallel_finish _ _).agree related)
    rw [← stateAfter_eq_endOf] at kept
    exact ⟨kept.keeps, kept.clean⟩

end Conversion
end HeaderFlattening
