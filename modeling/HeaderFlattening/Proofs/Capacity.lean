import HeaderFlattening.Proofs.Conservation
import HeaderFlattening.Proofs.Lockstep

/-!
A session with a bounded sink beside the same session with an unlimited one. As long as the sink has
room for all that it is offered, the two are in step; the first write that does not fit fails, and from
there on the bounded sink holds the first bytes of what the unlimited one gets.
-/

set_option autoImplicit false
namespace HeaderFlattening

/-- The state as it is with a sink that has this room. -/
def State.limit (s : State) (room : Nat) : State :=
  { s with sink := { s.sink with room := some room } }

namespace Conversion

/-- The outcome of a step. -/
abbrev Outcome := EStateM.Result ConvertError State Unit

/-- The bytes that the sink has got when the step ends. -/
def written (r : Outcome) : List UInt8 := (endOf r).sink.bytes

/-- Whether the step has failed with an input or output error. -/
def failsIo : Outcome → Bool
  | .error (.stream _) _ => true
  | _ => false

/-- The same outcome with a sink that has this room. -/
def limitOutcome (room : Nat) : Outcome → Outcome
  | .ok a s => .ok a (s.limit room)
  | .error e s => .error e (s.limit room)

/-- The outcomes of steps that are made one after the other, whatever the outcome of each. -/
def outcomes : List (Conversion Unit) → State → List Outcome
  | [], _ => []
  | x :: xs, s => x.run s :: outcomes xs (endOf (x.run s))

/-- The outcomes of a session: each line, and the end of the input. -/
def session (config : Config) (room : Option Nat) (lines : List Text) : List Outcome :=
  outcomes (lines.map (processLine config) ++ [finish]) { sink := { room } }

theorem demand_prefix {k l : Sink} (h : k.offered <+: l.offered) : k.demand <+: l.demand := by
  obtain ⟨rest, eq⟩ := h
  exact ⟨rest.flatMap (·.text.bytes), by unfold Sink.demand; rw [← eq, List.flatMap_append]⟩

/-- The bounded session has run out of room, at a place that the other one has passed, too. -/
structure Lost (room : Nat) (s u : State) : Prop where
  free : s.sink.room = none
  bound : u.sink.room = some room
  passed : room < s.sink.demand.length
  beyond : room < u.sink.demand.length
  same : u.sink.demand.take room = s.sink.demand.take room

variable {room : Nat} {s s' t u u' : State}

/-- Nothing that either session does later changes that. -/
theorem Lost.grow (h : Lost room s u) (free : s'.sink.room = s.sink.room)
    (bound : u'.sink.room = u.sink.room) (first : s.sink.offered <+: s'.sink.offered)
    (second : u.sink.offered <+: u'.sink.offered) : Lost room s' u' := by
  have left := demand_prefix first
  have right := demand_prefix second
  have takes {k l : List UInt8} (prior : k <+: l) (long : room < k.length) :
      l.take room = k.take room := by
    obtain ⟨rest, rfl⟩ := prior
    exact List.take_append_of_le_length (by omega)
  refine ⟨free.trans h.free, bound.trans h.bound, ?_, ?_, ?_⟩
  · exact h.passed.trans_le left.length_le
  · exact h.beyond.trans_le right.length_le
  · rw [takes left h.passed, takes right h.beyond, h.same]

/-- The two sessions are in step, or the bounded one is lost. -/
def capacity (room : Nat) : Correspondence where
  rel s t := s.sink.room = none ∧ t = s.limit room ∧ t.sink.hasAll = true
  lost := Lost room
  number := id
  lost_of_grows gone grows := gone.grow grows.room rfl grows.offered List.prefix_rfl

theorem length_demand_of_full {k : Sink} (bound : k.room = some room) (full : k.hasAll = false) :
    room < k.demand.length := by
  unfold Sink.hasAll at full
  rw [bound] at full
  have beyond := of_decide_eq_false full
  omega

theorem hasAll_offer_empty (k : Sink) {c : Chunk} (h : c.text.isEmpty = true) :
    (k.offer c).hasAll = k.hasAll := by
  have same : (k.offer c).demand = k.demand := by
    rw [List.isEmpty_iff] at h
    simp [Sink.demand, Sink.offer, h, Text.bytes]
  unfold Sink.hasAll
  rw [same]
  rfl

/-- What leaves the sink alone and does not look at it keeps the sessions in step. -/
theorem capacity_keep (f : State → State) (limit : f (s.limit room) = (f s).limit room)
    (sink : (f s).sink = s.sink) (h : (capacity room).rel s t) :
    (capacity room).rel (f s) (f t) := by
  obtain ⟨free, rfl, fits⟩ := h
  refine ⟨by rw [sink, free], limit, ?_⟩
  rw [limit]
  unfold State.limit at *
  rw [sink]
  exact fits

theorem parallel_write (c : Chunk) (s t : State) : Parallel (capacity room) (write c) s t := by
  refine ⟨steady_write c s, ?_⟩
  rintro ⟨free, rfl, fits⟩
  have left := (leaves_write c s).run_eq free
  rw [left, run_write]
  cases kept : c.text.isEmpty || ((s.limit room).sink.offer c).hasAll with
  | true =>
    refine .ok ⟨free, rfl, ?_⟩
    rcases Bool.or_eq_true_iff.1 kept with empty | all
    · exact (hasAll_offer_empty _ empty).trans fits
    · exact all
  | false =>
    have beyond := length_demand_of_full (k := (s.limit room).sink.offer c) rfl
      (Bool.or_eq_false_iff.1 kept).2
    exact .lost ⟨free, rfl, beyond, beyond, rfl⟩

theorem parallel_writeAll (cs : List Chunk) (s t : State) :
    Parallel (capacity room) (writeAll cs) s t := by
  induction cs generalizing s t with
  | nil => exact parallel_pure () s t
  | cons c cs ih => exact (parallel_write c s t).bind fun _ s t => ih s t

theorem parallel_offer (o : Origin) (x : Text) (s t : State) :
    Parallel (capacity room) (emitDirect o x) s t := by
  refine .after (y := write ⟨o, x⟩) rfl (fun _ => rfl) (State.grows_of_sink rfl rfl) ?_
    (parallel_write ⟨o, x⟩ _ _)
  rintro ⟨free, rfl, fits⟩
  exact ⟨free, rfl, fits⟩

theorem parallel_flush (s t : State) : Parallel (capacity room) flushPending s t := by
  refine ⟨steady_flushPending s, ?_⟩
  rintro ⟨free, rfl, fits⟩
  exact (parallel_writeAll (s.pendingEnums ++ s.pendingMembers) _ _).agree ⟨free, rfl, fits⟩

/-- The state with a record of a closed class. -/
def recordClass (name : Text) (s : State) : State :=
  { s with
    classes := s.classes ++ [⟨name, s.memberNames.toList⟩]
    memberNames := {}
    trace := s.trace ++ [.classClosed name s.memberNames] }

theorem parallel_close (name : Text) (s t : State) :
    Parallel (capacity room) (closeClass name) s t := by
  have leave (s t : State) :
      Parallel (capacity room) (modifyMode ({ · with classState := .none })) s t :=
    .of_run rfl (fun _ => rfl) (State.grows_of_sink rfl rfl)
      (capacity_keep (State.withMode · ({ · with classState := .none })) rfl rfl)
  refine (leave s t).bind fun _ s t => ?_
  refine (parallel_offer _ _ s t).bind fun _ s t => ?_
  refine (parallel_flush s t).bind fun _ s t => ?_
  exact .of_run rfl (fun _ => rfl) (State.grows_of_sink rfl rfl)
    (capacity_keep (recordClass name) rfl rfl)

theorem agree_emit (o : Origin) (x : Text) (h : (capacity room).rel s t) :
    (capacity room).Agree ((emit o x).run s) ((emit o x).run t) := by
  obtain ⟨free, rfl, fits⟩ := h
  by_cases opened : s.mode.classState.isOpen = true
  · have opened' : (s.limit room).mode.classState.isOpen = true := opened
    rw [run_emit, run_emit, opened, opened']
    cases enum : s.mode.enumBody.isSome with
    | true =>
      have enum' : (s.limit room).mode.enumBody.isSome = true := enum
      rw [s.put_open_enum _ opened enum, State.put_open_enum _ opened' enum']
      exact .ok ⟨free, rfl, fits⟩
    | false =>
      have enum' : (s.limit room).mode.enumBody.isSome = false := enum
      rw [s.put_open_member _ opened enum, State.put_open_member _ opened' enum']
      exact .ok ⟨free, rfl, fits⟩
  · have direct (s : State) (closed : ¬s.mode.classState.isOpen = true) :
        (emit o x).run s = (emitDirect o x).run s := by
      unfold emit
      rw [EStateM.run_bind, EStateM.run_get]
      simp only [closed]
      rfl
    rw [direct s opened, direct (s.limit room) opened]
    exact (parallel_offer o x s _).agree ⟨free, rfl, fits⟩

theorem agree_followFunction (h : (capacity room).rel s t) :
    (capacity room).Agree (followFunction.run s) (followFunction.run t) := by
  have same : t.mode = s.mode ∧ t.line = s.line ∧ t.cursor = s.cursor := by
    rw [h.2.1]
    exact ⟨rfl, rfl, rfl⟩
  cases function : s.mode.function with
  | body depth =>
    rw [run_followFunction_body function, run_followFunction_body (by rw [same.1, function])]
    exact .ok (capacity_keep (State.followBody · depth) rfl rfl h)
  | outside | signature =>
    rw [run_followFunction_scan (by rw [function]; simp),
      run_followFunction_scan (by rw [same.1, function]; simp), same.1, same.2.1, same.2.2]
    exact .ok (capacity_keep State.followScan rfl rfl h)

theorem limit_addValue (name : Text) (s : State) (room : Nat) :
    (s.limit room).addValue name = (s.addValue name).limit room := by
  unfold State.addValue State.limit
  cases s.enumValues.has name <;> rfl

theorem limit_addMember (name : Text) (s : State) (room : Nat) :
    (s.limit room).addMember name = (s.addMember name).limit room := by
  unfold State.addMember State.limit
  cases s.memberNames.has name <;> rfl

theorem sink_addMember (name : Text) (s : State) : (s.addMember name).sink = s.sink := by
  unfold State.addMember
  cases s.memberNames.has name <;> rfl

/-- Everything that a line does keeps the sessions in step. -/
def boundedSession (room : Nat) : Simulation where
  toCorrespondence := capacity room
  mode {s _} h := ⟨s.mode.inExternC, by rw [h.2.1]; rfl⟩
  line h := by rw [h.2.1]; rfl
  indent h := by rw [h.2.1]; rfl
  lineNumber h := by rw [h.2.1]; rfl
  begin config raw := capacity_keep (State.begin · config raw) rfl rfl
  withLine l := capacity_keep (State.withLine · l) rfl rfl
  noted e := capacity_keep (fun s => s.noted (e s.lineNumber)) rfl rfl
  remarked d := capacity_keep (State.remarked · d) rfl rfl
  withMode g _ _ _ := capacity_keep (State.withMode · g) rfl rfl
  openBrace _ := capacity_keep (State.openBrace · _) rfl rfl
  enterClass c := capacity_keep (State.enterClass · c) rfl rfl
  addValue name := capacity_keep (State.addValue · name) (limit_addValue name _ room)
    (State.sink_addValue _ name)
  addMember name _ := capacity_keep (State.addMember · name) (limit_addMember name _ room)
    (sink_addMember name _)
  gather := capacity_keep State.gather rfl rfl
  emit := agree_emit
  emitDirect o x := (parallel_offer o x _ _).agree
  flushPending := (parallel_flush _ _).agree
  followFunction := agree_followFunction
  closeClass name _ := (parallel_close name _ _).agree
  inExternC h := by rw [h.2.1]; rfl
  withExternC b := capacity_keep (State.withMode · ({ · with inExternC := b })) rfl rfl

/-- A step that both sessions can make, in step or after the bounded one is lost. -/
structure Bears (room : Nat) (x : Conversion Unit) : Prop where
  agree : ∀ {s t}, (capacity room).rel s t → (capacity room).Agree (x.run s) (x.run t)
  room : ∀ s, (endOf (x.run s)).sink.room = s.sink.room
  offered : ∀ s, s.sink.offered <+: (endOf (x.run s)).sink.offered
  full : ∀ s fault u, x.run s = .error (.stream fault) u → u.sink.hasAll = false

theorem bears_processLine (config : Config) (raw : Text) (room : Nat) :
    Bears room (processLine config raw) := by
  refine ⟨agree_processLine (S := boundedSession room) config raw, fun s => ?_, fun s => ?_, ?_⟩
  · exact (grows_processLine config raw s).room
  · exact (grows_processLine config raw s).offered
  · intro s fault u failed
    rw [run_processLine] at failed
    exact ((steady_recovered config raw _).full fault u failed).2

theorem bears_finish (room : Nat) : Bears room finish := by
  refine ⟨(parallel_finish (S := boundedSession room) _ _).agree, fun s => ?_, fun s => ?_, ?_⟩
  · rw [← stateAfter_eq_endOf]
    exact (steady_finish s).grows.room
  · rw [← stateAfter_eq_endOf]
    exact (steady_finish s).grows.offered
  · intro s fault u failed
    exact ((steady_finish s).full fault u failed).2

theorem bytes_free {k : Sink} (free : k.room = none) : k.bytes = k.demand := by
  unfold Sink.bytes
  rw [free]

/-- A lost session has got the first bytes, and the other one has got more. -/
theorem bytes_of_lost (h : Lost room s u) :
    u.sink.bytes = s.sink.bytes.take room ∧ room < s.sink.bytes.length := by
  rw [bytes_free h.free]
  refine ⟨?_, h.passed⟩
  rw [← h.same]
  unfold Sink.bytes
  rw [h.bound]

theorem bytes_of_rel (h : (capacity room).rel s t) :
    t.sink.bytes = s.sink.bytes.take room ∧ s.sink.bytes.length ≤ room := by
  obtain ⟨free, rfl, fits⟩ := h
  rw [bytes_free free]
  exact ⟨rfl, of_decide_eq_true fits⟩

variable {x : Conversion Unit} {xs : List (Conversion Unit)}

theorem written_of_lost (steps : ∀ x ∈ xs, Bears room x) (h : Lost room s u) :
    (outcomes xs u).map written = (outcomes xs s).map fun r => (written r).take room := by
  induction xs generalizing s u with
  | nil => rfl
  | cons x xs ih =>
    have step := steps x List.mem_cons_self
    have next := h.grow (step.room s) (step.room u) (step.offered s) (step.offered u)
    have rest := ih (fun x mem => steps x (List.mem_cons_of_mem _ mem)) next
    simp only [outcomes, List.map_cons]
    rw [rest]
    exact congrArg (· :: _) (bytes_of_lost next).1

/-- Whether the step ends with more bytes written than a sink with this room takes. -/
def exceeds (room : Nat) (r : Outcome) : Bool := room < (written r).length

/-- The two lists of outcomes, of which the second is that of the bounded session. -/
structure InStep (room : Nat) (free bounded : List Outcome) : Prop where
  bytes : bounded.map written = free.map fun r => (written r).take room
  failure : bounded.findIdx failsIo = free.findIdx (exceeds room)
  before : bounded.take (free.findIdx (exceeds room)) =
    (free.take (free.findIdx (exceeds room))).map (limitOutcome room)

theorem InStep.cons {r q : Outcome} {free bounded : List Outcome} (h : InStep room free bounded)
    (eq : q = limitOutcome room r) (bytes : written q = (written r).take room)
    (fits : exceeds room r = false) (calm : failsIo q = false) :
    InStep room (r :: free) (q :: bounded) := by
  refine ⟨?_, ?_, ?_⟩
  · rw [List.map_cons, List.map_cons, h.bytes, bytes]
  · rw [List.findIdx_cons, List.findIdx_cons, fits, calm, h.failure]
  · rw [List.findIdx_cons, fits, cond_false, List.take_succ_cons, List.take_succ_cons,
      List.map_cons, h.before, eq]

theorem inStep_outcomes (steps : ∀ x ∈ xs, Bears room x) (h : (capacity room).rel s t) :
    InStep room (outcomes xs s) (outcomes xs t) := by
  induction xs generalizing s t with
  | nil => exact ⟨rfl, rfl, rfl⟩
  | cons x xs ih =>
    have step := steps x List.mem_cons_self
    have later := fun x mem => steps x (List.mem_cons_of_mem _ mem)
    have both := step.agree h
    have full := step.full t
    unfold outcomes
    generalize x.run s = r at both
    generalize x.run t = q at both full
    cases both with
    | ok next =>
      have bytes := bytes_of_rel next
      exact (ih later next).cons (by rw [next.2.1]; rfl) bytes.1
        (decide_eq_false (by exact Nat.not_lt.2 bytes.2)) rfl
    | @error e v w next =>
      have bytes := bytes_of_rel next
      have same : e.renumber (capacity room).number = e := e.renumber_id
      refine (ih later next).cons (by rw [next.2.1, same]; rfl) bytes.1
        (decide_eq_false (by exact Nat.not_lt.2 bytes.2)) ?_
      cases e with
      | stream fault => exact absurd (full fault w rfl) (by rw [next.2.2]; simp)
      | _ => rfl
    | lost gone =>
      have bytes := bytes_of_lost gone
      have passed : exceeds room r = true := decide_eq_true bytes.2
      refine ⟨?_, ?_, ?_⟩
      · rw [List.map_cons, List.map_cons]
        exact List.cons_eq_cons.2 ⟨bytes.1, written_of_lost later gone⟩
      · rw [List.findIdx_cons, List.findIdx_cons, passed]
        rfl
      · rw [List.findIdx_cons, passed]
        rfl

/-- A session with a bounded sink. After every step the sink has the first bytes of what an unlimited
sink has got by then; the first step that fails with an input or output error is the first one at whose
end the unlimited total exceeds the room; and before it the outcomes and the states are the same. -/
theorem bounded_session (config : Config) (lines : List Text) (room : Nat) :
    let free := session config none lines
    let bounded := session config (some room) lines
    let first := free.findIdx (exceeds room)
    bounded.map written = free.map (fun r => (written r).take room) ∧
    bounded.findIdx failsIo = first ∧
    bounded.take first = (free.take first).map (limitOutcome room) := by
  have steps (x : Conversion Unit) (mem : x ∈ lines.map (processLine config) ++ [finish]) :
      Bears room x := by
    rcases List.mem_append.1 mem with line | last
    · obtain ⟨raw, -, rfl⟩ := List.mem_map.1 line
      exact bears_processLine config raw room
    · rw [List.mem_singleton.1 last]
      exact bears_finish room
  have start : (capacity room).rel {} { sink := { room := some room } } :=
    ⟨rfl, rfl, decide_eq_true (Nat.zero_le room)⟩
  have together := inStep_outcomes steps start
  exact ⟨together.bytes, together.failure, together.before⟩

end Conversion
end HeaderFlattening
