import HeaderFlattening.Proofs.Functions
import HeaderFlattening.Proofs.Types

/-!
Two runs of the same lines side by side. A `Simulation` is a relation between the states of the two
runs that the parts of the stages keep, and a `Companion` is one that may be lost where `extern "C"` is
opened or closed; `agree_processLine` and `agree_finish` say that then whole
lines and the end of the input keep it, too. The second run may be lost to a full sink; from there on
the first goes on alone, so that of single runs we only ask that they take nothing back.
-/

set_option autoImplicit false
namespace HeaderFlattening

/-- The error with another number for the line that it names. -/
def ConvertError.renumber (number : Nat → Nat) : ConvertError → ConvertError
  | .tooManyTokens line limit => .tooManyTokens (number line) limit
  | e => e

theorem ConvertError.renumber_id (e : ConvertError) : e.renumber id = e := by
  cases e <;> rfl

namespace State

/-- What the steps of a line leave as it is. -/
structure Grows (s t : State) : Prop where
  lineNumber : t.lineNumber = s.lineNumber
  room : t.sink.room = s.sink.room
  offered : s.sink.offered <+: t.sink.offered

variable {s t u : State}

theorem Grows.refl (s : State) : s.Grows s := ⟨rfl, rfl, List.prefix_rfl⟩

theorem Grows.trans (h : s.Grows t) (k : t.Grows u) : s.Grows u :=
  ⟨k.lineNumber.trans h.lineNumber, k.room.trans h.room, h.offered.trans k.offered⟩

theorem grows_of_sink (number : t.lineNumber = s.lineNumber) (sink : t.sink = s.sink) :
    s.Grows t := by
  have offered : s.sink.offered = t.sink.offered := congrArg Sink.offered sink.symm
  exact ⟨number, congrArg Sink.room sink, [], (List.append_nil _).trans offered⟩

theorem grows_put (s : State) (c : Chunk) : s.Grows (s.put c) := by
  unfold put
  split_ifs
  · exact ⟨rfl, rfl, List.prefix_rfl⟩
  · exact ⟨rfl, rfl, List.prefix_rfl⟩
  · exact ⟨rfl, rfl, List.prefix_append _ _⟩

theorem grows_addValue (s : State) (name : Text) : s.Grows (s.addValue name) := by
  unfold addValue
  split_ifs
  · exact Grows.refl s
  · exact ⟨rfl, rfl, List.prefix_rfl⟩

theorem grows_addMember (s : State) (name : Text) : s.Grows (s.addMember name) := by
  unfold addMember
  split_ifs
  · exact Grows.refl s
  · exact ⟨rfl, rfl, List.prefix_rfl⟩

/-- The state in which the tokens of the next line are looked for. -/
def begin (s : State) (config : Config) (raw : Text) : State :=
  { s with
    lineNumber := s.lineNumber + 1
    indent := (config.outdent s.mode raw).1
    line := .ofText (config.outdent s.mode raw).2 }

/-- The state with another line. -/
def withLine (s : State) (line : Line) : State := { s with line }

/-- The state with one more event. -/
def noted (s : State) (e : Event) : State := { s with trace := s.trace ++ [e] }

/-- The state with one more remark, which is about the current line. -/
def remarked (s : State) (d : Diagnostic) : State :=
  { s with diagnostics := s.diagnostics ++ [{ d with line := some s.lineNumber }] }

/-- The state in another mode. -/
def withMode (s : State) (g : Mode → Mode) : State := { s with mode := g s.mode }

/-- The function stage on a line that starts outside function bodies. -/
def followScan (s : State) : State :=
  let scan := Scan.line s.line s.mode.function s.cursor
  { s with
    mode := { s.mode with function := scan.function }
    cursor := scan.cursor
    functions := s.functions ++ scan.functions
    trace := s.trace ++ scan.trace }

end State

/-- How the states of two runs correspond. -/
structure Correspondence where
  rel : State → State → Prop
  /-- The second run has failed for a full sink, and the first has got to this state. -/
  lost : State → State → Prop
  /-- The number that a line of the first run has in the second. -/
  number : Nat → Nat
  lost_of_grows : ∀ {s s' u}, lost s u → s.Grows s' → lost s' u

/-- The second run is never lost. -/
def Correspondence.lasting (rel : State → State → Prop) (number : Nat → Nat) : Correspondence where
  rel := rel
  lost _ _ := False
  number := number
  lost_of_grows := False.elim

namespace Conversion

variable {α β : Type}

/-- The state in a result. -/
def endOf : EStateM.Result ConvertError State α → State
  | .ok _ t => t
  | .error _ t => t

end Conversion

open Conversion

/-- The two runs end alike, in states that correspond, or the second is lost. -/
inductive Correspondence.Agree (S : Correspondence) {α : Type} :
    EStateM.Result ConvertError State α → EStateM.Result ConvertError State α → Prop
  | ok {a : α} {t u : State} (h : S.rel t u) : Agree S (.ok a t) (.ok a u)
  | error {e : ConvertError} {t u : State} (h : S.rel t u) :
      Agree S (.error e t) (.error (e.renumber S.number) u)
  | lost {r : EStateM.Result ConvertError State α} {u : State} (h : S.lost (endOf r) u) :
      Agree S r (.error (.stream .full) u)

namespace Conversion

variable {α β : Type} {s t u : State}

theorem stateAfter_eq_endOf (x : Conversion α) (s : State) : stateAfter x s = endOf (x.run s) := by
  unfold stateAfter endOf
  cases x.run s <;> rfl

theorem stateAfter_of_run {x : Conversion α} {a : α} (h : x.run s = .ok a t) :
    stateAfter x s = t := by
  unfold stateAfter
  rw [h]

/-- A step that takes nothing back and whose only fault with a stream is that the sink is full. -/
structure Steady (x : Conversion α) (s : State) : Prop where
  grows : s.Grows (stateAfter x s)
  full : ∀ fault u, x.run s = .error (.stream fault) u → fault = .full ∧ u.sink.hasAll = false

theorem Steady.of_run {x : Conversion α} {a : α} (h : x.run s = .ok a t) (grows : s.Grows t) :
    Steady x s := by
  refine ⟨?_, fun fault u run => ?_⟩
  · rw [stateAfter_of_run h]
    exact grows
  · rw [h] at run
    cases run

theorem Steady.of_leaves {x : Conversion α} {a : α} (h : Leaves x s a t) (grows : s.Grows t) :
    Steady x s := by
  refine ⟨?_, fun fault u run => ?_⟩
  · rw [h.stateAfter_eq]
    exact grows
  · rcases h with h | ⟨h, lost⟩
    · rw [h] at run
      cases run
    · rw [h] at run
      cases run
      exact ⟨rfl, lost⟩

theorem Steady.bind_run {x : Conversion α} {f : α → Conversion β} (h : Steady x s)
    (k : ∀ a t, x.run s = .ok a t → Steady (f a) t) : Steady (x >>= f) s := by
  have first := h.grows
  have lost := h.full
  unfold stateAfter at first
  cases run : x.run s with
  | ok a t =>
    rw [run] at first
    have same : (x >>= f).run s = (f a).run t := by rw [EStateM.run_bind, run]
    refine ⟨?_, fun fault u failed => (k a t run).full fault u (same ▸ failed)⟩
    have rest := first.trans (k a t run).grows
    rw [stateAfter_eq_endOf] at rest ⊢
    rw [same]
    exact rest
  | error e t =>
    rw [run] at first
    have same : (x >>= f).run s = .error e t := by rw [EStateM.run_bind, run]
    refine ⟨?_, fun fault u failed => lost fault u ?_⟩
    · rw [stateAfter_eq_endOf, same]
      exact first
    · rw [same] at failed
      cases failed
      exact run

theorem Steady.bind {x : Conversion α} {f : α → Conversion β} (h : Steady x s)
    (k : ∀ a t, Steady (f a) t) : Steady (x >>= f) s := h.bind_run fun a t _ => k a t

theorem steady_write (c : Chunk) (s : State) : Steady (write c) s :=
  .of_leaves (leaves_write c s) ⟨rfl, rfl, List.prefix_append _ _⟩

theorem steady_writeAll (cs : List Chunk) (s : State) : Steady (writeAll cs) s := by
  induction cs generalizing s with
  | nil => exact .of_run rfl (State.Grows.refl s)
  | cons c cs ih => exact (steady_write c s).bind fun _ t => ih t

/-- Steps that only come after a change of other parts of the state. -/
theorem Steady.before {x y : Conversion α} (h : Steady y t) (run : x.run s = y.run t)
    (grows : s.Grows t) : Steady x s := by
  refine ⟨?_, fun fault u failed => h.full fault u (run ▸ failed)⟩
  rw [stateAfter_eq_endOf, run, ← stateAfter_eq_endOf]
  exact grows.trans h.grows

theorem steady_flushPending (s : State) : Steady flushPending s :=
  (steady_writeAll (s.pendingEnums ++ s.pendingMembers)
    { s with pendingEnums := [], pendingMembers := [] }).before rfl (State.grows_of_sink rfl rfl)

theorem steady_emitDirect (o : Origin) (x : Text) (s : State) : Steady (emitDirect o x) s :=
  (steady_write ⟨o, x⟩ { s with emitted := s.emitted ++ [⟨o, x⟩] }).before rfl
    (State.grows_of_sink rfl rfl)

theorem steady_closeClass (name : Text) (s : State) : Steady (closeClass name) s := by
  have quiet {α : Type} {x : Conversion α} {a : α} {s t : State} (h : x.run s = .ok a t)
      (number : t.lineNumber = s.lineNumber) (sink : t.sink = s.sink) : Steady x s :=
    .of_run h (State.grows_of_sink number sink)
  refine Steady.bind (quiet rfl rfl rfl) fun _ t => ?_
  refine (steady_emitDirect _ _ t).bind fun _ t => ?_
  refine (steady_flushPending t).bind fun _ t => ?_
  exact quiet rfl rfl rfl

theorem run_followFunction_scan (h : ∀ depth, s.mode.function ≠ .body depth) :
    followFunction.run s = .ok (s.mode.function ≠ .outside ||
      (Scan.line s.line s.mode.function s.cursor).suppress) s.followScan := by
  unfold followFunction State.followScan
  cases function : s.mode.function with
  | body depth => exact absurd function (h depth)
  | outside | signature =>
    simp only [EStateM.run_bind, EStateM.run_get, function]
    rfl

theorem steady_followFunction (s : State) : Steady followFunction s := by
  cases h : s.mode.function with
  | body depth => exact .of_run (run_followFunction_body h) (State.grows_of_sink rfl rfl)
  | outside | signature =>
    exact .of_run (run_followFunction_scan (by rw [h]; simp)) (State.grows_of_sink rfl rfl)

/-- The two runs of a step agree if they start in states that correspond. -/
structure Parallel (S : Correspondence) (x : Conversion α) (s t : State) : Prop where
  steady : Steady x s
  agree : S.rel s t → S.Agree (x.run s) (x.run t)

variable {S : Correspondence}

theorem Parallel.bind_run {x : Conversion α} {f : α → Conversion β} (h : Parallel S x s t)
    (k : ∀ a u v, x.run s = .ok a u → Parallel S (f a) u v) : Parallel S (x >>= f) s t := by
  refine ⟨h.steady.bind_run fun a u run => (k a u u run).steady, fun related => ?_⟩
  have first := h.agree related
  rw [EStateM.run_bind, EStateM.run_bind]
  generalize run : x.run s = r at first
  generalize x.run t = q at first
  cases first with
  | ok next => exact (k _ _ _ run).agree next
  | error next => exact .error next
  | lost gone =>
    refine .lost ?_
    cases r with
    | error e v => exact gone
    | ok a v =>
      have rest := (k a v v run).steady.grows
      rw [stateAfter_eq_endOf] at rest
      exact S.lost_of_grows gone rest

theorem Parallel.bind {x : Conversion α} {f : α → Conversion β} (h : Parallel S x s t)
    (k : ∀ a s t, Parallel S (f a) s t) : Parallel S (x >>= f) s t := h.bind_run fun a u v _ => k a u v

/-- What a step reads of the state is the same in both runs. -/
theorem Parallel.get {f : State → Conversion β} (same : S.rel s t → f t = f s)
    (h : Parallel S (f s) s t) : Parallel S (get >>= f) s t := by
  refine ⟨⟨h.steady.grows, h.steady.full⟩, fun related => ?_⟩
  have rest := h.agree related
  show S.Agree ((f s).run s) ((f t).run t)
  rw [same related]
  exact rest

/-- A step that goes on as another one from states that correspond as well. -/
theorem Parallel.after {x y : Conversion α} {u v : State} (left : x.run s = y.run u)
    (right : S.rel s t → x.run t = y.run v) (grows : s.Grows u) (next : S.rel s t → S.rel u v)
    (h : Parallel S y u v) : Parallel S x s t := by
  refine ⟨h.steady.before left grows, fun related => ?_⟩
  rw [left, right related]
  exact h.agree (next related)

theorem parallel_pure (a : α) (s t : State) : Parallel S (pure a) s t :=
  ⟨.of_run rfl (State.Grows.refl s), .ok⟩

theorem Parallel.of_run {x : Conversion α} {a : α} {u v : State} (left : x.run s = .ok a u)
    (right : S.rel s t → x.run t = .ok a v) (grows : s.Grows u) (next : S.rel s t → S.rel u v) :
    Parallel S x s t :=
  .after (y := pure a) left right grows next (parallel_pure a u v)

/-- A step that fails alike in both runs. -/
theorem Parallel.of_error {x : Conversion α} {e : ConvertError} {u v : State}
    (left : x.run s = .error e u) (right : S.rel s t → x.run t = .error (e.renumber S.number) v)
    (grows : s.Grows u) (next : S.rel s t → S.rel u v) (h : ∀ fault, e ≠ .stream fault) :
    Parallel S x s t := by
  refine ⟨⟨?_, fun fault w failed => ?_⟩, fun related => ?_⟩
  · rw [stateAfter_eq_endOf, left]
    exact grows
  · rw [left] at failed
    cases failed
    exact absurd rfl (h fault)
  · rw [left, right related]
    exact .error (next related)

end Conversion

/-- A correspondence that the parts of the stages keep, but for those that open and close
`extern "C"`: in this the two runs may differ. -/
structure Companion extends Correspondence where
  mode : ∀ {s t}, rel s t → ∃ b, t.mode = { s.mode with inExternC := b }
  line : ∀ {s t}, rel s t → t.line = s.line
  indent : ∀ {s t}, rel s t → t.indent = s.indent
  lineNumber : ∀ {s t}, rel s t → t.lineNumber = number s.lineNumber
  begin : ∀ {s t} config raw, rel s t → rel (s.begin config raw) (t.begin config raw)
  withLine : ∀ {s t} l, rel s t → rel (s.withLine l) (t.withLine l)
  noted : ∀ {s t} (e : Nat → Event), rel s t →
    rel (s.noted (e s.lineNumber)) (t.noted (e t.lineNumber))
  remarked : ∀ {s t} d, rel s t → rel (s.remarked d) (t.remarked d)
  /-- Comments, enums and structs do not matter to the relation. -/
  withMode : ∀ {s t} (g : Mode → Mode), (∀ m, (g m).classState = m.classState) →
    (∀ m, (g m).function = m.function) →
    (∀ m b, g { m with inExternC := b } = { g m with inExternC := b }) →
    rel s t → rel (s.withMode g) (t.withMode g)
  openBrace : ∀ {s t name}, s.mode.classState = .pending name → rel s t →
    rel (s.openBrace name) (t.openBrace name)
  enterClass : ∀ {s t} c, rel s t → rel (s.enterClass c) (t.enterClass c)
  addValue : ∀ {s t} name, rel s t → rel (s.addValue name) (t.addValue name)
  addMember : ∀ {s t} name, s.mode.classState.isActive = true → rel s t →
    rel (s.addMember name) (t.addMember name)
  gather : ∀ {s t}, rel s t → rel s.gather t.gather
  emit : ∀ {s t} o x, rel s t →
    toCorrespondence.Agree ((Conversion.emit o x).run s) ((Conversion.emit o x).run t)
  emitDirect : ∀ {s t} o x, rel s t →
    toCorrespondence.Agree ((Conversion.emitDirect o x).run s) ((Conversion.emitDirect o x).run t)
  flushPending : ∀ {s t}, rel s t →
    toCorrespondence.Agree (Conversion.flushPending.run s) (Conversion.flushPending.run t)
  followFunction : ∀ {s t}, rel s t →
    toCorrespondence.Agree (Conversion.followFunction.run s) (Conversion.followFunction.run t)
  closeClass : ∀ {s t} name, s.mode.classState.isActive = true → rel s t →
    toCorrespondence.Agree ((Conversion.closeClass name).run s) ((Conversion.closeClass name).run t)

instance : Coe Companion Correspondence := ⟨Companion.toCorrespondence⟩

/-- A correspondence that all parts of the stages keep. -/
structure Simulation extends Companion where
  inExternC : ∀ {s t}, rel s t → t.mode.inExternC = s.mode.inExternC
  withExternC : ∀ {s t} b, rel s t →
    rel (s.withMode ({ · with inExternC := b })) (t.withMode ({ · with inExternC := b }))

instance : Coe Simulation Companion := ⟨Simulation.toCompanion⟩

namespace Companion

variable {S : Companion} {s t : State}

theorem inComment (h : S.rel s t) : t.mode.inComment = s.mode.inComment := by
  obtain ⟨b, mode⟩ := S.mode h
  rw [mode]

theorem enumBody (h : S.rel s t) : t.mode.enumBody = s.mode.enumBody := by
  obtain ⟨b, mode⟩ := S.mode h
  rw [mode]

theorem structBody (h : S.rel s t) : t.mode.structBody = s.mode.structBody := by
  obtain ⟨b, mode⟩ := S.mode h
  rw [mode]

theorem classState (h : S.rel s t) : t.mode.classState = s.mode.classState := by
  obtain ⟨b, mode⟩ := S.mode h
  rw [mode]

theorem function (h : S.rel s t) : t.mode.function = s.mode.function := by
  obtain ⟨b, mode⟩ := S.mode h
  rw [mode]

end Companion

end HeaderFlattening
