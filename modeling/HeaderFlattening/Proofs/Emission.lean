import HeaderFlattening.Proofs.Run

/-!
What emitting does to the state. `put` is the state with one more text emitted, put off while a class
body is open and offered to the sink otherwise; emitting reaches exactly this state and fails only
when the sink does not keep all of it.
-/

set_option autoImplicit false
namespace HeaderFlattening

namespace State

/-- One more text offered to the sink. -/
def putDirect (s : State) (c : Chunk) : State :=
  { s with emitted := s.emitted ++ [c], sink := s.sink.offer c }

/-- One more text emitted. -/
def put (s : State) (c : Chunk) : State :=
  if s.mode.classState.isOpen then
    if s.mode.enumBody.isSome then
      { s with emitted := s.emitted ++ [c], pendingEnums := s.pendingEnums ++ [c] }
    else { s with emitted := s.emitted ++ [c], pendingMembers := s.pendingMembers ++ [c] }
  else s.putDirect c

/-- The comments and blank lines at the end of the put-off members. -/
def trailingComments (s : State) : List Chunk :=
  (s.pendingMembers.reverse.takeWhile fun c => c.text.isBlankOrComment).reverse

/-- The put-off members before these comments. -/
def membersProper (s : State) : List Chunk :=
  (s.pendingMembers.reverse.dropWhile fun c => c.text.isBlankOrComment).reverse

/-- The comments in front of an enum moved to the enums. -/
def gather (s : State) : State :=
  { s with
    pendingEnums := s.pendingEnums ++ s.trailingComments
    pendingMembers := s.membersProper }

theorem put_open_enum {s : State} (c : Chunk) (h : s.mode.classState.isOpen = true)
    (he : s.mode.enumBody.isSome = true) :
    s.put c = { s with emitted := s.emitted ++ [c], pendingEnums := s.pendingEnums ++ [c] } := by
  simp only [put, h, he, if_true]

theorem put_open_member {s : State} (c : Chunk) (h : s.mode.classState.isOpen = true)
    (he : s.mode.enumBody.isSome = false) :
    s.put c = { s with emitted := s.emitted ++ [c], pendingMembers := s.pendingMembers ++ [c] } := by
  simp only [put, h, he, if_true]
  rfl

theorem put_closed {s : State} (c : Chunk) (h : s.mode.classState.isOpen = false) :
    s.put c = s.putDirect c := by
  simp only [put, h]
  rfl

theorem mode_put (s : State) (c : Chunk) : (s.put c).mode = s.mode := by
  unfold put
  split_ifs <;> rfl

theorem line_put (s : State) (c : Chunk) : (s.put c).line = s.line := by
  unfold put
  split_ifs <;> rfl

/-- Texts emitted one after the other. -/
def putAll (s : State) (cs : List Chunk) : State := cs.foldl put s

theorem putAll_closed {s : State} (cs : List Chunk) (h : s.mode.classState.isOpen = false) :
    s.putAll cs =
      { s with
        emitted := s.emitted ++ cs
        sink := { s.sink with offered := s.sink.offered ++ cs } } := by
  induction cs generalizing s with
  | nil => simp [putAll]
  | cons c cs ih =>
    have next : (s.put c).mode.classState.isOpen = false := by rw [mode_put, h]
    show (s.put c).putAll cs = _
    rw [ih next, s.put_closed c h]
    simp [putDirect, Sink.offer]

theorem putAll_open_enum {s : State} (cs : List Chunk) (h : s.mode.classState.isOpen = true)
    (he : s.mode.enumBody.isSome = true) :
    s.putAll cs = { s with emitted := s.emitted ++ cs, pendingEnums := s.pendingEnums ++ cs } := by
  induction cs generalizing s with
  | nil => simp [putAll]
  | cons c cs ih =>
    show (s.put c).putAll cs = _
    rw [ih (by rw [mode_put, h]) (by rw [mode_put, he]), s.put_open_enum c h he]
    simp

theorem putAll_open_member {s : State} (cs : List Chunk) (h : s.mode.classState.isOpen = true)
    (he : s.mode.enumBody.isSome = false) :
    s.putAll cs =
      { s with emitted := s.emitted ++ cs, pendingMembers := s.pendingMembers ++ cs } := by
  induction cs generalizing s with
  | nil => simp [putAll]
  | cons c cs ih =>
    show (s.put c).putAll cs = _
    rw [ih (by rw [mode_put, h]) (by rw [mode_put, he]), s.put_open_member c h he]
    simp

/-- All that was put off written, enums before members. -/
def flushed (s : State) : State :=
  { s with
    pendingEnums := []
    pendingMembers := []
    sink := { s.sink with offered := s.sink.offered ++ (s.pendingEnums ++ s.pendingMembers) } }

theorem membersProper_append (s : State) :
    s.membersProper ++ s.trailingComments = s.pendingMembers := by
  rw [membersProper, trailingComments, ← List.reverse_append, List.takeWhile_append_dropWhile,
    List.reverse_reverse]

theorem isBlankOrComment_of_mem_trailing {s : State} {c : Chunk} (h : c ∈ s.trailingComments) :
    c.text.isBlankOrComment = true := by
  rw [trailingComments, List.mem_reverse] at h
  exact List.mem_takeWhile_imp (p := fun c : Chunk => c.text.isBlankOrComment) h

end State

namespace Conversion

theorem run_write (c : Chunk) (s : State) :
    (write c).run s =
      if c.text.isEmpty || (s.sink.offer c).hasAll then .ok () { s with sink := s.sink.offer c }
      else .error (.stream .full) { s with sink := s.sink.offer c } := by
  unfold write
  simp only [EStateM.run_bind, EStateM.run_get, EStateM.run_set]
  cases c.text.isEmpty || (s.sink.offer c).hasAll <;> rfl

theorem run_emitDirect (o : Origin) (x : Text) (s : State) :
    (emitDirect o x).run s =
      if x.isEmpty || (s.putDirect ⟨o, x⟩).sink.hasAll then .ok () (s.putDirect ⟨o, x⟩)
      else .error (.stream .full) (s.putDirect ⟨o, x⟩) := by
  rw [emitDirect, EStateM.run_bind, EStateM.run_modify]
  exact run_write ⟨o, x⟩ { s with emitted := s.emitted ++ [⟨o, x⟩] }

theorem run_emit (o : Origin) (x : Text) (s : State) :
    (emit o x).run s =
      if s.mode.classState.isOpen || x.isEmpty || (s.put ⟨o, x⟩).sink.hasAll then
        .ok () (s.put ⟨o, x⟩)
      else .error (.stream .full) (s.put ⟨o, x⟩) := by
  unfold emit
  simp only [EStateM.run_bind, EStateM.run_get]
  cases h : s.mode.classState.isOpen with
  | true =>
    simp only [Bool.true_or, if_true]
    rw [State.put, if_pos h]
    split_ifs <;> rfl
  | false =>
    rw [if_neg Bool.false_ne_true, run_emitDirect, s.put_closed _ h, Bool.false_or]

theorem run_takeEnumComments (s : State) : takeEnumComments.run s = .ok () s.gather := rfl

/-- The step ends with this result in this state, unless the sink does not keep all it is offered. -/
def Reaches {α : Type} (x : Conversion α) (s : State) (a : α) (t : State) : Prop :=
  t.sink.room = s.sink.room ∧
    (x.run s = .ok a t ∨
      ∃ u, x.run s = .error (.stream .full) u ∧ u.sink.room = s.sink.room ∧ u.sink.hasAll = false)

variable {α β : Type} {s t u : State} {a : α} {b : β}

theorem Reaches.of_run {x : Conversion α} (h : x.run s = .ok a t)
    (room : t.sink.room = s.sink.room) : Reaches x s a t := ⟨room, .inl h⟩

theorem Reaches.bind {x : Conversion α} {f : α → Conversion β} (h : Reaches x s a t)
    (k : Reaches (f a) t b u) : Reaches (x >>= f) s b u := by
  unfold Reaches at *
  rw [EStateM.run_bind]
  obtain ⟨room, h⟩ := h
  rw [← room]
  refine ⟨k.1, ?_⟩
  rcases h with h | ⟨v, h, same, full⟩
  · rw [h]
    exact k.2
  · rw [h]
    exact .inr ⟨v, rfl, same.trans room.symm, full⟩

/-- A step that ends in this state and leaves the sink alone. -/
theorem Reaches.then_run {x : Conversion α} {f : α → Conversion β} (h : Reaches x s a t)
    (k : (f a).run t = .ok b u) (room : u.sink.room = t.sink.room) : Reaches (x >>= f) s b u :=
  h.bind (.of_run k room)

theorem reaches_get (f : State → Conversion β) :
    Reaches (get >>= f) s b t ↔ Reaches (f s) s b t := Iff.rfl

theorem reaches_modifyMode {f : Unit → Conversion β} (g : Mode → Mode) :
    Reaches (modifyMode g >>= f) s b t ↔ Reaches (f ()) { s with mode := g s.mode } b t := Iff.rfl

theorem reaches_note {f : Unit → Conversion β} (e : Event) :
    Reaches (note e >>= f) s b t ↔ Reaches (f ()) { s with trace := s.trace ++ [e] } b t := Iff.rfl

theorem reaches_remark {f : Unit → Conversion β} (d : Diagnostic) :
    Reaches (remark d >>= f) s b t ↔
      Reaches (f ()) { s with diagnostics := s.diagnostics ++ [d] } b t := Iff.rfl

theorem room_put (s : State) (c : Chunk) : (s.put c).sink.room = s.sink.room := by
  unfold State.put
  split_ifs <;> rfl

/-- The step ends in this state. It fails only when the sink does not keep all it is offered. -/
def Leaves {α : Type} (x : Conversion α) (s : State) (a : α) (t : State) : Prop :=
  x.run s = .ok a t ∨ (x.run s = .error (.stream .full) t ∧ t.sink.hasAll = false)

theorem Leaves.of_run {x : Conversion α} (h : x.run s = .ok a t) : Leaves x s a t := .inl h

theorem Leaves.stateAfter_eq {x : Conversion α} (h : Leaves x s a t) : stateAfter x s = t := by
  unfold stateAfter
  rcases h with h | ⟨h, -⟩ <;> rw [h]

theorem Leaves.then_pure {x : Conversion α} (h : Leaves x s a t) (f : α → β) :
    Leaves (x >>= fun a => pure (f a)) s (f a) t := by
  unfold Leaves at *
  rw [EStateM.run_bind]
  rcases h with h | ⟨h, full⟩
  · rw [h]
    exact .inl rfl
  · rw [h]
    exact .inr ⟨rfl, full⟩

theorem Leaves.claim {x : Conversion Bool} {f : Bool → Conversion β} (h : Leaves x s true t)
    (done : f true = pure b) : Leaves (x >>= f) s b t := by
  unfold Leaves at *
  rw [EStateM.run_bind]
  rcases h with h | ⟨h, full⟩
  · rw [h]
    simp only [done]
    exact .inl rfl
  · rw [h]
    exact .inr ⟨rfl, full⟩

theorem Leaves.after_run {x : Conversion α} {f : α → Conversion β} (run : x.run s = .ok a t)
    (h : Leaves (f a) t b u) : Leaves (x >>= f) s b u := by
  unfold Leaves
  rw [EStateM.run_bind, run]
  exact h

theorem Leaves.run_of_kept {x : Conversion α} (h : Leaves x s a t) (kept : t.sink.hasAll = true) :
    x.run s = .ok a t := by
  rcases h with run | ⟨_, lost⟩
  · exact run
  · exact absurd (lost.symm.trans kept) Bool.false_ne_true

theorem Leaves.run_eq {x : Conversion α} (h : Leaves x s a t) (room : t.sink.room = none) :
    x.run s = .ok a t := by
  apply h.run_of_kept
  unfold Sink.hasAll
  rw [room]

theorem leaves_emit (o : Origin) (x : Text) (s : State) :
    Leaves (emit o x) s () (s.put ⟨o, x⟩) := by
  unfold Leaves
  rw [run_emit]
  cases h : s.mode.classState.isOpen || x.isEmpty || (s.put ⟨o, x⟩).sink.hasAll with
  | true => exact .inl rfl
  | false => exact .inr ⟨rfl, (Bool.or_eq_false_iff.1 h).2⟩

theorem leaves_emitLine (s : State) : Leaves emitLine s () (s.put ⟨.copied, s.line.text⟩) :=
  leaves_emit .copied s.line.text s

theorem Leaves.reaches {x : Conversion α} (h : Leaves x s a t) (room : t.sink.room = s.sink.room) :
    Reaches x s a t :=
  ⟨room, h.imp id fun ⟨run, lost⟩ => ⟨t, run, room, lost⟩⟩

theorem leaves_write (c : Chunk) (s : State) :
    Leaves (write c) s () { s with sink := s.sink.offer c } := by
  unfold Leaves
  rw [run_write]
  cases h : c.text.isEmpty || (s.sink.offer c).hasAll with
  | true => exact .inl rfl
  | false => exact .inr ⟨rfl, (Bool.or_eq_false_iff.1 h).2⟩

theorem leaves_emitDirect (o : Origin) (x : Text) (s : State) :
    Leaves (emitDirect o x) s () (s.putDirect ⟨o, x⟩) := .after_run rfl (leaves_write ⟨o, x⟩ _)

theorem reaches_emitDirect (o : Origin) (x : Text) (s : State) :
    Reaches (emitDirect o x) s () (s.putDirect ⟨o, x⟩) := (leaves_emitDirect o x s).reaches rfl

theorem reaches_emit (o : Origin) (x : Text) (s : State) :
    Reaches (emit o x) s () (s.put ⟨o, x⟩) :=
  (leaves_emit o x s).reaches (room_put s _)

theorem reaches_emitLine (s : State) :
    Reaches emitLine s () (s.put ⟨.copied, s.line.text⟩) :=
  reaches_emit .copied s.line.text s

theorem reaches_takeEnumComments (s : State) : Reaches takeEnumComments s () s.gather :=
  .of_run (run_takeEnumComments s) rfl

theorem reaches_writeAll (cs : List Chunk) (s : State) :
    Reaches (writeAll cs) s () { s with sink := { s.sink with offered := s.sink.offered ++ cs } } := by
  induction cs generalizing s with
  | nil => exact .of_run (by simp [writeAll]) rfl
  | cons c cs ih =>
    unfold Reaches
    rw [writeAll, EStateM.run_bind, run_write]
    cases h : c.text.isEmpty || (s.sink.offer c).hasAll with
    | true => simpa [Reaches, Sink.offer] using ih { s with sink := s.sink.offer c }
    | false => exact ⟨rfl, .inr ⟨_, rfl, rfl, (Bool.or_eq_false_iff.1 h).2⟩⟩

theorem reaches_flushPending (s : State) : Reaches flushPending s () s.flushed :=
  reaches_writeAll _ { s with pendingEnums := [], pendingMembers := [] }

theorem Reaches.run_eq {x : Conversion α} (h : Reaches x s a t) (room : s.sink.room = none) :
    x.run s = .ok a t := by
  rcases h.2 with run | ⟨u, _, same, lost⟩
  · exact run
  · unfold Sink.hasAll at lost
    rw [same, room] at lost
    exact absurd lost.symm Bool.false_ne_true

end Conversion
end HeaderFlattening
