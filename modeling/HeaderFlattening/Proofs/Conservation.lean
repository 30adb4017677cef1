import HeaderFlattening.Proofs.Delivery
import Mathlib.Data.List.Perm.Basic

/-!
Conservation of text over whole runs. What was written and what is still put off is, chunk by chunk,
what was emitted, whatever the lines look like; nothing is put off outside a class; and the end of the
input writes what is left.
-/

set_option autoImplicit false
namespace HeaderFlattening

/-- What is put off, in the order in which it will be written. -/
def State.pending (s : State) : List Chunk := s.pendingEnums ++ s.pendingMembers

/-- All text emitted was written or is put off, and text is put off only in a class. -/
structure Accounted (s : State) : Prop where
  perm : (s.sink.offered ++ s.pending).Perm s.emitted
  idle : s.mode.classState = .none → s.pendingEnums = [] ∧ s.pendingMembers = []

/-- The state behind the end of the input. -/
def State.ended (s : State) : State :=
  match s.mode.classState.name? with
  | none => s
  | some name =>
    { s with
      pendingEnums := []
      pendingMembers := []
      trace := s.trace ++ [.classUnclosed name]
      diagnostics := s.diagnostics ++ [{
        severity := .warning
        message := "class ".toList ++ name ++ " is not closed at end of input".toList
        line := some s.lineNumber
        help := some "its deferred enums and members were written after the last line".toList }]
      sink := { s.sink with offered := s.sink.offered ++ s.pending } }

namespace Conversion

variable {s t : State}

theorem pending_of_inactive (a : Accounted s) (h : s.mode.classState.isActive = false) :
    s.pending = [] := by
  have none : s.mode.classState = .none := by
    cases hc : s.mode.classState with
    | none => rfl
    | pending name | opened name =>
      rw [hc] at h
      exact absurd h.symm Bool.false_ne_true
  obtain ⟨enums, members⟩ := a.idle none
  rw [State.pending, enums, members, List.append_nil]

/-- Each way of delivering text keeps the account. -/
theorem accounted_delivery (a : Accounted s) (d : Delivery s t) : Accounted t := by
  cases d with
  | written made active emitted sink enums members =>
    constructor
    · rw [State.pending, enums, members, sink, emitted]
      have swap : (s.sink.offered ++ made ++ s.pending).Perm (s.sink.offered ++ s.pending ++ made) := by
        rw [List.append_assoc, List.append_assoc]
        exact List.perm_append_comm.append_left s.sink.offered
      exact swap.trans (a.perm.append_right made)
    · intro none
      rw [enums, members]
      refine a.idle ?_
      by_contra some
      have outside := active (by revert some; cases s.mode.classState <;> simp [ClassState.isActive])
      rw [none] at outside
      exact Bool.false_ne_true outside
  | deferred kept moved enums members opened active comments source emitted sink pe pm =>
    constructor
    · rw [State.pending, pe, pm, sink, emitted]
      have account := a.perm
      rw [State.pending, source] at account
      refine List.Perm.trans ?_ (account.append_right (enums ++ members))
      -- Only the four pieces put off change places.
      rw [List.append_assoc s.sink.offered]
      refine List.Perm.append_left _ ?_
      simp only [List.append_assoc]
      refine List.Perm.append_left _ ?_
      rw [← List.append_assoc kept moved]
      refine List.Perm.trans ?_ (List.perm_append_comm.append_right (enums ++ members))
      rw [List.append_assoc]
      refine List.Perm.append_left _ ?_
      rw [← List.append_assoc, ← List.append_assoc]
      exact List.perm_append_comm.append_right members
    · intro none
      rw [none] at active
      exact absurd active Bool.false_ne_true
  | closed closer active none emitted sink enums members =>
    constructor
    · rw [State.pending, enums, members, sink, emitted, List.append_nil, List.append_nil]
      have front := a.perm.cons closer
      refine List.Perm.trans ?_ (front.trans (List.perm_append_singleton closer s.emitted).symm)
      exact List.perm_middle
    · exact fun _ => ⟨enums, members⟩

theorem Delivery.offers (d : Delivery s t) :
    ∃ cs, t.sink = { s.sink with offered := s.sink.offered ++ cs } := by
  cases d with
  | written made _ _ sink => exact ⟨made, sink⟩
  | deferred _ _ _ _ _ _ _ _ _ sink => exact ⟨[], by rw [sink, List.append_nil]⟩
  | closed closer _ _ _ sink => exact ⟨_, sink⟩

theorem hasAll_of_append (k : Sink) (cs : List Chunk)
    (h : Sink.hasAll { k with offered := k.offered ++ cs } = true) : k.hasAll = true := by
  unfold Sink.hasAll at *
  cases hr : k.room with
  | none => rfl
  | some room =>
    have fits : (k.demand ++ cs.flatMap fun c => c.text.bytes).length ≤ room := by
      simpa [hr, Sink.demand] using h
    rw [List.length_append] at fits
    exact decide_eq_true (by omega)

theorem Delivery.kept (d : Delivery s t) (h : t.sink.hasAll = true) : s.sink.hasAll = true := by
  obtain ⟨cs, sink⟩ := d.offers
  rw [sink] at h
  exact hasAll_of_append s.sink cs h

theorem bytes_of_hasAll {k : Sink} (h : k.hasAll = true) :
    k.bytes = k.offered.flatMap fun c => c.text.bytes := by
  unfold Sink.hasAll at h
  unfold Sink.bytes
  cases hr : k.room with
  | none => rfl
  | some room =>
    simp only [hr, decide_eq_true_eq] at h
    exact List.take_of_length_le h

theorem run_then_true (x : Conversion Unit) (s : State) :
    (x >>= fun _ => pure true).run s =
      match x.run s with
      | .ok _ t => .ok true t
      | .error e t => .error e t := by
  rw [EStateM.run_bind]
  cases x.run s <;> rfl

theorem delivery_processLine (config : Config) (raw : Text) (s : State) :
    Delivery s (stateAfter (processLine config raw) s) ∨
      (stateAfter (processLine config raw) s).sink.room = s.sink.room ∧
        (stateAfter (processLine config raw) s).sink.hasAll = false := by
  have flow := flows_processLine config raw s
  unfold Flows at flow
  rw [run_then_true] at flow
  unfold stateAfter
  cases run : (processLine config raw).run s with
  | ok a t =>
    rw [run] at flow
    exact .inl flow
  | error e t =>
    rw [run] at flow
    rcases flow with ⟨_, room, lost⟩ | ⟨_, quiet⟩
    · exact .inr ⟨room, lost⟩
    · exact .inl quiet.delivery

theorem delivery_of_kept {config : Config} {raw : Text}
    (h : (stateAfter (processLine config raw) s).sink.hasAll = true) :
    Delivery s (stateAfter (processLine config raw) s) := by
  rcases delivery_processLine config raw s with d | ⟨_, lost⟩
  · exact d
  · exact absurd (lost.symm.trans h) Bool.false_ne_true

variable {config : Config} {room : Option Nat}

theorem room_of_reachable (h : Reachable config room s) : s.sink.room = room := by
  induction h with
  | start => rfl
  | line raw _ ih =>
    rcases delivery_processLine config raw _ with d | ⟨same, _⟩
    · obtain ⟨cs, sink⟩ := d.offers
      rw [sink]
      exact ih
    · exact same.trans ih

/-- A sink without a limit keeps everything. -/
theorem hasAll_of_unbounded (h : Reachable config none s) : s.sink.hasAll = true := by
  unfold Sink.hasAll
  rw [room_of_reachable h]

theorem accounted_of_reachable (h : Reachable config room s) (kept : s.sink.hasAll = true) :
    Accounted s := by
  induction h with
  | start => exact ⟨List.Perm.refl [], fun _ => ⟨rfl, rfl⟩⟩
  | line raw _ ih =>
    have d := delivery_of_kept kept
    exact accounted_delivery (ih (d.kept kept)) d

theorem reaches_finish (s : State) : Reaches finish s () s.ended := by
  unfold finish State.ended
  rw [reaches_get]
  cases s.mode.classState.name? with
  | none => exact .of_run rfl rfl
  | some name =>
    simp only [reaches_note, reaches_remark]
    exact reaches_flushPending _

theorem kept_writeAll (cs : List Chunk) (kept : s.sink.hasAll = true)
    (h : (writeAll cs).run s = .ok () t) : t.sink.hasAll = true := by
  induction cs generalizing s with
  | nil =>
    cases h
    exact kept
  | cons c cs ih =>
    rw [writeAll, EStateM.run_bind, run_write] at h
    cases hw : c.text.isEmpty || (s.sink.offer c).hasAll with
    | false =>
      rw [hw] at h
      cases h
    | true =>
      rw [hw] at h
      refine ih ?_ h
      rcases Bool.or_eq_true_iff.1 hw with empty | all
      · have same : (s.sink.offer c).demand = s.sink.demand := by
          rw [List.isEmpty_iff] at empty
          simp [Sink.demand, Sink.offer, empty, Text.bytes]
        unfold Sink.hasAll at kept ⊢
        rw [same]
        exact kept
      · exact all

theorem kept_finish (kept : s.sink.hasAll = true) (h : finish.run s = .ok () t) :
    t.sink.hasAll = true := by
  unfold finish at h
  rw [EStateM.run_bind, EStateM.run_get] at h
  cases hc : s.mode.classState.name? with
  | none =>
    simp only [hc] at h
    cases h
    exact kept
  | some name =>
    simp only [hc] at h
    exact kept_writeAll s.pending (s := { s.ended with sink := s.sink }) kept
      (by unfold State.ended; rw [hc]; exact h)

theorem offered_ended (a : Accounted s) :
    s.ended.sink.offered = s.sink.offered ++ s.pending := by
  unfold State.ended
  cases hc : s.mode.classState with
  | none =>
    rw [pending_of_inactive a (by rw [hc]; rfl), List.append_nil]
    rfl
  | pending name | opened name => rfl

theorem emitted_ended (s : State) : s.ended.emitted = s.emitted := by
  unfold State.ended
  cases s.mode.classState.name? <;> rfl

theorem eq_ended (h : finish.run s = .ok () t) : t = s.ended := by
  rcases (reaches_finish s).2 with run | ⟨u, run, _⟩
  · rw [run] at h
    cases h
    rfl
  · rw [run] at h
    cases h

/-- No emitted text is lost or doubled. In every state that lines lead to while the sink keeps what it
is offered, what was written and what is put off is what was emitted; nothing is put off outside a
class; the next line writes text, puts text off, or closes the class and writes the enums of the class
before its members; and a successful end of the input leaves each emitted text in the output once. -/
theorem emitted_text_conserved (config : Config) (room : Option Nat) (s : State)
    (h : Reachable config room s) (kept : s.sink.hasAll = true) :
    (s.sink.offered ++ (s.pendingEnums ++ s.pendingMembers)).Perm s.emitted ∧
    s.sink.bytes = s.sink.offered.flatMap (fun c => c.text.bytes) ∧
    (s.mode.classState = .none → s.pendingEnums = [] ∧ s.pendingMembers = []) ∧
    (∀ raw t, t = stateAfter (processLine config raw) s → t.sink.hasAll = true → Delivery s t) ∧
    (∀ t, finish.run s = .ok () t →
      t.emitted = s.emitted ∧
      t.sink.offered = s.sink.offered ++ (s.pendingEnums ++ s.pendingMembers) ∧
      t.sink.offered.Perm t.emitted ∧
      t.sink.bytes = t.sink.offered.flatMap (fun c => c.text.bytes)) ∧
    (room = none → ∃ t, finish.run s = .ok () t) := by
  have account := accounted_of_reachable h kept
  refine ⟨account.perm, bytes_of_hasAll kept, account.idle, ?_, ?_, ?_⟩
  · rintro raw t rfl all
    exact delivery_of_kept all
  · intro t done
    have all := kept_finish kept done
    rw [eq_ended done] at all ⊢
    have offered := offered_ended account
    refine ⟨emitted_ended s, offered, ?_, bytes_of_hasAll all⟩
    rw [offered, emitted_ended s]
    exact account.perm
  · intro unbounded
    rw [← room_of_reachable h] at unbounded
    exact ⟨s.ended, (reaches_finish s).run_eq unbounded⟩

/-- A class that is left open, with a comment on its enum behind another one. -/
def unclosedClass : List Text :=
  ["class A \x7b\n".toList, "// methods\n".toList, "void f();\n".toList, "// values\n".toList,
    "enum E \x7b X \x7d;\n".toList]

theorem unclosed_class_conserved :
    Reachable {} none (runLines {} unclosedClass {}) ∧
    (runLines {} unclosedClass {}).sink.hasAll = true ∧
    ∀ t, finish.run (runLines {} unclosedClass {}) = .ok () t → t.sink.offered.Perm t.emitted := by
  have reachable := reachable_runLines {} none unclosedClass .start
  have kept := hasAll_of_unbounded reachable
  refine ⟨reachable, kept, fun t done => ?_⟩
  obtain ⟨-, -, -, -, ended, -⟩ := emitted_text_conserved {} none _ reachable kept
  exact (ended t done).2.2.1

end Conversion
end HeaderFlattening
