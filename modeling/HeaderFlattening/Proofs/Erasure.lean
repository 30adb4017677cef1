import HeaderFlattening.Proofs.Types

/-!
Conversions without their suppressed lines. `plain` takes the suppressed lines out of a state, and a
conversion in which they are dropped runs through the plain states of any other conversion: with a
sink that keeps everything, and as long as put-off suppressed lines count as comments, no step depends
on them.
-/

set_option autoImplicit false
namespace HeaderFlattening

/-- A chunk that does not come from a suppressed line. -/
def Chunk.isPlain (c : Chunk) : Bool := c.origin ≠ .suppressed

/-- The chunks that do not come from suppressed lines. -/
def plainChunks (cs : List Chunk) : List Chunk := cs.filter Chunk.isPlain

namespace State

/-- The state without the text of suppressed lines. -/
def plain (s : State) : State :=
  { s with
    pendingEnums := plainChunks s.pendingEnums
    pendingMembers := plainChunks s.pendingMembers
    emitted := plainChunks s.emitted
    sink := { s.sink with offered := plainChunks s.sink.offered } }

/-- The sink keeps everything, and suppressed lines that are put off count as comments. -/
structure Tidy (s : State) : Prop where
  unbounded : s.sink.room = none
  comments : ∀ c ∈ s.pendingMembers, c.isPlain = false → c.text.isBlankOrComment = true

theorem plainChunks_append (cs ds : List Chunk) :
    plainChunks (cs ++ ds) = plainChunks cs ++ plainChunks ds := List.filter_append cs ds

theorem plainChunks_of_isPlain {c : Chunk} (h : c.isPlain = true) : plainChunks [c] = [c] := by
  rw [plainChunks, List.filter_cons_of_pos h, List.filter_nil]

theorem plainChunks_of_not_isPlain {c : Chunk} (h : c.isPlain = false) : plainChunks [c] = [] := by
  rw [plainChunks, List.filter_cons_of_neg (by rw [h]; exact Bool.false_ne_true), List.filter_nil]

theorem filter_takeWhile_dropWhile {α : Type} (keep p : α → Bool) (l : List α)
    (h : ∀ a ∈ l, keep a = false → p a = true) :
    (l.takeWhile p).filter keep = (l.filter keep).takeWhile p ∧
    (l.dropWhile p).filter keep = (l.filter keep).dropWhile p := by
  induction l with
  | nil => exact ⟨rfl, rfl⟩
  | cons a l ih =>
    have ih := ih fun b mem => h b (List.mem_cons_of_mem a mem)
    cases hp : p a with
    | true =>
      rw [List.takeWhile_cons_of_pos hp, List.dropWhile_cons_of_pos hp]
      cases hk : keep a with
      | true =>
        rw [List.filter_cons_of_pos hk, List.filter_cons_of_pos hk, List.takeWhile_cons_of_pos hp,
          List.dropWhile_cons_of_pos hp, ih.1, ih.2]
        exact ⟨rfl, rfl⟩
      | false =>
        have drop : ¬keep a = true := by rw [hk]; exact Bool.false_ne_true
        rw [List.filter_cons_of_neg drop, List.filter_cons_of_neg drop]
        exact ih
    | false =>
      have stop : ¬p a = true := by rw [hp]; exact Bool.false_ne_true
      have kept : keep a = true := by
        cases hk : keep a with
        | true => rfl
        | false => exact absurd (h a (by simp) hk) stop
      rw [List.takeWhile_cons_of_neg stop, List.dropWhile_cons_of_neg stop,
        List.filter_cons_of_pos kept, List.takeWhile_cons_of_neg stop,
        List.dropWhile_cons_of_neg stop]
      exact ⟨rfl, rfl⟩

theorem plain_putDirect {s : State} {c : Chunk} (h : c.isPlain = true) :
    (s.putDirect c).plain = s.plain.putDirect c := by
  simp only [plain, putDirect, Sink.offer, plainChunks_append, plainChunks_of_isPlain h]

theorem plain_put {s : State} {c : Chunk} (h : c.isPlain = true) :
    (s.put c).plain = s.plain.put c := by
  cases opened : s.mode.classState.isOpen with
  | false =>
    rw [s.put_closed c opened, s.plain.put_closed c opened]
    exact plain_putDirect h
  | true =>
    cases enum : s.mode.enumBody.isSome with
    | true =>
      rw [s.put_open_enum c opened enum, s.plain.put_open_enum c opened enum]
      simp only [plain, plainChunks_append, plainChunks_of_isPlain h]
    | false =>
      rw [s.put_open_member c opened enum, s.plain.put_open_member c opened enum]
      simp only [plain, plainChunks_append, plainChunks_of_isPlain h]

theorem plain_put_suppressed {s : State} {c : Chunk} (h : c.isPlain = false) :
    (s.put c).plain = s.plain := by
  unfold put
  simp only [plain, putDirect, Sink.offer]
  split_ifs
  all_goals simp only [plainChunks_append, plainChunks_of_not_isPlain h, List.append_nil]

theorem Tidy.put {s : State} {c : Chunk} (h : s.Tidy)
    (text : c.isPlain = false → c.text.isBlankOrComment = true) : (s.put c).Tidy := by
  unfold State.put
  split_ifs
  · exact ⟨h.unbounded, h.comments⟩
  · refine ⟨h.unbounded, fun d mem => ?_⟩
    rcases List.mem_append.1 mem with mem | mem
    · exact h.comments d mem
    · rw [List.mem_singleton.1 mem]
      exact text
  · exact ⟨h.unbounded, h.comments⟩

theorem plain_gather {s : State} (h : s.Tidy) : s.gather.plain = s.plain.gather := by
  have split := filter_takeWhile_dropWhile Chunk.isPlain (fun c => c.text.isBlankOrComment)
    s.pendingMembers.reverse fun c mem => h.comments c (List.mem_reverse.1 mem)
  have trailing : plainChunks s.trailingComments = s.plain.trailingComments := by
    simp only [trailingComments, plainChunks, plain, List.filter_reverse, split.1]
  have proper : plainChunks s.membersProper = s.plain.membersProper := by
    simp only [membersProper, plainChunks, plain, List.filter_reverse, split.2]
  simp only [gather, plain, plainChunks_append, trailing, proper]

theorem Tidy.gather {s : State} (h : s.Tidy) : s.gather.Tidy := by
  refine ⟨h.unbounded, fun c mem => h.comments c ?_⟩
  rw [← s.membersProper_append]
  exact List.mem_append_left _ mem

theorem plain_flushed (s : State) : s.flushed.plain = s.plain.flushed := by
  simp only [plain, flushed, plainChunks_append]
  rfl

theorem mode_plain (s : State) : s.plain.mode = s.mode := rfl

theorem line_plain (s : State) : s.plain.line = s.line := rfl

theorem plain_addValue (s : State) (name : Text) :
    (s.addValue name).plain = s.plain.addValue name := by
  have same : s.plain.enumValues = s.enumValues := rfl
  unfold addValue
  rw [same]
  split_ifs <;> rfl

theorem Tidy.addValue {s : State} (h : s.Tidy) (name : Text) : (s.addValue name).Tidy := by
  unfold State.addValue
  split_ifs
  · exact h
  · exact ⟨h.unbounded, h.comments⟩

end State

namespace Conversion

variable {α β : Type} {s t : State}

/-- The second program goes through the plain states of the first and ends like it. -/
def Mirrored (x y : Conversion α) (s : State) : Prop :=
  s.Tidy → match x.run s, y.run s.plain with
    | .ok a t, .ok b u => b = a ∧ u = t.plain ∧ t.Tidy
    | .error e t, .error f u => f = e ∧ u = t.plain ∧ t.Tidy
    | _, _ => False

theorem mirrored_of_run {x y : Conversion α} {a : α}
    (h : s.Tidy → x.run s = .ok a t ∧ y.run s.plain = .ok a t.plain ∧ t.Tidy) :
    Mirrored x y s := by
  intro tidy
  obtain ⟨run, mirror, tidy⟩ := h tidy
  rw [run, mirror]
  exact ⟨rfl, rfl, tidy⟩

/-- Mirrored programs end alike: both with the same value or both with the same error. -/
theorem Mirrored.ends {x y : Conversion α} (h : Mirrored x y s) (tidy : s.Tidy) :
    ∃ t, t.Tidy ∧ ((∃ a, x.run s = .ok a t ∧ y.run s.plain = .ok a t.plain) ∨
      ∃ e, x.run s = .error e t ∧ y.run s.plain = .error e t.plain) := by
  have h := h tidy
  cases run : x.run s with
  | ok a t =>
    cases mirror : y.run s.plain with
    | ok b u =>
      rw [run, mirror] at h
      obtain ⟨rfl, rfl, tidy⟩ := h
      exact ⟨t, tidy, .inl ⟨_, rfl, rfl⟩⟩
    | error e u =>
      rw [run, mirror] at h
      exact h.elim
  | error e t =>
    cases mirror : y.run s.plain with
    | ok b u =>
      rw [run, mirror] at h
      exact h.elim
    | error f u =>
      rw [run, mirror] at h
      obtain ⟨rfl, rfl, tidy⟩ := h
      exact ⟨t, tidy, .inr ⟨_, rfl, rfl⟩⟩

theorem mirrored_bind {x y : Conversion α} {f g : α → Conversion β} (h : Mirrored x y s)
    (k : ∀ a t, Mirrored (f a) (g a) t) : Mirrored (x >>= f) (y >>= g) s := by
  intro tidy
  rw [EStateM.run_bind, EStateM.run_bind]
  obtain ⟨t, tidy, ⟨a, run, mirror⟩ | ⟨e, run, mirror⟩⟩ := h.ends tidy
  · rw [run, mirror]
    exact k a t tidy
  · rw [run, mirror]
    exact ⟨rfl, rfl, tidy⟩

theorem mirrored_get (f g : State → Conversion β) :
    Mirrored (get >>= f) (get >>= g) s ↔ Mirrored (f s) (g s.plain) s := Iff.rfl

theorem mirrored_pure (a : α) (s : State) : Mirrored (pure a) (pure a) s :=
  fun tidy => ⟨rfl, rfl, tidy⟩

theorem mirrored_throw (e : ConvertError) (s : State) :
    Mirrored (throw e : Conversion α) (throw e) s := fun tidy => ⟨rfl, rfl, tidy⟩

theorem mirrored_note (e : Event) (s : State) : Mirrored (note e) (note e) s :=
  fun tidy => ⟨rfl, rfl, tidy.unbounded, tidy.comments⟩

theorem mirrored_remark (d : Diagnostic) (s : State) : Mirrored (remark d) (remark d) s :=
  fun tidy => ⟨rfl, rfl, tidy.unbounded, tidy.comments⟩

theorem mirrored_modifyMode (g : Mode → Mode) (s : State) :
    Mirrored (modifyMode g) (modifyMode g) s :=
  fun tidy => ⟨rfl, rfl, tidy.unbounded, tidy.comments⟩

theorem mirrored_of_reaches {x : Conversion α} {a : α}
    (h : Reaches x s a t) (mirror : s.Tidy → Reaches x s.plain a t.plain) (tidy : s.Tidy → t.Tidy) :
    Mirrored x x s :=
  mirrored_of_run fun k => ⟨h.run_eq k.unbounded, (mirror k).run_eq k.unbounded, tidy k⟩

theorem mirrored_emit {o : Origin} (x : Text) (s : State) (h : o ≠ .suppressed) :
    Mirrored (emit o x) (emit o x) s := by
  have isPlain : Chunk.isPlain ⟨o, x⟩ = true := decide_eq_true h
  refine mirrored_of_reaches (reaches_emit o x s) (fun _ => ?_) fun tidy => ?_
  · rw [State.plain_put isPlain]
    exact reaches_emit o x s.plain
  · exact tidy.put fun no => absurd (no.symm.trans isPlain) Bool.false_ne_true

theorem mirrored_emitDirect {o : Origin} (x : Text) (s : State) (h : o ≠ .suppressed) :
    Mirrored (emitDirect o x) (emitDirect o x) s := by
  have isPlain : Chunk.isPlain ⟨o, x⟩ = true := decide_eq_true h
  refine mirrored_of_reaches (reaches_emitDirect o x s) (fun _ => ?_) fun tidy => ?_
  · rw [State.plain_putDirect isPlain]
    exact reaches_emitDirect o x s.plain
  · exact ⟨tidy.unbounded, tidy.comments⟩

theorem mirrored_emitLine (s : State) : Mirrored emitLine emitLine s :=
  mirrored_emit s.line.text s (by decide)

theorem mirrored_takeEnumComments (s : State) : Mirrored takeEnumComments takeEnumComments s := by
  refine mirrored_of_reaches (reaches_takeEnumComments s) (fun tidy => ?_) State.Tidy.gather
  rw [State.plain_gather tidy]
  exact reaches_takeEnumComments s.plain

theorem mirrored_flushPending (s : State) : Mirrored flushPending flushPending s := by
  refine mirrored_of_reaches (reaches_flushPending s) (fun _ => ?_) fun tidy => ?_
  · rw [State.plain_flushed]
    exact reaches_flushPending s.plain
  · exact ⟨tidy.unbounded, fun c mem => absurd mem List.not_mem_nil⟩

theorem mirrored_addEnumValue (name : Text) (s : State) :
    Mirrored (addEnumValue name) (addEnumValue name) s := by
  refine mirrored_of_run (t := s.addValue name) fun tidy =>
    ⟨run_addEnumValue name s, ?_, tidy.addValue name⟩
  rw [State.plain_addValue]
  exact run_addEnumValue name s.plain

theorem mirrored_retokenize (config : Config) (s : State) :
    Mirrored (retokenize config) (retokenize config) s := by
  unfold retokenize
  simp only [mirrored_get, State.line_plain]
  cases s.line.retokenize config.rules.maxTokens with
  | ok line => exact fun tidy => ⟨rfl, rfl, tidy.unbounded, tidy.comments⟩
  | error e => exact mirrored_throw _ s

theorem mirrored_ite {c : Prop} [Decidable c] {x y u v : Conversion α} (h : c → Mirrored x u s)
    (k : ¬c → Mirrored y v s) : Mirrored (if c then x else y) (if c then u else v) s := by
  split_ifs with hc
  · exact h hc
  · exact k hc

end Conversion
end HeaderFlattening
