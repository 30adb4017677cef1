import HeaderFlattening.Proofs.Functions
import HeaderFlattening.Proofs.Types

/-!
What lines yield. `Brings` says of two states what one has more than the other: text written, text put
off, and names. `Advances` says of lines that they lead from a mode to a mode and what they bring on
the way; lines one after the other add up.
-/

set_option autoImplicit false
namespace HeaderFlattening

/-- What lines bring: the text written at once, the text put off until the class is closed, and the
names for the report, in the order in which they are found. -/
structure Yield where
  written : Text := []
  deferred : Text := []
  members : List Text := []
  values : List Text := []
  functions : List FunctionRecord := []
  lines : Nat := 0
  deriving DecidableEq, Repr

instance : Append Yield where
  append a b :=
    { written := a.written ++ b.written
      deferred := a.deferred ++ b.deferred
      members := a.members ++ b.members
      values := a.values ++ b.values
      functions := a.functions ++ b.functions
      lines := a.lines + b.lines }

theorem Yield.append_eq (a b : Yield) :
    a ++ b =
      { written := a.written ++ b.written
        deferred := a.deferred ++ b.deferred
        members := a.members ++ b.members
        values := a.values ++ b.values
        functions := a.functions ++ b.functions
        lines := a.lines + b.lines } := rfl

theorem Yield.append_assoc (a b c : Yield) : a ++ b ++ c = a ++ (b ++ c) := by
  simp only [append_eq, List.append_assoc, Nat.add_assoc]

theorem Yield.append_empty (a : Yield) : a ++ {} = a := by
  simp only [append_eq, List.append_nil, Nat.add_zero]

def NameList.insertAll (l : NameList) (names : List Text) : NameList := names.foldl insert l

/-- The text of what is put off, in the order in which it would be written. -/
def State.pendingText (s : State) : Text := (s.pendingEnums ++ s.pendingMembers).flatMap Chunk.text

/-- All that `Brings` compares. -/
def State.account (s : State) :=
  (s.sink, s.pendingText, s.memberNames, s.enumValues, s.functions, s.lineNumber, s.classes,
    s.diagnostics)

/-- What `t` has more than `s`. -/
structure Brings (z : Yield) (s t : State) : Prop where
  room : t.sink.room = s.sink.room
  written : t.sink.text = s.sink.text ++ z.written
  deferred : t.pendingText = s.pendingText ++ z.deferred
  members : t.memberNames = s.memberNames.insertAll z.members
  values : t.enumValues = s.enumValues.insertAll z.values
  functions : t.functions = s.functions ++ z.functions
  lines : t.lineNumber = s.lineNumber + z.lines
  classes : t.classes = s.classes
  diagnostics : t.diagnostics = s.diagnostics

/-- The next enum takes along all that was put off, and an open one has done so. -/
structure State.Ordered (s : State) : Prop where
  comments : ∀ c ∈ s.pendingMembers, c.text.isBlankOrComment = true
  enum : s.mode.enumBody.isSome = true → s.pendingMembers = []

/-- The conversion is in this mode and has got this from all lines so far. -/
structure Progress (m : Mode) (y : Yield) (s : State) : Prop where
  mode : s.mode = m
  total : Brings y {} s
  ordered : s.Ordered

namespace State.Ordered

variable {s t : State}

theorem congr (o : s.Ordered) (members : t.pendingMembers = s.pendingMembers)
    (mode : t.mode = s.mode) : t.Ordered := by
  refine ⟨?_, ?_⟩
  · rw [members]
    exact o.comments
  · rw [members, mode]
    exact o.enum

theorem put (o : s.Ordered) {c : Chunk}
    (comment : s.mode.enumBody.isSome = false → c.text.isBlankOrComment = true) :
    (s.put c).Ordered := by
  cases opened : s.mode.classState.isOpen with
  | false =>
    rw [s.put_closed c opened]
    exact ⟨o.comments, o.enum⟩
  | true =>
    cases enum : s.mode.enumBody.isSome with
    | true =>
      rw [s.put_open_enum c opened enum]
      exact ⟨o.comments, o.enum⟩
    | false =>
      rw [s.put_open_member c opened enum]
      refine ⟨?_, fun some => absurd (enum.symm.trans some) Bool.false_ne_true⟩
      intro d mem
      rcases List.mem_append.1 mem with old | new
      · exact o.comments d old
      · rw [List.mem_singleton.1 new]
        exact comment enum

theorem putAll (o : s.Ordered) {cs : List Chunk}
    (comments : s.mode.enumBody.isSome = false → ∀ c ∈ cs, c.text.isBlankOrComment = true) :
    (s.putAll cs).Ordered := by
  induction cs generalizing s with
  | nil => exact o
  | cons c cs ih =>
    have next := o.put fun enum => comments enum c List.mem_cons_self
    refine ih next ?_
    rw [s.mode_put c]
    exact fun enum d mem => comments enum d (List.mem_cons_of_mem c mem)

theorem arrive (o : s.Ordered) (config : Config) (raw : Text) (x : Seen) :
    (s.arrive config raw x).Ordered := o.congr rfl rfl

end State.Ordered

namespace Brings

variable {y z : Yield} {s t u : State}

theorem trans (h : Brings y s t) (k : Brings z t u) : Brings (y ++ z) s u where
  room := k.room.trans h.room
  written := by
    rw [k.written, h.written, List.append_assoc]
    rfl
  deferred := by
    rw [k.deferred, h.deferred, List.append_assoc]
    rfl
  members := by
    rw [k.members, h.members]
    exact (List.foldl_append ..).symm
  values := by
    rw [k.values, h.values]
    exact (List.foldl_append ..).symm
  functions := by
    rw [k.functions, h.functions, List.append_assoc]
    rfl
  lines := by
    rw [k.lines, h.lines, Nat.add_assoc]
    rfl
  classes := k.classes.trans h.classes
  diagnostics := k.diagnostics.trans h.diagnostics

theorem unbounded (h : Brings y {} s) : s.sink.room = none := h.room

theorem of_account (h : t.account = s.account) : Brings {} s t := by
  simp only [State.account, Prod.mk.injEq] at h
  obtain ⟨sink, deferred, members, values, functions, lines, classes, diagnostics⟩ := h
  exact ⟨congrArg Sink.room sink, (congrArg Sink.text sink).trans (List.append_nil _).symm,
    deferred.trans (List.append_nil _).symm, members, values,
    functions.trans (List.append_nil _).symm, lines, classes, diagnostics⟩

theorem refl (s : State) : Brings {} s s := .of_account rfl

theorem arrive (s : State) (config : Config) (raw : Text) {x : Seen} (plain : x.edit? = none) :
    Brings { lines := 1 } s (s.arrive config raw x) := by
  unfold State.arrive
  simp only [plain]
  exact ⟨rfl, (List.append_nil _).symm, (List.append_nil _).symm, rfl, rfl, (List.append_nil _).symm,
    rfl, rfl, rfl⟩

theorem putAll (cs : List Chunk) (opened : s.mode.classState.isOpen = true) (ordered : s.Ordered) :
    Brings { deferred := cs.flatMap Chunk.text } s (s.putAll cs) := by
  have deferred : (s.putAll cs).pendingText = s.pendingText ++ cs.flatMap Chunk.text := by
    unfold State.pendingText
    rw [← List.flatMap_append]
    cases enum : s.mode.enumBody.isSome with
    | true =>
      rw [State.putAll_open_enum cs opened enum, ordered.enum enum, List.append_nil, List.append_nil]
    | false => rw [State.putAll_open_member cs opened enum, List.append_assoc]
  have others : (s.putAll cs).sink = s.sink ∧ (s.putAll cs).memberNames = s.memberNames ∧
      (s.putAll cs).enumValues = s.enumValues ∧ (s.putAll cs).functions = s.functions ∧
      (s.putAll cs).lineNumber = s.lineNumber ∧ (s.putAll cs).classes = s.classes ∧
      (s.putAll cs).diagnostics = s.diagnostics := by
    cases enum : s.mode.enumBody.isSome with
    | true =>
      rw [State.putAll_open_enum cs opened enum]
      exact ⟨rfl, rfl, rfl, rfl, rfl, rfl, rfl⟩
    | false =>
      rw [State.putAll_open_member cs opened enum]
      exact ⟨rfl, rfl, rfl, rfl, rfl, rfl, rfl⟩
  obtain ⟨sink, members, values, functions, lines, classes, diagnostics⟩ := others
  exact ⟨congrArg Sink.room sink, (congrArg Sink.text sink).trans (List.append_nil _).symm, deferred,
    members, values, functions.trans (List.append_nil _).symm, lines, classes, diagnostics⟩

theorem put (c : Chunk) (opened : s.mode.classState.isOpen = true) (ordered : s.Ordered) :
    Brings { deferred := c.text } s (s.put c) := by
  have one := putAll [c] opened ordered
  rw [List.flatMap_singleton] at one
  exact one

theorem text_offer (k : Sink) (c : Chunk) : (k.offer c).text = k.text ++ c.text := by
  unfold Sink.offer Sink.text
  rw [List.flatMap_append, List.flatMap_singleton]

theorem putDirect (s : State) (c : Chunk) : Brings { written := c.text } s (s.putDirect c) :=
  ⟨rfl, text_offer s.sink c, (List.append_nil _).symm, rfl, rfl, (List.append_nil _).symm, rfl, rfl,
    rfl⟩

theorem followBody (s : State) (depth : Int) : Brings {} s (s.followBody depth) := .of_account rfl

theorem followOutside {functions : List FunctionRecord}
    (h : (Scan.line s.line .outside s.cursor).functions = functions) :
    Brings { functions } s s.followOutside :=
  ⟨rfl, (List.append_nil _).symm, (List.append_nil _).symm, rfl, rfl, congrArg (s.functions ++ ·) h,
    rfl, rfl, rfl⟩

theorem addMember (s : State) (name : Text) : Brings { members := [name] } s (s.addMember name) := by
  have members : (s.addMember name).memberNames = s.memberNames.insertAll [name] := by
    unfold State.addMember
    show _ = NameList.insert s.memberNames name
    unfold NameList.insert
    split_ifs <;> rfl
  unfold State.addMember at members ⊢
  split_ifs at members ⊢
  all_goals exact ⟨rfl, (List.append_nil _).symm, (List.append_nil _).symm, members, rfl,
    (List.append_nil _).symm, rfl, rfl, rfl⟩

end Brings

namespace Conversion

variable {config : Config} {m m' m'' : Mode} {y z : Yield}

/-- All lines are converted, one after the other. -/
inductive Runs (config : Config) : List Text → State → State → Prop
  | nil (s : State) : Runs config [] s s
  | cons {raw : Text} {rest : List Text} {s t u : State}
      (line : (processLine config raw).run s = .ok () t) (others : Runs config rest t u) :
      Runs config (raw :: rest) s u

theorem Runs.append {xs ys : List Text} {s t u : State} (h : Runs config xs s t)
    (k : Runs config ys t u) : Runs config (xs ++ ys) s u := by
  induction h with
  | nil => exact k
  | cons line _ ih => exact .cons line (ih k)

theorem Runs.processAll {xs : List Text} {s t : State} (h : Runs config xs s t) :
    (Conversion.processAll config (xs.map .ok)).run s = finish.run t := by
  induction h with
  | nil => rfl
  | cons line _ ih =>
    rw [List.map_cons, Conversion.processAll, EStateM.run_bind, line]
    exact ih

/-- The lines lead from one mode to another and bring this. -/
def Advances (config : Config) (lines : List Text) (m m' : Mode) (z : Yield) : Prop :=
  ∀ y s, Progress m y s → ∃ t, Runs config lines s t ∧ Progress m' (y ++ z) t

theorem Advances.append {xs ys : List Text} (h : Advances config xs m m' y)
    (k : Advances config ys m' m'' z) : Advances config (xs ++ ys) m m'' (y ++ z) := by
  intro x s p
  obtain ⟨t, run, q⟩ := h x s p
  obtain ⟨u, rest, r⟩ := k _ t q
  rw [Yield.append_assoc] at r
  exact ⟨u, run.append rest, r⟩

theorem advances_nil : Advances config [] m m {} := by
  intro y s p
  rw [← Yield.append_empty y] at p
  exact ⟨s, .nil s, p⟩

/-- One line, by the state that it leaves. -/
theorem advances_line {raw : Text}
    (h : ∀ s, s.mode = m → s.sink.room = none → s.Ordered → ∃ t,
      Leaves (processLine config raw) s () t ∧ t.mode = m' ∧ Brings z s t ∧ t.Ordered) :
    Advances config [raw] m m' z := by
  intro y s p
  obtain ⟨t, leaves, mode, brings, ordered⟩ := h s p.mode p.total.unbounded p.ordered
  have room : t.sink.room = none := brings.room.trans p.total.unbounded
  exact ⟨t, .cons (leaves.run_eq room) (.nil t), mode, p.total.trans brings, ordered⟩

end Conversion
end HeaderFlattening
