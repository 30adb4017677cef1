import HeaderFlattening.Proofs.Emission

/-!
How enums, structs and classes change the state. Each lemma gives the state that the part of a stage
reaches, provided that the sink keeps what it is offered.
-/

set_option autoImplicit false
namespace HeaderFlattening

/-- `typedef enum` and `typedef struct` without a semicolon. -/
def Line.opensFlat (keyword : Text) (l : Line) : Bool :=
  l.words[0]? = some "typedef".toList && l.words[1]? = some keyword && !l.words.contains [';']

/-- The body that such a line opens. -/
def Line.flatBody (l : Line) : TypeBody := ⟨(l.words[2]?.filter (· ≠ ['{'])).getD [], true⟩

/-- What is emitted for the closing line of a body. -/
def closerChunk (body : TypeBody) (l : Line) : Chunk :=
  if body.flat then ⟨.copied, l.text⟩ else ⟨.made, closerText body.name⟩

theorem Line.opensFlat_iff {keyword : Text} {l : Line} : l.opensFlat keyword = true ↔
    l.words[0]? = some "typedef".toList ∧ l.words[1]? = some keyword ∧
      l.words.contains [';'] = false := by
  unfold opensFlat
  rw [Bool.and_eq_true, Bool.and_eq_true, decide_eq_true_eq, decide_eq_true_eq, Bool.not_eq_true',
    and_assoc]

theorem Line.typedef_of_opensFlat {keyword : Text} {l : Line} (h : l.opensFlat keyword = true) :
    ¬(decide (l.words[0]? ≠ some "typedef".toList) || l.words.contains [';']) = true := by
  obtain ⟨typedef, -, noEnd⟩ := opensFlat_iff.1 h
  rw [noEnd, Bool.or_false, decide_eq_true_eq]
  exact fun ne => ne typedef

namespace State

/-- An enum opened, with the comments in front of it moved to the enums of an open class. -/
def enterEnum (s : State) (body : TypeBody) : State :=
  if s.mode.classState.isOpen then
    { s.gather with mode := { s.mode with enumBody := some body } }
  else { s with mode := { s.mode with enumBody := some body } }

theorem enterEnum_open {s : State} (body : TypeBody) (h : s.mode.classState.isOpen = true) :
    s.enterEnum body = { s.gather with mode := { s.mode with enumBody := some body } } := if_pos h

theorem enterEnum_closed {s : State} (body : TypeBody) (h : ¬s.mode.classState.isOpen = true) :
    s.enterEnum body = { s with mode := { s.mode with enumBody := some body } } := if_neg h

theorem emitted_enterEnum (s : State) (body : TypeBody) :
    (s.enterEnum body).emitted = s.emitted := by
  unfold enterEnum
  split_ifs <;> rfl

theorem mode_enterEnum (s : State) (body : TypeBody) :
    (s.enterEnum body).mode = { s.mode with enumBody := some body } := by
  unfold enterEnum
  split_ifs <;> rfl

/-- No enum open. -/
def leaveEnum (s : State) : State := { s with mode := { s.mode with enumBody := none } }

/-- No struct open. -/
def leaveStruct (s : State) : State := { s with mode := { s.mode with structBody := none } }

/-- A struct opened. -/
def enterStruct (s : State) (body : TypeBody) : State :=
  { s with mode := { s.mode with structBody := some body } }

/-- A class entered, without members yet. -/
def enterClass (s : State) (classState : ClassState) : State :=
  { s with
    mode := { s.mode with classState }
    memberNames := {}
    trace := s.trace ++ [.classEntered (classState.name?.getD [])] }

/-- The class closed, with all that was put off behind its closer. -/
def exitClass (s : State) (name : Text) : State :=
  { s with
    mode := { s.mode with classState := .none }
    pendingEnums := []
    pendingMembers := []
    memberNames := {}
    classes := s.classes ++ [⟨name, s.memberNames.toList⟩]
    trace := s.trace ++ [.classClosed name s.memberNames]
    emitted := s.emitted ++ [⟨.made, "\x7d ".toList ++ name ++ ";\n".toList⟩]
    sink := { s.sink with
      offered := s.sink.offered ++
        ⟨.made, "\x7d ".toList ++ name ++ ";\n".toList⟩ :: (s.pendingEnums ++ s.pendingMembers) } }

/-- The brace of a class seen. -/
def openBrace (s : State) (name : Text) : State :=
  { s with mode := { s.mode with classState := .opened name } }

/-- A data member recorded that was not seen before. -/
def addMember (s : State) (name : Text) : State :=
  if s.memberNames.has name then s
  else
    { s with memberNames := s.memberNames.insert name, trace := s.trace ++ [.memberAdded name] }

/-- An enum value recorded that was not seen before. -/
def addValue (s : State) (name : Text) : State :=
  if s.enumValues.has name then s
  else
    { s with
      enumValues := s.enumValues.insert name
      trace := s.trace ++ [.enumValueAdded name] }

def addValues (s : State) (names : List Text) : State := names.foldl addValue s

theorem mode_addValue (s : State) (name : Text) : (s.addValue name).mode = s.mode := by
  unfold addValue
  split_ifs <;> rfl

theorem sink_addValue (s : State) (name : Text) : (s.addValue name).sink = s.sink := by
  unfold addValue
  split_ifs <;> rfl

theorem sink_addValues (s : State) (names : List Text) : (s.addValues names).sink = s.sink := by
  induction names generalizing s with
  | nil => rfl
  | cons name names ih => exact (ih (s.addValue name)).trans (s.sink_addValue name)

theorem pending_addValues (s : State) (names : List Text) :
    (s.addValues names).pendingEnums = s.pendingEnums ∧
      (s.addValues names).pendingMembers = s.pendingMembers := by
  induction names generalizing s with
  | nil => exact ⟨rfl, rfl⟩
  | cons name names ih =>
    obtain ⟨enums, members⟩ := ih (s.addValue name)
    have one : (s.addValue name).pendingEnums = s.pendingEnums ∧
        (s.addValue name).pendingMembers = s.pendingMembers := by
      unfold addValue
      split_ifs <;> simp
    exact ⟨enums.trans one.1, members.trans one.2⟩

theorem mode_addValues (s : State) (names : List Text) : (s.addValues names).mode = s.mode := by
  induction names generalizing s with
  | nil => rfl
  | cons name names ih => exact (ih (s.addValue name)).trans (s.mode_addValue name)

end State

namespace Conversion

variable {s : State}

/-- The text for the first line of an enum or struct, and for a brace on that line. -/
def openerChunks (keyword : Text) (d : TypeDeclaration) : List Chunk :=
  ⟨.made, openerText keyword d.name⟩ :: if d.brace = .sameLine then [⟨.made, "\x7b\n".toList⟩] else []

theorem text_openerChunks (keyword : Text) (d : TypeDeclaration) :
    (openerChunks keyword d).flatMap Chunk.text =
      openerText keyword d.name ++ if d.brace = .sameLine then "\x7b\n".toList else [] := by
  unfold openerChunks
  rw [List.flatMap_cons]
  split_ifs
  · rw [List.flatMap_singleton]
  · rfl

theorem reaches_emitOpener (keyword : Text) (d : TypeDeclaration) (s : State) :
    Reaches (emitOpener keyword d) s () (s.putAll (openerChunks keyword d)) := by
  refine (reaches_emit _ _ s).bind ?_
  unfold openerChunks
  split_ifs
  · exact reaches_emit _ _ _
  · exact .of_run rfl rfl

theorem reaches_openEnumBody (d : TypeDeclaration) (s : State) :
    Reaches (openEnumBody d) s ()
      ((s.enterEnum ⟨d.name, false⟩).putAll (openerChunks "enum".toList d)) := by
  unfold openEnumBody
  simp only [reaches_modifyMode, reaches_get]
  by_cases opened : s.mode.classState.isOpen = true
  · rw [if_pos opened, s.enterEnum_open _ opened]
    exact (reaches_takeEnumComments _).bind (reaches_emitOpener _ d _)
  · rw [if_neg opened, s.enterEnum_closed _ opened]
    exact reaches_emitOpener _ d _

theorem run_addEnumValue (name : Text) (s : State) :
    (addEnumValue name).run s = .ok () (s.addValue name) := by
  simp only [addEnumValue, EStateM.run_bind, EStateM.run_get, State.addValue]
  cases s.enumValues.has name <;> rfl

theorem run_addEnumValues (names : List Text) (s : State) :
    (names.forM addEnumValue).run s = .ok () (s.addValues names) := by
  induction names generalizing s with
  | nil => rfl
  | cons name names ih =>
    show EStateM.run (addEnumValue name >>= fun _ => names.forM addEnumValue) s = _
    rw [EStateM.run_bind, run_addEnumValue]
    exact ih (s.addValue name)

theorem reaches_addEnumValues (names : List Text) (s : State) :
    Reaches (names.forM addEnumValue) s () (s.addValues names) :=
  .of_run (run_addEnumValues names s) (by rw [s.sink_addValues])

/-- The state behind an enum on one line. -/
def enumLineState (name : Text) (e : EnumLine) (s : State) : State :=
  (((s.addValues (e.values s.mode.classState.name?)).enterEnum ⟨name, true⟩).put
    ⟨.made, e.text s.mode.classState.name? name⟩).leaveEnum

theorem run_leaveEnum (s : State) :
    (modifyMode ({ · with enumBody := none })).run s = .ok () s.leaveEnum := rfl

theorem reaches_emitEnumLine (name : Text) (e : EnumLine) (s : State) :
    Reaches (emitEnumLine name e) s () (enumLineState name e s) := by
  unfold emitEnumLine enumLineState
  simp only [reaches_get]
  refine (reaches_addEnumValues _ s).bind ?_
  rw [reaches_get]
  generalize s.addValues (e.values s.mode.classState.name?) = u
  generalize e.text s.mode.classState.name? name = text
  have leave (v : State) := Reaches.of_run (run_leaveEnum v) rfl
  by_cases opened : u.mode.classState.isOpen = true
  · rw [if_pos opened, u.enterEnum_open _ opened]
    refine (reaches_takeEnumComments u).bind ?_
    rw [reaches_modifyMode]
    exact (reaches_emit .made text _).bind (leave _)
  · rw [if_neg opened, u.enterEnum_closed _ opened, reaches_modifyMode]
    exact (reaches_emit .made text _).bind (leave _)

theorem reaches_openStruct {d : TypeDeclaration}
    (h : TypeDeclaration.ofWords? "struct".toList s.line.words = some d) (body : d.brace ≠ .forward) :
    Reaches openStruct s true
      ((s.putAll (openerChunks "struct".toList d)).enterStruct ⟨d.name, false⟩) := by
  unfold openStruct
  rw [reaches_get, h]
  simp only [body, if_false]
  exact (reaches_emitOpener _ d s).then_run rfl rfl

theorem reaches_closeClass (name : Text) (s : State) :
    Reaches (closeClass name) s () (s.exitClass name) := by
  unfold closeClass
  rw [reaches_modifyMode]
  refine (reaches_emitDirect _ _ _).bind ?_
  refine (reaches_flushPending _).bind ?_
  refine .of_run ?_ rfl
  simp only [note, State.exitClass, State.putDirect, State.flushed, Sink.offer, EStateM.run_bind,
    EStateM.run_get, EStateM.run_modify, List.append_assoc, List.singleton_append]

theorem isEmpty_eq_false_of_words {l : Line} {w : Text} {ws : List Text} (h : l.words = w :: ws) :
    l.isEmpty = false := by
  unfold Line.words at h
  cases tokens : l.tokens with
  | nil => simp [tokens] at h
  | cons t ts => simp [Line.isEmpty, tokens]

theorem run_liftMember_none (h : s.line.text.declaredName? = none) :
    liftMember.run s = .ok false s := by
  simp only [liftMember, EStateM.run_bind, EStateM.run_get, h]
  rfl

theorem reaches_liftMember {name : Text} (h : s.line.text.declaredName? = some name) :
    Reaches liftMember s true ((s.addMember name).putDirect ⟨.member, s.indent ++ s.line.text⟩) := by
  have lift (t : State) : Reaches (emitDirect .member (s.indent ++ s.line.text) >>= fun _ => pure true)
      t true (t.putDirect ⟨.member, s.indent ++ s.line.text⟩) :=
    (reaches_emitDirect .member _ t).then_run rfl rfl
  unfold liftMember State.addMember
  rw [reaches_get, h]
  simp only []
  cases s.memberNames.has name with
  | true => exact lift s
  | false => exact lift _

theorem reaches_openEnumBody_line {d : TypeDeclaration}
    (h : TypeDeclaration.ofWords? "enum".toList s.line.words = some d) (body : d.brace ≠ .forward)
    (open' : d.brace = .sameLine → EnumLine.ofTokens? s.line.tokens = none) :
    Reaches openEnum s true
      ((s.enterEnum ⟨d.name, false⟩).putAll (openerChunks "enum".toList d)) := by
  have enter : Reaches (openEnumBody d >>= fun _ => pure true) s true _ :=
    (reaches_openEnumBody d s).then_run rfl rfl
  unfold openEnum
  rw [reaches_get]
  simp only [h]
  cases brace : d.brace with
  | forward => exact absurd brace body
  | deferred => exact enter
  | sameLine =>
    simp only [open' brace]
    exact enter

theorem reaches_openEnum_line {d : TypeDeclaration} {e : EnumLine}
    (h : TypeDeclaration.ofWords? "enum".toList s.line.words = some d) (brace : d.brace = .sameLine)
    (line : EnumLine.ofTokens? s.line.tokens = some e) :
    Reaches openEnum s true (enumLineState d.name e s) := by
  unfold openEnum
  rw [reaches_get]
  simp only [h, brace, line]
  exact (reaches_emitEnumLine d.name e s).then_run rfl rfl

theorem reaches_openFlatType_enum (h : s.line.opensFlat "enum".toList = true) :
    Reaches openFlatType s true
      ((s.enterEnum s.line.flatBody).put ⟨.copied, s.line.text⟩) := by
  obtain ⟨-, enum, -⟩ := Line.opensFlat_iff.1 h
  have line (u : State) (same : u.line = s.line) :
      Reaches (emitLine >>= fun _ => pure true) u true (u.put ⟨.copied, s.line.text⟩) := by
    rw [← same]
    exact (reaches_emitLine u).then_run rfl rfl
  unfold openFlatType
  rw [reaches_get]
  simp only []
  rw [if_neg (Line.typedef_of_opensFlat h), if_pos enum, reaches_modifyMode, reaches_get]
  by_cases opened : s.mode.classState.isOpen = true
  · rw [if_pos opened, s.enterEnum_open _ opened]
    exact (reaches_takeEnumComments _).bind (line _ rfl)
  · rw [if_neg opened, s.enterEnum_closed _ opened]
    exact line _ rfl

theorem reaches_openFlatType_struct (h : s.line.opensFlat "struct".toList = true) :
    Reaches openFlatType s true
      ((s.enterStruct s.line.flatBody).put ⟨.copied, s.line.text⟩) := by
  obtain ⟨-, struct, -⟩ := Line.opensFlat_iff.1 h
  have notEnum : ¬s.line.words[1]? = some "enum".toList := by
    rw [struct]
    decide
  unfold openFlatType
  rw [reaches_get]
  simp only []
  rw [if_neg (Line.typedef_of_opensFlat h), if_neg notEnum, if_pos struct, reaches_modifyMode]
  exact (reaches_emitLine (s.enterStruct s.line.flatBody)).then_run rfl rfl

theorem reaches_emitCloser_chunk (body : TypeBody) (s : State) :
    Reaches (emitCloser body) s () (s.put (closerChunk body s.line)) := by
  unfold emitCloser closerChunk
  split_ifs
  · exact reaches_emitLine s
  · exact reaches_emit _ _ s

/-- An open enum is the first to be closed. -/
theorem reaches_closeType_enum {body : TypeBody} (closer : s.line.isTypeCloser = true)
    (enum : s.mode.enumBody = some body) :
    Reaches closeType s true (s.put (closerChunk body s.line)).leaveEnum := by
  unfold closeType
  rw [reaches_get]
  simp only [closer, enum, Bool.not_true, Bool.false_eq_true, if_false]
  exact (reaches_emitCloser_chunk body s).then_run rfl rfl

/-- Without an open enum an open struct is closed. -/
theorem reaches_closeType_struct {body : TypeBody} (closer : s.line.isTypeCloser = true)
    (noEnum : s.mode.enumBody = none) (struct : s.mode.structBody = some body) :
    Reaches closeType s true (s.leaveStruct.put (closerChunk body s.line)) := by
  unfold closeType
  rw [reaches_get]
  simp only [closer, noEnum, struct, Bool.not_true, Bool.false_eq_true, if_false]
  exact (reaches_emitCloser_chunk body s.leaveStruct).then_run rfl rfl

/-- Without an open enum or struct the class is closed, be its brace seen or not. -/
theorem reaches_closeType_class {name : Text} (closer : s.line.isTypeCloser = true)
    (noEnum : s.mode.enumBody = none) (noStruct : s.mode.structBody = none)
    (named : s.mode.classState.name? = some name) : Reaches closeType s true (s.exitClass name) := by
  unfold closeType
  rw [reaches_get]
  simp only [closer, noEnum, noStruct, named, Bool.not_true, Bool.false_eq_true, if_false]
  exact (reaches_closeClass name s).then_run rfl rfl

end Conversion
end HeaderFlattening
