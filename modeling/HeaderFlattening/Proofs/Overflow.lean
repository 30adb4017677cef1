import HeaderFlattening.Proofs.ClassBody
import HeaderFlattening.Proofs.Lockstep

/-!
Lines with too many tokens. They show at three points: when the line is first cut, when a macro edit
has changed it, and when the name of the class was put before an enum value. The stages before these
points leave no trace, and so the line leaves none, unless it is copied as a whole.
-/

set_option autoImplicit false
namespace HeaderFlattening

/-- All that is known of the input is as it was. -/
structure SameKnowledge (s t : State) : Prop where
  mode : t.mode = s.mode
  cursor : t.cursor = s.cursor
  enumValues : t.enumValues = s.enumValues
  memberNames : t.memberNames = s.memberNames
  functions : t.functions = s.functions
  classes : t.classes = s.classes

/-- The text emitted is the same, and so is where it is. -/
structure SameOutput (s t : State) : Prop where
  emitted : t.emitted = s.emitted
  pendingEnums : t.pendingEnums = s.pendingEnums
  pendingMembers : t.pendingMembers = s.pendingMembers
  sink : t.sink = s.sink

/-- Nothing has changed but the line at hand, and no warning was given. -/
structure Untouched (s t : State) : Prop extends SameKnowledge s t, SameOutput s t where
  lineNumber : t.lineNumber = s.lineNumber
  diagnostics : ∃ notes, t.diagnostics = s.diagnostics ++ notes ∧ ∀ d ∈ notes, d.severity = .info

variable {s t u : State}

theorem untouched_of_line {s t : State} {line : Line} {indent : Text} {trace : List Event}
    (h : t = { s with line, indent, trace }) : Untouched s t := by
  subst h
  exact ⟨⟨rfl, rfl, rfl, rfl, rfl, rfl⟩, ⟨rfl, rfl, rfl, rfl⟩, rfl, [], (List.append_nil _).symm,
    by simp⟩

theorem SameKnowledge.trans (h : SameKnowledge s t) (k : SameKnowledge t u) : SameKnowledge s u where
  mode := k.mode.trans h.mode
  cursor := k.cursor.trans h.cursor
  enumValues := k.enumValues.trans h.enumValues
  memberNames := k.memberNames.trans h.memberNames
  functions := k.functions.trans h.functions
  classes := k.classes.trans h.classes

theorem SameOutput.trans (h : SameOutput s t) (k : SameOutput t u) : SameOutput s u where
  emitted := k.emitted.trans h.emitted
  pendingEnums := k.pendingEnums.trans h.pendingEnums
  pendingMembers := k.pendingMembers.trans h.pendingMembers
  sink := k.sink.trans h.sink

theorem Untouched.trans (h : Untouched s t) (k : Untouched t u) : Untouched s u := by
  obtain ⟨first, before, infos⟩ := h.diagnostics
  obtain ⟨rest, after, others⟩ := k.diagnostics
  refine ⟨h.toSameKnowledge.trans k.toSameKnowledge, h.toSameOutput.trans k.toSameOutput,
    k.lineNumber.trans h.lineNumber, first ++ rest, ?_, ?_⟩
  · rw [after, before, List.append_assoc]
  · intro d mem
    rcases List.mem_append.1 mem with early | late
    · exact infos d early
    · exact others d late

theorem sameKnowledge_put (s : State) (c : Chunk) : SameKnowledge s (s.put c) := by
  unfold State.put
  split_ifs <;> exact ⟨rfl, rfl, rfl, rfl, rfl, rfl⟩

theorem sameOutput_put (c : Chunk) (mode : t.mode = s.mode) (h : SameOutput s t) :
    SameOutput (s.put c) (t.put c) := by
  have emitted := congrArg (· ++ [c]) h.emitted
  unfold State.put
  rw [mode]
  split_ifs
  · exact ⟨emitted, congrArg (· ++ [c]) h.pendingEnums, h.pendingMembers, h.sink⟩
  · exact ⟨emitted, h.pendingEnums, congrArg (· ++ [c]) h.pendingMembers, h.sink⟩
  · exact ⟨emitted, h.pendingEnums, h.pendingMembers, congrArg (Sink.offer · c) h.sink⟩

theorem diagnostics_put (s : State) (c : Chunk) : (s.put c).diagnostics = s.diagnostics := by
  unfold State.put
  split_ifs <;> rfl

/-- The sink takes the text, or the text is put off. -/
def State.Accepts (s : State) (c : Chunk) : Prop :=
  s.mode.classState.isOpen = true ∨ c.text = [] ∨ (s.sink.offer c).hasAll = true

namespace Conversion

variable {config : Config} {raw : Text} {x : Conversion Bool}

/-- If the stage leaves the line to the next one, it has left the state as it was. -/
def Idle (x : Conversion Bool) (s : State) : Prop := ∀ t, x.run s = .ok false t → Untouched s t

theorem idle_of_passesOn (h : PassesOn x s) : Idle x s := fun t run => by
  rw [h t run]
  exact untouched_of_line rfl

theorem idle_of_claims (h : Claims x s) : Idle x s := idle_of_passesOn (passesOn_of_claims h)

theorem idle_of_run (h : x.run s = .ok false t) (k : Untouched s t) : Idle x s := by
  intro u run
  rw [h] at run
  cases run
  exact k

theorem idle_false (s : State) : Idle (pure false) s := idle_of_run rfl (untouched_of_line rfl)

theorem idle_get {f : State → Conversion Bool} (h : Idle (f s) s) : Idle (get >>= f) s := h

theorem idle_passComments (s : State) : Idle passComments s := by
  have inside (s : State) (h : s.mode.inComment = true) : Claims (do
      let s ← get
      if s.mode.inComment then
        if (s.line.lastWord?.getD []).reverse.take 2 = ['/', '*'] then
          modifyMode ({ · with inComment := false })
        emitLine
        return true
      return false) s := by
    intro t run
    rw [EStateM.run_bind, EStateM.run_get] at run
    simp only [if_pos h] at run
    revert run
    split_ifs
    · exact claims_bind (fun _ => claims_last emitLine) s t
    · exact claims_last emitLine s t
  unfold passComments
  apply idle_get
  by_cases slashes : "//".toList.isPrefixOf ((s.line.word? 0).getD []) = true
  · simp only [if_pos slashes]
    exact idle_of_claims (claims_last emitLine s)
  simp only [if_neg slashes]
  by_cases star : "/*".toList.isPrefixOf ((s.line.word? 0).getD []) = true
  · rw [if_pos star]
    exact idle_of_claims (inside { s with mode := { s.mode with inComment := true } } rfl)
  rw [if_neg star]
  by_cases comment : s.mode.inComment = true
  · exact idle_of_claims (inside s comment)
  · apply idle_get
    rw [if_neg comment]
    exact idle_false s

theorem idle_editMacro (config : Config) (s : State) : Idle (editMacro config) s := by
  cases edited : s.line.edit? config with
  | none => exact idle_of_run (run_editMacro_unedited edited) (untouched_of_line rfl)
  | some change =>
    obtain ⟨edit, text⟩ := change
    cases cut : (Line.ofText text).retokenize config.rules.maxTokens with
    | ok line =>
      refine idle_of_run (run_editMacro_edited edited cut) ?_
      exact ⟨⟨rfl, rfl, rfl, rfl, rfl, rfl⟩, ⟨rfl, rfl, rfl, rfl⟩, rfl, _, rfl, by simp⟩
    | error e =>
      intro t run
      rw [run_editMacro_overflow edited cut] at run
      cases run

theorem idle_firstClaim {stages : List (Conversion Bool)} {P : State → Prop}
    (kept : ∀ {s t}, P s → Untouched s t → P t) (h : ∀ stage ∈ stages, ∀ s, P s → Idle stage s)
    (start : P s) : Idle (firstClaim stages) s := by
  induction stages generalizing s with
  | nil => exact idle_false s
  | cons stage stages ih =>
    intro t run
    obtain ⟨u, first, others⟩ := exists_of_run_firstClaim run
    have step := h stage List.mem_cons_self s start u first
    have rest := ih (fun stage mem => h stage (List.mem_cons_of_mem _ mem)) (kept start step)
    exact step.trans (rest t others)

theorem idle_trackTypes (s : State) : Idle trackTypes s := idle_of_passesOn (passesOn_trackTypes s)

theorem idle_trackFunctions (config : Config) (inside : s.mode.enumBody.isSome = true) :
    Idle (trackFunctions config) s :=
  idle_of_run (run_trackFunctions_inEnum inside) (untouched_of_line rfl)

theorem idle_defineConstants (s : State) : Idle defineConstants s := by
  unfold defineConstants
  apply idle_get
  split
  · exact idle_of_claims (claims_last _ s)
  · exact idle_false s

/-- The stages that a line goes through before its first word is taken for an enum value. -/
def earlyStages (config : Config) : List (Conversion Bool) :=
  [passComments, editMacro config, trackTypes, trackFunctions config, defineConstants]

/-- In the body of an enum these stages leave no trace. -/
theorem idle_earlyStages (config : Config) (inside : s.mode.enumBody.isSome = true) :
    Idle (firstClaim (earlyStages config)) s := by
  refine idle_firstClaim (P := fun s => s.mode.enumBody.isSome = true) ?_ ?_ inside
  · intro s t inside same
    rw [same.mode]
    exact inside
  · intro stage mem s inside
    simp only [earlyStages, List.mem_cons, List.not_mem_nil, or_false] at mem
    rcases mem with rfl | rfl | rfl | rfl | rfl
    · exact idle_passComments s
    · exact idle_editMacro config s
    · exact idle_trackTypes s
    · exact idle_trackFunctions config inside
    · exact idle_defineConstants s

/-- The text has more tokens than the settings allow. -/
def Crowded (config : Config) (text : Text) : Prop :=
  config.rules.maxTokens < (Line.cut text).tokens.length

/-- The line has too many tokens as it stands, or after an edit, or with the name of a class before
the enum value that it starts with. -/
inductive Overflows (config : Config) (s : State) (raw : Text) : Prop
  | first (crowded : Crowded config (config.outdent s.mode raw).2)
  | edited {l : Line} {t : State} {edit : MacroEdit} {text : Text}
      (cut : (s.begin config raw).line.retokenize config.rules.maxTokens = .ok l)
      (full : l.isEmpty = false)
      (reached : passComments.run ((s.begin config raw).withLine l) = .ok false t)
      (change : t.line.edit? config = some (edit, text)) (crowded : Crowded config text)
  | prefixed {l : Line} {t : State} {name text : Text}
      (cut : (s.begin config raw).line.retokenize config.rules.maxTokens = .ok l)
      (full : l.isEmpty = false)
      (inside : s.mode.enumBody.isSome = true) (active : s.mode.classState.name? = some name)
      (reached : (firstClaim (earlyStages config)).run ((s.begin config raw).withLine l) =
        .ok false t)
      (change : t.line.prefixed? name = some text) (crowded : Crowded config text)

theorem retokenize_crowded {text : Text} (crowded : Crowded config text) :
    (Line.ofText text).retokenize config.rules.maxTokens = .error ⟨config.rules.maxTokens⟩ := by
  have tokens : Token.tokenize text config.rules.maxTokens = .error ⟨config.rules.maxTokens⟩ :=
    if_pos crowded
  show (Token.tokenize text _).bind _ = _
  rw [tokens]
  rfl

theorem run_recordEnumValue_overflow {name text : Text} (inside : s.mode.enumBody.isSome = true)
    (active : s.mode.classState.name? = some name) (change : s.line.prefixed? name = some text)
    (crowded : Crowded config text) :
    (recordEnumValue config).run s =
      .error (.tooManyTokens s.lineNumber config.rules.maxTokens) (s.withLine (.ofText text)) := by
  rw [run_recordEnumValue_prefixed inside active change]
  simp only [replaceLine, EStateM.run_bind, EStateM.run_modify]
  rw [run_retokenize_overflow (retokenize_crowded crowded)]
  rfl

/-- A failure of the stages is one of the line. -/
theorem run_classify_error {e : ConvertError} (full : s.line.isEmpty = false)
    (h : (firstClaim (stages config)).run s = .error e t) : (classify config).run s = .error e t := by
  rw [run_classify_full full, EStateM.run_bind, h]

theorem run_firstClaim_error {stage : Conversion Bool} {e : ConvertError}
    (stages : List (Conversion Bool)) (h : stage.run s = .error e t) :
    (firstClaim (stage :: stages)).run s = .error e t := by
  rw [firstClaim, EStateM.run_bind, h]

/-- The line fails at whatever point it has too many tokens, and has left no trace by then. -/
theorem run_overflowing (overflows : Overflows config s raw) :
    ∃ t, (retokenize config >>= fun _ => classify config).run (s.begin config raw) =
        .error (.tooManyTokens (s.lineNumber + 1) config.rules.maxTokens) t ∧
      Untouched (s.begin config raw) t := by
  have cuts {l : Line} (cut : (s.begin config raw).line.retokenize config.rules.maxTokens = .ok l) :
      (retokenize config >>= fun _ => classify config).run (s.begin config raw) =
        (classify config).run ((s.begin config raw).withLine l) := by
    rw [EStateM.run_bind, run_retokenize cut]
    rfl
  have number {t : State} (h : t.lineNumber = s.lineNumber + 1) :=
    congrArg (ConvertError.tooManyTokens · config.rules.maxTokens) h
  have cutting (l : Line) : Untouched (s.begin config raw) ((s.begin config raw).withLine l) :=
    untouched_of_line rfl
  cases overflows with
  | first crowded =>
    refine ⟨s.begin config raw, ?_, untouched_of_line rfl⟩
    rw [EStateM.run_bind, run_retokenize_overflow (retokenize_crowded crowded)]
    rfl
  | @edited l t edit text cut full reached change crowded =>
    have idle := (cutting l).trans (idle_passComments _ t reached)
    have failed := run_editMacro_overflow change (retokenize_crowded crowded)
    refine ⟨(t.noted (.macroEdited edit.name)).withLine (.ofText text), ?_,
      idle.trans (untouched_of_line rfl)⟩
    rw [cuts cut, ← number idle.lineNumber]
    apply run_classify_error full
    rw [stages, run_firstClaim_unclaimed _ reached]
    exact run_firstClaim_error _ failed
  | @prefixed l t name text cut full inside active reached change crowded =>
    have early := idle_earlyStages (s := (s.begin config raw).withLine l) config inside t reached
    have idle := (cutting l).trans early
    have mode : t.mode = s.mode := idle.mode
    have failed := run_recordEnumValue_overflow (by rw [mode, inside]) (by rw [mode, active])
      change crowded
    refine ⟨t.withLine (.ofText text), ?_, idle.trans (untouched_of_line rfl)⟩
    rw [cuts cut, ← number idle.lineNumber]
    apply run_classify_error full
    have rest := run_firstClaim_append (earlyStages config)
      [recordEnumValue config, convertMethods config, liftMembers] reached
    exact rest.trans (run_firstClaim_error _ failed)

theorem run_emit_accepted {o : Origin} {x : Text} (h : s.Accepts ⟨o, x⟩) :
    (emit o x).run s = .ok () (s.put ⟨o, x⟩) := by
  rw [run_emit]
  by_cases opened : s.mode.classState.isOpen = true
  · rw [opened]
    rfl
  · rcases h with put | empty | fits
    · exact absurd put opened
    · have none : x.isEmpty = true := List.isEmpty_iff.2 empty
      rw [none, Bool.or_true, Bool.true_or, if_pos rfl]
    · have all : (s.putDirect ⟨o, x⟩).sink.hasAll = true := fits
      rw [s.put_closed _ (Bool.eq_false_iff.2 opened), all, Bool.or_true, if_pos rfl]

/-- A line with too many tokens has no effect but the one that the settings ask for. Under `abort` the
line fails with its number and the limit, and output and put-off text stay as they are. Under `skip`
the line as it was read is emitted once, and one warning is given. Either way all that is known of the
input stays. -/
theorem overflow_atomic (config : Config) (room : Option Nat) (before : List Text) (raw : Text)
    (overflows : Overflows config (runLines config before { sink := { room } }) raw) :
    let s := runLines config before { sink := { room } }
    (config.rules.overflow = .abort → ∃ t,
      (processLine config raw).run s =
        .error (.tooManyTokens (before.length + 1) config.rules.maxTokens) t ∧
      SameKnowledge s t ∧ SameOutput s t) ∧
    (config.rules.overflow = .skip → s.Accepts ⟨.copied, raw⟩ → ∃ t notes,
      (processLine config raw).run s = .ok () t ∧
      SameKnowledge s t ∧ SameOutput (s.put ⟨.copied, raw⟩) t ∧
      (∀ d ∈ notes, d.severity = .info) ∧
      t.diagnostics = s.diagnostics ++ notes ++
        [{ skipWarning config.rules.maxTokens with line := some (before.length + 1) }]) := by
  intro s
  have numbered : s.lineNumber + 1 = before.length + 1 := by
    rw [lineNumber_runLines]
    simp
  obtain ⟨t, failed, same⟩ := run_overflowing overflows
  rw [show (runLines config before { sink := { room } }).lineNumber + 1 = before.length + 1 from
    numbered] at failed
  have begins : SameKnowledge s (s.begin config raw) := ⟨rfl, rfl, rfl, rfl, rfl, rfl⟩
  have starts : SameOutput s (s.begin config raw) := ⟨rfl, rfl, rfl, rfl⟩
  have knowledge := begins.trans same.toSameKnowledge
  have output := starts.trans same.toSameOutput
  constructor
  · intro abort
    refine ⟨t, ?_, knowledge, output⟩
    rw [run_processLine, run_recover_rest raw fun skip => ?_]
    · exact failed
    · rw [abort] at skip
      cases skip
  · intro skip accepts
    obtain ⟨notes, remarks, infos⟩ := same.diagnostics
    let v := skipState raw config.rules.maxTokens t
    have takes : v.Accepts ⟨.copied, raw⟩ := by
      unfold State.Accepts
      rw [show v.mode = s.mode from knowledge.mode, show v.sink = s.sink from output.sink]
      exact accepts
    have number : t.lineNumber = before.length + 1 := same.lineNumber.trans numbered
    refine ⟨v.put ⟨.copied, raw⟩, notes, ?_, ?_, ?_, infos, ?_⟩
    · rw [run_processLine, run_recover_skip raw skip failed, run_skipLine]
      exact run_emit_accepted takes
    · have skips : SameKnowledge t v := ⟨rfl, rfl, rfl, rfl, rfl, rfl⟩
      exact (knowledge.trans skips).trans (sameKnowledge_put v _)
    · have skips : SameOutput t v := ⟨rfl, rfl, rfl, rfl⟩
      exact sameOutput_put _ knowledge.mode (output.trans skips)
    · rw [diagnostics_put, ← number]
      exact congrArg (· ++ [_]) remarks

/-- An enum in a class whose name makes two tokens of an enum value. -/
def oddlyNamed : List Text := ["class ( \x7b\n".toList, "enum \x7b\n".toList]

/-- The line has no more than four tokens before it gets the name. -/
theorem oddlyNamed_overflow :
    let config : Config := { rules := { maxTokens := 4, overflow := .skip } }
    let raw := "A = 1,\n".toList
    let s := runLines config oddlyNamed {}
    Overflows config s raw ∧ s.Accepts ⟨.copied, raw⟩ ∧
      ∃ t, (processLine config raw).run s = .ok () t ∧ t.enumValues = s.enumValues ∧
        t.pendingEnums = s.pendingEnums ++ [⟨.copied, raw⟩] := by
  intro config raw s
  have overflows : Overflows config s raw := by
    let t := (s.begin config raw).withLine (.cut raw)
    have early : (firstClaim [passComments, editMacro config, trackTypes,
        trackFunctions config]).run t = .ok false t := rfl
    have last : defineConstants.run t = .ok false t :=
      run_defineConstants_unclaimed (noConstant_of_noSemicolon (by decide))
    have reached : (firstClaim (earlyStages config)).run t = .ok false t :=
      (run_firstClaim_append _ [defineConstants] early).trans (run_firstClaim_unclaimed [] last)
    have crowded : Crowded config "(_A = 1,\n".toList := by
      unfold Crowded
      decide
    exact .prefixed rfl rfl rfl rfl reached rfl crowded
  have accepts : s.Accepts ⟨.copied, raw⟩ := .inl rfl
  obtain ⟨t, notes, run, same, output, -⟩ :=
    (overflow_atomic config none oddlyNamed raw overflows).2 rfl accepts
  exact ⟨overflows, accepts, t, run, same.enumValues, output.pendingEnums⟩

end Conversion
end HeaderFlattening
