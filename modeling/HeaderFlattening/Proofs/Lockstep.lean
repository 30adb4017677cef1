import HeaderFlattening.Proofs.Delivery
import HeaderFlattening.Proofs.Simulation

/-!
The stages in two runs. Each part of a stage is made of steps that a simulation keeps, and reads of the
state only what is the same in both runs; so each stage keeps it, and so do whole lines and the end of
the input.
-/

set_option autoImplicit false
namespace HeaderFlattening.Conversion

variable {α β : Type} {S : Companion} (config : Config) {s t : State}

theorem parallel_throw (error : TextError) (s t : State) :
    Parallel S (throw (.replacement error) : Conversion α) s t :=
  .of_error rfl (fun _ => rfl) (State.Grows.refl s) id fun _ => by simp

theorem parallel_claim {x : Conversion Unit} (h : Parallel S x s t) :
    Parallel S (x >>= fun _ => pure true) s t :=
  h.bind fun _ s t => parallel_pure true s t

theorem parallel_mode {g : Mode → Mode} (classState : ∀ m, (g m).classState = m.classState)
    (function : ∀ m, (g m).function = m.function)
    (externC : ∀ m b, g { m with inExternC := b } = { g m with inExternC := b }) :
    Parallel S (modifyMode g) s t :=
  .of_run rfl (fun _ => rfl) (State.grows_of_sink rfl rfl) (S.withMode g classState function externC)

theorem parallel_mode_if {c : Prop} [Decidable c] {f : Unit → Conversion Bool} {g : Mode → Mode}
    (classState : ∀ m, (g m).classState = m.classState)
    (function : ∀ m, (g m).function = m.function)
    (externC : ∀ m b, g { m with inExternC := b } = { g m with inExternC := b })
    (k : ∀ s t, Parallel S (f ()) s t) :
    Parallel S (if c then modifyMode g >>= f else f ()) s t := by
  split_ifs
  · exact (parallel_mode classState function externC).bind fun _ => k
  · exact k s t

theorem parallel_emit (o : Origin) (x : Text) (s t : State) : Parallel S (emit o x) s t :=
  ⟨.of_leaves (leaves_emit o x s) (s.grows_put _), S.emit o x⟩

theorem parallel_emitDirect (o : Origin) (x : Text) (s t : State) :
    Parallel S (emitDirect o x) s t :=
  ⟨steady_emitDirect o x s, S.emitDirect o x⟩

theorem parallel_emitLine (s t : State) : Parallel S emitLine s t :=
  .get (fun related => by rw [S.line related]) (parallel_emit .copied s.line.text s t)

theorem parallel_takeEnumComments (s t : State) : Parallel S takeEnumComments s t :=
  .of_run rfl (fun _ => rfl) (State.grows_of_sink rfl rfl) S.gather

theorem parallel_flushPending (s t : State) : Parallel S flushPending s t :=
  ⟨steady_flushPending s, S.flushPending⟩

theorem parallel_addEnumValue (name : Text) (s t : State) :
    Parallel S (addEnumValue name) s t :=
  .of_run (run_addEnumValue name s) (fun _ => run_addEnumValue name t) (s.grows_addValue name)
    (S.addValue name)

theorem parallel_followFunction (s t : State) : Parallel S followFunction s t :=
  ⟨steady_followFunction s, S.followFunction⟩

theorem parallel_retokenize (s t : State) : Parallel S (retokenize config) s t := by
  have mirrored (related : S.rel s t) :=
    congrArg (Line.retokenize · config.rules.maxTokens) (S.line related)
  cases cut : s.line.retokenize config.rules.maxTokens with
  | ok line =>
    exact .of_run (run_retokenize cut)
      (fun related => run_retokenize ((mirrored related).trans cut))
      (State.grows_of_sink rfl rfl) (S.withLine line)
  | error e =>
    refine .of_error (run_retokenize_overflow cut) (fun related => ?_) (State.Grows.refl s) id
      fun _ => by simp
    rw [run_retokenize_overflow ((mirrored related).trans cut), S.lineNumber related]
    rfl

theorem parallel_replaceLine (text : Text) (s t : State) :
    Parallel S (replaceLine config text) s t :=
  .after (y := retokenize config) rfl (fun _ => rfl) (State.grows_of_sink rfl rfl)
    (S.withLine (.ofText text)) (parallel_retokenize config _ _)

theorem parallel_passComments (s t : State) : Parallel S passComments s t := by
  unfold passComments
  refine .get (fun related => by rw [S.line related]) ?_
  by_cases slashes : "//".toList.isPrefixOf ((s.line.word? 0).getD []) = true
  · simp only [if_pos slashes]
    exact parallel_claim (parallel_emitLine s t)
  · simp only [if_neg slashes]
    refine parallel_mode_if (fun _ => rfl) (fun _ => rfl) (fun _ _ => rfl) fun s t => ?_
    refine .get (fun related => by rw [S.line related, S.inComment related]) ?_
    by_cases inside : s.mode.inComment = true
    · rw [if_pos inside]
      exact parallel_mode_if (fun _ => rfl) (fun _ => rfl) (fun _ _ => rfl) fun s t =>
        parallel_claim (parallel_emitLine s t)
    · rw [if_neg inside]
      exact parallel_pure false s t

theorem parallel_editMacro (s t : State) : Parallel S (editMacro config) s t := by
  have mirrored (related : S.rel s t) := congrArg (Line.edit? config) (S.line related)
  cases edited : s.line.edit? config with
  | none =>
    exact .of_run (run_editMacro_unedited edited)
      (fun related => run_editMacro_unedited ((mirrored related).trans edited))
      (State.Grows.refl s) id
  | some change =>
    obtain ⟨edit, text⟩ := change
    have event := S.noted (s := s) (t := t) fun _ => .macroEdited edit.name
    cases cut : (Line.ofText text).retokenize config.rules.maxTokens with
    | ok line =>
      refine .of_run (run_editMacro_edited edited cut)
        (fun related => run_editMacro_edited ((mirrored related).trans edited) cut)
        (State.grows_of_sink rfl rfl) fun related => ?_
      exact S.remarked ⟨.info, "rewrote macro ".toList ++ edit.name, none, none⟩
        (S.withLine line (event related))
    | error e =>
      refine .of_error (run_editMacro_overflow edited cut) (fun related => ?_)
        (State.grows_of_sink rfl rfl) (fun related => S.withLine (.ofText text) (event related))
        fun _ => by simp
      have number := congrArg (ConvertError.tooManyTokens · e.limit) (S.lineNumber related)
      rw [run_editMacro_overflow ((mirrored related).trans edited) cut, number]
      rfl

theorem parallel_emitOpener (keyword : Text) (d : TypeDeclaration) (s t : State) :
    Parallel S (emitOpener keyword d) s t := by
  refine (parallel_emit _ _ s t).bind fun _ s t => ?_
  split_ifs
  · exact parallel_emit _ _ s t
  · exact parallel_pure () s t

theorem parallel_openEnumBody (d : TypeDeclaration) (s t : State) :
    Parallel S (openEnumBody d) s t := by
  refine Parallel.bind (parallel_mode (fun _ => rfl) (fun _ => rfl) (fun _ _ => rfl)) fun _ s t => ?_
  refine .get (fun related => by rw [S.classState related]) ?_
  split_ifs
  · exact (parallel_takeEnumComments s t).bind fun _ s t => parallel_emitOpener _ d s t
  · exact parallel_emitOpener _ d s t

theorem parallel_addEnumValues (names : List Text) (s t : State) :
    Parallel S (names.forM addEnumValue) s t := by
  induction names generalizing s t with
  | nil => exact parallel_pure () s t
  | cons name names ih => exact (parallel_addEnumValue name s t).bind fun _ s t => ih s t

theorem parallel_emitEnumLine (name : Text) (e : EnumLine) (s t : State) :
    Parallel S (emitEnumLine name e) s t := by
  have body (text : Text) (s t : State) : Parallel S (do
      modifyMode ({ · with enumBody := some ⟨name, true⟩ })
      emit .made text
      modifyMode ({ · with enumBody := none })) s t := by
    refine Parallel.bind (parallel_mode (fun _ => rfl) (fun _ => rfl) (fun _ _ => rfl)) fun _ s t => ?_
    refine (parallel_emit _ _ s t).bind fun _ s t => ?_
    exact parallel_mode (fun _ => rfl) (fun _ => rfl) (fun _ _ => rfl)
  unfold emitEnumLine
  refine .get (fun related => by rw [S.classState related]) ?_
  refine (parallel_addEnumValues _ s t).bind fun _ s t => ?_
  refine .get (fun related => by rw [S.classState related]) ?_
  split_ifs
  · exact (parallel_takeEnumComments s t).bind fun _ s t => body _ s t
  · exact body _ s t

theorem parallel_openEnum (s t : State) : Parallel S openEnum s t := by
  unfold openEnum
  refine .get (fun related => by rw [S.line related]) ?_
  simp only []
  split
  · exact parallel_pure false s t
  · split
    · exact parallel_claim (parallel_emitLine s t)
    · split
      · exact parallel_claim (parallel_emitEnumLine _ _ s t)
      · exact parallel_claim (parallel_openEnumBody _ s t)
    · exact parallel_claim (parallel_openEnumBody _ s t)

theorem parallel_openStruct (s t : State) : Parallel S openStruct s t := by
  unfold openStruct
  refine .get (fun related => by rw [S.line related]) ?_
  split
  · exact parallel_pure false s t
  · split_ifs
    · exact parallel_claim (parallel_emitLine s t)
    · refine (parallel_emitOpener _ _ s t).bind fun _ s t => ?_
      exact parallel_claim (parallel_mode (fun _ => rfl) (fun _ => rfl) (fun _ _ => rfl))

theorem parallel_enterClass (classState : ClassState) (s t : State) :
    Parallel S (enterClass classState) s t :=
  .of_run rfl (fun _ => rfl) (State.grows_of_sink rfl rfl) (S.enterClass classState)

theorem parallel_openClass (s t : State) : Parallel S openClass s t := by
  unfold openClass
  refine .get (fun related => by rw [S.line related]) ?_
  split
  · exact parallel_pure false s t
  · split
    · exact parallel_claim (parallel_emit _ _ s t)
    · exact (parallel_emit _ _ s t).bind fun _ s t => parallel_claim (parallel_enterClass _ s t)
    · exact (parallel_emit _ _ s t).bind fun _ s t => parallel_claim (parallel_enterClass _ s t)

theorem parallel_openFlatType (s t : State) : Parallel S openFlatType s t := by
  unfold openFlatType
  refine .get (fun related => by rw [S.line related]) ?_
  simp only []
  split_ifs
  · exact parallel_pure false s t
  · refine Parallel.bind (parallel_mode (fun _ => rfl) (fun _ => rfl) (fun _ _ => rfl)) fun _ s t => ?_
    refine .get (fun related => by rw [S.classState related]) ?_
    split_ifs
    · exact (parallel_takeEnumComments s t).bind fun _ s t => parallel_claim (parallel_emitLine s t)
    · exact parallel_claim (parallel_emitLine s t)
  · refine Parallel.bind (parallel_mode (fun _ => rfl) (fun _ => rfl) (fun _ _ => rfl)) fun _ s t => ?_
    exact parallel_claim (parallel_emitLine s t)
  · exact parallel_pure false s t

theorem parallel_emitCloser (body : TypeBody) (s t : State) :
    Parallel S (emitCloser body) s t := by
  unfold emitCloser
  split_ifs
  · exact parallel_emitLine s t
  · exact parallel_emit _ _ s t

theorem parallel_closeType (s t : State) : Parallel S closeType s t := by
  unfold closeType
  refine .get (fun related => by rw [S.line related, S.enumBody related, S.structBody related,
    S.classState related]) ?_
  split_ifs
  · exact parallel_pure false s t
  split
  · refine (parallel_emitCloser _ s t).bind fun _ s t => ?_
    exact parallel_claim (parallel_mode (fun _ => rfl) (fun _ => rfl) (fun _ _ => rfl))
  split
  · refine Parallel.bind (parallel_mode (fun _ => rfl) (fun _ => rfl) (fun _ _ => rfl)) fun _ s t => ?_
    exact parallel_claim (parallel_emitCloser _ s t)
  split
  · rename_i name active
    have closes : Parallel S (closeClass name) s t :=
      ⟨steady_closeClass name s, S.closeClass name (Conversion.isActive_of_name? active)⟩
    exact parallel_claim closes
  · exact parallel_pure false s t

theorem parallel_firstClaim {stages : List (Conversion Bool)}
    (h : ∀ stage ∈ stages, ∀ s t, Parallel S stage s t) (s t : State) :
    Parallel S (firstClaim stages) s t := by
  induction stages generalizing s t with
  | nil => exact parallel_pure false s t
  | cons stage stages ih =>
    refine (h stage List.mem_cons_self s t).bind fun claimed s t => ?_
    cases claimed with
    | true => exact parallel_pure true s t
    | false => exact ih (fun stage mem => h stage (List.mem_cons_of_mem _ mem)) s t

theorem parallel_emitSuppressed (s t : State) : Parallel S (emitSuppressed config) s t := by
  unfold emitSuppressed
  refine .get (fun related => by rw [S.line related, S.function related]) ?_
  split
  · exact parallel_emit _ _ s t
  · exact parallel_emit _ _ s t
  · exact parallel_pure () s t

theorem parallel_trackFunctions (s t : State) : Parallel S (trackFunctions config) s t := by
  unfold trackFunctions
  refine .get (fun related => by rw [S.enumBody related, S.structBody related]) ?_
  split_ifs
  · exact parallel_pure false s t
  · refine (parallel_followFunction s t).bind fun claimed s t => ?_
    split_ifs
    · exact parallel_claim (parallel_emitSuppressed config s t)
    · exact parallel_pure false s t

theorem parallel_defineConstants (s t : State) : Parallel S defineConstants s t := by
  unfold defineConstants
  refine .get (fun related => by rw [S.line related]) ?_
  split
  · exact parallel_claim (parallel_emit _ _ s t)
  · exact parallel_pure false s t

theorem parallel_recordFirstWord (s t : State) : Parallel S recordFirstWord s t := by
  unfold recordFirstWord
  refine .get (fun related => by rw [S.line related]) ?_
  split
  · exact (parallel_addEnumValue _ s t).bind fun _ s t => parallel_pure false s t
  · exact parallel_pure false s t

theorem parallel_recordEnumValue (s t : State) : Parallel S (recordEnumValue config) s t := by
  unfold recordEnumValue
  refine .get (fun related => by rw [S.line related, S.enumBody related, S.classState related]) ?_
  split_ifs
  · exact parallel_pure false s t
  split
  · exact parallel_pure false s t
  split
  · split
    · split
      · exact parallel_throw _ s t
      · exact (parallel_replaceLine config _ s t).bind fun _ s t => parallel_recordFirstWord s t
    · exact parallel_recordFirstWord s t
  · exact parallel_recordFirstWord s t

theorem parallel_convertMethods (s t : State) : Parallel S (convertMethods config) s t := by
  unfold convertMethods
  refine .get (fun related => by rw [S.line related, S.structBody related]) ?_
  split_ifs
  · exact parallel_pure false s t
  split
  · exact parallel_claim (parallel_emit _ _ s t)
  · exact parallel_pure false s t

theorem run_liftMember {name : Text} (h : s.line.text.declaredName? = some name) :
    liftMember.run s =
      (emitDirect .member (s.indent ++ s.line.text) >>= fun _ => pure true).run (s.addMember name) := by
  unfold liftMember State.addMember
  simp only [EStateM.run_bind, EStateM.run_get, h]
  cases s.memberNames.has name <;> rfl

theorem parallel_liftMember (active : s.mode.classState.isActive = true) :
    Parallel S liftMember s t := by
  cases declared : s.line.text.declaredName? with
  | none =>
    exact .of_run (run_liftMember_none declared)
      (fun related => run_liftMember_none (by rw [S.line related, declared])) (State.Grows.refl s) id
  | some name =>
    refine .after (run_liftMember declared) (fun related => ?_) (s.grows_addMember name)
      (S.addMember name active) (parallel_claim (parallel_emitDirect .member _ _ _))
    rw [run_liftMember (by rw [S.line related, declared]), S.line related, S.indent related]

theorem pending_of_awaited {line : Line} {c : ClassState} {name : Text}
    (h : (if line.words = [['{']] then c.awaited? else none) = some name) : c = .pending name := by
  split_ifs at h
  cases c with
  | pending awaited => exact congrArg ClassState.pending (Option.some.inj h)
  | none | opened awaited => cases h

theorem parallel_liftMembers (s t : State) : Parallel S liftMembers s t := by
  unfold liftMembers
  refine .get (fun related => by rw [S.line related, S.classState related]) ?_
  by_cases idle : (!s.mode.classState.isActive || s.line.isEmpty) = true
  · rw [if_pos idle]
    exact parallel_pure false s t
  rw [if_neg idle]
  have active : s.mode.classState.isActive = true := by
    cases h : s.mode.classState.isActive with
    | true => rfl
    | false => exact absurd (by rw [h]; rfl) idle
  split
  · rename_i name found
    have opens : Parallel S (modifyMode ({ · with classState := .opened name })) s t :=
      .of_run rfl (fun _ => rfl) (State.grows_of_sink rfl rfl)
        (S.openBrace (pending_of_awaited found))
    exact opens.bind fun _ s t => parallel_claim (parallel_emitDirect _ _ s t)
  · split_ifs
    · exact parallel_pure true s t
    · exact parallel_liftMember active

/-- The warning that a line has more tokens than the limit. -/
def skipWarning (limit : Nat) : Diagnostic where
  severity := .warning
  message := "more than ".toList ++ Text.ofNat limit ++ " tokens, line copied unchanged".toList
  line := none
  help := some "raise `conversion.max_tokens` to classify this line".toList

/-- The state from which a line that is skipped is emitted. -/
def skipState (raw : Text) (limit : Nat) (s : State) : State :=
  ((s.noted (.lineSkipped s.lineNumber limit)).remarked (skipWarning limit)).withLine (.ofText raw)

theorem run_skipLine (raw : Text) (limit : Nat) (s : State) :
    (skipLine raw limit).run s = emitLine.run (skipState raw limit s) := rfl

theorem parallel_skipLine (raw : Text) (limit : Nat) (s t : State) :
    Parallel S (skipLine raw limit) s t :=
  .after (run_skipLine raw limit s) (fun _ => run_skipLine raw limit t)
    (State.grows_of_sink rfl rfl)
    (fun related => S.withLine _ (S.remarked _ (S.noted (.lineSkipped · limit) related)))
    (parallel_emitLine _ _)

variable {config} {x : Conversion Unit}

theorem run_recover_skip (raw : Text) {line limit : Nat} {u : State}
    (skip : config.rules.overflow = .skip)
    (h : x.run s = .error (.tooManyTokens line limit) u) :
    (tryCatch x (recover config raw)).run s = (skipLine raw limit).run u := by
  rw [run_tryCatch, h]
  simp only [recover, skip]

/-- Every other failure stays one. -/
theorem run_recover_rest (raw : Text) (h : config.rules.overflow = .skip →
    ∀ line limit u, x.run s ≠ .error (.tooManyTokens line limit) u) :
    (tryCatch x (recover config raw)).run s = x.run s := by
  rw [run_tryCatch]
  cases run : x.run s with
  | ok a u => rfl
  | error e u =>
    cases e with
    | tooManyTokens line limit =>
      cases overflow : config.rules.overflow with
      | skip => exact absurd run (h overflow line limit u)
      | abort => simp only [recover, overflow]; rfl
    | _ => rfl

theorem parallel_recover (raw : Text) (h : Parallel S x s t) :
    Parallel S (tryCatch x (recover config raw)) s t := by
  by_cases skips : config.rules.overflow = .skip ∧
    ∃ line limit u, x.run s = .error (.tooManyTokens line limit) u
  · obtain ⟨skip, line, limit, u, failed⟩ := skips
    have grows := h.steady.grows
    rw [stateAfter_eq_endOf, failed] at grows
    have left := run_recover_skip raw skip failed
    have copies (v : State) := parallel_skipLine (S := S) raw limit u v
    refine ⟨⟨?_, fun fault v run => ?_⟩, fun related => ?_⟩
    · rw [stateAfter_eq_endOf, left, ← stateAfter_eq_endOf]
      exact grows.trans (copies u).steady.grows
    · exact (copies u).steady.full fault v (left ▸ run)
    · rw [left]
      have both := h.agree related
      rw [failed] at both
      generalize mirror : x.run t = q at both
      cases both with
      | error next =>
        rw [run_recover_skip raw skip mirror]
        exact (copies _).agree next
      | lost gone =>
        have right : (tryCatch x (recover config raw)).run t = x.run t :=
          run_recover_rest raw fun _ _ _ _ run => by cases mirror.symm.trans run
        rw [right, mirror]
        refine .lost (S.lost_of_grows gone ?_)
        rw [← stateAfter_eq_endOf]
        exact (copies u).steady.grows
  · have calm (skip : config.rules.overflow = .skip) (line limit : Nat) (u : State) :
        x.run s ≠ .error (.tooManyTokens line limit) u :=
      fun run => skips ⟨skip, line, limit, u, run⟩
    have left := run_recover_rest raw calm
    refine ⟨⟨?_, fun fault v run => h.steady.full fault v (left ▸ run)⟩, fun related => ?_⟩
    · rw [stateAfter_eq_endOf, left, ← stateAfter_eq_endOf]
      exact h.steady.grows
    · have both := h.agree related
      rw [left, run_recover_rest raw fun skip line limit u run => ?_]
      · exact both
      rw [run] at both
      generalize mirror : x.run s = r at both
      cases r with
      | ok a v => cases both
      | error e v =>
        cases e with
        | tooManyTokens line limit => exact calm skip line limit v mirror
        | _ => cases both

/-- What becomes of a line once its indentation is taken off. -/
theorem run_processLine (config : Config) (raw : Text) (s : State) :
    (processLine config raw).run s =
      (tryCatch (retokenize config >>= fun _ => classify config) (recover config raw)).run
        (s.begin config raw) := by
  unfold processLine
  rw [EStateM.run_bind, run_beginLine]
  rfl

/-- The warning that a class is open at the end of the input. -/
def unclosedWarning (name : Text) : Diagnostic where
  severity := .warning
  message := "class ".toList ++ name ++ " is not closed at end of input".toList
  line := none
  help := some "its deferred enums and members were written after the last line".toList

theorem run_finish_open {name : Text} (h : s.mode.classState.name? = some name) :
    finish.run s =
      flushPending.run ((s.noted (.classUnclosed name)).remarked (unclosedWarning name)) := by
  unfold finish
  simp only [EStateM.run_bind, EStateM.run_get, h]
  rfl

theorem run_finish_closed (h : s.mode.classState.name? = none) : finish.run s = .ok () s := by
  unfold finish
  simp only [EStateM.run_bind, EStateM.run_get, h]
  rfl

theorem parallel_finish (s t : State) : Parallel S finish s t := by
  have mirrored (related : S.rel s t) : t.mode.classState.name? = s.mode.classState.name? := by
    rw [S.classState related]
  cases h : s.mode.classState.name? with
  | none =>
    exact .of_run (run_finish_closed h) (fun related => run_finish_closed ((mirrored related).trans h))
      (State.Grows.refl s) id
  | some name =>
    exact .after (run_finish_open h) (fun related => run_finish_open ((mirrored related).trans h))
      (State.grows_of_sink rfl rfl)
      (fun related => S.remarked _ (S.noted (fun _ => .classUnclosed name) related))
      (parallel_flushPending _ _)

section

variable {S : Simulation} (config)

theorem parallel_externC (b : Bool) (s t : State) :
    Parallel S (modifyMode ({ · with inExternC := b })) s t :=
  .of_run rfl (fun _ => rfl) (State.grows_of_sink rfl rfl) (S.withExternC b)

theorem parallel_openExternC (s t : State) : Parallel S openExternC s t := by
  unfold openExternC
  refine .get (fun related => by rw [S.line related]) ?_
  split_ifs
  · exact parallel_claim (parallel_externC true s t)
  · exact parallel_pure false s t

theorem parallel_closeExternC (s t : State) : Parallel S closeExternC s t := by
  unfold closeExternC
  refine .get (fun related => by rw [S.line related, S.inExternC related]) ?_
  split_ifs
  · exact parallel_claim (parallel_externC false s t)
  · exact parallel_pure false s t

theorem parallel_trackTypes (s t : State) : Parallel S trackTypes s t := by
  refine parallel_firstClaim (fun stage mem => ?_) s t
  simp only [List.mem_cons, List.not_mem_nil, or_false] at mem
  rcases mem with rfl | rfl | rfl | rfl | rfl | rfl | rfl
  · exact parallel_openExternC
  · exact parallel_openEnum
  · exact parallel_openStruct
  · exact parallel_openClass
  · exact parallel_openFlatType
  · exact parallel_closeType
  · exact parallel_closeExternC

theorem parallel_stages (s t : State) : Parallel S (firstClaim (stages config)) s t := by
  refine parallel_firstClaim (fun stage mem => ?_) s t
  simp only [stages, List.mem_cons, List.not_mem_nil, or_false] at mem
  rcases mem with rfl | rfl | rfl | rfl | rfl | rfl | rfl | rfl
  · exact parallel_passComments
  · exact parallel_editMacro config
  · exact parallel_trackTypes
  · exact parallel_trackFunctions config
  · exact parallel_defineConstants
  · exact parallel_recordEnumValue config
  · exact parallel_convertMethods config
  · exact parallel_liftMembers

theorem parallel_classify (s t : State) : Parallel S (classify config) s t := by
  unfold classify
  refine .get (fun related => by rw [S.line related]) ?_
  split_ifs
  · refine (parallel_stages config s t).bind fun claimed s t => ?_
    split_ifs
    · exact parallel_pure () s t
    · exact parallel_emitLine s t
  · exact parallel_emitLine s t

/-- The steps of a line, from the state in which its tokens are looked for. -/
theorem parallel_recovered (raw : Text) (s t : State) :
    Parallel S (tryCatch (retokenize config >>= fun _ => classify config) (recover config raw)) s t :=
  parallel_recover raw ((parallel_retokenize config s t).bind fun _ s t => parallel_classify config s t)

theorem agree_processLine (raw : Text) (related : S.rel s t) :
    S.Agree ((processLine config raw).run s) ((processLine config raw).run t) := by
  rw [run_processLine, run_processLine]
  exact (parallel_recovered config raw _ _).agree (S.begin config raw related)

end

/-- No states correspond: what the stages keep of a single run is all that is left. -/
def lone : Simulation where
  toCorrespondence := .lasting (fun _ _ => False) id
  mode := False.elim
  line := False.elim
  indent := False.elim
  lineNumber := False.elim
  begin _ _ := False.elim
  withLine _ := False.elim
  noted _ := False.elim
  remarked _ := False.elim
  withMode _ _ _ _ := False.elim
  openBrace _ := False.elim
  enterClass _ := False.elim
  addValue _ := False.elim
  addMember _ _ := False.elim
  gather := False.elim
  emit _ _ := False.elim
  emitDirect _ _ := False.elim
  flushPending := False.elim
  followFunction := False.elim
  closeClass _ _ := False.elim
  inExternC := False.elim
  withExternC _ := False.elim

theorem steady_recovered (config : Config) (raw : Text) (s : State) :
    Steady (tryCatch (retokenize config >>= fun _ => classify config) (recover config raw)) s :=
  (parallel_recovered (S := lone) config raw s s).steady

theorem steady_finish (s : State) : Steady finish s := (parallel_finish (S := lone) s s).steady

theorem grows_processLine (config : Config) (raw : Text) (s : State) :
    (s.begin config raw).Grows (endOf ((processLine config raw).run s)) := by
  rw [run_processLine, ← stateAfter_eq_endOf]
  exact (steady_recovered config raw _).grows

theorem lineNumber_runLines (config : Config) (ls : List Text) (s : State) :
    (runLines config ls s).lineNumber = s.lineNumber + ls.length := by
  induction ls generalizing s with
  | nil => rfl
  | cons raw ls ih =>
    have next := (grows_processLine config raw s).lineNumber
    rw [← stateAfter_eq_endOf] at next
    rw [runLines, ih, next, List.length_cons]
    show s.lineNumber + 1 + ls.length = s.lineNumber + (ls.length + 1)
    omega

end HeaderFlattening.Conversion
