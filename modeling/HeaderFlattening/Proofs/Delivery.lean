import HeaderFlattening.Proofs.Types

/-!
What a line does to the output. It writes text, or it puts text off and may move comments in front of
an enum, or it closes the class and writes what was put off; `Delivery` lists these cases. From them
it follows that emitted text is neither lost nor doubled and that nothing is put off outside a class.
-/

set_option autoImplicit false
namespace HeaderFlattening.Conversion

variable {α β : Type} {s t u : State}

/-- Nothing was emitted or moved, and the class is the same. -/
structure Quiet (s t : State) : Prop where
  classState : t.mode.classState = s.mode.classState
  enums : t.pendingEnums = s.pendingEnums
  members : t.pendingMembers = s.pendingMembers
  emitted : t.emitted = s.emitted
  sink : t.sink = s.sink

/-- What happened to the output between two states. -/
inductive Delivery (s t : State) : Prop
  /-- What was emitted went to the sink, and what had been put off stayed where it was. -/
  | written (made : List Chunk)
      (active : s.mode.classState.isActive = true → t.mode.classState.isActive = true)
      (emitted : t.emitted = s.emitted ++ made)
      (sink : t.sink = { s.sink with offered := s.sink.offered ++ made })
      (enums : t.pendingEnums = s.pendingEnums)
      (members : t.pendingMembers = s.pendingMembers)
  /-- What was emitted in an open class was put off; comments at the end of the members may have
  moved to the enums before. -/
  | deferred (kept moved enums members : List Chunk)
      (opened : s.mode.classState.isOpen = true)
      (active : t.mode.classState.isActive = true)
      (comments : ∀ c ∈ moved, c.text.isBlankOrComment = true)
      (source : s.pendingMembers = kept ++ moved)
      (emitted : t.emitted = s.emitted ++ (enums ++ members))
      (sink : t.sink = s.sink)
      (pendingEnums : t.pendingEnums = s.pendingEnums ++ moved ++ enums)
      (pendingMembers : t.pendingMembers = kept ++ members)
  /-- The class was closed, and all that had been put off followed its closer, enums first. -/
  | closed (closer : Chunk)
      (active : s.mode.classState.isActive = true)
      (none : t.mode.classState = .none)
      (emitted : t.emitted = s.emitted ++ [closer])
      (sink : t.sink =
        { s.sink with offered := s.sink.offered ++ closer :: (s.pendingEnums ++ s.pendingMembers) })
      (enums : t.pendingEnums = [])
      (members : t.pendingMembers = [])

theorem Quiet.refl (s : State) : Quiet s s := ⟨rfl, rfl, rfl, rfl, rfl⟩

theorem Quiet.trans (h : Quiet s t) (k : Quiet t u) : Quiet s u :=
  ⟨k.classState.trans h.classState, k.enums.trans h.enums, k.members.trans h.members,
    k.emitted.trans h.emitted, k.sink.trans h.sink⟩

theorem Quiet.delivery (h : Quiet s t) : Delivery s t :=
  .written [] (by rw [h.classState]; exact id) (by rw [h.emitted, List.append_nil])
    (by rw [h.sink, List.append_nil]) h.enums h.members

theorem Delivery.after_quiet (h : Quiet s t) (k : Delivery t u) : Delivery s u := by
  cases k with
  | written made active emitted sink enums members =>
    rw [h.classState] at active
    exact .written made active (by rw [emitted, h.emitted]) (by rw [sink, h.sink])
      (enums.trans h.enums) (members.trans h.members)
  | deferred kept moved enums members opened active comments source emitted sink pe pm =>
    exact .deferred kept moved enums members (h.classState ▸ opened) active comments
      (h.members ▸ source) (by rw [emitted, h.emitted]) (sink.trans h.sink) (by rw [pe, h.enums]) pm
  | closed closer active none emitted sink enums members =>
    exact .closed closer (h.classState ▸ active) none (by rw [emitted, h.emitted])
      (by rw [sink, h.sink, h.enums, h.members]) enums members

theorem Delivery.then_quiet (h : Delivery s t) (k : Quiet t u) : Delivery s u := by
  cases h with
  | written made active emitted sink enums members =>
    exact .written made (fun a => k.classState ▸ active a) (k.emitted.trans emitted)
      (k.sink.trans sink) (k.enums.trans enums) (k.members.trans members)
  | deferred kept moved enums members opened active comments source emitted sink pe pm =>
    exact .deferred kept moved enums members opened (k.classState ▸ active) comments source
      (k.emitted.trans emitted) (k.sink.trans sink) (k.enums.trans pe) (k.members.trans pm)
  | closed closer active none emitted sink enums members =>
    exact .closed closer active (k.classState.trans none) (k.emitted.trans emitted)
      (k.sink.trans sink) (k.enums.trans enums) (k.members.trans members)

theorem isActive_of_isOpen {c : ClassState} (h : c.isOpen = true) : c.isActive = true := by
  cases c with
  | opened name => rfl
  | none | pending name => exact absurd h Bool.false_ne_true

theorem isActive_of_name? {c : ClassState} {name : Text} (h : c.name? = some name) :
    c.isActive = true := by
  cases c with
  | none => exact absurd h (by simp [ClassState.name?])
  | pending name | opened name => rfl

theorem delivery_putAll (s : State) (cs : List Chunk) : Delivery s (s.putAll cs) := by
  cases h : s.mode.classState.isOpen with
  | false =>
    rw [s.putAll_closed cs h]
    exact .written cs id rfl rfl rfl rfl
  | true =>
    have active := isActive_of_isOpen h
    cases he : s.mode.enumBody.isSome with
    | true =>
      rw [s.putAll_open_enum cs h he]
      exact .deferred s.pendingMembers [] cs [] h active (by simp) (by simp) (by simp) rfl (by simp)
        (by simp)
    | false =>
      rw [s.putAll_open_member cs h he]
      exact .deferred s.pendingMembers [] [] cs h active (by simp) (by simp) (by simp) rfl (by simp)
        (by simp)

theorem delivery_put (s : State) (c : Chunk) : Delivery s (s.put c) := delivery_putAll s [c]

theorem quiet_addValue (s : State) (name : Text) : Quiet s (s.addValue name) := by
  unfold State.addValue
  split_ifs
  · exact Quiet.refl s
  · exact ⟨rfl, rfl, rfl, rfl, rfl⟩

theorem quiet_addValues (s : State) (names : List Text) : Quiet s (s.addValues names) := by
  induction names generalizing s with
  | nil => exact Quiet.refl s
  | cons name names ih => exact (quiet_addValue s name).trans (ih (s.addValue name))

/-- In an open class the text of an enum follows the comments that stood in front of it. -/
theorem delivery_enterEnum (s : State) (body : TypeBody) (cs : List Chunk) :
    Delivery s ((s.enterEnum body).putAll cs) := by
  by_cases h : s.mode.classState.isOpen = true
  · rw [s.enterEnum_open body h, State.putAll_open_enum cs]
    · exact .deferred s.membersProper s.trailingComments cs [] h (isActive_of_isOpen h)
        (fun _ => State.isBlankOrComment_of_mem_trailing) s.membersProper_append.symm
        (by simp [State.gather]) rfl rfl (by simp [State.gather])
    · exact h
    · rfl
  · rw [s.enterEnum_closed body h]
    refine (delivery_putAll _ cs).after_quiet ?_
    exact ⟨rfl, rfl, rfl, rfl, rfl⟩

theorem delivery_enumLineState (name : Text) (e : EnumLine) (s : State) :
    Delivery s (enumLineState name e s) := by
  have text := delivery_enterEnum (s.addValues (e.values s.mode.classState.name?)) ⟨name, true⟩
    [⟨.made, e.text s.mode.classState.name? name⟩]
  exact (text.after_quiet (quiet_addValues s _)).then_quiet ⟨rfl, rfl, rfl, rfl, rfl⟩

theorem delivery_exitClass (name : Text) (s : State) (h : s.mode.classState.isActive = true) :
    Delivery s (s.exitClass name) :=
  .closed _ h rfl rfl rfl rfl rfl

/-- How a stage ends: it claims the line and delivers its text, or it leaves the output alone. It
fails quietly as well, unless it fails because the sink is full. -/
def Flow (s : State) : EStateM.Result ConvertError State Bool → Prop
  | .ok true t => Delivery s t
  | .ok false t => Quiet s t
  | .error e t =>
    (e = .stream .full ∧ t.sink.room = s.sink.room ∧ t.sink.hasAll = false) ∨
      (e ≠ .stream .full ∧ Quiet s t)

def Flows (x : Conversion Bool) (s : State) : Prop := Flow s (x.run s)

theorem Flow.after_quiet {r : EStateM.Result ConvertError State Bool} (q : Quiet s t)
    (h : Flow t r) : Flow s r := by
  cases r with
  | error e u =>
    refine Or.imp (fun ⟨eq, room, lost⟩ => ⟨eq, ?_, lost⟩) (fun ⟨ne, h⟩ => ⟨ne, q.trans h⟩) h
    rw [room, q.sink]
  | ok claimed u =>
    cases claimed with
    | true => exact Delivery.after_quiet q h
    | false => exact q.trans h

theorem flows_of_reaches {x : Conversion Bool} (h : Reaches x s true t) (d : Delivery s t) :
    Flows x s := by
  unfold Flows
  rcases h.2 with h | ⟨u, h, room, full⟩
  · rw [h]
    exact d
  · rw [h]
    exact .inl ⟨rfl, room, full⟩

theorem flows_pure (b : Bool) (s : State) : Flows (pure b) s := by
  cases b with
  | true => exact (Quiet.refl s).delivery
  | false => exact Quiet.refl s

theorem flows_get (f : State → Conversion Bool) (s : State) :
    Flows (get >>= f) s ↔ Flows (f s) s := Iff.rfl

theorem flows_bind {x : Conversion α} {f : α → Conversion Bool} {a : α}
    (h : x.run s = .ok a t) (q : Quiet s t) (k : Flows (f a) t) : Flows (x >>= f) s := by
  unfold Flows at *
  rw [EStateM.run_bind, h]
  exact k.after_quiet q

theorem flows_modifyMode {f : Unit → Conversion Bool} (g : Mode → Mode)
    (keep : ∀ m, (g m).classState = m.classState) (k : ∀ t, Flows (f ()) t) :
    Flows (modifyMode g >>= f) s :=
  flows_bind (t := { s with mode := g s.mode }) rfl ⟨keep s.mode, rfl, rfl, rfl, rfl⟩ (k _)

theorem flows_mode_if {c : Prop} [Decidable c] {f : Unit → Conversion Bool} (g : Mode → Mode)
    (keep : ∀ m, (g m).classState = m.classState) (k : ∀ t, Flows (f ()) t) :
    Flows (if c then modifyMode g >>= f else f ()) s := by
  split_ifs
  · exact flows_modifyMode g keep k
  · exact k s

theorem flows_emitLine (s : State) : Flows (emitLine >>= fun _ => pure true) s :=
  flows_of_reaches ((reaches_emitLine s).then_run rfl rfl) (delivery_put s _)

theorem flows_emit (o : Origin) (x : Text) (s : State) : Flows (emit o x >>= fun _ => pure true) s :=
  flows_of_reaches ((reaches_emit o x s).then_run rfl rfl) (delivery_put s _)

theorem flows_passComments (s : State) : Flows passComments s := by
  unfold passComments
  simp only [flows_get]
  by_cases slashes : "//".toList.isPrefixOf ((s.line.word? 0).getD []) = true
  · rw [if_pos slashes]
    exact flows_emitLine s
  · rw [if_neg slashes]
    refine flows_mode_if _ (fun _ => rfl) fun t => ?_
    rw [flows_get]
    by_cases inside : t.mode.inComment = true
    · rw [if_pos inside]
      exact flows_mode_if _ (fun _ => rfl) flows_emitLine
    · rw [if_neg inside]
      exact flows_pure false t

theorem flows_openExternC (s : State) : Flows openExternC s := by
  unfold openExternC
  rw [flows_get]
  split_ifs
  · exact flows_modifyMode _ (fun _ => rfl) fun t => flows_pure true t
  · exact flows_pure false s

theorem flows_openEnum (s : State) : Flows openEnum s := by
  unfold openEnum
  rw [flows_get]
  simp only []
  have body (d : TypeDeclaration) : Flows (openEnumBody d >>= fun _ => pure true) s :=
    flows_of_reaches ((reaches_openEnumBody d s).then_run rfl rfl)
      (delivery_enterEnum s _ _)
  cases TypeDeclaration.ofWords? "enum".toList s.line.words with
  | none => exact flows_pure false s
  | some d =>
    cases hb : d.brace with
    | forward => simpa only [hb] using flows_emitLine s
    | deferred => simpa only [hb] using body d
    | sameLine =>
      simp only [hb]
      cases EnumLine.ofTokens? s.line.tokens with
      | none => exact body d
      | some e =>
        exact flows_of_reaches ((reaches_emitEnumLine d.name e s).then_run rfl rfl)
          (delivery_enumLineState d.name e s)

theorem flows_openStruct (s : State) : Flows openStruct s := by
  cases h : TypeDeclaration.ofWords? "struct".toList s.line.words with
  | none =>
    unfold openStruct
    rw [flows_get, h]
    exact flows_pure false s
  | some d =>
    by_cases forward : d.brace = .forward
    · unfold openStruct
      rw [flows_get, h]
      simpa only [forward, if_true] using flows_emitLine s
    · exact flows_of_reaches (reaches_openStruct h forward)
        ((delivery_putAll s (openerChunks "struct".toList d)).then_quiet ⟨rfl, rfl, rfl, rfl, rfl⟩)

theorem delivery_enterClass (s : State) (c : Chunk) (classState : ClassState)
    (active : classState.isActive = true) : Delivery s ((s.put c).enterClass classState) := by
  cases h : s.mode.classState.isOpen with
  | false =>
    rw [s.put_closed c h]
    exact .written [c] (fun _ => active) rfl rfl rfl rfl
  | true =>
    cases he : s.mode.enumBody.isSome with
    | true =>
      rw [s.put_open_enum c h he]
      exact .deferred s.pendingMembers [] [c] [] h active (by simp) (by simp)
        (by simp [State.enterClass]) rfl (by simp [State.enterClass]) (by simp [State.enterClass])
    | false =>
      rw [s.put_open_member c h he]
      exact .deferred s.pendingMembers [] [] [c] h active (by simp) (by simp)
        (by simp [State.enterClass]) rfl (by simp [State.enterClass]) (by simp [State.enterClass])

theorem flows_openClass (s : State) : Flows openClass s := by
  unfold openClass
  rw [flows_get]
  cases TypeDeclaration.ofWords? "class".toList s.line.words with
  | none => exact flows_pure false s
  | some d =>
    have enter (x : Text) (classState : ClassState) (active : classState.isActive = true) :
        Flows (emit .made x >>= fun _ => enterClass classState >>= fun _ => pure true) s :=
      flows_of_reaches ((reaches_emit .made x s).then_run rfl rfl)
        (delivery_enterClass s ⟨.made, x⟩ classState active)
    cases hb : d.brace with
    | forward => simpa only [hb] using flows_emit _ _ s
    | sameLine => simpa only [hb] using enter _ (.opened d.name) rfl
    | deferred => simpa only [hb] using enter _ (.pending d.name) rfl

theorem flows_openFlatType (s : State) : Flows openFlatType s := by
  unfold openFlatType
  rw [flows_get]
  simp only []
  by_cases opener : (decide (s.line.words[0]? ≠ some "typedef".toList) ||
      s.line.words.contains [';']) = true
  · rw [if_pos opener]
    exact flows_pure false s
  rw [if_neg opener]
  by_cases enum : s.line.words[1]? = some "enum".toList
  · rw [if_pos enum]
    generalize (s.line.words[2]?.filter (· ≠ ['{'])).getD [] = name
    have d := delivery_enterEnum s ⟨name, true⟩ [⟨.copied, s.line.text⟩]
    refine flows_of_reaches ?_ d
    rw [reaches_modifyMode, reaches_get]
    by_cases opened : s.mode.classState.isOpen = true
    · rw [if_pos opened, s.enterEnum_open _ opened]
      exact (reaches_takeEnumComments _).bind
        ((reaches_emitLine _).then_run rfl rfl)
    · rw [if_neg opened, s.enterEnum_closed _ opened]
      exact (reaches_emitLine _).then_run rfl rfl
  rw [if_neg enum]
  split_ifs
  · exact flows_modifyMode _ (fun _ => rfl) flows_emitLine
  · exact flows_pure false s

theorem flows_emitCloser (body : TypeBody) (s : State) :
    Flows (emitCloser body >>= fun _ => pure true) s := by
  unfold emitCloser
  split_ifs
  · exact flows_emitLine s
  · exact flows_emit _ _ s

theorem reaches_emitCloser (body : TypeBody) (s : State) :
    ∃ c, Reaches (emitCloser body) s () (s.put c) := by
  unfold emitCloser
  split_ifs
  · exact ⟨_, reaches_emitLine s⟩
  · exact ⟨_, reaches_emit _ _ s⟩

theorem flows_closeType (s : State) : Flows closeType s := by
  unfold closeType
  rw [flows_get]
  by_cases closer : (!s.line.isTypeCloser) = true
  · rw [if_pos closer]
    exact flows_pure false s
  rw [if_neg closer]
  cases enum : s.mode.enumBody with
  | some body =>
    obtain ⟨c, emit⟩ := reaches_emitCloser body s
    exact flows_of_reaches (emit.then_run rfl rfl)
      ((delivery_put s c).then_quiet (u := (s.put c).leaveEnum) ⟨rfl, rfl, rfl, rfl, rfl⟩)
  | none =>
    cases struct : s.mode.structBody with
    | some body => exact flows_modifyMode _ (fun _ => rfl) (flows_emitCloser body)
    | none =>
      cases active : s.mode.classState.name? with
      | some name =>
        exact flows_of_reaches ((reaches_closeClass name s).then_run rfl rfl)
          (delivery_exitClass name s (isActive_of_name? active))
      | none => exact flows_pure false s

theorem flows_closeExternC (s : State) : Flows closeExternC s := by
  unfold closeExternC
  rw [flows_get]
  split_ifs
  · exact flows_modifyMode _ (fun _ => rfl) (flows_pure true)
  · exact flows_pure false s

/-- Stages in a row flow when each of them does, since the stages before the last left the output
alone. -/
theorem flows_firstClaim (stages : List (Conversion Bool)) (s : State)
    (h : ∀ stage ∈ stages, ∀ t, Flows stage t) : Flows (firstClaim stages) s := by
  induction stages generalizing s with
  | nil => exact flows_pure false s
  | cons stage stages ih =>
    have first := h stage (by simp) s
    unfold Flows at first ⊢
    rw [firstClaim, EStateM.run_bind]
    cases run : stage.run s with
    | error e t =>
      rw [run] at first
      exact first
    | ok claimed t =>
      rw [run] at first
      cases claimed with
      | true => exact first
      | false => exact (ih t fun stage mem => h stage (List.mem_cons_of_mem _ mem)).after_quiet first

theorem flows_trackTypes (s : State) : Flows trackTypes s := by
  refine flows_firstClaim _ s fun stage mem t => ?_
  simp only [List.mem_cons, List.not_mem_nil, or_false] at mem
  rcases mem with rfl | rfl | rfl | rfl | rfl | rfl | rfl
  · exact flows_openExternC t
  · exact flows_openEnum t
  · exact flows_openStruct t
  · exact flows_openClass t
  · exact flows_openFlatType t
  · exact flows_closeType t
  · exact flows_closeExternC t

theorem quiet_followFunction (s : State) :
    ∃ b t, followFunction.run s = .ok b t ∧ Quiet s t := by
  unfold followFunction
  simp only [EStateM.run_bind, EStateM.run_get]
  cases s.mode.function with
  | outside | signature => exact ⟨_, _, rfl, rfl, rfl, rfl, rfl, rfl⟩
  | body depth =>
    simp only []
    split_ifs
    · exact ⟨_, _, rfl, rfl, rfl, rfl, rfl, rfl⟩
    · exact ⟨_, _, rfl, rfl, rfl, rfl, rfl, rfl⟩

theorem flows_emitSuppressed (config : Config) (s : State) :
    Flows (emitSuppressed config >>= fun _ => pure true) s := by
  unfold emitSuppressed
  rw [bind_assoc, flows_get]
  cases config.rules.suppression with
  | annotate | comment => exact flows_emit _ _ s
  | drop => exact flows_pure true s

theorem flows_trackFunctions (config : Config) (s : State) : Flows (trackFunctions config) s := by
  unfold trackFunctions
  rw [flows_get]
  split_ifs
  · exact flows_pure false s
  · obtain ⟨b, t, run, q⟩ := quiet_followFunction s
    refine flows_bind run q ?_
    cases b with
    | true => exact flows_emitSuppressed config t
    | false => exact flows_pure false t

theorem flows_defineConstants (s : State) : Flows defineConstants s := by
  unfold defineConstants
  rw [flows_get]
  split
  · exact flows_emit _ _ s
  · exact flows_pure false s

theorem flows_convertMethods (config : Config) (s : State) : Flows (convertMethods config) s := by
  unfold convertMethods
  rw [flows_get]
  split_ifs
  · exact flows_pure false s
  · split
    · exact flows_emit _ _ s
    · exact flows_pure false s

theorem flows_throw (e : ConvertError) (s : State) (ne : e ≠ .stream .full) :
    Flows (throw e) s := .inr ⟨ne, Quiet.refl s⟩

/-- A step that leaves the output alone, in success and in failure. -/
def Still (x : Conversion α) : Prop :=
  ∀ s, match x.run s with
    | .ok _ t => Quiet s t
    | .error e t => e ≠ .stream .full ∧ Quiet s t

theorem flows_bind_still {x : Conversion α} {f : α → Conversion Bool} (h : Still x)
    (k : ∀ a t, Flows (f a) t) : Flows (x >>= f) s := by
  have step := h s
  unfold Flows at *
  rw [EStateM.run_bind]
  cases run : x.run s with
  | ok a t =>
    rw [run] at step
    exact Flow.after_quiet step (k a t)
  | error e t =>
    rw [run] at step
    exact .inr step

theorem still_note (e : Event) : Still (note e) := fun _ => ⟨rfl, rfl, rfl, rfl, rfl⟩

theorem still_remark (d : Diagnostic) : Still (remark d) := fun _ => ⟨rfl, rfl, rfl, rfl, rfl⟩

theorem still_replaceLine (config : Config) (text : Text) : Still (replaceLine config text) := by
  intro s
  simp only [replaceLine, retokenize, EStateM.run_bind, EStateM.run_modify, EStateM.run_get]
  cases (Line.ofText text).retokenize config.rules.maxTokens with
  | ok line => exact ⟨rfl, rfl, rfl, rfl, rfl⟩
  | error e => exact ⟨by simp, rfl, rfl, rfl, rfl, rfl⟩

theorem still_addEnumValue (name : Text) : Still (addEnumValue name) := by
  intro s
  rw [run_addEnumValue]
  exact quiet_addValue s name

theorem flows_editMacro (config : Config) (s : State) : Flows (editMacro config) s := by
  unfold editMacro
  rw [flows_get]
  split_ifs
  · split
    · split
      · exact flows_throw _ s (by simp)
      · exact flows_pure false s
      · refine flows_bind_still (still_note _) fun _ t => ?_
        refine flows_bind_still (still_replaceLine config _) fun _ t => ?_
        refine flows_bind_still (still_remark _) fun _ t => ?_
        exact flows_pure false t
    · exact flows_pure false s
  · exact flows_pure false s

theorem flows_recordFirstWord (s : State) : Flows recordFirstWord s := by
  unfold recordFirstWord
  rw [flows_get]
  split
  · exact flows_bind_still (still_addEnumValue _) fun _ u => flows_pure false u
  · exact flows_pure false s

theorem flows_recordEnumValue (config : Config) (s : State) : Flows (recordEnumValue config) s := by
  unfold recordEnumValue
  rw [flows_get]
  split_ifs
  · exact flows_pure false s
  split
  · exact flows_pure false s
  · split
    · split
      · split
        · exact flows_throw _ s (by simp)
        · exact flows_bind_still (still_replaceLine config _) fun _ t => flows_recordFirstWord t
      · exact flows_recordFirstWord s
    · exact flows_recordFirstWord s

theorem delivery_putDirect {s t : State} (q : Quiet s t) (c : Chunk) :
    Delivery s (t.putDirect c) :=
  .after_quiet q (.written [c] id rfl rfl rfl rfl)

theorem quiet_addMember (s : State) (name : Text) : Quiet s (s.addMember name) := by
  unfold State.addMember
  split_ifs
  · exact Quiet.refl s
  · exact ⟨rfl, rfl, rfl, rfl, rfl⟩

theorem flows_liftMember (s : State) : Flows liftMember s := by
  cases h : s.line.text.declaredName? with
  | none =>
    unfold liftMember
    rw [flows_get, h]
    exact flows_pure false s
  | some name =>
    exact flows_of_reaches (reaches_liftMember h) (delivery_putDirect (quiet_addMember s name) _)

theorem flows_liftMembers (s : State) : Flows liftMembers s := by
  unfold liftMembers
  rw [flows_get]
  by_cases idle : (!s.mode.classState.isActive || s.line.isEmpty) = true
  · rw [if_pos idle]
    exact flows_pure false s
  rw [if_neg idle]
  split
  · rename_i name _
    have brace := reaches_emitDirect .copied s.line.text (s.openBrace name)
    exact flows_of_reaches ((reaches_modifyMode _).2 (brace.then_run rfl rfl))
      (.written [⟨.copied, s.line.text⟩] (fun _ => rfl) rfl rfl rfl rfl)
  · split_ifs
    · exact flows_pure true s
    · exact flows_liftMember s

theorem flows_stages (config : Config) (s : State) : Flows (firstClaim (stages config)) s := by
  refine flows_firstClaim _ s fun stage mem t => ?_
  simp only [stages, List.mem_cons, List.not_mem_nil, or_false] at mem
  rcases mem with rfl | rfl | rfl | rfl | rfl | rfl | rfl | rfl
  · exact flows_passComments t
  · exact flows_editMacro config t
  · exact flows_trackTypes t
  · exact flows_trackFunctions config t
  · exact flows_defineConstants t
  · exact flows_recordEnumValue config t
  · exact flows_convertMethods config t
  · exact flows_liftMembers t

theorem flows_unclaimed {x : Conversion Bool} {f : Bool → Conversion Bool} (h : Flows x s)
    (claimed : f true = pure true) (k : ∀ t, Flows (f false) t) : Flows (x >>= f) s := by
  unfold Flows at *
  rw [EStateM.run_bind]
  cases run : x.run s with
  | error e t =>
    rw [run] at h
    exact h
  | ok b t =>
    rw [run] at h
    cases b with
    | true =>
      simp only [claimed]
      exact h
    | false => exact (k t).after_quiet h

theorem flows_classify (config : Config) (s : State) :
    Flows (classify config >>= fun _ => pure true) s := by
  unfold classify
  rw [bind_assoc, flows_get]
  split_ifs
  · rw [bind_assoc]
    exact flows_unclaimed (flows_stages config s) rfl flows_emitLine
  · exact flows_emitLine s

theorem still_retokenize (config : Config) : Still (retokenize config) := by
  intro s
  simp only [retokenize, EStateM.run_bind, EStateM.run_get]
  cases s.line.retokenize config.rules.maxTokens with
  | ok line => exact ⟨rfl, rfl, rfl, rfl, rfl⟩
  | error e => exact ⟨by simp, rfl, rfl, rfl, rfl, rfl⟩

theorem still_beginLine (config : Config) (raw : Text) : Still (beginLine config raw) := by
  intro s
  simp only [beginLine, EStateM.run_bind, EStateM.run_modify, EStateM.run_get]
  cases s.mode.classState.isActive <;> exact ⟨rfl, rfl, rfl, rfl, rfl⟩

theorem flows_skipLine (raw : Text) (limit : Nat) (s : State) :
    Flows (skipLine raw limit >>= fun _ => pure true) s := by
  unfold skipLine
  rw [bind_assoc, flows_get]
  simp only [bind_assoc]
  refine flows_bind_still (still_note _) fun _ t => ?_
  refine flows_bind_still (still_remark _) fun _ u => ?_
  exact flows_bind rfl ⟨rfl, rfl, rfl, rfl, rfl⟩ (flows_emitLine _)

/-- An error other than that of a full sink is handled where the output is still what it was. -/
theorem flows_tryCatch {x : Conversion Unit} {f : ConvertError → Conversion Unit}
    (h : Flows (x >>= fun _ => pure true) s) (full : f (.stream .full) = throw (.stream .full))
    (k : ∀ e t, e ≠ .stream .full → Flows (f e >>= fun _ => pure true) t) :
    Flows (tryCatch x f >>= fun _ => pure true) s := by
  unfold Flows at *
  rw [EStateM.run_bind] at h ⊢
  rw [run_tryCatch]
  cases run : x.run s with
  | ok _ t =>
    rw [run] at h
    exact h
  | error e t =>
    rw [run] at h
    rcases h with ⟨rfl, lost⟩ | ⟨ne, quiet⟩
    · simp only [full]
      exact .inl ⟨rfl, lost⟩
    · have rest := k e t ne
      rw [EStateM.run_bind] at rest
      exact rest.after_quiet quiet

theorem flows_recover (config : Config) (raw : Text) (e : ConvertError) (s : State)
    (ne : e ≠ .stream .full) : Flows (recover config raw e >>= fun _ => pure true) s := by
  have fails (e : ConvertError) (ne : e ≠ .stream .full) :
      Flows (throw e >>= fun _ : Unit => pure true) s := .inr ⟨ne, Quiet.refl s⟩
  cases e with
  | tooManyTokens line limit =>
    unfold recover
    cases config.rules.overflow with
    | skip => exact flows_skipLine raw limit s
    | abort => exact fails _ ne
  | _ => exact fails _ ne

theorem flows_processLine (config : Config) (raw : Text) (s : State) :
    Flows (processLine config raw >>= fun _ => pure true) s := by
  unfold processLine
  rw [bind_assoc]
  refine flows_bind_still (still_beginLine config raw) fun _ t => ?_
  refine flows_tryCatch ?_ rfl fun e u => flows_recover config raw e u
  rw [bind_assoc]
  exact flows_bind_still (still_retokenize config) fun _ u => flows_classify config u

end HeaderFlattening.Conversion
