import HeaderFlattening.Proofs.Erasure
import HeaderFlattening.Proofs.Shapes
import Mathlib.Data.List.Forall2

/-!
The setting for suppressed lines changes how these lines look and nothing else. Each stage runs the
same whether suppressed lines are kept or dropped, and so do whole conversions; two conversions that
differ in the setting are compared through the one that drops.
-/

set_option autoImplicit false
namespace HeaderFlattening

/-- The configuration with another treatment of suppressed lines. -/
def Config.withSuppression (config : Config) (suppression : Suppression) : Config :=
  { config with rules := { config.rules with suppression } }

namespace Conversion

variable {s t : State} (config : Config)

theorem mirrored_claim {x y : Conversion Unit} (h : Mirrored x y s) :
    Mirrored (x >>= fun _ => pure true) (y >>= fun _ => pure true) s :=
  mirrored_bind h fun _ t => mirrored_pure true t

theorem mirrored_mode_if {c : Prop} [Decidable c] {f g : Unit → Conversion Bool} (m : Mode → Mode)
    (k : ∀ t, Mirrored (f ()) (g ()) t) :
    Mirrored (if c then modifyMode m >>= f else f ()) (if c then modifyMode m >>= g else g ()) s :=
  mirrored_ite (fun _ => mirrored_bind (mirrored_modifyMode m s) fun _ t => k t) fun _ => k s

theorem mirrored_passComments (s : State) : Mirrored passComments passComments s := by
  unfold passComments
  simp only [mirrored_get, State.line_plain]
  refine mirrored_ite (fun _ => mirrored_claim (mirrored_emitLine s)) fun _ => ?_
  refine mirrored_mode_if _ fun t => ?_
  simp only [mirrored_get, State.line_plain, State.mode_plain]
  refine mirrored_ite (fun _ => ?_) fun _ => mirrored_pure false t
  exact mirrored_mode_if _ fun u => mirrored_claim (mirrored_emitLine u)

theorem mirrored_replaceLine (text : Text) (s : State) :
    Mirrored (replaceLine config text) (replaceLine config text) s :=
  mirrored_bind (fun tidy => ⟨rfl, rfl, tidy.unbounded, tidy.comments⟩) fun _ t =>
    mirrored_retokenize config t

theorem mirrored_editMacro (s : State) : Mirrored (editMacro config) (editMacro config) s := by
  unfold editMacro
  simp only [mirrored_get, State.line_plain]
  refine mirrored_ite (fun _ => ?_) fun _ => mirrored_pure false s
  split
  · split
    · exact mirrored_throw _ s
    · exact mirrored_pure false s
    · refine mirrored_bind (mirrored_note _ s) fun _ t => ?_
      refine mirrored_bind (mirrored_replaceLine config _ t) fun _ t => ?_
      exact mirrored_bind (mirrored_remark _ t) fun _ t => mirrored_pure false t
  · exact mirrored_pure false s

theorem mirrored_openExternC (s : State) : Mirrored openExternC openExternC s := by
  unfold openExternC
  simp only [mirrored_get, State.line_plain]
  exact mirrored_ite (fun _ => mirrored_claim (mirrored_modifyMode _ s)) fun _ =>
    mirrored_pure false s

theorem mirrored_emitOpener (keyword : Text) (d : TypeDeclaration) (s : State) :
    Mirrored (emitOpener keyword d) (emitOpener keyword d) s := by
  refine mirrored_bind (mirrored_emit _ s (by decide)) fun _ t => ?_
  exact mirrored_ite (fun _ => mirrored_emit _ t (by decide)) fun _ => mirrored_pure () t

theorem mirrored_openEnumBody (d : TypeDeclaration) (s : State) :
    Mirrored (openEnumBody d) (openEnumBody d) s := by
  unfold openEnumBody
  refine mirrored_bind (mirrored_modifyMode _ s) fun _ t => ?_
  simp only [mirrored_get, State.mode_plain]
  refine mirrored_ite (fun _ => ?_) fun _ => mirrored_emitOpener _ d t
  exact mirrored_bind (mirrored_takeEnumComments t) fun _ u => mirrored_emitOpener _ d u

theorem mirrored_addEnumValues (names : List Text) (s : State) :
    Mirrored (names.forM addEnumValue) (names.forM addEnumValue) s := by
  induction names generalizing s with
  | nil => exact mirrored_pure () s
  | cons name names ih => exact mirrored_bind (mirrored_addEnumValue name s) fun _ t => ih t

theorem mirrored_emitEnumLine (name : Text) (e : EnumLine) (s : State) :
    Mirrored (emitEnumLine name e) (emitEnumLine name e) s := by
  unfold emitEnumLine
  simp only [mirrored_get, State.mode_plain]
  refine mirrored_bind (mirrored_addEnumValues _ s) fun _ t => ?_
  simp only [mirrored_get, State.mode_plain]
  refine mirrored_ite (fun _ => mirrored_bind (mirrored_takeEnumComments t) fun _ u => ?_) fun _ => ?_
  all_goals refine mirrored_bind (mirrored_modifyMode _ _) fun _ u => ?_
  all_goals refine mirrored_bind (mirrored_emit _ u (by decide)) fun _ v => ?_
  all_goals exact mirrored_modifyMode _ v

theorem mirrored_openEnum (s : State) : Mirrored openEnum openEnum s := by
  unfold openEnum
  simp only [mirrored_get, State.line_plain]
  split
  · exact mirrored_pure false s
  · split
    · exact mirrored_claim (mirrored_emitLine s)
    · split
      · exact mirrored_claim (mirrored_emitEnumLine _ _ s)
      · exact mirrored_claim (mirrored_openEnumBody _ s)
    · exact mirrored_claim (mirrored_openEnumBody _ s)

theorem mirrored_openStruct (s : State) : Mirrored openStruct openStruct s := by
  unfold openStruct
  simp only [mirrored_get, State.line_plain]
  split
  · exact mirrored_pure false s
  · refine mirrored_ite (fun _ => mirrored_claim (mirrored_emitLine s)) fun _ => ?_
    refine mirrored_bind (mirrored_emitOpener _ _ s) fun _ t => ?_
    exact mirrored_claim (mirrored_modifyMode _ t)

theorem mirrored_enterClass (classState : ClassState) (s : State) :
    Mirrored (enterClass classState) (enterClass classState) s :=
  fun tidy => ⟨rfl, rfl, tidy.unbounded, tidy.comments⟩

theorem mirrored_openClass (s : State) : Mirrored openClass openClass s := by
  unfold openClass
  simp only [mirrored_get, State.line_plain]
  split
  · exact mirrored_pure false s
  · split
    · exact mirrored_claim (mirrored_emit _ s (by decide))
    · exact mirrored_bind (mirrored_emit _ s (by decide)) fun _ t =>
        mirrored_claim (mirrored_enterClass _ t)
    · exact mirrored_bind (mirrored_emit _ s (by decide)) fun _ t =>
        mirrored_claim (mirrored_enterClass _ t)

theorem mirrored_openFlatType (s : State) : Mirrored openFlatType openFlatType s := by
  unfold openFlatType
  simp only [mirrored_get, State.line_plain]
  refine mirrored_ite (fun _ => mirrored_pure false s) fun _ => ?_
  refine mirrored_ite (fun _ => ?_) fun _ => ?_
  · refine mirrored_bind (mirrored_modifyMode _ s) fun _ t => ?_
    simp only [mirrored_get, State.mode_plain]
    refine mirrored_ite (fun _ => ?_) fun _ => mirrored_claim (mirrored_emitLine t)
    exact mirrored_bind (mirrored_takeEnumComments t) fun _ u => mirrored_claim (mirrored_emitLine u)
  · refine mirrored_ite (fun _ => ?_) fun _ => mirrored_pure false s
    exact mirrored_bind (mirrored_modifyMode _ s) fun _ t => mirrored_claim (mirrored_emitLine t)

theorem mirrored_emitCloser (body : TypeBody) (s : State) :
    Mirrored (emitCloser body) (emitCloser body) s :=
  mirrored_ite (fun _ => mirrored_emitLine s) fun _ => mirrored_emit _ s (by decide)

theorem mirrored_closeClass (name : Text) (s : State) :
    Mirrored (closeClass name) (closeClass name) s := by
  unfold closeClass
  refine mirrored_bind (mirrored_modifyMode _ s) fun _ t => ?_
  refine mirrored_bind (mirrored_emitDirect _ t (by decide)) fun _ u => ?_
  refine mirrored_bind (mirrored_flushPending u) fun _ v => ?_
  exact fun tidy => ⟨rfl, rfl, tidy.unbounded, tidy.comments⟩

theorem mirrored_closeType (s : State) : Mirrored closeType closeType s := by
  unfold closeType
  simp only [mirrored_get, State.line_plain, State.mode_plain]
  refine mirrored_ite (fun _ => mirrored_pure false s) fun _ => ?_
  split
  · refine mirrored_bind (mirrored_emitCloser _ s) fun _ t => ?_
    exact mirrored_claim (mirrored_modifyMode _ t)
  · split
    · refine mirrored_bind (mirrored_modifyMode _ s) fun _ t => ?_
      exact mirrored_claim (mirrored_emitCloser _ t)
    · split
      · exact mirrored_claim (mirrored_closeClass _ s)
      · exact mirrored_pure false s

theorem mirrored_closeExternC (s : State) : Mirrored closeExternC closeExternC s := by
  unfold closeExternC
  simp only [mirrored_get, State.line_plain, State.mode_plain]
  exact mirrored_ite (fun _ => mirrored_claim (mirrored_modifyMode _ s)) fun _ =>
    mirrored_pure false s

/-- Stages in a row mirror each other when each of them does. -/
theorem mirrored_firstClaim {xs ys : List (Conversion Bool)}
    (h : List.Forall₂ (fun x y => ∀ t, Mirrored x y t) xs ys) (s : State) :
    Mirrored (firstClaim xs) (firstClaim ys) s := by
  induction h generalizing s with
  | nil => exact mirrored_pure false s
  | cons first _ ih =>
    refine mirrored_bind (first s) fun claimed t => ?_
    cases claimed with
    | true => exact mirrored_pure true t
    | false => exact ih t

theorem mirrored_trackTypes (s : State) : Mirrored trackTypes trackTypes s := by
  refine mirrored_firstClaim ?_ s
  refine .cons mirrored_openExternC ?_
  refine .cons mirrored_openEnum ?_
  refine .cons mirrored_openStruct ?_
  refine .cons mirrored_openClass ?_
  refine .cons mirrored_openFlatType ?_
  refine .cons mirrored_closeType ?_
  exact .cons mirrored_closeExternC .nil

theorem mirrored_followFunction (s : State) : Mirrored followFunction followFunction s := by
  unfold followFunction
  simp only [mirrored_get, State.mode_plain, State.line_plain]
  split
  · refine mirrored_ite (fun _ => ?_) fun _ => mirrored_claim (mirrored_modifyMode _ s)
    exact mirrored_bind (mirrored_note _ s) fun _ t => mirrored_claim (mirrored_modifyMode _ t)
  · exact fun tidy => ⟨rfl, rfl, tidy.unbounded, tidy.comments⟩

/-- What a line of a function leaves in the output is not seen by the run that drops it. -/
theorem mirrored_put_suppressed {x : Text} (comment : x.isBlankOrComment = true) (s : State) :
    Mirrored (emit .suppressed x) (pure ()) s := by
  have hidden : Chunk.isPlain ⟨.suppressed, x⟩ = false := rfl
  refine mirrored_of_run (a := ()) (t := s.put ⟨.suppressed, x⟩) fun tidy =>
    ⟨?_, ?_, tidy.put fun _ => comment⟩
  · exact (reaches_emit .suppressed x s).run_eq tidy.unbounded
  · rw [State.plain_put_suppressed hidden]
    rfl

theorem mirrored_emitSuppressed (s : State) :
    Mirrored (emitSuppressed config) (emitSuppressed (config.withSuppression .drop)) s := by
  unfold emitSuppressed
  rw [mirrored_get]
  show Mirrored _ (pure ()) s
  cases config.rules.suppression with
  | annotate => exact mirrored_put_suppressed (Text.isBlankOrComment_slashes _) s
  | comment => exact mirrored_put_suppressed (Text.isBlankOrComment_slashes _) s
  | drop => exact mirrored_pure () s

theorem mirrored_trackFunctions (s : State) :
    Mirrored (trackFunctions config) (trackFunctions (config.withSuppression .drop)) s := by
  unfold trackFunctions
  simp only [mirrored_get, State.mode_plain]
  refine mirrored_ite (fun _ => mirrored_pure false s) fun _ => ?_
  refine mirrored_bind (mirrored_followFunction s) fun claimed t => ?_
  exact mirrored_ite (fun _ => mirrored_claim (mirrored_emitSuppressed config t)) fun _ =>
    mirrored_pure false t

theorem mirrored_defineConstants (s : State) : Mirrored defineConstants defineConstants s := by
  unfold defineConstants
  simp only [mirrored_get, State.line_plain]
  split
  · exact mirrored_claim (mirrored_emit _ s (by decide))
  · exact mirrored_pure false s

theorem mirrored_recordFirstWord (s : State) : Mirrored recordFirstWord recordFirstWord s := by
  unfold recordFirstWord
  simp only [mirrored_get, State.line_plain]
  split
  · exact mirrored_bind (mirrored_addEnumValue _ s) fun _ t => mirrored_pure false t
  · exact mirrored_pure false s

theorem mirrored_recordEnumValue (s : State) :
    Mirrored (recordEnumValue config) (recordEnumValue config) s := by
  unfold recordEnumValue
  simp only [mirrored_get, State.line_plain, State.mode_plain]
  refine mirrored_ite (fun _ => mirrored_pure false s) fun _ => ?_
  split
  · exact mirrored_pure false s
  · split
    · split
      · split
        · exact mirrored_throw _ s
        · exact mirrored_bind (mirrored_replaceLine config _ s) fun _ t => mirrored_recordFirstWord t
      · exact mirrored_recordFirstWord s
    · exact mirrored_recordFirstWord s

theorem mirrored_convertMethods (s : State) :
    Mirrored (convertMethods config) (convertMethods config) s := by
  unfold convertMethods
  simp only [mirrored_get, State.line_plain, State.mode_plain]
  refine mirrored_ite (fun _ => mirrored_pure false s) fun _ => ?_
  split
  · exact mirrored_claim (mirrored_emit _ s (by decide))
  · exact mirrored_pure false s

theorem mirrored_liftMember (s : State) : Mirrored liftMember liftMember s := by
  have lift (x : Text) (t : State) : Mirrored (emitDirect .member x >>= fun _ => pure true)
      (emitDirect .member x >>= fun _ => pure true) t :=
    mirrored_claim (mirrored_emitDirect x t (by decide))
  unfold liftMember
  rw [mirrored_get, State.line_plain]
  split
  · exact mirrored_pure false s
  · refine mirrored_ite (fun _ => lift _ s) fun _ => ?_
    refine mirrored_bind (fun tidy => ⟨rfl, rfl, tidy.unbounded, tidy.comments⟩) fun _ t => ?_
    exact mirrored_bind (mirrored_note _ t) fun _ u => lift _ u

theorem mirrored_liftMembers (s : State) : Mirrored liftMembers liftMembers s := by
  unfold liftMembers
  rw [mirrored_get, State.line_plain, State.mode_plain]
  refine mirrored_ite (fun _ => mirrored_pure false s) fun _ => ?_
  split
  · refine mirrored_bind (mirrored_modifyMode _ s) fun _ t => ?_
    exact mirrored_claim (mirrored_emitDirect _ t (by decide))
  · exact mirrored_ite (fun _ => mirrored_pure true s) fun _ => mirrored_liftMember s

theorem mirrored_stages (s : State) :
    Mirrored (firstClaim (stages config)) (firstClaim (stages (config.withSuppression .drop))) s := by
  refine mirrored_firstClaim ?_ s
  refine .cons mirrored_passComments ?_
  refine .cons (mirrored_editMacro config) ?_
  refine .cons mirrored_trackTypes ?_
  refine .cons (mirrored_trackFunctions config) ?_
  refine .cons mirrored_defineConstants ?_
  refine .cons (mirrored_recordEnumValue config) ?_
  refine .cons (mirrored_convertMethods config) ?_
  exact .cons mirrored_liftMembers .nil

theorem mirrored_classify (s : State) :
    Mirrored (classify config) (classify (config.withSuppression .drop)) s := by
  unfold classify
  simp only [mirrored_get, State.line_plain]
  refine mirrored_ite (fun _ => ?_) fun _ => mirrored_emitLine s
  refine mirrored_bind (mirrored_stages config s) fun claimed t => ?_
  exact mirrored_ite (fun _ => mirrored_pure () t) fun _ => mirrored_emitLine t

theorem mirrored_beginLine (raw : Text) (s : State) :
    Mirrored (beginLine config raw) (beginLine config raw) s := by
  unfold beginLine
  refine mirrored_bind (fun tidy => ⟨rfl, rfl, tidy.unbounded, tidy.comments⟩) fun _ t => ?_
  simp only [mirrored_get, State.mode_plain]
  refine mirrored_ite (fun _ => ?_) fun _ => mirrored_pure () t
  exact fun tidy => ⟨rfl, rfl, tidy.unbounded, tidy.comments⟩

theorem mirrored_skipLine (raw : Text) (limit : Nat) (s : State) :
    Mirrored (skipLine raw limit) (skipLine raw limit) s := by
  unfold skipLine
  simp only [mirrored_get]
  refine mirrored_bind (mirrored_note _ s) fun _ t => ?_
  refine mirrored_bind (mirrored_remark _ t) fun _ u => ?_
  refine mirrored_bind (fun tidy => ⟨rfl, rfl, tidy.unbounded, tidy.comments⟩) fun _ v => ?_
  exact mirrored_emitLine v

theorem mirrored_recover (raw : Text) (e : ConvertError) (s : State) :
    Mirrored (recover config raw e) (recover (config.withSuppression .drop) raw e) s := by
  cases e with
  | tooManyTokens line limit =>
    simp only [recover, Config.withSuppression]
    split
    · exact mirrored_skipLine raw _ s
    · exact mirrored_throw _ s
  | _ => exact mirrored_throw _ s

theorem mirrored_tryCatch {x y : Conversion Unit} {f g : ConvertError → Conversion Unit}
    (h : Mirrored x y s) (k : ∀ e t, Mirrored (f e) (g e) t) :
    Mirrored (tryCatch x f) (tryCatch y g) s := by
  intro tidy
  rw [run_tryCatch, run_tryCatch]
  obtain ⟨t, tidy, ⟨a, run, mirror⟩ | ⟨e, run, mirror⟩⟩ := h.ends tidy
  · rw [run, mirror]
    exact ⟨rfl, rfl, tidy⟩
  · rw [run, mirror]
    exact k e t tidy

theorem mirrored_processLine (raw : Text) (s : State) :
    Mirrored (processLine config raw) (processLine (config.withSuppression .drop) raw) s := by
  unfold processLine
  refine mirrored_bind (mirrored_beginLine config raw s) fun _ t => ?_
  refine mirrored_tryCatch ?_ fun e u => mirrored_recover config raw e u
  refine mirrored_bind (mirrored_retokenize config t) fun _ u => ?_
  exact mirrored_classify config u

theorem mirrored_finish (s : State) : Mirrored finish finish s := by
  unfold finish
  simp only [mirrored_get, State.mode_plain]
  split
  · refine mirrored_bind (mirrored_note _ s) fun _ t => ?_
    exact mirrored_bind (mirrored_remark _ t) fun _ u => mirrored_flushPending u
  · exact mirrored_pure () s

theorem mirrored_processAll (lines : List (Except StreamFault Text)) (s : State) :
    Mirrored (processAll config lines) (processAll (config.withSuppression .drop) lines) s := by
  induction lines generalizing s with
  | nil => exact mirrored_finish s
  | cons line lines ih =>
    cases line with
    | error fault => exact mirrored_throw _ s
    | ok raw => exact mirrored_bind (mirrored_processLine config raw s) fun _ t => ih t

/-- What a run leaves, without its suppressed lines, is what the run that drops them leaves. -/
theorem plain_stateAfter {α : Type} {x y : Conversion α} (h : Mirrored x y s) (tidy : s.Tidy) :
    (stateAfter x s).Tidy ∧ stateAfter y s.plain = (stateAfter x s).plain := by
  unfold stateAfter
  obtain ⟨t, tidy, ⟨a, run, mirror⟩ | ⟨e, run, mirror⟩⟩ := h.ends tidy
  · rw [run, mirror]
    exact ⟨tidy, rfl⟩
  · rw [run, mirror]
    exact ⟨tidy, rfl⟩

theorem plain_runLines (lines : List Text) (tidy : s.Tidy) :
    runLines (config.withSuppression .drop) lines s.plain = (runLines config lines s).plain := by
  induction lines generalizing s with
  | nil => rfl
  | cons raw lines ih =>
    obtain ⟨tidy', step⟩ := plain_stateAfter (mirrored_processLine config raw s) tidy
    simp only [runLines]
    rw [step]
    exact ih tidy'

theorem tidy_start : State.Tidy {} := ⟨rfl, fun _ mem => absurd mem List.not_mem_nil⟩

/-- Dropping suppressed lines changes neither the error nor the report of a conversion. -/
theorem report_of_dropping (t : Text) :
    (convertText (config.withSuppression .drop) t).map Converted.report =
      (convertText config t).map Converted.report := by
  have ends := (mirrored_processAll config (t.lines.map .ok) {}).ends tidy_start
  have start : State.plain {} = {} := rfl
  rw [start] at ends
  unfold convertText convertLines
  obtain ⟨u, -, ⟨a, run, mirror⟩ | ⟨e, run, mirror⟩⟩ := ends
  · rw [run, mirror]
    rfl
  · rw [run, mirror]
    rfl

/-- The setting for suppressed lines changes only how these lines are written. Two conversions of a
text that differ in it fail with the same error or give the same report; behind every line they are
in the same mode, know the same enum values and class members, and have put off and written the same
text but for the suppressed lines; and so it is at the end. The levels that annotations show come from
the depth as a plain integer, for which `function_depth_wellFormed` has the bound of 32 bits. -/
theorem suppression_only_renders (suppression : Suppression) (t : Text) :
    (convertText (config.withSuppression suppression) t).map Converted.report =
      (convertText config t).map Converted.report ∧
    plainChunks
        (stateAfter (processAll (config.withSuppression suppression) (t.lines.map .ok)) {}).sink.offered =
      plainChunks (stateAfter (processAll config (t.lines.map .ok)) {}).sink.offered ∧
    ∀ n,
      let u := runLines (config.withSuppression suppression) (t.lines.take n) {}
      let v := runLines config (t.lines.take n) {}
      u.mode = v.mode ∧ u.enumValues = v.enumValues ∧ u.memberNames = v.memberNames ∧
      plainChunks u.pendingEnums = plainChunks v.pendingEnums ∧
      plainChunks u.pendingMembers = plainChunks v.pendingMembers ∧
      plainChunks u.sink.offered = plainChunks v.sink.offered := by
  have written (c : Config) : plainChunks (stateAfter (processAll c (t.lines.map .ok)) {}).sink.offered =
      (stateAfter (processAll (c.withSuppression .drop) (t.lines.map .ok)) {}).sink.offered := by
    have h := (plain_stateAfter (mirrored_processAll c (t.lines.map .ok) {}) tidy_start).2
    exact (congrArg (fun s => s.sink.offered) h).symm
  refine ⟨?_, ?_, ?_⟩
  · rw [← report_of_dropping config t, ← report_of_dropping (config.withSuppression suppression) t]
    rfl
  · rw [written config, written (config.withSuppression suppression)]
    rfl
  · intro n u v
    have same : u.plain = v.plain := by
      have left := plain_runLines (config.withSuppression suppression) (t.lines.take n) tidy_start
      have right := plain_runLines config (t.lines.take n) tidy_start
      exact left.symm.trans right
    have mode : u.plain.mode = v.plain.mode := congrArg State.mode same
    have values : u.plain.enumValues = v.plain.enumValues := congrArg State.enumValues same
    have names : u.plain.memberNames = v.plain.memberNames := congrArg State.memberNames same
    exact ⟨mode, values, names, congrArg State.pendingEnums same,
      congrArg State.pendingMembers same,
      congrArg (fun s : State => s.sink.offered) same⟩

end Conversion
end HeaderFlattening
