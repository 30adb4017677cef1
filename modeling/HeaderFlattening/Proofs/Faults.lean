import HeaderFlattening.Proofs.Overflow
import HeaderFlattening.Proofs.Tame

/-!
Which errors can occur. Every stage gets the line with the tokens of its text, so no part of a line is
looked for outside it, and a conversion of a text fails only for a line with too many tokens, and only
if the settings ask for that.
-/

set_option autoImplicit false
namespace HeaderFlattening.Conversion

variable {config : Config} {raw : Text} {s t : State}

/-- The stage gets the line in the state `t`: the tokens were found, there are some, and no stage before
it has claimed the line. -/
inductive Enters (config : Config) (raw : Text) (s : State) (stage : Conversion Bool) (t : State) : Prop
  | intro {before after : List (Conversion Bool)} {u : State}
      (order : stages config = before ++ stage :: after)
      (found : (beginLine config raw >>= fun _ => retokenize config).run s = .ok () u)
      (full : u.line.isEmpty = false)
      (passed : (firstClaim before).run u = .ok false t) : Enters config raw s stage t

theorem run_beginLine_retokenize (config : Config) (raw : Text) (s : State) :
    (beginLine config raw >>= fun _ => retokenize config).run s =
      (retokenize config).run (s.begin config raw) := by
  rw [EStateM.run_bind, run_beginLine]
  rfl

theorem line_retokenized {u : State}
    (h : (beginLine config raw >>= fun _ => retokenize config).run s = .ok () u) :
    u.line = .cut u.line.text := by
  rw [run_beginLine_retokenize] at h
  have ended := ends_retokenize (fun _ => ()) config (s.begin config raw) (Line.current_ofText _)
  rw [h] at ended
  cases ended with
  | ok line => exact line

/-- The stage gets all tokens of the text, as it then is. -/
theorem Enters.line_eq {stage : Conversion Bool} (h : Enters config raw s stage t) :
    t.line = .cut t.line.text := by
  obtain @⟨before, after, u, order, found, -, passed⟩ := h
  have stages_before : ∀ x ∈ before, ∀ s, Tame (fun _ => ()) config x s := by
    intro x mem
    refine tame_stage ?_
    rw [order]
    exact List.mem_append_left _ mem
  have ended := tame_firstClaim stages_before u (line_retokenized found)
  rw [passed] at ended
  cases ended with
  | ok line => exact line

theorem Enters.mem {stage : Conversion Bool} (h : Enters config raw s stage t) :
    stage ∈ stages config := by
  obtain ⟨order⟩ := h
  rw [order]
  exact List.mem_append_right _ List.mem_cons_self

/-- No stage fails because a part of the line could not be replaced. -/
theorem Enters.run_ne_replacement {stage : Conversion Bool} (h : Enters config raw s stage t)
    (e : TextError) (u : State) : stage.run t ≠ .error (.replacement e) u := by
  intro failed
  have ended := tame_stage h.mem t h.line_eq
  rw [failed] at ended
  cases ended with
  | error _ _ _ known => rcases known with known | known <;> cases known

theorem tame_classify (s : State) : Tame (fun _ => ()) config (classify config) s := by
  refine tame_get ?_
  split_ifs
  · refine (tame_firstClaim (fun _ mem => tame_stage mem) s).bind fun claimed t => ?_
    split_ifs
    · exact tame_pure () t
    · exact tame_emitLine t
  · exact tame_emitLine s

/-- How a line can end. Behind it the tokens are those of its text, or there are none. -/
structure LineEnd (config : Config) (number : Nat) (r : EStateM.Result ConvertError State Unit) :
    Prop where
  current : (endOf r).line.Current
  known : ∀ e t, r = .error e t → e = .stream .full ∨
    (config.rules.overflow = .abort ∧ e = .tooManyTokens number config.rules.maxTokens)

theorem lineEnd_ok {number : Nat} {u : State} (line : u.line.Current) :
    LineEnd config number (.ok () u) :=
  ⟨line, fun _ _ eq => by cases eq⟩

theorem lineEnd_error {number : Nat} {e : ConvertError} {u : State} (line : u.line.Current)
    (known : e = .stream .full ∨
      (config.rules.overflow = .abort ∧ e = .tooManyTokens number config.rules.maxTokens)) :
    LineEnd config number (.error e u) := by
  refine ⟨line, fun e' t eq => ?_⟩
  cases eq
  exact known

theorem lineEnd_of_leaves {x : Conversion Unit} {number : Nat} (h : Leaves x s () t)
    (line : t.line.Current) : LineEnd config number (x.run s) := by
  rcases h with run | ⟨run, -⟩
  · rw [run]
    exact lineEnd_ok line
  · rw [run]
    exact lineEnd_error line (.inl rfl)

theorem lineEnd_recover (raw : Text) {e : ConvertError} {number : Nat} (line : s.line.Current)
    (h : e = .stream .full ∨ e = .tooManyTokens number config.rules.maxTokens) :
    LineEnd config number ((recover config raw e).run s) := by
  rcases h with rfl | rfl
  · exact lineEnd_error line (.inl rfl)
  · unfold recover
    cases overflow : config.rules.overflow with
    | abort => exact lineEnd_error line (.inr ⟨overflow, rfl⟩)
    | skip =>
      simp only [run_skipLine]
      refine lineEnd_of_leaves (leaves_emitLine _) ?_
      rw [State.line_put]
      exact Line.current_ofText raw

theorem lineEnd_processLine (config : Config) (raw : Text) (s : State) :
    LineEnd config (s.lineNumber + 1) ((processLine config raw).run s) := by
  have ended := (ends_retokenize (fun _ => ()) config (s.begin config raw)
    (Line.current_ofText _)).bind fun _ => tame_classify
  rw [run_processLine, run_tryCatch]
  generalize (retokenize config >>= fun _ => classify config).run (s.begin config raw) = r at ended
  cases ended with
  | ok line => exact lineEnd_ok (.inr line)
  | error line number _ known => exact lineEnd_recover raw line known

theorem line_current (config : Config) (room : Option Nat) (h : Reachable config room s) :
    s.line.Current := by
  cases h with
  | start => exact Line.current_ofText []
  | line raw _ =>
    rw [stateAfter_eq_endOf]
    exact (lineEnd_processLine config raw _).current

/-- Without a limit to what the sink keeps, the only fault left is a line with too many tokens. -/
theorem fault_processLine {e : ConvertError} {u : State} (room : s.sink.room = none)
    (h : (processLine config raw).run s = .error e u) :
    config.rules.overflow = .abort ∧
      e = .tooManyTokens (s.lineNumber + 1) config.rules.maxTokens := by
  rcases (lineEnd_processLine config raw s).known e u h with rfl | known
  · have grows := grows_processLine config raw s
    rw [run_processLine] at h grows
    have lost := ((steady_recovered config raw (s.begin config raw)).full _ u h).2
    rw [h] at grows
    have same : u.sink.room = none := grows.room.trans room
    unfold Sink.hasAll at lost
    rw [same] at lost
    exact absurd lost.symm Bool.false_ne_true
  · exact known

theorem exists_run_finish (room : s.sink.room = none) : ∃ t, finish.run s = .ok () t := by
  cases open' : s.mode.classState.name? with
  | none => exact ⟨s, run_finish_closed open'⟩
  | some name =>
    rw [run_finish_open open']
    exact ⟨_, (reaches_flushPending _).run_eq room⟩

theorem fault_processAll {ls : List Text} {e : ConvertError} {u : State} (room : s.sink.room = none)
    (h : (processAll config (ls.map .ok)).run s = .error e u) :
    config.rules.overflow = .abort ∧
      ∃ line, s.lineNumber < line ∧ line ≤ s.lineNumber + ls.length ∧
        e = .tooManyTokens line config.rules.maxTokens := by
  induction ls generalizing s with
  | nil =>
    obtain ⟨t, run⟩ := exists_run_finish room
    cases run.symm.trans h
  | cons raw ls ih =>
    rw [List.map_cons, processAll, EStateM.run_bind] at h
    cases run : (processLine config raw).run s with
    | ok _ t =>
      rw [run] at h
      have grows := grows_processLine config raw s
      rw [run] at grows
      have number : t.lineNumber = s.lineNumber + 1 := grows.lineNumber
      have sameRoom : t.sink.room = s.sink.room := grows.room
      obtain ⟨abort, line, lower, upper, rfl⟩ := ih (sameRoom.trans room) h
      rw [number] at lower upper
      refine ⟨abort, line, by omega, ?_, rfl⟩
      rw [List.length_cons]
      omega
    | error e' t =>
      rw [run] at h
      cases h
      obtain ⟨abort, rfl⟩ := fault_processLine room run
      refine ⟨abort, _, Nat.lt_succ_self _, ?_, rfl⟩
      rw [List.length_cons]
      omega

/-- Tokens are never those of an earlier text. However a line is set and its tokens are looked for,
they are those of its text or there are none, and each of them has a span that lies in the text between
characters. So each stage gets the tokens of the text as it then is, anything can be put in the place of
the first, and no stage fails because it could not be replaced. The conversion of a text fails for
nothing but a line with too many tokens, and only if such lines are not to be copied. -/
theorem tokens_never_stale (config : Config) :
    (∀ changes : List Line.Change, (changes.foldl Line.after {}).Current ∧
      (changes.foldl Line.after {}).Sound) ∧
    (∀ room s, Reachable config room s → s.line.Current ∧ ∀ raw stage t,
      Enters config raw s stage t → t.line = .cut t.line.text ∧
        (∀ w, t.line.word? 0 = some w → ∃ span before after, t.line.span? 0 = some span ∧
          t.line.text = before ++ w ++ after ∧
          ∀ v, t.line.text.splice v span.start span.length none = .ok (before ++ v ++ after)) ∧
        ∀ e u, stage.run t ≠ .error (.replacement e) u) ∧
    ∀ t e, convertText config t = .error e → config.rules.overflow = .abort ∧
      ∃ line, 1 ≤ line ∧ line ≤ t.lines.length ∧
        e = .tooManyTokens line config.rules.maxTokens := by
  refine ⟨fun changes => ?_, fun room s reachable => ⟨line_current config room reachable,
    fun raw stage t enters => ⟨enters.line_eq, fun w word => ?_, enters.run_ne_replacement⟩⟩,
    fun t e failed => ?_⟩
  · have current := (Line.current_ofText []).foldl_after changes
    exact ⟨current, current.sound⟩
  · rcases Line.Current.sound (.inr enters.line_eq) 0 with ⟨none, -⟩ | ⟨w', span, word', place, covers⟩
    · cases none.symm.trans word
    · cases word'.symm.trans word
      obtain ⟨before, after, text, spliced⟩ := covers.exists_splice
      exact ⟨span, before, after, place, text, spliced⟩
  · unfold convertText convertLines at failed
    cases run : (processAll config (t.lines.map .ok)).run {} with
    | ok _ u =>
      rw [run] at failed
      cases failed
    | error e' u =>
      rw [run] at failed
      cases failed
      obtain ⟨abort, line, lower, upper, eq⟩ := fault_processAll rfl run
      refine ⟨abort, line, lower, ?_, eq⟩
      rwa [Nat.zero_add] at upper

/-- What comes before the values of an enum in a class. -/
def enumInClass : List Text := ["class K \x7b\n".toList, "enum E \x7b\n".toList]

/-- Looking for the tokens of `f(x)` again with room for two of them keeps the four; the value of an
enum can get the name of the class; and a line of five words ends a conversion that allows four. -/
theorem tokens_never_stale_enumInClass :
    let config : Config := { rules := { maxTokens := 4 } }
    let changes : List Line.Change := [.setText "f(x)".toList, .retokenize 4, .retokenize 2]
    let s := runLines config enumInClass {}
    let raw : Text := "\tA = '\u00e9',\n".toList
    let t := (s.begin config raw).withLine (.cut raw)
    ((changes.foldl Line.after {}).tokens.length = 4 ∧ (changes.foldl Line.after {}).Sound) ∧
    (Enters config raw s (recordEnumValue config) t ∧ ∃ span before after,
      t.line.span? 0 = some span ∧ raw = before ++ ['A'] ++ after ∧
      Text.splice raw "K_A".toList span.start span.length none = .ok (before ++ "K_A".toList ++ after)) ∧
    ∃ e, convertText config "// a b c\na b c d e\n".toList = .error e ∧
      ∃ line, 1 ≤ line ∧ line ≤ 2 ∧ e = .tooManyTokens line 4 := by
  intro config changes s raw t
  have stale := tokens_never_stale config
  have enters : Enters config raw s (recordEnumValue config) t := by
    have early : (firstClaim [passComments, editMacro config, trackTypes,
        trackFunctions config]).run t = .ok false t := rfl
    have last : defineConstants.run t = .ok false t :=
      run_defineConstants_unclaimed (noConstant_of_noSemicolon (by decide))
    have found : (beginLine config raw >>= fun _ => retokenize config).run s = .ok () t := by
      rw [run_beginLine_retokenize]
      exact run_retokenize rfl
    have passed : (firstClaim (earlyStages config)).run t = .ok false t :=
      (run_firstClaim_append _ [defineConstants] early).trans (run_firstClaim_unclaimed [] last)
    exact .intro rfl found rfl passed
  have reachable : Reachable config none s := reachable_runLines config none enumInClass .start
  obtain ⟨-, replaced, -⟩ := (stale.2.1 none s reachable).2 raw _ t enters
  obtain ⟨span, before, after, place, text, spliced⟩ := replaced ['A'] rfl
  refine ⟨⟨rfl, (stale.1 changes).2⟩, ⟨enters, span, before, after, place, text, spliced _⟩, ?_⟩
  have failed : ∃ e, convertText config "// a b c\na b c d e\n".toList = .error e :=
    ⟨.tooManyTokens 2 4, by decide +kernel⟩
  obtain ⟨e, run⟩ := failed
  obtain ⟨-, line, lower, upper, eq⟩ := stale.2.2 _ e run
  exact ⟨e, run, line, lower, upper, eq⟩

end HeaderFlattening.Conversion
