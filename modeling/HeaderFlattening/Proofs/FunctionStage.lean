import HeaderFlattening.Proofs.Tame
import HeaderFlattening.Proofs.Wrapper

/-!
Lines at the stage that follows functions. Those that get there come in the state in which they were
read, with the line at hand edited or not; what is known of functions changes there and nowhere else.
-/

set_option autoImplicit false
namespace HeaderFlattening

/-- The books of the functions, with those recorded on lines before. -/
def Scan.books (s : Scan) (earlier : List FunctionRecord) : FunctionBooks :=
  ⟨s.function, s.cursor, earlier ++ s.functions⟩

/-- What is known of functions once this stage is done with the line. -/
def State.followed (t : State) : FunctionBooks :=
  if t.mode.enumBody.isSome || t.mode.structBody.isSome then t.functionBooks
  else
    match t.mode.function with
    | .body depth => { t.functionBooks with function := .afterBodyLine depth t.line }
    | function => (Scan.line t.line function t.cursor).books t.functions

namespace Config

variable {config : Config} {m : Mode} {raw : Text} {edit : Option MacroEdit} {l : Line}

/-- The line that the stages for types get to see is the one that was read, or what an edit makes of
it. -/
theorem typesLine?_cases (h : config.typesLine? m raw = some (edit, l)) :
    l = .cut (config.outdent m raw).2 ∨ ∃ e ∈ config.edits, ∃ text, l = .cut text ∧
      (config.outdent m raw).2.replaceAll e.search e.replacement none = .ok (some text) := by
  unfold typesLine? at h
  cases cut : (Line.ofText (config.outdent m raw).2).retokenize config.rules.maxTokens with
  | error e =>
    rw [cut] at h
    cases h
  | ok l' =>
    simp only [cut] at h
    split_ifs at h
    obtain rfl := Line.cut_of_retokenize cut
    cases change : (Line.cut (config.outdent m raw).2).edit? config with
    | none =>
      rw [change] at h
      cases h
      exact .inl rfl
    | some both =>
      obtain ⟨e, text⟩ := both
      obtain ⟨-, named, replaced⟩ := Conversion.exists_edit change
      obtain ⟨name, -, found⟩ := Option.bind_eq_some_iff.1 named
      simp only [change] at h
      cases recut : (Line.ofText text).retokenize config.rules.maxTokens with
      | error e =>
        rw [recut] at h
        cases h
      | ok l'' =>
        simp only [recut] at h
        cases h
        exact .inr ⟨e, List.mem_of_find?_eq_some found, text, Line.cut_of_retokenize recut, replaced⟩

end Config

namespace Conversion

variable {config : Config} {raw : Text} {s t : State}

/-- The stages before the one that follows functions. -/
def beforeFunctions (config : Config) : List (Conversion Bool) :=
  [passComments, editMacro config, trackTypes]

/-- The state in which functions are looked for in a line whose tokens were found, if it gets so far. -/
def functionStage? (config : Config) (u : State) : Option State :=
  if u.line.isEmpty then none
  else
    match (firstClaim (beforeFunctions config)).run u with
    | .ok false t => some t
    | _ => none

/-- The same for a line as it is read. -/
def functionStageOf? (config : Config) (raw : Text) (s : State) : Option State :=
  match (retokenize config).run (s.begin config raw) with
  | .ok _ u => functionStage? config u
  | .error _ _ => none

theorem exists_of_functionStage? {u : State} (h : functionStage? config u = some t) :
    u.line.isEmpty = false ∧ (firstClaim (beforeFunctions config)).run u = .ok false t := by
  unfold functionStage? at h
  cases empty : u.line.isEmpty with
  | true =>
    rw [if_pos empty] at h
    cases h
  | false =>
    rw [if_neg (by rw [empty]; exact Bool.false_ne_true)] at h
    refine ⟨rfl, ?_⟩
    split at h
    · rename_i run
      cases h
      exact run
    · cases h

/-- The state in which a line gets there. -/
theorem exists_of_functionStageOf? (h : functionStageOf? config raw s = some t) :
    ∃ edit l, config.typesLine? s.mode raw = some (edit, l) ∧
      t = s.arrive config raw (.reached edit l) := by
  unfold functionStageOf? at h
  cases cut : (Line.ofText (config.outdent s.mode raw).2).retokenize config.rules.maxTokens with
  | error e =>
    rw [run_retokenize_overflow (s := s.begin config raw) cut] at h
    cases h
  | ok l' =>
    rw [run_retokenize (s := s.begin config raw) cut] at h
    obtain ⟨full, run⟩ := exists_of_functionStage? h
    obtain ⟨u, comments, others⟩ := exists_of_run_firstClaim run
    obtain ⟨rfl, outside, slashes, star⟩ := unclaimed_passComments comments
    obtain ⟨v, edits, rest⟩ := exists_of_run_firstClaim others
    obtain ⟨-, edit, seen⟩ := typesLine?_of_run full cut outside slashes star edits
    have types : trackTypes.run v = .ok false t := by
      obtain ⟨w, types, last⟩ := exists_of_run_firstClaim rest
      cases last
      exact types
    obtain rfl := passesOn_trackTypes v t types
    obtain ⟨l, cut', -, -, arrived⟩ := exists_of_typesLine? (s := s) seen
    cases cut.symm.trans cut'
    exact ⟨edit, t.line, seen, (EStateM.Result.ok.inj (edits.symm.trans arrived)).2⟩

theorem mode_of_functionStageOf? (h : functionStageOf? config raw s = some t) : t.mode = s.mode := by
  obtain ⟨edit, l, -, rfl⟩ := exists_of_functionStageOf? h
  rfl

theorem functionBooks_of_functionStageOf? (h : functionStageOf? config raw s = some t) :
    t.functionBooks = s.functionBooks := by
  obtain ⟨edit, l, -, rfl⟩ := exists_of_functionStageOf? h
  rfl

/-- The stages behind the one that follows functions have nothing to do with them. -/
theorem tame_behindFunctions (s : State) : Tame Books.ofFunction config
    (firstClaim [defineConstants, recordEnumValue config, convertMethods config, liftMembers]) s := by
  refine tame_firstClaim (fun stage mem => ?_) s
  simp only [List.mem_cons, List.not_mem_nil, or_false] at mem
  rcases mem with rfl | rfl | rfl | rfl
  · exact tame_defineConstants
  · exact tame_recordEnumValue
  · exact tame_convertMethods
  · exact tame_liftMembers

theorem tame_beforeFunctions (config : Config) (s : State) :
    Tame Books.ofFunction config (firstClaim (beforeFunctions config)) s := by
  refine tame_firstClaim (fun stage mem => ?_) s
  simp only [beforeFunctions, List.mem_cons, List.not_mem_nil, or_false] at mem
  rcases mem with rfl | rfl | rfl
  · exact tame_passComments
  · exact tame_editMacro
  · exact tame_trackTypes

/-- The tokens of a line that gets to the stage are those of its text. -/
theorem cut_of_functionStage? {u : State} (cut : u.line = .cut u.line.text)
    (h : functionStage? config u = some t) : t.line = .cut t.line.text := by
  have first := tame_beforeFunctions config u cut
  rw [(exists_of_functionStage? h).2] at first
  cases first with
  | ok line => exact line

theorem functionBooks_trackFunctions (cut : t.line = .cut t.line.text) :
    (endOf ((trackFunctions config).run t)).functionBooks = t.followed := by
  unfold State.followed trackFunctions
  rw [EStateM.run_bind, EStateM.run_get]
  simp only []
  by_cases inType : (t.mode.enumBody.isSome || t.mode.structBody.isSome) = true
  · rw [if_pos inType, if_pos inType]
    rfl
  rw [if_neg inType, if_neg inType]
  have rest (claimed : Bool) {u : State} (same : u.line = t.line) :
      (endOf ((if claimed = true then emitSuppressed config >>= fun _ => pure true
        else pure false).run u)).functionBooks = u.functionBooks := by
    have quiet : Tame Books.ofFunction config (if claimed = true then
        emitSuppressed config >>= fun _ => pure true else pure false) u := by
      split_ifs
      · exact tame_claim (tame_emitSuppressed u)
      · exact tame_pure false u
    exact (quiet (by rw [same, ← cut])).books_eq
  cases function : t.mode.function with
  | body depth =>
    rw [EStateM.run_bind, run_followFunction_body function]
    exact rest true (u := t.followBody depth) rfl
  | outside | signature =>
    rw [EStateM.run_bind, run_followFunction_scan (by rw [function]; simp)]
    simp only []
    rw [rest _ (u := t.followScan) rfl, ← function]
    rfl

/-- What comes behind the stage keeps what is known of functions. -/
theorem functionBooks_late (cut : t.line = .cut t.line.text) :
    (endOf ((late config).run t)).functionBooks = t.followed := by
  have quiet : Tame (fun _ => ()) config (trackFunctions config) t :=
    (tame_trackFunctions t).map fun _ => ()
  have rest (claimed : Bool) (u : State) : Tame Books.ofFunction config
      ((if claimed = true then pure true else firstClaim [defineConstants, recordEnumValue config,
        convertMethods config, liftMembers]) >>= fun claimed =>
          if claimed = true then pure () else emitLine) u := by
    refine Tame.bind ?_ fun claimed u => ?_
    · split_ifs
      · exact tame_pure true u
      · exact tame_behindFunctions u
    · split_ifs
      · exact tame_pure () u
      · exact tame_emitLine u
  have same := quiet.books_bind cut rest
  have here : (endOf ((trackFunctions config).run t)).functionBooks = t.followed :=
    functionBooks_trackFunctions cut
  rw [← bind_assoc] at same
  exact same.trans here

/-- A line that gets to the stage goes on from there. -/
theorem run_classify_of_functionStage? {u : State} (h : functionStage? config u = some t) :
    (classify config).run u = (late config).run t := by
  obtain ⟨full, run⟩ := exists_of_functionStage? h
  have split := run_firstClaim_append _ [trackFunctions config, defineConstants,
    recordEnumValue config, convertMethods config, liftMembers] run
  rw [run_classify_full full, late, EStateM.run_bind, EStateM.run_bind, ← split]
  rfl

/-- Where a line does not get there, nothing is learned of functions. -/
theorem functionBooks_classify_none {u : State} (cut : u.line = .cut u.line.text)
    (h : functionStage? config u = none) :
    (endOf ((classify config).run u)).functionBooks = u.functionBooks := by
  unfold functionStage? at h
  cases empty : u.line.isEmpty with
  | true =>
    have quiet : Tame Books.ofFunction config emitLine u := tame_emitLine u
    rw [run_classify_empty empty]
    exact (quiet cut).books_eq
  | false =>
    have split : stages config = beforeFunctions config ++ trackFunctions config ::
      [defineConstants, recordEnumValue config, convertMethods config, liftMembers] := rfl
    have first := tame_beforeFunctions config u cut
    rw [if_neg (by rw [empty]; exact Bool.false_ne_true)] at h
    rw [run_classify_full empty, split, firstClaim_append, bind_assoc, EStateM.run_bind]
    cases run : (firstClaim (beforeFunctions config)).run u with
    | error e t =>
      rw [run] at first
      exact first.books_eq
    | ok claimed t =>
      rw [run] at first h
      cases claimed with
      | true => exact first.books_eq
      | false => cases h

theorem stateAfter_of_functionStageOf? (h : functionStageOf? config raw s = some t) :
    stateAfter (processLine config raw) s =
      stateAfter (tryCatch (late config) (recover config raw)) t := by
  unfold functionStageOf? at h
  rw [stateAfter_eq_endOf, stateAfter_eq_endOf, run_processLine, run_tryCatch, run_tryCatch,
    EStateM.run_bind]
  cases run : (retokenize config).run (s.begin config raw) with
  | error e u =>
    rw [run] at h
    cases h
  | ok _ u =>
    rw [run] at h
    simp only []
    rw [run_classify_of_functionStage? h]

/-- What is known of functions behind a line, also if the line fails. -/
theorem functionBooks_processLine (config : Config) (raw : Text) (s : State) :
    (stateAfter (processLine config raw) s).functionBooks =
      (functionStageOf? config raw s).elim s.functionBooks State.followed := by
  have behind := congrArg Books.ofFunction (books_processLine config raw s)
  have first := ends_retokenize Books.ofFunction config (s.begin config raw) (Line.current_ofText _)
  rw [stateAfter_eq_endOf]
  refine Eq.trans behind ?_
  rw [EStateM.run_bind]
  unfold functionStageOf?
  cases run : (retokenize config).run (s.begin config raw) with
  | error e u =>
    rw [run] at first
    exact first.books_eq
  | ok _ u =>
    rw [run] at first
    have same : u.functionBooks = s.functionBooks := first.books_eq
    cases first with
    | ok line =>
      simp only []
      cases stage : functionStage? config u with
      | none => exact (functionBooks_classify_none line stage).trans same
      | some t =>
        show (endOf ((classify config).run u)).functionBooks = t.followed
        rw [run_classify_of_functionStage? stage]
        exact functionBooks_late (cut_of_functionStage? line stage)

/-- Whether a line that got to the stage belongs to a function, and so is suppressed. -/
def belongsToFunction (t : State) : Bool :=
  t.mode.function ≠ .outside || (Scan.line t.line t.mode.function t.cursor).suppress

theorem exists_run_followFunction (t : State) :
    ∃ u, followFunction.run t = .ok (belongsToFunction t) u ∧ u.line = t.line ∧
      u.emitted = t.emitted := by
  cases function : t.mode.function with
  | body depth =>
    have inside : belongsToFunction t = true := by
      unfold belongsToFunction
      rw [function]
      rfl
    rw [inside]
    exact ⟨t.followBody depth, run_followFunction_body function, rfl, rfl⟩
  | outside | signature =>
    exact ⟨t.followScan, run_followFunction_scan (by rw [function]; simp), rfl, rfl⟩

/-- A line of a function is written with the level behind it. -/
theorem emitted_processLine (h : functionStageOf? config raw s = some t) (w : t.Watching)
    (inside : belongsToFunction t = true) :
    (stateAfter (processLine config raw) s).emitted =
      s.emitted ++ config.rules.suppression.render
        (stateAfter (processLine config raw) s).mode.function.level t.line.text := by
  obtain ⟨u, follow, line, emitted⟩ := exists_run_followFunction t
  rw [inside] at follow
  have leaves : Leaves (late config) t () _ := leaves_late (leaves_trackFunctions w follow)
  rw [stateAfter_of_functionStageOf? h, (leaves_recover leaves).stateAfter_eq, State.emitted_putAll,
    State.mode_putAll, line, emitted]
  obtain ⟨edit, l, -, rfl⟩ := exists_of_functionStageOf? h
  rfl

end Conversion
end HeaderFlattening
