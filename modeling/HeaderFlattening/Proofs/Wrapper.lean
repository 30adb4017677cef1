import HeaderFlattening.Proofs.Concatenation
import HeaderFlattening.Proofs.Kept

/-!
A text in an `extern "C"` block. Of the opening line only a mark is left, and the first lone `\x7d` that
gets to the stages for types takes it away, whatever else it may belong to. `extern_block_converts`
says what becomes of the text: it is converted as without its block, but with this brace missing.
-/

set_option autoImplicit false
namespace HeaderFlattening

/-- `extern "C" \x7b` at the start of a line. -/
def Line.opensExternC (l : Line) : Bool := l.startsWith ["extern".toList, "\"C\"".toList, ['{']]

/-- Nothing on the line but a closing brace. -/
def Line.isBrace (l : Line) : Bool := l.words = [['}']]

/-- The edit of a line and the line that the stages for types get to see. -/
def Config.typesLine? (config : Config) (m : Mode) (raw : Text) : Option (Option MacroEdit × Line) :=
  match (Line.ofText (config.outdent m raw).2).retokenize config.rules.maxTokens with
  | .error _ => none
  | .ok l =>
    if m.inComment || l.isEmpty || l.leads "//".toList || l.leads "/*".toList then none
    else
      match l.edit? config with
      | none => some (none, l)
      | some (edit, text) =>
        match (Line.ofText text).retokenize config.rules.maxTokens with
        | .error _ => none
        | .ok l' => some (some edit, l')

/-- The line is not one that opens or closes an `extern "C"` block. -/
def Config.Quiet (config : Config) (m : Mode) (raw : Text) : Prop :=
  ∀ x ∈ config.typesLine? m raw, x.2.opensExternC = false ∧ x.2.isBrace = false

/-- The text and the names that a conversion gives. -/
def Converted.gist (c : Converted) : Text × List Text × List FunctionRecord × List ClassRecord :=
  (c.text, c.report.enumValues, c.report.functions, c.report.classes)

/-- The same of a conversion that may fail, whatever the number of the line at fault. -/
def gist : Except ConvertError Converted →
    Except ConvertError (Text × List Text × List FunctionRecord × List ClassRecord)
  | .ok c => .ok c.gist
  | .error e => .error (e.renumber fun _ => 0)

/-- The state `t` of a conversion that has read `more` lines more than one in state `s`, and is in an
`extern "C"` block if `inBlock` says so. -/
structure Beside (inBlock : Bool) (more : Nat) (s t : State) : Prop where
  mode : t.mode = { s.mode with inExternC := inBlock || s.mode.inExternC }
  apart : inBlock = true → s.mode.inExternC = false
  line : t.line = s.line
  indent : t.indent = s.indent
  lineNumber : t.lineNumber = more + s.lineNumber
  pendingEnums : t.pendingEnums = s.pendingEnums
  pendingMembers : t.pendingMembers = s.pendingMembers
  memberNames : t.memberNames = s.memberNames
  cursor : t.cursor = s.cursor
  enumValues : t.enumValues = s.enumValues
  functions : t.functions = s.functions
  classes : t.classes = s.classes
  free : s.sink.room = none
  sink : t.sink = s.sink

namespace Beside

variable {inBlock : Bool} {more : Nat} {s t : State}

theorem classState (h : Beside inBlock more s t) : t.mode.classState = s.mode.classState := by
  rw [h.mode]

theorem enumBody (h : Beside inBlock more s t) : t.mode.enumBody = s.mode.enumBody := by
  rw [h.mode]

theorem function (h : Beside inBlock more s t) : t.mode.function = s.mode.function := by
  rw [h.mode]

theorem withMode {g : Mode → Mode}
    (externC : ∀ m b, g { m with inExternC := b } = { g m with inExternC := b })
    (h : Beside inBlock more s t) : Beside inBlock more (s.withMode g) (t.withMode g) := by
  have same : (g s.mode).inExternC = s.mode.inExternC := by
    have eq : g s.mode = { g s.mode with inExternC := s.mode.inExternC } :=
      externC s.mode s.mode.inExternC
    rw [eq]
  refine { h with mode := ?_, apart := fun inside => same.trans (h.apart inside) }
  unfold State.withMode
  rw [h.mode, externC, same]

theorem begin (config : Config) (raw : Text) (h : Beside inBlock more s t) :
    Beside inBlock more (s.begin config raw) (t.begin config raw) := by
  have outdent : config.outdent t.mode raw = config.outdent s.mode raw := by
    unfold Config.outdent
    rw [h.classState]
  exact { h with
    line := congrArg (fun cut : Text × Text => Line.ofText cut.2) outdent
    indent := congrArg Prod.fst outdent
    lineNumber := congrArg (· + 1) h.lineNumber }

theorem putDirect (c : Chunk) (h : Beside inBlock more s t) :
    Beside inBlock more (s.putDirect c) (t.putDirect c) :=
  { h with sink := congrArg (Sink.offer · c) h.sink }

theorem put (c : Chunk) (h : Beside inBlock more s t) : Beside inBlock more (s.put c) (t.put c) := by
  unfold State.put
  rw [h.classState, h.enumBody]
  split_ifs
  · exact { h with pendingEnums := congrArg (· ++ [c]) h.pendingEnums }
  · exact { h with pendingMembers := congrArg (· ++ [c]) h.pendingMembers }
  · exact h.putDirect c

theorem gather (h : Beside inBlock more s t) : Beside inBlock more s.gather t.gather := by
  have enums : t.gather.pendingEnums = s.gather.pendingEnums := by
    unfold State.gather State.trailingComments
    rw [h.pendingEnums, h.pendingMembers]
  have members : t.gather.pendingMembers = s.gather.pendingMembers := by
    unfold State.gather State.membersProper
    rw [h.pendingMembers]
  exact { h with pendingEnums := enums, pendingMembers := members }

theorem flushed (h : Beside inBlock more s t) : Beside inBlock more s.flushed t.flushed := by
  have sink : t.flushed.sink = s.flushed.sink := by
    unfold State.flushed
    rw [h.sink, h.pendingEnums, h.pendingMembers]
  exact { h with pendingEnums := rfl, pendingMembers := rfl, sink := sink }

theorem addValue (name : Text) (h : Beside inBlock more s t) :
    Beside inBlock more (s.addValue name) (t.addValue name) := by
  unfold State.addValue
  rw [h.enumValues]
  split_ifs
  · exact h
  · exact { h with enumValues := rfl }

theorem addMember (name : Text) (h : Beside inBlock more s t) :
    Beside inBlock more (s.addMember name) (t.addMember name) := by
  unfold State.addMember
  rw [h.memberNames]
  split_ifs
  · exact h
  · exact { h with memberNames := rfl }

theorem withClass (classState : ClassState) (h : Beside inBlock more s t) :
    { t.mode with classState } =
      { { s.mode with classState } with inExternC := inBlock || s.mode.inExternC } := by
  rw [h.mode]

theorem exitClass (name : Text) (h : Beside inBlock more s t) :
    Beside inBlock more (s.exitClass name) (t.exitClass name) := by
  have sink : (t.exitClass name).sink = (s.exitClass name).sink := by
    unfold State.exitClass
    rw [h.sink, h.pendingEnums, h.pendingMembers]
  have classes : (t.exitClass name).classes = (s.exitClass name).classes := by
    unfold State.exitClass
    rw [h.classes, h.memberNames]
  exact { h with
    mode := h.withClass .none
    pendingEnums := rfl
    pendingMembers := rfl
    memberNames := rfl
    classes := classes
    sink := sink }

theorem withFunction (function : FunctionState) (h : Beside inBlock more s t) :
    { t.mode with function } =
      { { s.mode with function } with inExternC := inBlock || s.mode.inExternC } := by
  rw [h.mode]

theorem followBody (depth : Int) (h : Beside inBlock more s t) :
    Beside inBlock more (s.followBody depth) (t.followBody depth) := by
  have line := h.line
  refine { h with mode := ?_ }
  unfold State.followBody
  rw [line]
  exact h.withFunction _

theorem followScan (h : Beside inBlock more s t) :
    Beside inBlock more s.followScan t.followScan := by
  have scan : Scan.line t.line t.mode.function t.cursor = Scan.line s.line s.mode.function s.cursor := by
    rw [h.line, h.function, h.cursor]
  refine { h with mode := ?_, cursor := ?_, functions := ?_ }
  · unfold State.followScan
    rw [scan]
    exact h.withFunction _
  · exact congrArg Scan.cursor scan
  · unfold State.followScan
    rw [scan, h.functions]

theorem room (h : Beside inBlock more s t) : t.sink.room = none := by
  rw [h.sink]
  exact h.free

end Beside

namespace Conversion

variable {inBlock : Bool} {more : Nat} {s t : State}

theorem agree_of_beside {α : Type} {x : Conversion α} {a : α} {u v : State} (left : Reaches x s a u)
    (right : Reaches x t a v) (h : Beside inBlock more s t) (k : Beside inBlock more u v) :
    (Correspondence.lasting (Beside inBlock more) (more + ·)).Agree (x.run s) (x.run t) := by
  rw [left.run_eq h.free, right.run_eq h.room]
  exact .ok k

theorem agree_followFunction_beside (h : Beside inBlock more s t) :
    (Correspondence.lasting (Beside inBlock more) (more + ·)).Agree (followFunction.run s)
      (followFunction.run t) := by
  cases function : s.mode.function with
  | body depth =>
    rw [run_followFunction_body function, run_followFunction_body (h.function.trans function)]
    exact .ok (h.followBody depth)
  | outside | signature =>
    rw [run_followFunction_scan (by rw [function]; simp),
      run_followFunction_scan (by rw [h.function, function]; simp), h.line, h.function, h.cursor]
    exact .ok h.followScan

/-- Each part of a stage keeps the two conversions beside each other, but for `extern "C"`. -/
def besideSession (inBlock : Bool) (more : Nat) : Companion where
  toCorrespondence := .lasting (Beside inBlock more) (more + ·)
  mode h := ⟨_, h.mode⟩
  line h := h.line
  indent h := h.indent
  lineNumber h := h.lineNumber
  begin config raw h := h.begin config raw
  withLine _ h := { h with line := rfl }
  noted _ h := { h with }
  remarked _ h := { h with }
  withMode _ _ _ externC h := h.withMode externC
  openBrace _ h := { h with mode := h.withClass _ }
  enterClass c h := { h with mode := h.withClass c, memberNames := rfl }
  addValue name h := h.addValue name
  addMember name _ h := h.addMember name
  gather h := h.gather
  emit o x h := agree_of_beside (reaches_emit o x _) (reaches_emit o x _) h (h.put _)
  emitDirect o x h :=
    agree_of_beside (reaches_emitDirect o x _) (reaches_emitDirect o x _) h (h.putDirect _)
  flushPending h :=
    agree_of_beside (reaches_flushPending _) (reaches_flushPending _) h h.flushed
  followFunction h := agree_followFunction_beside h
  closeClass name _ h :=
    agree_of_beside (reaches_closeClass name _) (reaches_closeClass name _) h (h.exitClass name)

/-- And this, too, once neither is in a block that the other is not in. -/
def shiftedSession (more : Nat) : Simulation where
  toCompanion := besideSession false more
  inExternC h := by rw [h.mode]; rfl
  withExternC b h := by
    refine { h with mode := ?_, apart := fun inside => absurd inside Bool.false_ne_true }
    unfold State.withMode
    rw [h.mode]
    rfl

/-- What comes after stages that leave everything as it is unless they claim the line. -/
theorem parallel_firstClaim_append {S : Companion} {xs ys : List (Conversion Bool)}
    (h : ∀ x ∈ xs, (∀ s t, Parallel S x s t) ∧ PassesOn x s)
    (k : ∀ v, Parallel S (firstClaim ys) s v) : ∀ t, Parallel S (firstClaim (xs ++ ys)) s t := by
  induction xs with
  | nil => exact k
  | cons x xs ih =>
    intro t
    obtain ⟨parallel, passesOn⟩ := h x List.mem_cons_self
    refine (parallel s t).bind_run fun claimed u v run => ?_
    cases claimed with
    | true => exact parallel_pure true u v
    | false =>
      rw [passesOn u run]
      exact ih (fun x mem => h x (List.mem_cons_of_mem _ mem)) v

/-- A line that neither opens nor closes an `extern "C"` block. -/
theorem parallel_trackTypes_quiet {S : Companion} (noOpener : s.line.opensExternC = false)
    (noBrace : s.line.isBrace = false) (t : State) : Parallel S trackTypes s t := by
  have closes (v : State) : Parallel S (firstClaim [closeExternC]) s v := by
    have unclaimed {u : State} (line : u.line = s.line) : closeExternC.run u = .ok false u :=
      run_closeExternC_unclaimed fun brace => by
        rw [line] at brace
        exact absurd (decide_eq_true brace) (ne_true_of_eq_false noBrace)
    have single : Parallel S closeExternC s v :=
      .of_run (unclaimed rfl) (fun related => unclaimed (S.line related)) (State.Grows.refl s) id
    refine single.bind_run fun claimed u w run => ?_
    cases claimed with
    | true => exact parallel_pure true u w
    | false => exact parallel_pure false u w
  have opens {u : State} (line : u.line = s.line) : openExternC.run u = .ok false u :=
    run_openExternC (by rw [line]; exact noOpener)
  have middle : Parallel S
      (firstClaim ([openEnum, openStruct, openClass, openFlatType, closeType] ++ [closeExternC])) s t :=
    parallel_firstClaim_append (fun x mem => by
      simp only [List.mem_cons, List.not_mem_nil, or_false] at mem
      rcases mem with rfl | rfl | rfl | rfl | rfl
      · exact ⟨parallel_openEnum, passesOn_openEnum s⟩
      · exact ⟨parallel_openStruct, passesOn_openStruct s⟩
      · exact ⟨parallel_openClass, passesOn_openClass s⟩
      · exact ⟨parallel_openFlatType, passesOn_openFlatType s⟩
      · exact ⟨parallel_closeType, passesOn_closeType s⟩) closes t
  exact .after (run_firstClaim_unclaimed _ (opens rfl))
    (fun related => run_firstClaim_unclaimed _ (opens (S.line related))) (State.Grows.refl s) id middle

variable {config : Config} {raw : Text} {l : Line}

theorem unclaimed_passComments {u : State} (run : passComments.run s = .ok false u) :
    u = s ∧ s.mode.inComment = false ∧ s.line.leads "//".toList = false ∧
      s.line.leads "/*".toList = false := by
  have never {t : State} (leaves : Leaves passComments s true t) : False := by
    rcases leaves with run' | ⟨run', -⟩ <;> cases run.symm.trans run'
  have slashes : s.line.leads "//".toList = false :=
    Bool.eq_false_iff.2 fun leads => never (leaves_passComments leads)
  have outside : s.mode.inComment = false :=
    Bool.eq_false_iff.2 fun inside => never (leaves_passComments_block slashes (.inl inside))
  have star : s.line.leads "/*".toList = false :=
    Bool.eq_false_iff.2 fun leads => never (leaves_passComments_block slashes (.inr leads))
  cases run.symm.trans (run_passComments outside slashes star)
  exact ⟨rfl, outside, slashes, star⟩

/-- The line that `editMacro` leaves is the one that the stages for types get to see. -/
theorem typesLine?_of_run {claimed : Bool} {u : State} (full : s.line.isEmpty = false)
    (cut : (Line.ofText (config.outdent s.mode raw).2).retokenize config.rules.maxTokens = .ok s.line)
    (outside : s.mode.inComment = false) (slashes : s.line.leads "//".toList = false)
    (star : s.line.leads "/*".toList = false) (run : (editMacro config).run s = .ok claimed u) :
    claimed = false ∧ ∃ edit, config.typesLine? s.mode raw = some (edit, u.line) := by
  have seen : config.typesLine? s.mode raw =
      match s.line.edit? config with
      | none => some (none, s.line)
      | some (edit, text) =>
        match (Line.ofText text).retokenize config.rules.maxTokens with
        | .error _ => none
        | .ok l' => some (some edit, l') := by
    unfold Config.typesLine?
    rw [cut]
    simp only [outside, full, slashes, star, Bool.or_false, Bool.false_eq_true, if_false]
  rw [seen]
  cases edited : s.line.edit? config with
  | none =>
    cases run.symm.trans (run_editMacro_unedited edited)
    exact ⟨rfl, none, rfl⟩
  | some change =>
    obtain ⟨edit, text⟩ := change
    cases recut : (Line.ofText text).retokenize config.rules.maxTokens with
    | error e => cases run.symm.trans (run_editMacro_overflow edited recut)
    | ok l' =>
      cases run.symm.trans (run_editMacro_edited edited recut)
      refine ⟨rfl, some edit, ?_⟩
      simp only [recut]

theorem parallel_stages_quiet {S : Companion} (full : s.line.isEmpty = false)
    (cut : (Line.ofText (config.outdent s.mode raw).2).retokenize config.rules.maxTokens = .ok s.line)
    (quiet : config.Quiet s.mode raw) (t : State) :
    Parallel S (firstClaim (stages config)) s t := by
  refine (parallel_passComments s t).bind_run fun claimed u v run => ?_
  cases claimed with
  | true => exact parallel_pure true u v
  | false =>
    obtain ⟨rfl, outside, slashes, star⟩ := unclaimed_passComments run
    refine (parallel_editMacro config u v).bind_run fun claimed w x run => ?_
    obtain ⟨rfl, edit, seen⟩ := typesLine?_of_run full cut outside slashes star run
    obtain ⟨noOpener, noBrace⟩ := quiet _ seen
    refine (parallel_trackTypes_quiet noOpener noBrace x).bind fun claimed u v => ?_
    cases claimed with
    | true => exact parallel_pure true u v
    | false =>
      refine parallel_firstClaim (fun stage mem => ?_) u v
      simp only [List.mem_cons, List.not_mem_nil, or_false] at mem
      rcases mem with rfl | rfl | rfl | rfl | rfl
      · exact parallel_trackFunctions config
      · exact parallel_defineConstants
      · exact parallel_recordEnumValue config
      · exact parallel_convertMethods config
      · exact parallel_liftMembers

theorem parallel_line_quiet {S : Companion} (quiet : config.Quiet s.mode raw) (t : State) :
    Parallel S (retokenize config >>= fun _ => classify config) (s.begin config raw) t := by
  refine (parallel_retokenize config _ t).bind_run fun _ u v run => ?_
  cases cut : (Line.ofText (config.outdent s.mode raw).2).retokenize config.rules.maxTokens with
  | error e => cases run.symm.trans (run_retokenize_overflow (s := s.begin config raw) cut)
  | ok l =>
    cases run.symm.trans (run_retokenize (s := s.begin config raw) cut)
    unfold classify
    refine .get (fun related => by rw [S.line related]) ?_
    cases full : l.isEmpty with
    | true =>
      rw [if_neg (by decide)]
      exact parallel_emitLine _ v
    | false =>
      rw [if_pos (by decide)]
      have stages := parallel_stages_quiet (S := S) (s := (s.begin config raw).withLine l) full cut quiet v
      refine stages.bind fun claimed s t => ?_
      split_ifs
      · exact parallel_pure () s t
      · exact parallel_emitLine s t

theorem agree_processLine_quiet {S : Companion} (quiet : config.Quiet s.mode raw)
    (related : S.rel s t) :
    S.Agree ((processLine config raw).run s) ((processLine config raw).run t) := by
  rw [run_processLine, run_processLine]
  exact (parallel_recover raw (parallel_line_quiet quiet _)).agree (S.begin config raw related)

/-- A line that the stages for types get to see comes through the stages before them. -/
theorem exists_of_typesLine? {edit : Option MacroEdit}
    (seen : config.typesLine? s.mode raw = some (edit, l)) :
    ∃ l', (Line.ofText (config.outdent s.mode raw).2).retokenize config.rules.maxTokens = .ok l' ∧
      l'.isEmpty = false ∧
      passComments.run (s.arrive config raw (.copied l')) =
        .ok false (s.arrive config raw (.copied l')) ∧
      (editMacro config).run (s.arrive config raw (.copied l')) =
        .ok false (s.arrive config raw (.reached edit l)) := by
  unfold Config.typesLine? at seen
  cases cut : (Line.ofText (config.outdent s.mode raw).2).retokenize config.rules.maxTokens with
  | error e =>
    rw [cut] at seen
    cases seen
  | ok l' =>
    simp only [cut] at seen
    split_ifs at seen with passed
    simp only [Bool.or_eq_true, not_or, Bool.not_eq_true] at passed
    obtain ⟨⟨⟨outside, full⟩, slashes⟩, star⟩ := passed
    refine ⟨l', rfl, full, run_passComments outside slashes star, ?_⟩
    cases edited : l'.edit? config with
    | none =>
      rw [edited] at seen
      cases seen
      exact run_editMacro_unedited edited
    | some change =>
      obtain ⟨change, text⟩ := change
      simp only [edited] at seen
      cases recut : (Line.ofText text).retokenize config.rules.maxTokens with
      | error e =>
        rw [recut] at seen
        cases seen
      | ok l'' =>
        simp only [recut] at seen
        cases seen
        exact run_editMacro_edited edited recut

/-- A line that the stages for types claim. -/
theorem run_processLine_types {edit : Option MacroEdit} {u : State}
    (seen : config.typesLine? s.mode raw = some (edit, l))
    (claimed : trackTypes.run (s.arrive config raw (.reached edit l)) = .ok true u) :
    (processLine config raw).run s = .ok () u := by
  obtain ⟨l', cut, full, comments, edits⟩ := exists_of_typesLine? seen
  have claims : (firstClaim (stages config)).run (s.arrive config raw (.copied l')) = .ok true u := by
    unfold stages
    rw [run_firstClaim_unclaimed _ comments, run_firstClaim_unclaimed _ edits]
    exact run_firstClaim_claimed _ claimed
  have tokens : (retokenize config).run (s.begin config raw) =
      .ok () (s.arrive config raw (.copied l')) := run_retokenize cut
  rw [run_processLine, run_tryCatch, EStateM.run_bind, tokens]
  simp only []
  rw [run_classify_full full, EStateM.run_bind, claims]
  rfl

theorem run_trackTypes_opener (opener : s.line.opensExternC = true) :
    trackTypes.run s = .ok true (s.withMode ({ · with inExternC := true })) := by
  have opens : openExternC.run s = .ok true (s.withMode ({ · with inExternC := true })) := by
    unfold Line.opensExternC at opener
    simp only [openExternC, EStateM.run_bind, EStateM.run_get, opener, if_true]
    rfl
  exact run_firstClaim_claimed _ opens

theorem run_trackTypes_loneBrace (brace : s.line.isBrace = true) (inBlock : s.mode.inExternC = true) :
    trackTypes.run s = .ok true (s.withMode ({ · with inExternC := false })) := by
  have words : s.line.words = [['\x7d']] := of_decide_eq_true brace
  have noCloser : ¬s.line.isTypeCloser = true := by
    unfold Line.isTypeCloser
    rw [words]
    exact Bool.false_ne_true
  have closes : closeExternC.run s = .ok true (s.withMode ({ · with inExternC := false })) := by
    simp only [closeExternC, EStateM.run_bind, EStateM.run_get, words, inBlock]
    rfl
  rw [run_trackTypes_brace words,
    run_firstClaim_unclaimed _ (run_closeType_unclaimed fun closer => absurd closer noCloser)]
  exact run_firstClaim_claimed _ closes

theorem typesLine?_congr (config : Config) (h : Beside inBlock more s t) (raw : Text) :
    config.typesLine? t.mode raw = config.typesLine? s.mode raw := by
  have outdent : config.outdent t.mode raw = config.outdent s.mode raw := by
    unfold Config.outdent
    rw [h.classState]
  unfold Config.typesLine?
  rw [outdent, h.mode]

end Conversion

/-- Two conversions between lines: what they have made of the last one does not count. -/
def Abreast (inBlock : Bool) (more : Nat) (s t : State) : Prop :=
  ∃ line indent, Beside inBlock more { s with line, indent } t

namespace Config

open Conversion

/-- The lines without the first that the stages for types see as a lone brace. If they see another
`extern "C" \x7b` before, nothing is left out. -/
def withoutBrace (config : Config) : State → List Text → List Text
  | _, [] => []
  | s, raw :: rest =>
    if (config.typesLine? s.mode raw).any (·.2.isBrace) then rest
    else if (config.typesLine? s.mode raw).any (·.2.opensExternC) then raw :: rest
    else raw :: withoutBrace config (stateAfter (processLine config raw) s) rest

/-- No line opens or closes an `extern "C"` block. -/
def QuietLines (config : Config) : State → List Text → Prop
  | _, [] => True
  | s, raw :: rest =>
    config.Quiet s.mode raw ∧ QuietLines config (stateAfter (processLine config raw) s) rest

end Config

namespace Conversion

variable {inBlock : Bool} {more : Nat} {s t : State} {config : Config} {raw : Text} {l : Line}

/-- What the last line has left does not matter for the next one. -/
theorem run_processLine_withLine (config : Config) (raw : Text) (s : State) (line : Line)
    (indent : Text) :
    (processLine config raw).run { s with line, indent } = (processLine config raw).run s := by
  rw [run_processLine, run_processLine]
  rfl

theorem agree_of_abreast (h : Abreast inBlock more s t) (quiet : config.Quiet s.mode raw) :
    (besideSession inBlock more).Agree ((processLine config raw).run s)
      ((processLine config raw).run t) := by
  obtain ⟨line, indent, h⟩ := h
  rw [← run_processLine_withLine config raw s line indent]
  exact agree_processLine_quiet (S := besideSession inBlock more) quiet h

theorem agree_of_shifted (config : Config) (raw : Text) (h : Abreast false more s t) :
    (besideSession false more).Agree ((processLine config raw).run s)
      ((processLine config raw).run t) := by
  obtain ⟨line, indent, h⟩ := h
  rw [← run_processLine_withLine config raw s line indent]
  exact agree_processLine (S := shiftedSession more) config raw h

/-- A lone brace takes away the mark, and nothing else becomes of it. -/
theorem abreast_brace {edit : Option MacroEdit} (h : Abreast true more s t)
    (seen : config.typesLine? s.mode raw = some (edit, l)) (brace : l.isBrace = true) :
    ∃ u, (processLine config raw).run t = .ok () u ∧ Abreast false (more + 1) s u := by
  obtain ⟨line, indent, h⟩ := h
  have same := typesLine?_congr config h raw
  have inBlock : t.mode.inExternC = true := by
    rw [h.mode]
    rfl
  have closes := run_trackTypes_loneBrace (s := t.arrive config raw (.reached edit l)) brace inBlock
  refine ⟨_, run_processLine_types (same.trans seen) closes, l,
    (t.arrive config raw (.reached edit l)).indent, ?_⟩
  have own : s.mode.inExternC = false := h.apart rfl
  refine { h with
    mode := ?_, apart := fun inside => absurd inside Bool.false_ne_true, line := rfl, indent := rfl
    lineNumber := ?_ }
  · show { t.mode with inExternC := false } = { s.mode with inExternC := false || s.mode.inExternC }
    rw [h.mode, own]
    rfl
  · show t.lineNumber + 1 = more + 1 + s.lineNumber
    have number : t.lineNumber = more + s.lineNumber := h.lineNumber
    omega

theorem abreast_opener {edit : Option MacroEdit} (h : Abreast true more s t)
    (seen : config.typesLine? s.mode raw = some (edit, l)) (opener : l.opensExternC = true) :
    ∃ u v, (processLine config raw).run s = .ok () u ∧ (processLine config raw).run t = .ok () v ∧
      Abreast false more u v := by
  obtain ⟨line, indent, h⟩ := h
  have same := typesLine?_congr config h raw
  have left := run_trackTypes_opener (s := s.arrive config raw (.reached edit l)) opener
  have right := run_trackTypes_opener (s := t.arrive config raw (.reached edit l)) opener
  refine ⟨_, _, run_processLine_types seen left, run_processLine_types (same.trans seen) right, l,
    (t.arrive config raw (.reached edit l)).indent, ?_⟩
  refine { h with
    mode := ?_, apart := fun inside => absurd inside Bool.false_ne_true, line := rfl, indent := rfl
    lineNumber := congrArg (· + 1) h.lineNumber }
  show { t.mode with inExternC := true } = { s.mode with inExternC := false || true }
  rw [h.mode]
  rfl

theorem abreast_stateAfter (agree : (besideSession inBlock more).Agree ((processLine config raw).run s)
    ((processLine config raw).run t)) :
    Abreast inBlock more (stateAfter (processLine config raw) s)
      (stateAfter (processLine config raw) t) := by
  rw [stateAfter_eq_endOf, stateAfter_eq_endOf]
  generalize (processLine config raw).run s = r at agree
  generalize (processLine config raw).run t = q at agree
  cases agree with
  | ok h => exact ⟨_, _, h⟩
  | error h => exact ⟨_, _, h⟩
  | lost gone => exact gone.elim

/-- What comes of lines that are read from a state. -/
def gistOf (config : Config) (ls : List Text) (s : State) :=
  gist (Converted.ofResult ((processAll config (ls.map .ok)).run s))

theorem gistOf_cons {u : State} (ls : List Text) (run : (processLine config raw).run s = .ok () u) :
    gistOf config (raw :: ls) s = gistOf config ls u := by
  unfold gistOf
  rw [List.map_cons, processAll, EStateM.run_bind, run]

theorem gistOf_cons_congr {xs ys : List Text}
    (agree : (besideSession inBlock more).Agree ((processLine config raw).run s)
      ((processLine config raw).run t))
    (next : gistOf config ys (stateAfter (processLine config raw) t) =
      gistOf config xs (stateAfter (processLine config raw) s)) :
    gistOf config (raw :: ys) t = gistOf config (raw :: xs) s := by
  rw [stateAfter_eq_endOf, stateAfter_eq_endOf] at next
  unfold gistOf at next ⊢
  rw [List.map_cons, List.map_cons, processAll, processAll, EStateM.run_bind, EStateM.run_bind]
  generalize (processLine config raw).run s = r at agree next
  generalize (processLine config raw).run t = q at agree next
  cases agree with
  | ok h => exact next
  | @error e u v h => cases e <;> rfl
  | lost gone => exact gone.elim

theorem gistOf_end (config : Config) (free : s.sink.room = none) :
    gistOf config [] s = .ok ((if s.mode.classState.name?.isSome then s.flushed else s).sink.text,
      s.enumValues.toList, s.functions, s.classes) := by
  unfold gistOf
  rw [List.map_nil, processAll]
  cases closed : s.mode.classState.name? with
  | none =>
    rw [run_finish_closed closed]
    rfl
  | some name =>
    let u := (s.noted (.classUnclosed name)).remarked (unclosedWarning name)
    have flush : flushPending.run u = .ok () u.flushed := (reaches_flushPending u).run_eq free
    rw [run_finish_open closed, flush]
    rfl

theorem gistOf_nil (h : Abreast inBlock more s t) : gistOf config [] t = gistOf config [] s := by
  obtain ⟨line, indent, h⟩ := h
  have free : s.sink.room = none := h.free
  rw [gistOf_end config h.room, gistOf_end config free]
  have texts : t.flushed.sink = s.flushed.sink := h.flushed.sink
  rw [h.classState, h.enumValues, h.functions, h.classes]
  split_ifs
  · rw [texts]
  · rw [h.sink]

theorem gistOf_shifted (h : Abreast false more s t) (ls : List Text) :
    gistOf config ls t = gistOf config ls s := by
  induction ls generalizing s t with
  | nil => exact gistOf_nil h
  | cons raw ls ih =>
    have agree := agree_of_shifted config raw h
    exact gistOf_cons_congr agree (ih (abreast_stateAfter agree))

theorem abreast_shifted (h : Abreast false more s t) (ls : List Text) :
    Abreast false more (runLines config ls s) (runLines config ls t) := by
  induction ls generalizing s t with
  | nil => exact h
  | cons raw ls ih => exact ih (abreast_stateAfter (agree_of_shifted config raw h))

theorem quiet_of_not_any (noBrace : ¬(config.typesLine? s.mode raw).any (·.2.isBrace) = true)
    (noOpener : ¬(config.typesLine? s.mode raw).any (·.2.opensExternC) = true) :
    config.Quiet s.mode raw := by
  intro x seen
  rw [Option.mem_def.1 seen] at noBrace noOpener
  exact ⟨Bool.eq_false_iff.2 noOpener, Bool.eq_false_iff.2 noBrace⟩

/-- In an `extern "C"` block the same comes of lines as without the block and without the brace. -/
theorem gistOf_inBlock (h : Abreast true more s t) (ls : List Text) :
    gistOf config ls t = gistOf config (config.withoutBrace s ls) s := by
  induction ls generalizing s t with
  | nil => exact gistOf_nil h
  | cons raw ls ih =>
    unfold Config.withoutBrace
    split_ifs with brace opener
    · obtain ⟨⟨edit, l⟩, seen, brace⟩ := (Option.any_eq_true _ _).1 brace
      obtain ⟨u, run, next⟩ := abreast_brace h seen brace
      rw [gistOf_cons ls run]
      exact gistOf_shifted next ls
    · obtain ⟨⟨edit, l⟩, seen, opener⟩ := (Option.any_eq_true _ _).1 opener
      obtain ⟨u, v, left, right, next⟩ := abreast_opener h seen opener
      rw [gistOf_cons ls left, gistOf_cons ls right]
      exact gistOf_shifted next ls
    · have agree := agree_of_abreast h (quiet_of_not_any brace opener)
      exact gistOf_cons_congr agree (ih (abreast_stateAfter agree))

theorem mode_inBlock (h : Abreast true more s t) {ls : List Text}
    (loud : ¬config.QuietLines s ls) :
    (runLines config ls t).mode = (runLines config (config.withoutBrace s ls) s).mode := by
  have same {n : Nat} {u v : State} (next : Abreast false n u v) (ls : List Text) :
      (runLines config ls v).mode = (runLines config ls u).mode := by
    obtain ⟨line, indent, next⟩ : Abreast false n (runLines config ls u) (runLines config ls v) :=
      abreast_shifted next ls
    exact next.mode
  induction ls generalizing s t with
  | nil => exact absurd trivial loud
  | cons raw ls ih =>
    unfold Config.withoutBrace
    split_ifs with brace opener
    · obtain ⟨⟨edit, l⟩, seen, brace⟩ := (Option.any_eq_true _ _).1 brace
      obtain ⟨u, run, next⟩ := abreast_brace h seen brace
      rw [runLines, stateAfter_of_run run]
      exact same next ls
    · obtain ⟨⟨edit, l⟩, seen, opener⟩ := (Option.any_eq_true _ _).1 opener
      obtain ⟨u, v, left, right, next⟩ := abreast_opener h seen opener
      rw [runLines, runLines, stateAfter_of_run left, stateAfter_of_run right]
      exact same next ls
    · have quiet := quiet_of_not_any brace opener
      exact ih (abreast_stateAfter (agree_of_abreast h quiet)) fun rest => loud ⟨quiet, rest⟩

theorem withoutBrace_append {xs : List Text} (ys : List Text) (quiet : config.QuietLines s xs) :
    config.withoutBrace s (xs ++ ys) = xs ++ config.withoutBrace (runLines config xs s) ys := by
  induction xs generalizing s with
  | nil => rfl
  | cons raw xs ih =>
    obtain ⟨first, quiet⟩ := quiet
    have none {p : Option MacroEdit × Line → Bool} (h : ∀ x ∈ config.typesLine? s.mode raw, p x = false) :
        ¬(config.typesLine? s.mode raw).any p = true := by
      intro any
      obtain ⟨x, seen, found⟩ := (Option.any_eq_true _ _).1 any
      exact absurd found (ne_true_of_eq_false (h x seen))
    rw [List.cons_append, Config.withoutBrace, if_neg (none fun x seen => (first x seen).2),
      if_neg (none fun x seen => (first x seen).1), ih quiet]
    rfl

theorem quietLines_of_append {xs ys : List Text} (quiet : config.QuietLines s (xs ++ ys)) :
    config.QuietLines (runLines config xs s) ys := by
  induction xs generalizing s with
  | nil => exact quiet
  | cons raw xs ih => exact ih quiet.2

theorem typesLine?_of_words {m : Mode} {w : Text} {rest : List Text}
    (words : (Line.cut raw).words = w :: rest) (fits : config.Fits raw) (outside : m.inComment = false)
    (noSlash : w.head? ≠ some '/') (define : w ≠ "#define".toList) :
    config.typesLine? m raw = some (none, .cut (config.outdent m raw).2) := by
  have seen := (words_outdent config m raw).trans words
  have first : (Line.cut (config.outdent m raw).2).word? 0 = some w := by
    rw [Line.word?, seen]
    rfl
  have leads (mark : Text) : (Line.cut (config.outdent m raw).2).leads ('/' :: mark) = false := by
    rw [Line.leads, first]
    refine Bool.eq_false_iff.2 fun leads => ?_
    obtain ⟨rest, eq⟩ := List.isPrefixOf_iff_prefix.1 leads
    exact noSlash (congrArg List.head? eq.symm)
  have full : (Line.cut (config.outdent m raw).2).isEmpty = false :=
    Bool.eq_false_iff.2 fun empty => by
      rw [Line.isEmpty_iff, seen] at empty
      cases empty
  have noEdit : (Line.cut (config.outdent m raw).2).edit? config = none := by
    refine Line.edit?_of_not_define config ?_
    rw [first]
    exact fun eq => define (Option.some.inj eq)
  have slashes : (Line.cut (config.outdent m raw).2).leads "//".toList = false := leads ['/']
  have star : (Line.cut (config.outdent m raw).2).leads "/*".toList = false := leads ['*']
  unfold Config.typesLine?
  rw [cut_outdent m fits]
  simp only [outside, full, slashes, star, noEdit, Bool.or_false, Bool.false_eq_true, if_false]

/-- The lines around a text in an `extern "C"` block. -/
def blockOpener : Text := "extern \"C\" \x7b\n".toList

def blockCloser : Text := "\x7d\n".toList

theorem abreast_start (three : 3 ≤ config.rules.maxTokens) :
    ∃ t, (processLine config blockOpener).run {} = .ok () t ∧ Abreast true 1 {} t := by
  have words : (Line.cut blockOpener).words = ["extern".toList, "\"C\"".toList, ['\x7b']] := by decide
  have fits : config.Fits blockOpener := by
    unfold Config.Fits
    rw [words]
    exact three
  have seen : config.typesLine? {} blockOpener =
      some (none, .cut (config.outdent {} blockOpener).2) :=
    typesLine?_of_words words fits rfl (by decide) (by decide)
  have opens := run_trackTypes_opener (s := ({} : State).arrive config blockOpener
    (.reached none (.cut (config.outdent {} blockOpener).2))) (by
      show (Line.cut (config.outdent {} blockOpener).2).opensExternC = true
      unfold Line.opensExternC Line.startsWith
      rw [words_outdent]
      decide)
  refine ⟨_, run_processLine_types (s := {}) seen opens, .cut (config.outdent {} blockOpener).2,
    (config.outdent {} blockOpener).1, ?_⟩
  exact ⟨rfl, fun _ => rfl, rfl, rfl, rfl, rfl, rfl, rfl, rfl, rfl, rfl, rfl, rfl, rfl⟩

theorem any_typesLine?_closer {m : Mode} (outside : m.inComment = false)
    (one : 1 ≤ config.rules.maxTokens) :
    (config.typesLine? m blockCloser).any (·.2.isBrace) = true := by
  have words : (Line.cut blockCloser).words = [['\x7d']] := by decide
  have fits : config.Fits blockCloser := by
    unfold Config.Fits
    rw [words]
    exact one
  rw [typesLine?_of_words words fits outside (by decide) (by decide), Option.any_some]
  unfold Line.isBrace
  rw [words_outdent, words]
  decide

/-- A text in an `extern "C"` block is converted as if the first lone brace that the stages for types
see were not there, be it the one at the end or one in the text. The block is closed by this brace; if
it is the one at the end, the text is converted as without the block. The bound under which the depth in
the function bodies of the text fits in 32 bits is that of `function_depth_wellFormed`. -/
theorem extern_block_converts (config : Config) (x : Text) (ended : x = [] ∨ x.getLast? = some '\n')
    (three : 3 ≤ config.rules.maxTokens)
    (outside : (runLines config x.lines {}).mode.inComment = false) :
    let block := blockOpener ++ (x ++ blockCloser)
    let rest := config.withoutBrace {} (x.lines ++ [blockCloser])
    gist (convertText config block) = gist (convertLines config (rest.map .ok)) ∧
      (runLines config block.lines {}).mode = (runLines config rest {}).mode ∧
      (config.QuietLines {} x.lines → rest = x.lines) := by
  intro block rest
  obtain ⟨t, run, abreast⟩ := abreast_start three
  have lines : Text.lines block = blockOpener :: (x.lines ++ [blockCloser]) := by
    rw [Text.lines_append _ (.inr (by decide)), Text.lines_append _ ended]
    rfl
  have closer : (config.typesLine? (runLines config x.lines {}).mode blockCloser).any (·.2.isBrace) = true :=
    any_typesLine?_closer outside (by omega)
  refine ⟨?_, ?_, fun quiet => ?_⟩
  · show gist (Converted.ofResult ((processAll config ((Text.lines block).map .ok)).run {})) = _
    rw [lines]
    exact (gistOf_cons _ run).trans (gistOf_inBlock abreast _)
  · rw [lines, runLines, stateAfter_of_run run]
    refine mode_inBlock abreast fun quiet => ?_
    obtain ⟨seen, line, brace⟩ := (Option.any_eq_true _ _).1 closer
    exact absurd brace (ne_true_of_eq_false ((quietLines_of_append quiet).1 seen line).2)
  · show config.withoutBrace {} (x.lines ++ [blockCloser]) = x.lines
    rw [withoutBrace_append _ quiet, Config.withoutBrace, if_pos closer, List.append_nil]

/-- A function with its braces on lines of their own, and a variable. -/
def functionText : Text := "void f()\n\x7b\n\x7d\nint x;\n".toList

/-- The block takes the brace of the function, and the variable becomes a part of its body. -/
theorem functionText_not_transparent :
    gist (convertText {} (blockOpener ++ (functionText ++ blockCloser))) ≠
      gist (convertText {} functionText) ∧
    (runLines {} (Text.lines functionText) {}).mode = {} := by
  have closed : (runLines {} (Text.lines functionText) {}).mode = {} := by decide +kernel
  obtain ⟨converts, -, -⟩ := extern_block_converts {} functionText (.inr (by decide)) (by decide)
    (by rw [closed])
  rw [converts]
  exact ⟨by decide +kernel, closed⟩

end Conversion
end HeaderFlattening
