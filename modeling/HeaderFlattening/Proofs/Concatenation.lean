import HeaderFlattening.Proofs.Conservation
import HeaderFlattening.Proofs.Lockstep
import HeaderFlattening.Proofs.Yield

/-!
A text converted behind another one. If nothing is open behind the first text, a conversion that goes
on from there is the same as a fresh one, but for what the first has left in the output and in the
report: no name, value or cursor that the first text leaves changes what becomes of a later line.
-/

set_option autoImplicit false
namespace HeaderFlattening

/-- Cursors that the function stage does not tell apart. Outside functions only the last token counts,
and only if a parenthesis behind it would open a signature. -/
structure Cursor.Alike (function : FunctionState) (c d : Cursor) : Prop where
  outside : function = .outside → c.previous = d.previous ∨
    (Scan.isCallable c.previous none = false ∧ Scan.isCallable d.previous none = false)
  inside : function ≠ .outside → d = c

theorem Cursor.alike_refl (function : FunctionState) (c : Cursor) : c.Alike function c :=
  ⟨fun _ => .inl rfl, fun _ => rfl⟩

namespace Scan

/-- The two scans differ at most in their cursors, which are alike. -/
structure Alike (s t : Scan) : Prop where
  rest : t = { s with cursor := t.cursor }
  cursor : s.cursor.Alike s.function t.cursor

variable {s t : Scan}

theorem Alike.eq (h : Alike s t) (inside : s.function ≠ .outside) : t = s := by
  rw [h.rest, h.cursor.inside inside]

/-- A token leaves alike what was alike, and is then the last token of both cursors. -/
theorem alike_step (startsInline : Bool) (source token : Text) {twoBack : Option Text}
    (h : Alike s t) (known : s.cursor.previous = t.cursor.previous ∨ twoBack = none) :
    Alike (step startsInline source twoBack token s) (step startsInline source twoBack token t) := by
  by_cases inside : s.function ≠ .outside
  · rw [h.eq inside]
    exact ⟨rfl, Cursor.alike_refl _ _⟩
  have outside : s.function = .outside := not_not.1 inside
  obtain ⟨d, rfl⟩ : ∃ d, t = { s with cursor := d } := ⟨_, h.rest⟩
  have same : s.cursor.previous = d.previous ∨
      (isCallable s.cursor.previous twoBack = false ∧ isCallable d.previous twoBack = false) := by
    rcases h.cursor.outside outside with eq | neither
    · exact .inl eq
    · rcases known with eq | none
      · exact .inl eq
      · rw [none]
        exact .inr neither
  have alike (u : Scan) (h : u.function = .outside) (c d : Cursor) :
      Alike { u with cursor := { c with previous := token } }
        { u with cursor := { d with previous := token } } :=
    ⟨rfl, fun _ => .inl rfl, fun ne => absurd h ne⟩
  obtain ⟨function, c, suppress, functions, trace⟩ := s
  obtain rfl : function = .outside := outside
  simp only [step, Scan.outside]
  by_cases inline : startsInline = true
  · rw [if_pos inline, if_pos inline]
    exact alike ⟨.outside, c, true, functions, trace⟩ rfl c d
  rw [if_neg inline, if_neg inline]
  rcases same with eq | ⟨left, right⟩
  · have eq : c.previous = d.previous := eq
    rw [eq]
    split_ifs
    · exact ⟨rfl, Cursor.alike_refl _ _⟩
    · exact alike ⟨.outside, c, suppress, functions, trace⟩ rfl c d
  · have left : isCallable c.previous twoBack = false := left
    rw [left, right, if_neg (by simp), if_neg (by simp)]
    exact alike ⟨.outside, c, suppress, functions, trace⟩ rfl c d

theorem alike_tokens (startsInline : Bool) (source : Text) (ws : List Text)
    {twoBack oneBack : Option Text} (h : Alike s t)
    (known : s.cursor.previous = t.cursor.previous ∨ twoBack = none) :
    Alike (tokens startsInline source twoBack oneBack ws s)
      (tokens startsInline source twoBack oneBack ws t) := by
  induction ws generalizing s t twoBack oneBack with
  | nil => exact h
  | cons w ws ih =>
    rw [tokens, tokens]
    split_ifs
    · exact h
    · exact ih (alike_step startsInline source w h known) (.inl rfl)

theorem alike_line (l : Line) (function : FunctionState) {c d : Cursor} (h : c.Alike function d) :
    Alike (line l function c) (line l function d) :=
  alike_tokens _ _ _ ⟨rfl, h⟩ (.inr rfl)

end Scan

/-- The remark with the number of its line raised. -/
def Diagnostic.shift (d : Diagnostic) (lines : Nat) : Diagnostic :=
  { d with line := d.line.map (lines + ·) }

/-- Names behind others: those that are new come last. -/
def NameList.followedBy (l k : NameList) : List Text :=
  l.toList ++ k.toList.filter fun name => !l.toList.contains name

/-- The report on two texts that were converted as one. -/
def Report.combine (r q : Report) : Report where
  lines := r.lines + q.lines
  enumValues := r.enumValues ++ q.enumValues.filter fun name => !r.enumValues.contains name
  functions := r.functions ++ q.functions
  classes := r.classes ++ q.classes
  diagnostics := r.diagnostics ++ q.diagnostics.map fun d => d.shift r.lines

/-- The state `t` of a conversion that went on from `a` where a fresh one has come to `s`. -/
structure Follows (a s t : State) : Prop where
  mode : t.mode = s.mode
  line : t.line = s.line
  indent : t.indent = s.indent
  lineNumber : t.lineNumber = a.lineNumber + s.lineNumber
  pendingEnums : t.pendingEnums = s.pendingEnums
  pendingMembers : t.pendingMembers = s.pendingMembers
  memberNames : s.mode.classState.isActive = true → t.memberNames = s.memberNames
  cursor : s.cursor.Alike s.mode.function t.cursor
  enumValues : t.enumValues.toList = a.enumValues.followedBy s.enumValues
  functions : t.functions = a.functions ++ s.functions
  classes : t.classes = a.classes ++ s.classes
  diagnostics : t.diagnostics = a.diagnostics ++ s.diagnostics.map fun d => d.shift a.lineNumber
  free : s.sink.room = none
  sink : t.sink = { s.sink with offered := a.sink.offered ++ s.sink.offered }

namespace Conversion

variable {a s t : State}

/-- A conversion that goes on beside a fresh one. Neither is ever lost. -/
def following (a : State) : Correspondence := .lasting (Follows a) (a.lineNumber + ·)

theorem room_of_follows (h : Follows a s t) : t.sink.room = none := by
  rw [h.sink]
  exact h.free

theorem has_followedBy {l k m : NameList} (h : m.toList = l.followedBy k) (name : Text) :
    m.has name = (l.has name || k.has name) := by
  unfold NameList.has
  rw [h, NameList.followedBy]
  by_cases mem : name ∈ l.toList
  · simp [mem]
  · simp [mem]

theorem followedBy_insert {l k m : NameList} {name : Text} (h : m.toList = l.followedBy k)
    (fresh : k.has name = false) :
    (m.insert name).toList = l.followedBy (k.insert name) := by
  have nonempty : name.isEmpty = false := (Bool.or_eq_false_iff.1 fresh).1
  unfold NameList.insert
  rw [has_followedBy h, fresh, Bool.or_false]
  by_cases mem : name ∈ l.toList
  · have known : l.has name = true := Bool.or_eq_true_iff.2 (.inr (List.contains_iff_mem.2 mem))
    rw [known, if_pos rfl, if_neg (by simp), h]
    simp [NameList.followedBy, mem]
  · have unknown : l.has name = false := by
      unfold NameList.has
      simp [nonempty, mem]
    rw [unknown, if_neg (by simp), if_neg (by simp)]
    simp [NameList.followedBy, h, mem]

theorem follows_addValue (name : Text) (h : Follows a s t) :
    Follows a (s.addValue name) (t.addValue name) := by
  have has := has_followedBy h.enumValues name
  unfold State.addValue
  cases old : s.enumValues.has name with
  | true =>
    rw [has, old, Bool.or_true, if_pos rfl, if_pos rfl]
    exact h
  | false =>
    have values := followedBy_insert h.enumValues old
    rw [if_neg Bool.false_ne_true]
    cases known : t.enumValues.has name with
    | true =>
      rw [if_pos rfl]
      refine { h with enumValues := ?_ }
      rw [← values, NameList.insert, if_pos known]
    | false =>
      rw [if_neg Bool.false_ne_true]
      exact { h with enumValues := values }

theorem sink_more (h : Follows a s t) (cs : List Chunk) :
    { t.sink with offered := t.sink.offered ++ cs } =
      { s.sink with offered := a.sink.offered ++ (s.sink.offered ++ cs) } := by
  rw [h.sink, List.append_assoc]

theorem follows_putDirect (c : Chunk) (h : Follows a s t) :
    Follows a (s.putDirect c) (t.putDirect c) := { h with sink := sink_more h [c] }

theorem follows_put (c : Chunk) (h : Follows a s t) : Follows a (s.put c) (t.put c) := by
  unfold State.put
  rw [h.mode]
  split_ifs
  · exact { h with mode := rfl, pendingEnums := congrArg (· ++ [c]) h.pendingEnums }
  · exact { h with mode := rfl, pendingMembers := congrArg (· ++ [c]) h.pendingMembers }
  · exact follows_putDirect c h

theorem follows_gather (h : Follows a s t) : Follows a s.gather t.gather := by
  have enums : t.gather.pendingEnums = s.gather.pendingEnums := by
    unfold State.gather State.trailingComments
    rw [h.pendingEnums, h.pendingMembers]
  have members : t.gather.pendingMembers = s.gather.pendingMembers := by
    unfold State.gather State.membersProper
    rw [h.pendingMembers]
  exact { h with pendingEnums := enums, pendingMembers := members }

theorem follows_flushed (h : Follows a s t) : Follows a s.flushed t.flushed := by
  have sink : t.flushed.sink =
      { s.flushed.sink with offered := a.sink.offered ++ s.flushed.sink.offered } := by
    unfold State.flushed
    rw [h.pendingEnums, h.pendingMembers]
    exact sink_more h _
  exact { h with pendingEnums := rfl, pendingMembers := rfl, sink := sink }

theorem follows_exitClass (name : Text) (active : s.mode.classState.isActive = true)
    (h : Follows a s t) : Follows a (s.exitClass name) (t.exitClass name) := by
  have sink : (t.exitClass name).sink =
      { (s.exitClass name).sink with offered := a.sink.offered ++ (s.exitClass name).sink.offered } := by
    unfold State.exitClass
    rw [h.pendingEnums, h.pendingMembers]
    exact sink_more h _
  have classes : (t.exitClass name).classes = a.classes ++ (s.exitClass name).classes := by
    show t.classes ++ [⟨name, t.memberNames.toList⟩] =
      a.classes ++ (s.classes ++ [⟨name, s.memberNames.toList⟩])
    rw [h.classes, h.memberNames active, List.append_assoc]
  exact { h with
    mode := congrArg (fun m : Mode => { m with classState := .none }) h.mode
    pendingEnums := rfl
    pendingMembers := rfl
    memberNames := fun _ => rfl
    classes := classes
    sink := sink }

theorem follows_withMode {g : Mode → Mode} (classState : ∀ m, (g m).classState = m.classState)
    (function : ∀ m, (g m).function = m.function) (h : Follows a s t) :
    Follows a (s.withMode g) (t.withMode g) := by
  refine { h with mode := congrArg g h.mode, memberNames := fun active => ?_, cursor := ?_ }
  · apply h.memberNames
    rw [← classState s.mode]
    exact active
  · rw [show (s.withMode g).mode.function = s.mode.function from function s.mode]
    exact h.cursor

theorem follows_openBrace {name : Text} (pending : s.mode.classState = .pending name)
    (h : Follows a s t) : Follows a (s.openBrace name) (t.openBrace name) := by
  have active : s.mode.classState.isActive = true := by rw [pending]; rfl
  exact { h with
    mode := congrArg (fun m : Mode => { m with classState := .opened name }) h.mode
    memberNames := fun _ => h.memberNames active }

theorem follows_addMember (name : Text) (active : s.mode.classState.isActive = true)
    (h : Follows a s t) : Follows a (s.addMember name) (t.addMember name) := by
  have names := h.memberNames active
  unfold State.addMember
  rw [names]
  split_ifs
  · exact h
  · exact { h with memberNames := fun _ => rfl }

theorem follows_remarked (d : Diagnostic) (h : Follows a s t) :
    Follows a (s.remarked d) (t.remarked d) := by
  refine { h with diagnostics := ?_ }
  unfold State.remarked
  rw [h.diagnostics, h.lineNumber, List.append_assoc, List.map_append]
  rfl

theorem follows_followBody {depth : Int} (inside : s.mode.function = .body depth)
    (h : Follows a s t) : Follows a (s.followBody depth) (t.followBody depth) := by
  have mode : (t.followBody depth).mode = (s.followBody depth).mode := by
    unfold State.followBody
    rw [h.mode, h.line]
  have cursor : t.cursor = s.cursor := h.cursor.inside (by rw [inside]; simp)
  refine { h with mode := mode, cursor := ?_ }
  rw [show (t.followBody depth).cursor = (s.followBody depth).cursor from cursor]
  exact Cursor.alike_refl _ _

theorem follows_followScan (h : Follows a s t) : Follows a s.followScan t.followScan := by
  have alike := Scan.alike_line s.line s.mode.function h.cursor
  have rest := alike.rest
  have mode : t.followScan.mode = s.followScan.mode := by
    unfold State.followScan
    rw [h.mode, h.line, rest]
  have functions : t.followScan.functions = a.functions ++ s.followScan.functions := by
    show t.functions ++ (Scan.line t.line t.mode.function t.cursor).functions =
      a.functions ++ (s.functions ++ (Scan.line s.line s.mode.function s.cursor).functions)
    rw [h.mode, h.line, rest, h.functions, List.append_assoc]
  refine { h with mode := mode, functions := functions, cursor := ?_ }
  unfold State.followScan
  rw [h.mode, h.line]
  exact alike.cursor

theorem agree_of_follows {α : Type} {x : Conversion α} {r : α} {u v : State}
    (left : Reaches x s r u) (right : Reaches x t r v) (h : Follows a s t) (k : Follows a u v) :
    (following a).Agree (x.run s) (x.run t) := by
  rw [left.run_eq h.free, right.run_eq (room_of_follows h)]
  exact .ok k

theorem agree_followFunction' (h : Follows a s t) :
    (following a).Agree (followFunction.run s) (followFunction.run t) := by
  cases function : s.mode.function with
  | body depth =>
    rw [run_followFunction_body function, run_followFunction_body (by rw [h.mode, function])]
    exact .ok (follows_followBody function h)
  | outside | signature =>
    have alike := Scan.alike_line s.line s.mode.function h.cursor
    have suppress : (Scan.line s.line s.mode.function t.cursor).suppress =
        (Scan.line s.line s.mode.function s.cursor).suppress := by rw [alike.rest]
    rw [run_followFunction_scan (by rw [function]; simp),
      run_followFunction_scan (by rw [h.mode, function]; simp), h.mode, h.line, suppress]
    exact .ok (follows_followScan h)

/-- Each part of a stage keeps a conversion beside a fresh one. -/
def followingSession (a : State) : Simulation where
  toCorrespondence := following a
  mode {s _} h := ⟨s.mode.inExternC, h.mode⟩
  line h := h.line
  indent h := h.indent
  lineNumber h := h.lineNumber
  begin config raw h := by
    have outdent := congrArg (config.outdent · raw) h.mode
    refine { h with line := ?_, indent := ?_, lineNumber := ?_ }
    · exact congrArg (fun cut => Line.ofText cut.2) outdent
    · exact congrArg Prod.fst outdent
    · exact congrArg (· + 1) h.lineNumber
  withLine l h := { h with line := rfl }
  noted e h := { h with }
  remarked d h := follows_remarked d h
  withMode g classState function _ h := follows_withMode classState function h
  openBrace pending h := follows_openBrace pending h
  enterClass c h := { h with
    mode := congrArg (fun m : Mode => { m with classState := c }) h.mode
    memberNames := fun _ => rfl }
  addValue name h := follows_addValue name h
  addMember name active h := follows_addMember name active h
  gather h := follows_gather h
  emit o x h := agree_of_follows (reaches_emit o x _) (reaches_emit o x _) h (follows_put _ h)
  emitDirect o x h :=
    agree_of_follows (reaches_emitDirect o x _) (reaches_emitDirect o x _) h (follows_putDirect _ h)
  flushPending h :=
    agree_of_follows (reaches_flushPending _) (reaches_flushPending _) h (follows_flushed h)
  followFunction h := agree_followFunction' h
  closeClass name active h :=
    agree_of_follows (reaches_closeClass name _) (reaches_closeClass name _) h
      (follows_exitClass name active h)
  inExternC h := congrArg Mode.inExternC h.mode
  withExternC b h := follows_withMode (fun _ => rfl) (fun _ => rfl) h

theorem agree_processAll (config : Config) (ls : List Text) (h : Follows a s t) :
    (following a).Agree ((processAll config (ls.map .ok)).run s)
      ((processAll config (ls.map .ok)).run t) := by
  induction ls generalizing s t with
  | nil => exact (parallel_finish (S := followingSession a) s t).agree h
  | cons raw ls ih =>
    have first := agree_processLine (S := followingSession a) config raw h
    rw [List.map_cons, processAll, EStateM.run_bind, EStateM.run_bind]
    generalize (processLine config raw).run s = r at first
    generalize (processLine config raw).run t = q at first
    cases first with
    | ok next => exact ih next
    | error next => exact .error next
    | lost gone => exact gone.elim

variable {config : Config}

/-- What a successful conversion of lines went through. -/
theorem runs_of_ok {ls : List Text} (h : (processAll config (ls.map .ok)).run s = .ok () t) :
    Runs config ls s (runLines config ls s) ∧ finish.run (runLines config ls s) = .ok () t := by
  induction ls generalizing s with
  | nil => exact ⟨.nil s, h⟩
  | cons raw ls ih =>
    rw [List.map_cons, processAll, EStateM.run_bind] at h
    cases run : (processLine config raw).run s with
    | error e u =>
      rw [run] at h
      cases h
    | ok _ u =>
      rw [run] at h
      obtain ⟨rest, last⟩ := ih h
      rw [runLines, stateAfter_of_run run]
      exact ⟨.cons run rest, last⟩

theorem Runs.processAll_append {xs : List Text} (ys : List Text) (h : Runs config xs s t) :
    (Conversion.processAll config ((xs ++ ys).map .ok)).run s =
      (Conversion.processAll config (ys.map .ok)).run t := by
  induction h with
  | nil => rfl
  | cons line _ ih =>
    rw [List.cons_append, List.map_cons, Conversion.processAll, EStateM.run_bind, line]
    exact ih

/-- Nothing of the line before is left when the next one is read. -/
theorem ofResult_withLine (ls : List Text) (line : Line) (indent : Text)
    (closed : s.mode.classState.name? = none) :
    Converted.ofResult ((processAll config (ls.map .ok)).run { s with line, indent }) =
      Converted.ofResult ((processAll config (ls.map .ok)).run s) := by
  cases ls with
  | nil =>
    rw [List.map_nil, processAll, run_finish_closed closed, run_finish_closed (by exact closed)]
    rfl
  | cons raw ls =>
    rw [List.map_cons, processAll, EStateM.run_bind, EStateM.run_bind, run_processLine,
      run_processLine]
    rfl

theorem ofResult_agree {r q : EStateM.Result ConvertError State Unit}
    (h : (following a).Agree r q) :
    Converted.ofResult q =
      match Converted.ofResult r with
      | .ok c => .ok ⟨a.sink.text ++ c.text, a.report.combine c.report⟩
      | .error e => .error (e.renumber (a.lineNumber + ·)) := by
  cases h with
  | @ok _ u v k =>
    have text : v.sink.text = a.sink.text ++ u.sink.text := by
      unfold Sink.text
      rw [k.sink, List.flatMap_append]
    have report : v.report = a.report.combine u.report := by
      unfold State.report Report.combine
      rw [k.lineNumber, k.enumValues, k.functions, k.classes, k.diagnostics]
      rfl
    show Except.ok (Converted.mk v.sink.text v.report) = _
    rw [text, report]
    rfl
  | error k => rfl
  | lost gone => exact gone.elim

/-- Behind lines that leave nothing open, a fresh conversion and one that goes on are alike. -/
theorem follows_start {ls : List Text} (s : State) (eq : s = runLines config ls {})
    (closed : s.mode = {}) (uncallable : Scan.isCallable s.cursor.previous none = false) :
    Follows s {} { s with line := {}, indent := [] } := by
  have reachable : Reachable config none s := by
    rw [eq]
    exact reachable_runLines config none ls .start
  have sink : s.sink = { room := none, offered := s.sink.offered ++ [] } := by
    rw [List.append_nil, ← room_of_reachable reachable]
  have idle := (accounted_of_reachable reachable (hasAll_of_unbounded reachable)).idle
  obtain ⟨enums, members⟩ := idle (by rw [closed])
  exact {
    mode := closed
    line := rfl
    indent := rfl
    lineNumber := rfl
    pendingEnums := enums
    pendingMembers := members
    memberNames := fun active => absurd active Bool.false_ne_true
    cursor := ⟨fun _ => .inr ⟨rfl, uncallable⟩, fun ne => absurd rfl ne⟩
    enumValues := (List.append_nil _).symm
    functions := (List.append_nil _).symm
    classes := (List.append_nil _).symm
    diagnostics := (List.append_nil _).symm
    free := rfl
    sink := sink }

end Conversion

theorem Text.lines_append {a : Text} (b : Text) (h : a = [] ∨ a.getLast? = some '\n') :
    (a ++ b).lines = a.lines ++ b.lines := by
  induction a with
  | nil => rfl
  | cons c a ih =>
    rw [List.cons_append, lines, lines]
    by_cases last : a = []
    · subst last
      have newline : c = '\n' := by simpa using h
      rw [if_pos newline, if_pos newline]
      rfl
    have ended : a.getLast? = some '\n' := by
      rcases h with none | some
      · exact absurd none (List.cons_ne_nil _ _)
      · rw [List.getLast?_eq_some_getLast last]
        rwa [List.getLast?_cons, List.getLast?_eq_some_getLast last] at some
    rw [ih (.inr ended)]
    split_ifs
    · rfl
    · cases front : lines a with
      | nil =>
        have same := flatten_lines a
        rw [front] at same
        exact absurd same.symm last
      | cons l ls => rfl

/-- A text that ends with a line and leaves nothing open can be converted by itself: what follows is
converted as if it stood alone. The depth in the function bodies of the texts is a plain integer;
`function_depth_wellFormed` has the bound for one of 32 bits. -/
theorem convertText_append (config : Config) (a b : Text) (first : Converted)
    (ended : a = [] ∨ a.getLast? = some '\n') (converts : convertText config a = .ok first)
    (closed : (Conversion.runLines config a.lines {}).mode = {})
    (noName : (Conversion.runLines config a.lines {}).cursor.previous.isIdentifier = false)
    (noOperator :
      "operator".toList.isPrefixOf (Conversion.runLines config a.lines {}).cursor.previous = false) :
    convertText config (a ++ b) =
      match convertText config b with
      | .ok second => .ok ⟨first.text ++ second.text, first.report.combine second.report⟩
      | .error e => .error (e.renumber (first.report.lines + ·)) := by
  let s := Conversion.runLines config a.lines {}
  have uncallable : Scan.isCallable s.cursor.previous none = false := by
    unfold Scan.isCallable
    rw [noName, noOperator]
    rfl
  have idle : s.mode.classState.name? = none := by rw [closed]; rfl
  have own : first = ⟨s.sink.text, s.report⟩ ∧ Conversion.Runs config a.lines {} s := by
    unfold convertText convertLines at converts
    cases run : (Conversion.processAll config (a.lines.map .ok)).run {} with
    | error e t =>
      rw [run] at converts
      cases converts
    | ok u t =>
      obtain ⟨runs, last⟩ := Conversion.runs_of_ok run
      rw [Conversion.run_finish_closed idle] at last
      cases last
      rw [run] at converts
      cases converts
      exact ⟨rfl, runs⟩
  obtain ⟨rfl, runs⟩ := own
  have beside := Conversion.agree_processAll config b.lines
    (Conversion.follows_start s rfl closed uncallable)
  have result := Conversion.ofResult_agree beside
  rw [Conversion.ofResult_withLine b.lines {} [] idle] at result
  have behind : convertText config (a ++ b) =
      Converted.ofResult ((Conversion.processAll config (b.lines.map .ok)).run s) := by
    unfold convertText convertLines
    rw [Text.lines_append b ended, runs.processAll_append]
  rw [behind, result]
  rfl

/-- An enum with the values `X` and `Y` on one line. -/
def twoValues (name : Text) : Text := "enum ".toList ++ name ++ " \x7b X, Y \x7d;\n".toList

/-- Values that both enums have are reported once. -/
theorem twoValues_append :
    let a := twoValues ['E']
    let b := twoValues ['F']
    ∃ first second, convertText {} a = .ok first ∧ convertText {} b = .ok second ∧
      (Conversion.runLines {} (Text.lines a) {}).mode = {} ∧
      convertText {} (a ++ b) =
        .ok ⟨first.text ++ second.text, first.report.combine second.report⟩ ∧
      (first.report.combine second.report).enumValues = [['X'], ['Y']] := by
  intro a b
  let report : Report := ⟨1, [['X'], ['Y']], [], [], []⟩
  let first : Converted := ⟨"typedef enum _E \x7b X, Y \x7d E;\n".toList, report⟩
  let second : Converted := ⟨"typedef enum _F \x7b X, Y \x7d F;\n".toList, report⟩
  have converts : convertText {} a = .ok first := by decide +kernel
  have follows : convertText {} b = .ok second := by decide +kernel
  have closed : (Conversion.runLines {} (Text.lines a) {}).mode = {} := by decide +kernel
  have both := convertText_append {} a b first (.inr (by decide)) converts closed
    (by decide +kernel) (by decide +kernel)
  rw [follows] at both
  exact ⟨first, second, converts, follows, closed, both, by decide⟩

end HeaderFlattening
