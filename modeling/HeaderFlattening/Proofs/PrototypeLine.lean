import HeaderFlattening.Proofs.Parameters

/-!
Prototypes that stand on one line. The parenthesis that opens the signature already asks for the line
to be suppressed, and nothing takes this back: whether the line declares something besides, which is
looked up at the semicolon, makes no difference.
-/

set_option autoImplicit false
namespace HeaderFlattening

/-- The words of a line that are read, parted at the parentheses of a signature and at the semicolon
behind it. -/
structure PrototypeLine where
  before : List Text
  params : List Text
  between : List Text
  after : List Text
  deriving DecidableEq, Repr

namespace PrototypeLine

def words (p : PrototypeLine) : List Text :=
  p.before ++ ['('] :: (p.params ++ [')'] :: (p.between ++ [';'] :: p.after))

/-- The first parenthesis that opens a signature is the one behind `before`, the next closing one and
the next semicolon end it, and behind them no other signature is opened. `carried` is the last word of
the lines before. -/
structure Valid (carried : Text) (p : PrototypeLine) : Prop where
  first : Scan.opens carried none none p.before = false
  call : Scan.opens carried none none (p.before ++ [['(']]) = true
  unclosed : [')'] ∉ p.params
  pending : [';'] ∉ p.between
  last : Scan.opens carried ([')'] :: p.between).getLast? (some [';']) p.after = false

instance (carried : Text) (p : PrototypeLine) : Decidable (p.Valid carried) :=
  decidable_of_iff
    (Scan.opens carried none none p.before = false ∧
      Scan.opens carried none none (p.before ++ [['(']]) = true ∧
      (∀ w ∈ p.params, ¬[')'] = w) ∧ (∀ w ∈ p.between, ¬[';'] = w) ∧
      Scan.opens carried ([')'] :: p.between).getLast? (some [';']) p.after = false)
    ⟨fun ⟨a, b, c, d, e⟩ => ⟨a, b, List.forall_mem_ne.1 c, List.forall_mem_ne.1 d, e⟩,
      fun ⟨a, b, c, d, e⟩ => ⟨a, b, List.forall_mem_ne.2 c, List.forall_mem_ne.2 d, e⟩⟩

/-- What is recorded of the function. -/
def record (carried : Text) (p : PrototypeLine) : FunctionRecord :=
  ⟨p.before.getLast?.getD carried, (namesListed ['('] (p.params ++ [[')']])).eraseDups⟩

end PrototypeLine

namespace Scan

variable {startsInline : Bool} {carried source : Text} {two one : Option Text} {s : Scan}
  {ws : List Text}

/-- Wherever the scan is not outside, it has found a reason to suppress the line already. -/
def Decided (s : Scan) : Prop := s.function ≠ .outside → s.suppress = true

theorem Decided.step (h : s.Decided) (w : Text) : (step startsInline source two w s).Decided := by
  intro inside
  cases state : s.function with
  | outside => exact suppress_step_call w state inside
  | signature | body => exact suppress_step w (h (by simp [state]))

theorem step_source (h : s.Decided) (w : Text) (source' : Text) :
    step startsInline source' two w s = step startsInline source two w s := by
  cases state : s.function with
  | outside | signature => simp only [Scan.step, state]
  | body depth => simp [Scan.step, state, behindSignature, h (by simp [state])]

theorem steps_source (h : s.Decided) (ws : List Text) (source' : Text) :
    steps startsInline source' two one ws s = steps startsInline source two one ws s := by
  induction ws generalizing two one s with
  | nil => rfl
  | cons w ws ih => rw [steps, steps, step_source h w source', ih (h.step w)]

/-- What is read from a line outside functions depends on its words alone. That the line, or any other
text with these words, is a declaration makes no difference. -/
theorem line_source {l l' : Line} (words : l'.words = l.words) (cursor : Cursor) :
    line l' .outside cursor = line l .outside cursor := by
  have start : Decided { function := .outside, cursor } := fun inside => absurd rfl inside
  rw [line, line, Line.word?, Line.word?, words, tokens_eq_steps, tokens_eq_steps, steps_source start]

/-- Behind a signature nothing is looked at before a semicolon. -/
theorem steps_pending (h : s.function = .body 0) (pending : [';'] ∉ ws) :
    ∃ cursor, steps false source two one ws s = { s with cursor } := by
  induction ws generalizing two one s with
  | nil => exact ⟨s.cursor, rfl⟩
  | cons w ws ih =>
    rw [List.mem_cons, not_or] at pending
    have idle : step false source two w s = { s with cursor := { s.cursor with previous := w } } := by
      simp [step, h, behindSignature, Ne.symm pending.1]
    rw [steps, idle]
    exact ih h pending.2

/-- The words behind the opening parenthesis record the function and lead outside. -/
theorem steps_signature_line {p : PrototypeLine} (source : Text) (two one : Option Text)
    (valid : p.Valid carried) (h : s.function = .signature) :
    let t := steps false source two one (p.params ++ [[')']] ++ (p.between ++ [';'] :: p.after)) s
    t.function = .outside ∧ t.functions = s.functions ++ [⟨s.cursor.name,
      ((namesListed s.cursor.previous (p.params ++ [[')']])).foldl NameList.insert
        s.cursor.params).toList⟩] := by
  obtain ⟨behind, -, functions⟩ :
      (steps false source two one (p.params ++ [[')']]) s).function = .body 0 ∧ _ ∧
        (steps false source two one (p.params ++ [[')']]) s).functions = _ :=
    steps_closed h valid.unclosed
  have close : (lastTwo two one (p.params ++ [[')']])).2 = some [')'] := by simp [snd_lastTwo_or]
  rw [steps_append]
  generalize steps false source two one (p.params ++ [[')']]) s = t at behind functions
  generalize lastTwo two one (p.params ++ [[')']]) = back at close
  obtain ⟨cursor, waiting⟩ :
      ∃ cursor, steps false source back.1 back.2 p.between t = { t with cursor } :=
    steps_pending behind valid.pending
  have look : (lastTwo back.1 back.2 p.between).2 = ([')'] :: p.between).getLast? := by
    rw [snd_lastTwo_or, close, List.getLast?_cons]
    cases p.between.getLast? <;> rfl
  rw [steps_append, waiting, steps, look]
  generalize (lastTwo back.1 back.2 p.between).1 = before
  have ended : (step false source before [';'] { t with cursor }).function = .outside := by
    rw [function_step_behind _ (by exact behind), if_pos rfl]
  have same : (step false source before [';'] { t with cursor }).functions = t.functions := by
    simp [step, behind, behindSignature]
  rw [steps_of_not_opens ended rfl valid.last]
  exact ⟨ended, same.trans functions⟩

/-- A prototype on one line is recorded, leaves no function open, and asks to be suppressed. -/
theorem line_prototype {l : Line} {p : PrototypeLine} {cursor : Cursor} (read : l.read = p.words)
    (valid : p.Valid cursor.previous) (notInline : l.word? 0 ≠ some "inline".toList) :
    (line l .outside cursor).function = .outside ∧
      (line l .outside cursor).suppress = true ∧
      (line l .outside cursor).functions = [p.record cursor.previous] := by
  have back : (lastTwo none none p.before).2 = p.before.getLast? := by
    rw [snd_lastTwo_or, Option.or_none]
  have callable : isCallable (p.before.getLast?.getD cursor.previous)
      (lastTwo none none p.before).1 = true := by
    have call := valid.call
    rw [opens_append, valid.first, back] at call
    simpa [opens] using call
  have front : steps false l.text none none p.before { function := .outside, cursor } =
      { function := .outside
        cursor := { cursor with previous := p.before.getLast?.getD cursor.previous } } := by
    rw [steps_of_not_opens (s := { function := .outside, cursor }) rfl rfl valid.first, Option.or_none]
  have opened : step false l.text (lastTwo none none p.before).1 ['(']
      { function := .outside
        cursor := { cursor with previous := p.before.getLast?.getD cursor.previous } } =
      { function := .signature
        cursor := ⟨p.before.getLast?.getD cursor.previous, {}, ['(']⟩
        suppress := true } := by
    simp [step, outside, callable]
  have parts : p.words =
      p.before ++ ['('] :: ((p.params ++ [[')']]) ++ (p.between ++ [';'] :: p.after)) := by
    simp [PrototypeLine.words]
  have whole : line l .outside cursor =
      steps false l.text none none p.words { function := .outside, cursor } := by
    rw [line, decide_eq_false notInline, tokens_eq_steps, ← read]
    rfl
  have listed : [] ∉ namesListed ['('] (p.params ++ [[')']]) := fun mem =>
    absurd (isIdentifier_of_mem_namesListed mem) (by decide)
  rw [whole, parts, steps_append, front, steps, opened]
  obtain ⟨function, functions⟩ := steps_signature_line l.text (lastTwo none none p.before).2
    (some ['(']) valid
    (s := {
      function := .signature
      cursor := ⟨p.before.getLast?.getD cursor.previous, {}, ['(']⟩
      suppress := true }) rfl
  refine ⟨function, suppress_steps _ rfl, functions.trans ?_⟩
  rw [List.nil_append, PrototypeLine.record, ← NameList.insertAll_eq_eraseDups listed]
  rfl

end Scan

namespace Conversion

variable {config : Config} {raw : Text} {s : State}

/-- A prototype on one line is recorded and suppressed, and no function is open behind it. So the stage
leaves to the later ones just the lines that declare something only if none of them does. -/
theorem prototype_suppressed {edit : Option MacroEdit} {l : Line} {p : PrototypeLine}
    (watching : s.Watching) (noFunction : s.mode.function = .outside)
    (arrives : Arrives config s.mode raw (.reached edit l))
    (notInline : l.word? 0 ≠ some "inline".toList) (read : l.read = p.words)
    (valid : p.Valid s.cursor.previous) :
    let u := s.arrive config raw (.reached edit l)
    let t := u.followOutside.putAll (config.rules.suppression.render 0 l.text)
    (((∃ v, (trackFunctions config).run u = .ok false v) ↔ l.text.isDeclaration = true) ↔
      l.text.declaredName? = none) ∧
    Leaves (trackFunctions config) u true t ∧
    Leaves (processLine config raw) s () t ∧
    t.mode = s.mode ∧
    u.followOutside.functions = s.functions ++ [p.record s.cursor.previous] := by
  intro u t
  obtain ⟨function, suppress, functions⟩ := Scan.line_prototype read valid notInline
  have follow : followFunction.run u = .ok (Scan.line l .outside s.cursor).suppress u.followOutside :=
    run_followFunction_outside noFunction
  rw [suppress] at follow
  have mode : u.followOutside.mode = s.mode := by
    show { s.mode with function := (Scan.line l .outside s.cursor).function } = s.mode
    rw [function, ← noFunction]
  have stage : Leaves (trackFunctions config) u true t := by
    have leaves : Leaves (trackFunctions config) u true _ :=
      leaves_trackFunctions ⟨watching.enum, watching.struct⟩ follow
    rw [mode, noFunction] at leaves
    exact leaves
  have claimed : ¬∃ v, (trackFunctions config).run u = .ok false v := by
    rintro ⟨v, passed⟩
    rcases stage with run | ⟨run, -⟩ <;> simp [run] at passed
  refine ⟨?_, stage, leaves_reached arrives (leaves_late stage),
    (State.mode_putAll _ _).trans mode, congrArg (s.functions ++ ·) functions⟩
  rw [iff_false_left claimed, Text.isDeclaration, Option.not_isSome_iff_eq_none]

theorem declaredPrototype_not_kept :
    let raw := "void f(); int x;\n".toList
    Text.declaredName? raw = some ['x'] ∧
      (¬∃ v, (trackFunctions {}).run (State.arrive {} {} raw (.reached none (.cut raw))) =
        .ok false v) ∧
      ∃ t, (processLine {} raw).run {} = .ok () t ∧
        t.sink.text = "//(0) void f(); int x;\n".toList := by
  intro raw
  have declares : Text.declaredName? raw = some ['x'] := by decide +kernel
  have arrives : Arrives {} {} raw (.reached none (.cut raw)) :=
    .plain rfl rfl rfl rfl rfl rfl (by decide)
  obtain ⟨rule, -, leaves, -⟩ := prototype_suppressed (s := {}) ⟨rfl, rfl⟩ rfl arrives (by decide)
    (p := ⟨["void".toList, ['f']], [], [], ["int".toList, ['x'], [';']]⟩) (by decide) (by decide)
  refine ⟨declares, fun kept => ?_, _, leaves.run_eq ?_, ?_⟩
  · have declared : Text.isDeclaration raw = true := by rw [Text.isDeclaration, declares]; rfl
    have none : Text.declaredName? raw = none := rule.1 ⟨fun _ => declared, fun _ => kept⟩
    rw [declares] at none
    cases none
  · rw [State.putAll_closed _ rfl]
    rfl
  · rw [State.putAll_closed _ rfl]
    rfl

end Conversion

end HeaderFlattening
