import HeaderFlattening.Proofs.EnumBody

/-!
Flat classes. A class is given by its items, and `ClassSource.flat` says what becomes of it: a struct
with the data members, and behind it everything else in the order of the source, with enums made flat,
prototypes and functions suppressed, and access specifiers left out.
-/

set_option autoImplicit false
namespace HeaderFlattening

/-- A text that ends in its only line feed. -/
def Text.IsLine (t : Text) : Prop := t.getLast? = some '\n' ∧ '\n' ∉ t.dropLast

instance (t : Text) : Decidable t.IsLine := inferInstanceAs (Decidable (_ ∧ _))

/-- A line of a function body: blank lines and `//` lines are copied, and the others are seen by the
stage that follows functions. -/
def Seen.ofText (raw : Text) : Seen :=
  if (Line.cut raw).Passed then .copied (.cut raw) else .reached none (.cut raw)

/-- A part of the body of a class. -/
inductive ClassItem where
  /-- A blank line or a `//` line. -/
  | remark (raw : Text)
  | access (raw : Text)
  | member (indent type name trail : Text)
  | prototype (raw : Text) (call : Call)
  /-- The line of the signature and the lines of the body, braces included. -/
  | method (raw : Text) (call : Call) (body : List Text)
  | enumLine (raw : Text) (d : TypeDeclaration) (e : EnumLine)
  /-- The opening line, the lines behind it and the closing line. -/
  | enum (raw : Text) (d : TypeDeclaration) (values : List Text) (closer : Text)

namespace ClassItem

def lines : ClassItem → List Text
  | remark raw | access raw | prototype raw _ | enumLine raw _ _ => [raw]
  | member indent type name trail => [memberText indent type name trail]
  | method raw _ body => raw :: body
  | enum raw _ values closer => raw :: (values ++ [closer])

/-- The body of a class with this name, with no enum and no function open in it. -/
def inBody (className : Text) : Mode := { classState := .opened className }

/-- The line of a prototype or of a signature. -/
structure IsCall (className raw : Text) (call : Call) : Prop where
  unclaimed : (Line.cut raw).Unclaimed (inBody className)
  words : (Line.cut raw).words = call.words
  notInline : (Line.cut raw).word? 0 ≠ some "inline".toList

instance (className raw : Text) (call : Call) : Decidable (IsCall className raw call) :=
  decidable_of_iff
    ((Line.cut raw).Unclaimed (inBody className) ∧ (Line.cut raw).words = call.words ∧
      (Line.cut raw).word? 0 ≠ some "inline".toList)
    ⟨fun ⟨a, b, c⟩ => ⟨a, b, c⟩, fun ⟨a, b, c⟩ => ⟨a, b, c⟩⟩

/-- The lines have the form that the item stands for. -/
def Valid (className : Text) : ClassItem → Prop
  | remark raw => (Line.cut raw).Passed
  | access raw => (Line.cut raw).words ∈ Conversion.accessWords
  | member indent type name trail => IsMember indent type name trail
  | prototype raw call => IsCall className raw call ∧ [';'] ∈ call.after
  | method raw call body =>
    IsCall className raw call ∧ [';'] ∉ call.after ∧
      (∀ line ∈ body, (Line.cut line).Passed ∨ (Line.cut line).Unclaimed (inBody className)) ∧
      Encloses 0 (body.map Seen.ofText) ∧ (body.map Seen.ofText).head?.any Seen.hasBrace = true
  | enumLine raw d e =>
    TypeDeclaration.ofWords? "enum".toList (Line.cut raw).words = some d ∧ d.brace = .sameLine ∧
      EnumLine.ofTokens? (Line.cut raw).tokens = some e
  | enum raw d values closer =>
    TypeDeclaration.ofWords? "enum".toList (Line.cut raw).words = some d ∧ d.brace ≠ .forward ∧
      (d.brace = .sameLine → EnumLine.ofTokens? (Line.cut raw).tokens = none) ∧
      (∀ line ∈ values, (Line.cut line).Passed ∨
        (Line.cut line).IsValues { inBody className with enumBody := some ⟨d.name, false⟩ }) ∧
      (Line.cut closer).isTypeCloser = true

instance (className : Text) : (item : ClassItem) → Decidable (item.Valid className)
  | remark _ => inferInstanceAs (Decidable (Line.Passed _))
  | access _ => inferInstanceAs (Decidable (_ ∈ _))
  | member .. => inferInstanceAs (Decidable (IsMember ..))
  | prototype .. => inferInstanceAs (Decidable (_ ∧ _))
  | method .. => inferInstanceAs (Decidable (_ ∧ _))
  | enumLine .. => inferInstanceAs (Decidable (_ ∧ _))
  | enum .. => inferInstanceAs (Decidable (_ ∧ _))

end ClassItem

/-- The lines of a function body as they are left, with `depth` braces open before. The annotation on
a line counts the braces that are open behind it; the last line is outside the function again. -/
def Config.bodyText (config : Config) : (depth : Int) → List Text → Text
  | _, [] => []
  | depth, raw :: rest =>
    let open' := depth + (Seen.ofText raw).balance
    let level := if rest = [] then 0 else 1 + open'
    (if (Line.cut raw).Passed then config.cutIndent raw else config.suppressed level raw)
      ++ bodyText config open' rest

/-- What an item leaves in the flat form of the class and in the report. -/
def ClassItem.yield (config : Config) (className : Text) : ClassItem → Yield
  | remark raw => { deferred := config.cutIndent raw, lines := 1 }
  | access _ => { lines := 1 }
  | member indent type name trail =>
    { written := memberText indent type name trail, members := [name], lines := 1 }
  | prototype raw call =>
    { deferred := config.suppressed 0 raw, functions := [call.record], lines := 1 }
  | method raw call body =>
    { deferred := config.suppressed 1 raw ++ config.bodyText 0 body
      functions := [call.record]
      lines := 1 + body.length }
  | enumLine _ d e =>
    { deferred := e.text (some className) d.name, values := e.values (some className), lines := 1 }
  | enum _ d values _ =>
    { deferred := openerText "enum".toList d.name
        ++ ((if d.brace = .sameLine then "\x7b\n".toList else [])
        ++ (values.flatMap (fun line => valueText className (config.cutIndent line))
        ++ closerText d.name))
      values := values.flatMap fun line => valueNames className (Line.cut line).words
      lines := 1 + (values.length + 1) }

/-- A class: its name, the opening line, the line of the brace if that is another one, the items of the
body and the closing line. -/
structure ClassSource where
  name : Text
  opener : Text
  brace : Option Text
  items : List ClassItem
  closer : Text

namespace ClassSource

def lines (c : ClassSource) : List Text :=
  c.opener :: (c.brace.toList ++ (c.items.flatMap ClassItem.lines ++ [c.closer]))

structure Valid (c : ClassSource) : Prop where
  named : c.name.isIdentifier = true
  opener : (Line.cut c.opener).words =
    "class".toList :: c.name :: if c.brace.isNone then [['{']] else []
  brace : ∀ line ∈ c.brace, (Line.cut line).words = [['{']]
  items : ∀ item ∈ c.items, item.Valid c.name
  closer : (Line.cut c.closer).isTypeCloser = true
  ended : ∀ line ∈ c.lines, line.IsLine

instance (c : ClassSource) : Decidable c.Valid :=
  decidable_of_iff
    (c.name.isIdentifier = true ∧
      (Line.cut c.opener).words =
        "class".toList :: c.name :: (if c.brace.isNone then [['{']] else []) ∧
      (∀ line ∈ c.brace, (Line.cut line).words = [['{']]) ∧ (∀ item ∈ c.items, item.Valid c.name) ∧
      (Line.cut c.closer).isTypeCloser = true ∧ ∀ line ∈ c.lines, line.IsLine)
    ⟨fun ⟨a, b, c, d, e, f⟩ => ⟨a, b, c, d, e, f⟩, fun ⟨a, b, c, d, e, f⟩ => ⟨a, b, c, d, e, f⟩⟩

/-- What the items leave, one after the other. -/
def yield (config : Config) (c : ClassSource) : Yield :=
  c.items.foldr (fun item rest => item.yield config c.name ++ rest) {}

/-- The flat form: the struct with its data members, and all that was put off behind it. -/
def flat (config : Config) (c : ClassSource) : Text :=
  "typedef struct _".toList ++ c.name ++ "\n".toList
    ++ (match c.brace with
      | none => "\x7b\n".toList
      | some line => config.cutIndent line)
    ++ (c.yield config).written ++ "\x7d ".toList ++ c.name ++ ";\n".toList
    ++ (c.yield config).deferred

def report (config : Config) (c : ClassSource) : Report :=
  { lines := c.lines.length
    enumValues := (NameList.insertAll {} (c.yield config).values).toList
    functions := (c.yield config).functions
    classes := [⟨c.name, (NameList.insertAll {} (c.yield config).members).toList⟩]
    diagnostics := [] }

end ClassSource

namespace Seen

theorem ofText_of_passed {raw : Text} (h : (Line.cut raw).Passed) :
    Seen.ofText raw = .copied (.cut raw) := if_pos h

theorem ofText_of_not_passed {raw : Text} (h : ¬(Line.cut raw).Passed) :
    Seen.ofText raw = .reached none (.cut raw) := if_neg h

theorem after_of_open {x : Seen} {depth : Int} (h : 0 < depth + x.balance) :
    x.after depth = .body (depth + x.balance) := by
  cases brace : x.hasBrace with
  | true =>
    rw [after_of_hasBrace brace, if_neg]
    omega
  | false =>
    rw [after_of_not_hasBrace brace, balance_of_not_hasBrace brace, Int.add_zero]

theorem after_of_closed {x : Seen} {depth : Int} (h : depth + x.balance = 0)
    (start : 0 < depth ∨ x.hasBrace = true) : x.after depth = .outside ∧ x.hasBrace = true := by
  have brace := hasBrace_of_closed h start
  refine ⟨?_, brace⟩
  rw [after_of_hasBrace brace, if_pos]
  omega

end Seen

theorem Line.Unclaimed.inFunction {m : Mode} {l : Line} (h : l.Unclaimed m) (function : FunctionState) :
    l.Unclaimed { m with function } := by
  obtain ⟨full, slashes, star, define, loose⟩ := h
  exact ⟨full, slashes, star, define, loose.externC, loose.noEnum, loose.noStruct, loose.noClass,
    loose.notFlat, loose.closer, loose.brace⟩

namespace Conversion

variable {config : Config} {m : Mode} {name raw : Text} {s t : State}

theorem bodyText_last (config : Config) (depth : Int) (h : ¬(Line.cut raw).Passed) :
    config.bodyText depth [raw] = config.suppressed 0 raw := by
  simp only [Config.bodyText, if_neg h, if_true, List.append_nil]

theorem bodyText_cons (config : Config) (depth : Int) (raw next : Text) (rest : List Text) :
    config.bodyText depth (raw :: next :: rest) =
      (if (Line.cut raw).Passed then config.cutIndent raw
        else config.suppressed (1 + (depth + (Seen.ofText raw).balance)) raw)
      ++ config.bodyText (depth + (Seen.ofText raw).balance) (next :: rest) := by
  rw [Config.bodyText]
  simp only [reduceCtorEq, if_false]

theorem advances_lastLine (h : m.InClass name) (noEnum : m.enumBody = none)
    (outside : m.function = .outside) {depth : Int}
    (line : (Line.cut raw).Passed ∨ (Line.cut raw).Unclaimed m)
    (closed : depth + (Seen.ofText raw).balance = 0)
    (start : 0 < depth ∨ (Seen.ofText raw).hasBrace = true) (fits : config.Fits raw) :
    Advances config [raw] { m with function := .body depth } m
      { deferred := config.bodyText depth [raw], lines := 1 } := by
  obtain ⟨after, brace⟩ := Seen.after_of_closed closed start
  have unpassed : ¬(Line.cut raw).Passed := by
    intro passed
    rw [Seen.ofText_of_passed passed] at brace
    exact Bool.false_ne_true brace
  rw [Seen.ofText_of_not_passed unpassed] at after
  have unclaimed := (line.resolve_left unpassed).inFunction (.body depth)
  have last := advances_bodyLine (h.inFunction (.body depth)) noEnum rfl fits unclaimed
  rw [show FunctionState.afterBodyLine depth (.cut raw) = .outside from after] at last
  have back : ({ m with function := .outside } : Mode) = m := by rw [← outside]
  rw [bodyText_last config depth unpassed]
  exact back ▸ last

theorem advances_innerLine (h : m.InClass name) (noEnum : m.enumBody = none) {depth : Int}
    (line : (Line.cut raw).Passed ∨ (Line.cut raw).Unclaimed m)
    (opened : 0 < depth + (Seen.ofText raw).balance) (fits : config.Fits raw) :
    Advances config [raw] { m with function := .body depth }
      { m with function := .body (depth + (Seen.ofText raw).balance) }
      { deferred := if (Line.cut raw).Passed then config.cutIndent raw
          else config.suppressed (1 + (depth + (Seen.ofText raw).balance)) raw
        lines := 1 } := by
  have inside := h.inFunction (.body depth)
  by_cases passed : (Line.cut raw).Passed
  · have same : depth + (Seen.ofText raw).balance = depth := by
      rw [Seen.ofText_of_passed passed]
      exact Int.add_zero depth
    rw [if_pos passed, same]
    exact advances_passed inside fits passed
  · have after := Seen.after_of_open opened
    rw [Seen.ofText_of_not_passed passed] at after ⊢
    have unclaimed := (line.resolve_left passed).inFunction (.body depth)
    have suppressed := advances_bodyLine inside noEnum rfl fits unclaimed
    rw [show FunctionState.afterBodyLine depth (.cut raw) = _ from after] at suppressed
    rw [if_neg passed]
    exact suppressed

/-- The lines of a body lead out of the function. -/
theorem advances_body (h : m.InClass name) (noEnum : m.enumBody = none)
    (outside : m.function = .outside) (body : List Text) {depth : Int}
    (valid : ∀ line ∈ body, (Line.cut line).Passed ∨ (Line.cut line).Unclaimed m)
    (encloses : Encloses depth (body.map Seen.ofText))
    (start : 0 < depth ∨ (body.map Seen.ofText).head?.any Seen.hasBrace = true)
    (fits : ∀ line ∈ body, config.Fits line) :
    Advances config body { m with function := .body depth } m
      { deferred := config.bodyText depth body, lines := body.length } := by
  induction body generalizing depth with
  | nil => exact encloses.elim
  | cons raw rest ih =>
    have fit := fits raw List.mem_cons_self
    have line := valid raw List.mem_cons_self
    cases rest with
    | nil => exact advances_lastLine h noEnum outside line encloses start fit
    | cons next rest =>
      obtain ⟨opened, encloses⟩ := encloses
      have first := advances_innerLine h noEnum line opened fit
      have others := ih (fun line mem => valid line (List.mem_cons_of_mem raw mem)) encloses
        (.inl opened) fun line mem => fits line (List.mem_cons_of_mem raw mem)
      have all := first.append others
      simp only [Yield.append_eq] at all
      have count : (raw :: next :: rest).length = 1 + (next :: rest).length := by
        rw [List.length_cons, Nat.add_comm]
      rw [bodyText_cons, count]
      exact all

theorem advances_valueLines (h : m.InClass name) (enum : m.enumBody.isSome = true)
    (named : name.isIdentifier = true) (values : List Text)
    (valid : ∀ line ∈ values, (Line.cut line).Passed ∨ (Line.cut line).IsValues m)
    (fits : ∀ line ∈ values, config.Fits line) :
    Advances config values m m
      { deferred := values.flatMap fun line => valueText name (config.cutIndent line)
        values := values.flatMap fun line => valueNames name (Line.cut line).words
        lines := values.length } := by
  induction values with
  | nil => exact advances_nil
  | cons raw rest ih =>
    have first := advances_values h enum named (fits raw List.mem_cons_self)
      (valid raw List.mem_cons_self)
    have others := ih (fun line mem => valid line (List.mem_cons_of_mem raw mem))
      fun line mem => fits line (List.mem_cons_of_mem raw mem)
    have all := first.append others
    simp only [Yield.append_eq] at all
    rw [List.length_cons, Nat.add_comm]
    exact all

/-- An item leads back to the body of the class and brings what it should. -/
theorem advances_item {className : Text} (named : className.isIdentifier = true) (item : ClassItem)
    (valid : item.Valid className) (fits : ∀ line ∈ item.lines, config.Fits line) :
    Advances config item.lines (ClassItem.inBody className) (ClassItem.inBody className)
      (item.yield config className) := by
  have body : (ClassItem.inBody className).InClass className := ⟨rfl, rfl, rfl⟩
  cases item with
  | remark raw => exact advances_passed body (fits raw List.mem_cons_self) valid
  | access raw => exact advances_access body rfl rfl (fits raw List.mem_cons_self) valid
  | member indent type name trail => exact advances_member body rfl rfl valid (fits _ List.mem_cons_self)
  | prototype raw call =>
    obtain ⟨isCall, ended⟩ := valid
    exact advances_call body rfl rfl (fits raw List.mem_cons_self) isCall.unclaimed isCall.words
      isCall.notInline (if_pos ended)
  | method raw call lines =>
    obtain ⟨isCall, notEnded, valid, encloses, start⟩ := valid
    have signature := advances_call body rfl rfl (fits raw List.mem_cons_self) isCall.unclaimed
      isCall.words isCall.notInline (if_neg notEnded)
    have rest := advances_body body rfl rfl lines valid encloses (.inr start)
      fun line mem => fits line (List.mem_cons_of_mem raw mem)
    exact signature.append rest
  | enumLine raw d e =>
    obtain ⟨opener, brace, line⟩ := valid
    exact advances_enumLine body rfl (fits raw List.mem_cons_self) opener brace line
  | enum raw d values closer =>
    obtain ⟨opener, notForward, unsplit, valid, closes⟩ := valid
    have within : ({ ClassItem.inBody className with enumBody := some ⟨d.name, false⟩ } : Mode).InClass
        className := ⟨rfl, rfl, rfl⟩
    have first := advances_enumOpener body (fits raw List.mem_cons_self) opener notForward unsplit
    have middle := advances_valueLines within rfl named values valid
      fun line mem => fits line (List.mem_cons_of_mem raw (List.mem_append_left _ mem))
    have last := advances_enumCloser within rfl rfl
      (fits closer (List.mem_cons_of_mem raw (List.mem_append_right _ List.mem_cons_self))) closes
    have all := first.append (middle.append last)
    rw [text_openerChunks] at all
    simp only [Yield.append_eq, List.append_nil, List.nil_append, List.append_assoc] at all
    exact all

theorem advances_items {className : Text} (named : className.isIdentifier = true)
    (items : List ClassItem) (valid : ∀ item ∈ items, item.Valid className)
    (fits : ∀ line ∈ items.flatMap ClassItem.lines, config.Fits line) :
    Advances config (items.flatMap ClassItem.lines) (ClassItem.inBody className)
      (ClassItem.inBody className)
      (items.foldr (fun item rest => item.yield config className ++ rest) {}) := by
  induction items with
  | nil => exact advances_nil
  | cons item items ih =>
    have first := advances_item named item (valid item List.mem_cons_self)
      fun line mem => fits line (List.mem_append_left _ mem)
    have others := ih (fun other mem => valid other (List.mem_cons_of_mem item mem))
      fun line mem => fits line (List.mem_append_right _ mem)
    exact first.append others

end Conversion

theorem Text.lines_flatten {ls : List Text} (h : ∀ l ∈ ls, l.IsLine) : Text.lines ls.flatten = ls := by
  have front (t rest : Text) (plain : '\n' ∉ t) :
      Text.lines (t ++ '\n' :: rest) = (t ++ ['\n']) :: Text.lines rest := by
    induction t with
    | nil => exact if_pos rfl
    | cons c t ih =>
      rw [List.mem_cons, not_or] at plain
      rw [List.cons_append, Text.lines, if_neg (Ne.symm plain.1), ih plain.2]
      rfl
  induction ls with
  | nil => rfl
  | cons l ls ih =>
    obtain ⟨last, plain⟩ := h l List.mem_cons_self
    obtain ⟨t, rfl⟩ := List.getLast?_eq_some_iff.1 last
    rw [List.dropLast_concat] at plain
    have others := ih fun other mem => h other (List.mem_cons_of_mem _ mem)
    rw [List.flatten_cons, List.append_assoc, List.singleton_append, front t _ plain, others]

namespace State

theorem text_exitClass (s : State) (name : Text) : (s.exitClass name).sink.text =
    s.sink.text ++ ("\x7d ".toList ++ name ++ ";\n".toList) ++ s.pendingText := by
  unfold exitClass Sink.text pendingText
  simp only [List.flatMap_append, List.flatMap_cons, List.append_assoc]

theorem report_exitClass (s : State) (name : Text) : (s.exitClass name).report =
    { s.report with classes := s.report.classes ++ [⟨name, s.memberNames.toList⟩] } := rfl

end State

/-- What is there when all lines so far have brought this. -/
theorem Brings.of_start {y : Yield} {s : State} (h : Brings y {} s) :
    s.sink.text = y.written ∧ s.pendingText = y.deferred ∧
      s.memberNames = NameList.insertAll {} y.members ∧
      s.report = {
        lines := y.lines
        enumValues := (NameList.insertAll {} y.values).toList
        functions := y.functions
        classes := []
        diagnostics := [] } := by
  refine ⟨h.written, h.deferred, h.members, ?_⟩
  have lines : s.lineNumber = y.lines := h.lines.trans (Nat.zero_add _)
  have functions : s.functions = y.functions := h.functions
  have classes : s.classes = [] := h.classes
  have diagnostics : s.diagnostics = [] := h.diagnostics
  unfold State.report
  rw [lines, h.values, functions, classes, diagnostics]

namespace Conversion

variable {config : Config} {m : Mode} {name raw : Text} {s t : State}

theorem brings_enterClass (h : s.memberNames = {}) (classState : ClassState) :
    Brings {} s (s.enterClass classState) := by
  refine .of_account ?_
  unfold State.account
  rw [h]
  rfl

theorem leaves_trackTypes_class {d : TypeDeclaration}
    (h : TypeDeclaration.ofWords? "class".toList s.line.words = some d) (k : Leaves openClass s true t) :
    Leaves trackTypes s true t := by
  obtain ⟨rest, words⟩ := TypeDeclaration.words_of_ofWords? h
  have noEnum : TypeDeclaration.ofWords? "enum".toList s.line.words = none :=
    TypeDeclaration.ofWords?_of_ne words (by decide)
  have noStruct : TypeDeclaration.ofWords? "struct".toList s.line.words = none :=
    TypeDeclaration.ofWords?_of_ne words (by decide)
  unfold Leaves trackTypes
  rw [run_firstClaim_unclaimed _ (run_openExternC (Line.not_externC words (by decide))),
    run_firstClaim_unclaimed _ (run_openEnum_unclaimed noEnum),
    run_firstClaim_unclaimed _ (run_openStruct_unclaimed noStruct)]
  exact leaves_firstClaim k _

/-- What the opening line of a class with a body leaves. -/
theorem leaves_openClass {d : TypeDeclaration}
    (h : TypeDeclaration.ofWords? "class".toList s.line.words = some d) (body : d.brace ≠ .forward)
    (room : s.sink.room = none) :
    Leaves openClass s true ((s.put ⟨.made, "typedef struct _".toList ++ d.name
      ++ if d.brace = .sameLine then "\n\x7b\n".toList else "\n".toList⟩).enterClass
        (if d.brace = .sameLine then .opened d.name else .pending d.name)) := by
  refine .of_run (Reaches.run_eq ?_ room)
  unfold openClass
  rw [reaches_get, h]
  cases brace : d.brace with
  | forward => exact absurd brace body
  | sameLine | deferred =>
    simp only [brace]
    exact (reaches_emit .made _ s).then_run rfl rfl

theorem exists_opened {d : TypeDeclaration} (fits : config.Fits raw)
    (opener : TypeDeclaration.ofWords? "class".toList (Line.cut raw).words = some d)
    (body : d.brace ≠ .forward) :
    ∃ t, Runs config [raw] {} t ∧ Progress
      { classState := if d.brace = .sameLine then .opened d.name else .pending d.name }
      { written := "typedef struct _".toList ++ d.name
          ++ if d.brace = .sameLine then "\n\x7b\n".toList else "\n".toList
        lines := 1 } t := by
  obtain ⟨rest, words⟩ := TypeDeclaration.words_of_ofWords? opener
  have cut : (Line.ofText (config.outdent {} raw).2).retokenize config.rules.maxTokens =
      .ok (.cut raw) := by
    unfold Config.Fits at fits
    rw [Line.words, List.length_map] at fits
    exact Line.retokenize_ofText fits
  have opens := leaves_openClass (s := ({} : State).arrive config raw (.copied (.cut raw))) opener
    body rfl
  generalize "typedef struct _".toList ++ d.name ++ (if d.brace = .sameLine then "\n\x7b\n".toList
    else "\n".toList) = opening at opens ⊢
  generalize (if d.brace = .sameLine then ClassState.opened d.name else .pending d.name) = classState
    at opens ⊢
  have claimed := leaves_trackTypes_class opener opens
  have leaves := leaves_types (s := {}) cut words rfl (by decide) (by decide) (by decide) claimed
  rw [State.put_closed _ rfl] at leaves
  have begun := Brings.arrive {} config raw (x := .copied (.cut raw)) rfl
  have brings := (begun.trans (.putDirect _ ⟨.made, opening⟩)).trans (brings_enterClass rfl classState)
  simp only [Yield.append_eq, List.append_nil, List.nil_append, Nat.add_zero] at brings
  have ordered : ((({} : State).arrive config raw (.copied (.cut raw))).putDirect
      ⟨.made, opening⟩ |>.enterClass classState).Ordered :=
    ⟨fun _ mem => absurd mem List.not_mem_nil, fun _ => rfl⟩
  exact ⟨_, .cons (leaves.run_eq rfl) (.nil _), rfl, brings, ordered⟩

theorem leaves_closeType_class (closer : s.line.isTypeCloser = true) (noEnum : s.mode.enumBody = none)
    (noStruct : s.mode.structBody = none) (opened : s.mode.classState = .opened name)
    (room : s.sink.room = none) : Leaves closeType s true (s.exitClass name) := by
  refine .of_run (Reaches.run_eq ?_ room)
  unfold closeType
  rw [reaches_get]
  simp only [closer, noEnum, noStruct, opened, ClassState.name?, Bool.not_true, Bool.false_eq_true,
    if_false]
  exact (reaches_closeClass name s).then_run rfl rfl

/-- The closing line of a class: the closer of the struct, and then all that was put off. -/
theorem exists_closed {y : Yield} (fits : config.Fits raw)
    (closer : (Line.cut raw).isTypeCloser = true) (p : Progress (ClassItem.inBody name) y s) :
    ∃ t, Runs config [raw] s t ∧ t.mode.classState = .none ∧
      t.sink.text = y.written ++ ("\x7d ".toList ++ name ++ ";\n".toList) ++ y.deferred ∧
      t.report = {
        lines := y.lines + 1
        enumValues := (NameList.insertAll {} y.values).toList
        functions := y.functions
        classes := [⟨name, (NameList.insertAll {} y.members).toList⟩]
        diagnostics := [] } := by
  obtain ⟨rest, words⟩ := Line.words_of_isTypeCloser closer
  have body : s.mode.InClass name := by
    rw [p.mode]
    exact ⟨rfl, rfl, rfl⟩
  have cut : (Line.ofText (config.outdent s.mode raw).2).retokenize config.rules.maxTokens = _ :=
    Arrives.cut_withClass body.withClass fits
  have seen := words_cutIndent config raw
  generalize begun : s.arrive config raw (.copied (.cut (config.cutIndent raw))) = u
  have closes : u.line.isTypeCloser = true := by
    rw [← begun]
    show (Line.cut (config.cutIndent raw)).isTypeCloser = true
    unfold Line.isTypeCloser
    rw [seen]
    exact closer
  have mode : u.mode = ClassItem.inBody name := by
    rw [← begun]
    exact p.mode
  have total : Brings (y ++ { lines := 1 }) {} u := by
    rw [← begun]
    exact p.total.trans (.arrive s config raw rfl)
  have closed := leaves_closeType_class (s := u) closes (by rw [mode]; rfl) (by rw [mode]; rfl)
    (by rw [mode]; rfl) total.unbounded
  have claimed := leaves_trackTypes_closer closes closed
  rw [← begun] at claimed
  have leaves := leaves_types cut (seen.trans words) body.comment (by decide) (by decide) (by decide)
    claimed
  rw [begun] at leaves
  obtain ⟨written, deferred, members, report⟩ := total.of_start
  simp only [Yield.append_eq, List.append_nil] at written deferred members report
  refine ⟨u.exitClass name, .cons (leaves.run_eq total.unbounded) (.nil _), rfl, ?_, ?_⟩
  · rw [u.text_exitClass, written, deferred]
  · rw [u.report_exitClass, report, members]
    rfl

theorem run_finish_idle (h : s.mode.classState = .none) : finish.run s = .ok () s := by
  unfold finish
  rw [EStateM.run_bind, EStateM.run_get]
  simp only [h, ClassState.name?]
  rfl

end Conversion

theorem ClassItem.yield_lines (config : Config) (className : Text) (item : ClassItem) :
    (item.yield config className).lines = item.lines.length := by
  cases item with
  | method raw call body => exact Nat.add_comm 1 _
  | enum raw d values closer =>
    show 1 + (values.length + 1) = (values ++ [closer]).length + 1
    rw [List.length_append]
    exact Nat.add_comm 1 _
  | _ => rfl

namespace ClassSource

theorem yield_lines (config : Config) (c : ClassSource) :
    (c.yield config).lines = (c.items.flatMap ClassItem.lines).length := by
  unfold yield
  induction c.items with
  | nil => rfl
  | cons item items ih =>
    rw [List.flatMap_cons, List.length_append, List.foldr_cons, ← ih, ← item.yield_lines config c.name]
    rfl

end ClassSource

namespace Conversion

variable {config : Config}

theorem ofWords?_class {name : Text} (named : name ≠ ['{']) (sameLine : Bool) :
    TypeDeclaration.ofWords? "class".toList
        ("class".toList :: name :: if sameLine then [['{']] else []) =
      some ⟨name, if sameLine then .sameLine else .deferred⟩ := by
  rw [TypeDeclaration.ofWords?, if_pos rfl]
  cases sameLine with
  | true => simp [TypeDeclaration.skipDeclspec, named]
  | false => simp [TypeDeclaration.skipDeclspec, named]

theorem exists_begun (c : ClassSource) (valid : c.Valid) (fits : ∀ line ∈ c.lines, config.Fits line) :
    ∃ t, Runs config (c.opener :: c.brace.toList) {} t ∧ Progress (ClassItem.inBody c.name)
      { written := "typedef struct _".toList ++ c.name ++ "\n".toList
          ++ (match c.brace with
            | none => "\x7b\n".toList
            | some line => config.cutIndent line)
        lines := 1 + c.brace.toList.length } t := by
  have fit : config.Fits c.opener := fits _ List.mem_cons_self
  have named : c.name ≠ ['{'] := by
    intro eq
    have identifier := valid.named
    rw [eq] at identifier
    exact absurd identifier (by decide)
  have opener : TypeDeclaration.ofWords? "class".toList (Line.cut c.opener).words =
      some ⟨c.name, if c.brace.isNone then .sameLine else .deferred⟩ := by
    rw [valid.opener]
    exact ofWords?_class named c.brace.isNone
  cases brace : c.brace with
  | none =>
    rw [brace] at opener
    obtain ⟨t, run, p⟩ := exists_opened fit opener nofun
    rw [List.append_assoc _ "\n".toList]
    exact ⟨t, run, p⟩
  | some line =>
    rw [brace] at opener
    obtain ⟨t, run, p⟩ := exists_opened fit opener nofun
    have lineFit : config.Fits line := by
      refine fits line ?_
      unfold ClassSource.lines
      rw [brace]
      simp
    obtain ⟨u, others, q⟩ := advances_brace lineFit (valid.brace line brace) _ t p
    exact ⟨u, run.append others, q⟩

/-- A class is flattened as `ClassSource.flat` says, whatever the settings and the items. The bodies of
its functions may hold any number of braces here; as long as fewer than 2^31 - 1 are counted, the depth
is the one of 32 bits, by `function_depth_wellFormed`. -/
theorem class_flattened (config : Config) (c : ClassSource) (valid : c.Valid)
    (fits : ∀ line ∈ c.lines, config.Fits line) :
    convertText config c.lines.flatten = .ok ⟨c.flat config, c.report config⟩ := by
  have fitsItems : ∀ line ∈ c.items.flatMap ClassItem.lines, config.Fits line := by
    intro line mem
    refine fits line ?_
    unfold ClassSource.lines
    simp only [List.mem_cons, List.mem_append]
    exact .inr (.inr (.inl mem))
  have fitsCloser : config.Fits c.closer := by
    refine fits c.closer ?_
    unfold ClassSource.lines
    simp
  obtain ⟨t, begun, p⟩ := exists_begun c valid fits
  obtain ⟨u, through, q⟩ := advances_items valid.named c.items valid.items fitsItems _ t p
  obtain ⟨v, closed, idle, text, report⟩ := exists_closed fitsCloser valid.closer q
  have all : Runs config c.lines {} v := begun.append (through.append closed)
  have finished : (processAll config (c.lines.map .ok)).run {} = .ok () v :=
    all.processAll.trans (run_finish_idle idle)
  unfold convertText convertLines
  rw [Text.lines_flatten valid.ended, finished]
  have flat : v.sink.text = c.flat config := by
    rw [text]
    unfold ClassSource.flat ClassSource.yield
    simp only [Yield.append_eq, List.append_assoc, List.nil_append]
  have count : c.lines.length = 1 + c.brace.toList.length + (c.yield config).lines + 1 := by
    rw [c.yield_lines config]
    unfold ClassSource.lines
    simp only [List.length_cons, List.length_append, List.length_nil]
    omega
  have told : v.report = c.report config := by
    rw [report]
    unfold ClassSource.report
    rw [count]
    rfl
  show Except.ok (Converted.mk v.sink.text v.report) = _
  rw [flat, told]

/-- A class with all kinds of items. -/
def shapeClass : ClassSource where
  name := "Shape".toList
  opener := "class Shape\n".toList
  brace := some "\x7b\n".toList
  items := [
    .access "public:\n".toList,
    .remark "    // outline\n".toList,
    .member "    ".toList "int*".toList "points".toList "\n".toList,
    .prototype "    void draw(int depth);\n".toList
      ⟨["void".toList], "draw".toList, ["int".toList, "depth".toList], [[';']], by decide, by decide,
        by decide, by decide⟩,
    .method "    bool closed()\n".toList
      ⟨["bool".toList], "closed".toList, [], [], by decide, by decide, by decide, by decide⟩
      ["    \x7b\n".toList, "      if (open) \x7b\n".toList, "        return 0;\n".toList,
        "      \x7d\n".toList, "      // none open\n".toList, "      return 1;\n".toList,
        "    \x7d\n".toList],
    .remark "    // the kinds\n".toList,
    .enum "    enum Kind \x7b\n".toList ⟨"Kind".toList, .sameLine⟩
      ["      Round, // first\n".toList, "      Square = 4\n".toList] "    \x7d;\n".toList,
    .enumLine "    enum Side \x7b Left, Right \x7d;\n".toList ⟨"Side".toList, .sameLine⟩
      ⟨[⟨[' '], "Left".toList⟩, ⟨[], [',']⟩, ⟨[' '], "Right".toList⟩], ⟨[' '], ['}']⟩⟩,
    .member "    ".toList "int".toList "count".toList "\n".toList]
  closer := "\x7d;\n".toList

/-- Its flat form. -/
def flatShape : List String := [
  "typedef struct _Shape\n", "\x7b\n", "    int* points;\n", "    int count;\n", "\x7d Shape;\n",
  "// outline\n", "//(0) void draw(int depth);\n", "//(1) bool closed()\n", "//(2) \x7b\n",
  "//(3)   if (open) \x7b\n", "//(3)     return 0;\n", "//(2)   \x7d\n", "  // none open\n",
  "//(2)   return 1;\n", "//(0) \x7d\n", "// the kinds\n", "typedef enum _Kind\n", "\x7b\n",
  "  Shape_Round, // first\n", "  Shape_Square = 4\n", "\x7d Kind;\n",
  "typedef enum _Side \x7b Shape_Left, Shape_Right \x7d Side;\n"]

theorem shapeClass_flattened :
    shapeClass.Valid ∧ (∀ line ∈ shapeClass.lines, ({} : Config).Fits line) ∧
    convertText {} shapeClass.lines.flatten =
      .ok ⟨flatShape.flatMap String.toList, shapeClass.report {}⟩ := by
  have valid : shapeClass.Valid := by decide
  have fits : ∀ line ∈ shapeClass.lines, ({} : Config).Fits line := by decide
  have flat : shapeClass.flat {} = flatShape.flatMap String.toList := by decide +kernel
  refine ⟨valid, fits, ?_⟩
  rw [← flat]
  exact class_flattened {} shapeClass valid fits

end Conversion
end HeaderFlattening
