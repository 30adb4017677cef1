import HeaderFlattening.Proofs.ClassBody
import HeaderFlattening.Proofs.Spans

/-!
Enums in the body of a class. The opening line takes all comments before it along, the lines of the
body get the name of the class in front of the values, and text and values are put off in order.
-/

set_option autoImplicit false
namespace HeaderFlattening

theorem State.Ordered.gather {s : State} (o : s.Ordered) :
    s.gather = { s with pendingEnums := s.pendingEnums ++ s.pendingMembers, pendingMembers := [] } := by
  have all : ∀ c ∈ s.pendingMembers.reverse, c.text.isBlankOrComment = true :=
    fun c mem => o.comments c (List.mem_reverse.1 mem)
  have trailing : s.trailingComments = s.pendingMembers := by
    rw [State.trailingComments, List.takeWhile_eq_self_iff.2 all, List.reverse_reverse]
  have proper : s.membersProper = [] := by
    rw [State.membersProper, List.dropWhile_eq_nil_iff.2 all]
    rfl
  rw [State.gather, trailing, proper]

theorem EnumLine.rename_none (separated : Bool) (ts : List Token) :
    (EnumLine.rename none separated ts).1 = ts.flatMap Token.source := by
  induction ts generalizing separated with
  | nil => rfl
  | cons t ts ih =>
    rw [EnumLine.rename, List.flatMap_cons, ← ih]
    split_ifs <;> rfl

namespace Brings

variable {s : State}

theorem addValue (s : State) (name : Text) : Brings { values := [name] } s (s.addValue name) := by
  have values : (s.addValue name).enumValues = s.enumValues.insertAll [name] := by
    unfold State.addValue
    show _ = NameList.insert s.enumValues name
    unfold NameList.insert
    split_ifs <;> rfl
  unfold State.addValue at values ⊢
  split_ifs at values ⊢
  all_goals exact ⟨rfl, (List.append_nil _).symm, (List.append_nil _).symm, rfl, values,
    (List.append_nil _).symm, rfl, rfl, rfl⟩

theorem addValues (s : State) (names : List Text) :
    Brings { values := names } s (s.addValues names) := by
  induction names generalizing s with
  | nil => exact .refl s
  | cons name names ih => exact (Brings.addValue s name).trans (ih (s.addValue name))

theorem enterEnum (body : TypeBody) (opened : s.mode.classState.isOpen = true) (o : s.Ordered) :
    Brings {} s (s.enterEnum body) := by
  have deferred : (s.enterEnum body).pendingText = s.pendingText := by
    rw [s.enterEnum_open body opened, o.gather]
    show (s.pendingEnums ++ s.pendingMembers ++ []).flatMap Chunk.text = _
    rw [List.append_nil]
    rfl
  rw [s.enterEnum_open body opened, o.gather] at deferred ⊢
  refine .of_account ?_
  unfold State.account
  rw [deferred]

theorem leaveEnum (s : State) : Brings {} s s.leaveEnum := .of_account rfl

end Brings

namespace State.Ordered

variable {s : State}

theorem addValues (o : s.Ordered) (names : List Text) : (s.addValues names).Ordered :=
  o.congr (s.pending_addValues names).2 (s.mode_addValues names)

theorem enterEnum (o : s.Ordered) (body : TypeBody) (opened : s.mode.classState.isOpen = true) :
    (s.enterEnum body).Ordered := by
  rw [s.enterEnum_open body opened, o.gather]
  exact ⟨fun _ mem => absurd mem List.not_mem_nil, fun _ => rfl⟩

theorem leaveEnum (o : s.Ordered) : s.leaveEnum.Ordered :=
  ⟨o.comments, fun some => absurd some Bool.false_ne_true⟩

end State.Ordered

/-- What stands before the first word does not matter for an enum on one line. -/
theorem Line.ofTokens?_blank_append {blanks t w : Text} {rest : List Text}
    (blank : blanks.all Text.isBlank = true) (words : (Line.cut t).words = w :: rest)
    (ne : w ≠ ['{']) :
    EnumLine.ofTokens? (Line.cut (blanks ++ t)).tokens = EnumLine.ofTokens? (Line.cut t).tokens := by
  cases tokens : (Token.scan t).1 with
  | nil =>
    rw [Line.words, Line.cut, tokens] at words
    cases words
  | cons first ts =>
    have open' : first.text ≠ ['{'] := by
      rw [Line.words, Line.cut, tokens, List.map_cons, List.cons.injEq] at words
      rw [words.1]
      exact ne
    have scanned := Token.scan_blank_append blank (Prod.ext tokens rfl)
    change EnumLine.ofTokens? (Token.scan (blanks ++ t)).1 = EnumLine.ofTokens? (Token.scan t).1
    rw [tokens, scanned]
    simp [EnumLine.ofTokens?, open']

theorem ofTokens?_cutIndent (config : Config) {raw w : Text} {rest : List Text}
    (words : (Line.cut raw).words = w :: rest) (ne : w ≠ ['{']) :
    EnumLine.ofTokens? (Line.cut (config.cutIndent raw)).tokens =
      EnumLine.ofTokens? (Line.cut raw).tokens := by
  obtain ⟨spaces, blank, eq⟩ := config.outdent_indent raw
  have seen := (words_cutIndent config raw).trans words
  have behind := Line.ofTokens?_blank_append blank seen ne
  rw [← eq] at behind
  exact behind.symm

namespace Conversion

variable {config : Config} {m : Mode} {name raw : Text} {s t : State}

theorem leaves_types_unedited {l : Line}
    (cut : (Line.ofText (config.outdent s.mode raw).2).retokenize config.rules.maxTokens = .ok l)
    (full : l.words ≠ []) (outside : s.mode.inComment = false)
    (slashes : l.leads "//".toList = false) (star : l.leads "/*".toList = false)
    (noEdit : l.edit? config = none) (h : Leaves trackTypes (s.arrive config raw (.copied l)) true t) :
    Leaves (processLine config raw) s () t := by
  have comments := run_passComments (s := s.arrive config raw (.copied l)) outside slashes star
  have edits := run_editMacro_unedited (s := s.arrive config raw (.copied l)) noEdit
  have notEmpty : l.isEmpty = false := Bool.eq_false_iff.2 (mt l.isEmpty_iff.1 full)
  refine leaves_processLine cut (leaves_classify_full notEmpty ?_)
  refine Leaves.claim ?_ rfl
  unfold Leaves stages
  rw [run_firstClaim_unclaimed _ comments, run_firstClaim_unclaimed _ edits]
  exact leaves_firstClaim h _

theorem leaves_types {l : Line} {w : Text} {rest : List Text}
    (cut : (Line.ofText (config.outdent s.mode raw).2).retokenize config.rules.maxTokens = .ok l)
    (words : l.words = w :: rest) (outside : s.mode.inComment = false)
    (slashes : "//".toList.isPrefixOf w = false) (star : "/*".toList.isPrefixOf w = false)
    (define : w ≠ "#define".toList) (h : Leaves trackTypes (s.arrive config raw (.copied l)) true t) :
    Leaves (processLine config raw) s () t := by
  have first : l.word? 0 = some w := by
    unfold Line.word?
    rw [words]
    rfl
  have leads (mark : Text) (other : mark.isPrefixOf w = false) : l.leads mark = false := by
    unfold Line.leads
    rw [first]
    exact other
  have noEdit : l.edit? config = none := by
    refine Line.edit?_of_not_define config ?_
    rw [first]
    exact fun eq => define (Option.some.inj eq)
  have full : l.words ≠ [] := by
    rw [words]
    exact List.cons_ne_nil w rest
  exact leaves_types_unedited cut full outside (leads _ slashes) (leads _ star) noEdit h

/-- Only the stage for `extern "C"` sees a line before the one for enums. -/
theorem run_trackTypes_enum {rest : List Text} (words : s.line.words = "enum".toList :: rest) :
    trackTypes.run s = (firstClaim
      [openEnum, openStruct, openClass, openFlatType, closeType, closeExternC]).run s :=
  run_firstClaim_unclaimed _ (run_openExternC (Line.not_externC words (by decide)))

theorem leaves_trackTypes_enum {d : TypeDeclaration}
    (h : TypeDeclaration.ofWords? "enum".toList s.line.words = some d) (k : Leaves openEnum s true t) :
    Leaves trackTypes s true t := by
  obtain ⟨rest, words⟩ := TypeDeclaration.words_of_ofWords? h
  unfold Leaves
  rw [run_trackTypes_enum words]
  exact leaves_firstClaim k _

/-- While a class is open nothing is written. -/
theorem run_emit_open (o : Origin) (x : Text) (h : s.mode.classState.isOpen = true) :
    (emit o x).run s = .ok () (s.put ⟨o, x⟩) := by
  rw [run_emit, h]
  rfl

theorem run_emitOpener_open (keyword : Text) (d : TypeDeclaration)
    (h : s.mode.classState.isOpen = true) :
    (emitOpener keyword d).run s = .ok () (s.putAll (openerChunks keyword d)) := by
  have first := run_emit_open .made (openerText keyword d.name) h
  rw [← s.mode_put] at h
  unfold emitOpener openerChunks
  rw [EStateM.run_bind, first]
  split_ifs
  · exact run_emit_open .made _ h
  · rfl

theorem run_openEnumBody_open (d : TypeDeclaration) (h : s.mode.classState.isOpen = true) :
    (openEnumBody d).run s =
      .ok () ((s.enterEnum ⟨d.name, false⟩).putAll (openerChunks "enum".toList d)) := by
  have opener := run_emitOpener_open (s := s.enterEnum ⟨d.name, false⟩) "enum".toList d
  rw [s.enterEnum_open _ h] at opener ⊢
  unfold openEnumBody
  simp only [EStateM.run_bind, EStateM.run_get, modifyMode, EStateM.run_modify, h, if_true]
  exact opener h

theorem run_emitEnumLine_open (name : Text) (e : EnumLine) (h : s.mode.classState.isOpen = true) :
    (emitEnumLine name e).run s = .ok () (enumLineState name e s) := by
  unfold emitEnumLine enumLineState
  simp only [EStateM.run_bind, EStateM.run_get, run_addEnumValues]
  rw [← s.mode_addValues (e.values s.mode.classState.name?)] at h
  generalize s.addValues (e.values s.mode.classState.name?) = u at h
  rw [u.enterEnum_open _ h]
  simp only [h, if_true, modifyMode, EStateM.run_bind, EStateM.run_modify, run_takeEnumComments]
  rw [run_emit_open _ _ (by exact h)]
  rfl

theorem run_openEnum_open {d : TypeDeclaration}
    (h : TypeDeclaration.ofWords? "enum".toList s.line.words = some d) (body : d.brace ≠ .forward)
    (notWhole : d.brace = .sameLine → EnumLine.ofTokens? s.line.tokens = none)
    (opened : s.mode.classState.isOpen = true) :
    openEnum.run s =
      .ok true ((s.enterEnum ⟨d.name, false⟩).putAll (openerChunks "enum".toList d)) := by
  have enter : (openEnumBody d >>= fun _ => pure true).run s =
      .ok true ((s.enterEnum ⟨d.name, false⟩).putAll (openerChunks "enum".toList d)) := by
    rw [EStateM.run_bind, run_openEnumBody_open d opened]
    rfl
  simp only [openEnum, EStateM.run_bind, EStateM.run_get, h]
  cases brace : d.brace with
  | forward => exact absurd brace body
  | deferred => exact enter
  | sameLine =>
    simp only [notWhole brace]
    exact enter

theorem run_openEnum_whole {d : TypeDeclaration} {e : EnumLine}
    (h : TypeDeclaration.ofWords? "enum".toList s.line.words = some d) (brace : d.brace = .sameLine)
    (line : EnumLine.ofTokens? s.line.tokens = some e) (opened : s.mode.classState.isOpen = true) :
    openEnum.run s = .ok true (enumLineState d.name e s) := by
  simp only [openEnum, EStateM.run_bind, EStateM.run_get, h, brace, line,
    run_emitEnumLine_open d.name e opened]
  rfl

theorem leaves_openEnum_line {d : TypeDeclaration} {e : EnumLine}
    (h : TypeDeclaration.ofWords? "enum".toList s.line.words = some d) (brace : d.brace = .sameLine)
    (line : EnumLine.ofTokens? s.line.tokens = some e) (opened : s.mode.classState.isOpen = true) :
    Leaves openEnum s true (enumLineState d.name e s) :=
  .of_run (run_openEnum_whole h brace line opened)

theorem leaves_openEnum_body {d : TypeDeclaration}
    (h : TypeDeclaration.ofWords? "enum".toList s.line.words = some d) (body : d.brace ≠ .forward)
    (open' : d.brace = .sameLine → EnumLine.ofTokens? s.line.tokens = none)
    (opened : s.mode.classState.isOpen = true) :
    Leaves openEnum s true
      ((s.enterEnum ⟨d.name, false⟩).putAll (openerChunks "enum".toList d)) :=
  .of_run (run_openEnum_open h body open' opened)

/-- The stages for openers leave a line that starts with a closing brace to those for closers. -/
theorem run_trackTypes_brace {rest : List Text} (words : s.line.words = ['}'] :: rest) :
    trackTypes.run s = (firstClaim [closeType, closeExternC]).run s := by
  have none {keyword : Text} (ne : ['}'] ≠ keyword) :
      TypeDeclaration.ofWords? keyword s.line.words = none := TypeDeclaration.ofWords?_of_ne words ne
  have notFlat : s.line.words[0]? ≠ some "typedef".toList := by
    rw [words]
    exact fun eq => absurd (Option.some.inj eq) (by decide)
  unfold trackTypes
  rw [run_firstClaim_unclaimed _ (run_openExternC (Line.not_externC words (by decide))),
    run_firstClaim_unclaimed _ (run_openEnum_unclaimed (none (by decide))),
    run_firstClaim_unclaimed _ (run_openStruct_unclaimed (none (by decide))),
    run_firstClaim_unclaimed _ (run_openClass_unclaimed (none (by decide))),
    run_firstClaim_unclaimed _ (run_openFlatType_unclaimed fun typedef => absurd typedef notFlat)]

theorem leaves_trackTypes_closer (closer : s.line.isTypeCloser = true) (h : Leaves closeType s true t) :
    Leaves trackTypes s true t := by
  obtain ⟨rest, words⟩ := Line.words_of_isTypeCloser closer
  unfold Leaves
  rw [run_trackTypes_brace words]
  exact leaves_firstClaim h _

theorem leaves_closeType_enum {body : TypeBody} (closer : s.line.isTypeCloser = true)
    (enum : s.mode.enumBody = some body) (made : body.flat = false)
    (opened : s.mode.classState.isOpen = true) :
    Leaves closeType s true (s.put ⟨.made, closerText body.name⟩).leaveEnum := by
  apply Leaves.of_run
  simp only [closeType, emitCloser, EStateM.run_bind, EStateM.run_get, closer, enum, made,
    Bool.not_true, Bool.false_eq_true, if_false, run_emit_open .made (closerText body.name) opened]
  rfl

/-- In a class a line that an opener or a closer claims does just what this makes of it. -/
theorem leaves_claimed {w : Text} {rest : List Text} (h : s.mode.InClass name) (fits : config.Fits raw)
    (words : (Line.cut raw).words = w :: rest) (slashes : "//".toList.isPrefixOf w = false)
    (star : "/*".toList.isPrefixOf w = false) (define : w ≠ "#define".toList)
    (k : Leaves trackTypes (s.arrive config raw (.copied (.cut (config.cutIndent raw)))) true t) :
    Leaves (processLine config raw) s () t :=
  leaves_types (Arrives.cut_withClass h.withClass fits) ((words_cutIndent config raw).trans words)
    h.comment slashes star define k

theorem leaves_enumLine {d : TypeDeclaration} {e : EnumLine} (h : s.mode.InClass name)
    (fits : config.Fits raw)
    (opener : TypeDeclaration.ofWords? "enum".toList (Line.cut raw).words = some d)
    (brace : d.brace = .sameLine) (line : EnumLine.ofTokens? (Line.cut raw).tokens = some e) :
    Leaves (processLine config raw) s ()
      (enumLineState d.name e (s.arrive config raw (.copied (.cut (config.cutIndent raw))))) := by
  obtain ⟨rest, words⟩ := TypeDeclaration.words_of_ofWords? opener
  have seen : TypeDeclaration.ofWords? "enum".toList (Line.cut (config.cutIndent raw)).words =
      some d := by
    rw [words_cutIndent]
    exact opener
  have tokens : EnumLine.ofTokens? (Line.cut (config.cutIndent raw)).tokens = some e := by
    rw [ofTokens?_cutIndent config words (by decide)]
    exact line
  apply leaves_claimed h fits words (by decide) (by decide) (by decide)
  apply leaves_trackTypes_enum seen
  exact leaves_openEnum_line seen brace tokens h.isOpen

theorem leaves_enumOpener {d : TypeDeclaration} (h : s.mode.InClass name) (fits : config.Fits raw)
    (opener : TypeDeclaration.ofWords? "enum".toList (Line.cut raw).words = some d)
    (body : d.brace ≠ .forward)
    (open' : d.brace = .sameLine → EnumLine.ofTokens? (Line.cut raw).tokens = none) :
    Leaves (processLine config raw) s ()
      (((s.arrive config raw (.copied (.cut (config.cutIndent raw)))).enterEnum ⟨d.name, false⟩).putAll
        (openerChunks "enum".toList d)) := by
  obtain ⟨rest, words⟩ := TypeDeclaration.words_of_ofWords? opener
  have seen : TypeDeclaration.ofWords? "enum".toList (Line.cut (config.cutIndent raw)).words =
      some d := by
    rw [words_cutIndent]
    exact opener
  rw [← ofTokens?_cutIndent config words (by decide)] at open'
  apply leaves_claimed h fits words (by decide) (by decide) (by decide)
  apply leaves_trackTypes_enum seen
  exact leaves_openEnum_body seen body open' h.isOpen

theorem leaves_enumCloser {body : TypeBody} (h : s.mode.InClass name)
    (enum : s.mode.enumBody = some body) (made : body.flat = false) (fits : config.Fits raw)
    (closer : (Line.cut raw).isTypeCloser = true) :
    Leaves (processLine config raw) s ()
      ((s.arrive config raw (.copied (.cut (config.cutIndent raw)))).put
        ⟨.made, closerText body.name⟩).leaveEnum := by
  obtain ⟨rest, words⟩ := Line.words_of_isTypeCloser closer
  have closes : (Line.cut (config.cutIndent raw)).isTypeCloser = true := by
    unfold Line.isTypeCloser
    rw [words_cutIndent]
    exact closer
  apply leaves_claimed h fits words (by decide) (by decide) (by decide)
  apply leaves_trackTypes_closer closes
  exact leaves_closeType_enum closes enum made h.isOpen

theorem mode_enumLineState (name : Text) (e : EnumLine) (s : State) :
    (enumLineState name e s).mode = { s.mode with enumBody := none } := by
  show ({ (State.put _ _).mode with enumBody := none } : Mode) = _
  rw [State.mode_put, State.mode_enterEnum, State.mode_addValues]

theorem brings_enumLineState (enumName : Text) (e : EnumLine) (h : s.mode.InClass name)
    (o : s.Ordered) :
    Brings { deferred := e.text (some name) enumName, values := e.values (some name) } s
        (enumLineState enumName e s) ∧
      (enumLineState enumName e s).Ordered := by
  have className : s.mode.classState.name? = some name := by
    rw [h.opened]
    rfl
  have opened : (s.addValues (e.values (some name))).mode.classState.isOpen = true := by
    rw [State.mode_addValues]
    exact h.isOpen
  have recorded := Brings.addValues s (e.values (some name))
  have ordered := o.addValues (e.values (some name))
  rw [enumLineState, className]
  generalize s.addValues (e.values (some name)) = u at opened recorded ordered ⊢
  have entered := recorded.trans (.enterEnum ⟨enumName, true⟩ opened ordered)
  have inside := ordered.enterEnum ⟨enumName, true⟩ opened
  have mode := u.mode_enterEnum ⟨enumName, true⟩
  generalize u.enterEnum ⟨enumName, true⟩ = v at entered inside mode ⊢
  have enumOpen : v.mode.classState.isOpen = true := by
    rw [mode]
    exact opened
  constructor
  · have brought := (entered.trans
      (.put ⟨.made, e.text (some name) enumName⟩ enumOpen inside)).trans (.leaveEnum _)
    simp only [Yield.append_eq, List.append_nil, List.nil_append, Nat.add_zero] at brought
    exact brought
  · refine (inside.put fun none => ?_).leaveEnum
    rw [mode] at none
    cases none

/-- An enum on one line is put off with its values renamed. -/
theorem advances_enumLine {d : TypeDeclaration} {e : EnumLine} (h : m.InClass name)
    (noEnum : m.enumBody = none) (fits : config.Fits raw)
    (opener : TypeDeclaration.ofWords? "enum".toList (Line.cut raw).words = some d)
    (brace : d.brace = .sameLine) (line : EnumLine.ofTokens? (Line.cut raw).tokens = some e) :
    Advances config [raw] m m
      { deferred := e.text (some name) d.name
        values := e.values (some name)
        lines := 1 } := by
  refine advances_line fun s mode room ordered => ?_
  subst mode
  have ordered' := ordered.arrive config raw (.copied (.cut (config.cutIndent raw)))
  obtain ⟨brings, after⟩ := brings_enumLineState
    (s := s.arrive config raw (.copied (.cut (config.cutIndent raw)))) d.name e h ordered'
  refine ⟨_, leaves_enumLine h fits opener brace line, ?_, (Brings.arrive s config raw rfl).trans brings,
    after⟩
  rw [mode_enumLineState, ← noEnum]
  rfl

theorem advances_enumOpener {d : TypeDeclaration} (h : m.InClass name) (fits : config.Fits raw)
    (opener : TypeDeclaration.ofWords? "enum".toList (Line.cut raw).words = some d)
    (body : d.brace ≠ .forward)
    (open' : d.brace = .sameLine → EnumLine.ofTokens? (Line.cut raw).tokens = none) :
    Advances config [raw] m { m with enumBody := some ⟨d.name, false⟩ }
      { deferred := (openerChunks "enum".toList d).flatMap Chunk.text, lines := 1 } := by
  refine advances_line fun s mode room ordered => ?_
  subst mode
  have ordered' := ordered.arrive config raw (.copied (.cut (config.cutIndent raw)))
  have entered := (Brings.arrive s config raw rfl).trans
    (.enterEnum ⟨d.name, false⟩ h.isOpen ordered')
  have enumOrdered := ordered'.enterEnum ⟨d.name, false⟩ h.isOpen
  have enumMode := State.mode_enterEnum
    (s.arrive config raw (.copied (.cut (config.cutIndent raw)))) ⟨d.name, false⟩
  have enumOpen : (State.enterEnum (s.arrive config raw (.copied (.cut (config.cutIndent raw))))
      ⟨d.name, false⟩).mode.classState.isOpen = true := by
    rw [enumMode]
    exact h.isOpen
  refine ⟨_, leaves_enumOpener h fits opener body open', (State.mode_putAll _ _).trans enumMode,
    entered.trans (.putAll (openerChunks "enum".toList d) enumOpen enumOrdered),
    enumOrdered.putAll fun none => ?_⟩
  rw [enumMode] at none
  cases none

theorem advances_enumCloser {body : TypeBody} (h : m.InClass name) (enum : m.enumBody = some body)
    (made : body.flat = false) (fits : config.Fits raw)
    (closer : (Line.cut raw).isTypeCloser = true) :
    Advances config [raw] m { m with enumBody := none }
      { deferred := closerText body.name, lines := 1 } := by
  refine advances_line fun s mode room ordered => ?_
  subst mode
  have ordered' := ordered.arrive config raw (.copied (.cut (config.cutIndent raw)))
  refine ⟨_, leaves_enumCloser h enum made fits closer, ?_, ?_, ?_⟩
  · show ({ (State.put _ _).mode with enumBody := none } : Mode) = _
    rw [State.mode_put]
    rfl
  · have brought := ((Brings.arrive s config raw rfl).trans
      (.put ⟨.made, closerText body.name⟩ h.isOpen ordered')).trans (.leaveEnum _)
    simp only [Yield.append_eq, List.append_nil, List.nil_append, Nat.add_zero] at brought
    exact brought
  · refine (ordered'.put fun none => ?_).leaveEnum
    exact absurd (none.symm.trans (congrArg Option.isSome enum)) Bool.false_ne_true

end Conversion

/-- A line of an enum body with the name of the class in front of the value that it starts with. -/
def valueText (className t : Text) : Text :=
  match (Token.scan t).1 with
  | [] => t
  | first :: _ =>
    if first.text.isIdentifier then
      first.gap ++ EnumLine.valueName (some className) first.text
        ++ t.drop (first.gap.length + first.text.length)
    else t

/-- The value that a line of an enum body starts with, if there is one. -/
def valueNames (className : Text) : List Text → List Text
  | [] => []
  | first :: _ => if first.isIdentifier then [EnumLine.valueName (some className) first] else []

/-- A line that starts with no identifier stays as it is. -/
theorem valueText_of_no_value {t : Text}
    (h : (Token.wordsOf t)[0]?.filter Text.isIdentifier = none) (className : Text) :
    valueText className t = t ∧ valueNames className (Token.wordsOf t) = [] := by
  unfold Token.wordsOf at h ⊢
  unfold valueText
  cases tokens : (Token.scan t).1 with
  | nil => exact ⟨rfl, rfl⟩
  | cons first ts =>
    rw [tokens, List.map_cons, List.getElem?_cons_zero, Option.filter_some] at h
    have other : ¬first.text.isIdentifier = true := by
      intro identifier
      rw [if_pos identifier] at h
      cases h
    exact ⟨if_neg other, if_neg other⟩

theorem exists_value {t w : Text} (h : (Token.wordsOf t)[0]?.filter Text.isIdentifier = some w) :
    ∃ first ts, (Token.scan t).1 = first :: ts ∧ first.text.isIdentifier = true := by
  unfold Token.wordsOf at h
  cases tokens : (Token.scan t).1 with
  | nil =>
    rw [tokens] at h
    cases h
  | cons first ts =>
    rw [tokens, List.map_cons, List.getElem?_cons_zero, Option.filter_some] at h
    split_ifs at h with identifier
    exact ⟨first, ts, rfl, identifier⟩

theorem words_cut_cons {t : Text} {first : Token} {ts : List Token}
    (tokens : (Token.scan t).1 = first :: ts) :
    (Line.cut t).words = first.text :: ts.map Token.text := by
  rw [Line.words, Line.cut, tokens]
  rfl

theorem inner_of_isIdentifier {w : Text} (h : w.isIdentifier = true) :
    w ≠ [] ∧ w.all Token.isInner = true := by
  unfold Text.isIdentifier at h
  rw [Bool.and_eq_true, Bool.not_eq_true', List.isEmpty_eq_false_iff] at h
  refine ⟨h.1, List.all_eq_true.2 fun c mem => ?_⟩
  exact Token.inner_of_isNameChar (List.all_eq_true.1 h.2 c mem)

theorem valueName_isIdentifier {className w : Text} (h : className.isIdentifier = true)
    (k : w.isIdentifier = true) : (EnumLine.valueName (some className) w).isIdentifier = true := by
  unfold Text.isIdentifier at h k ⊢
  rw [Bool.and_eq_true] at h k ⊢
  have underscore : "_".toList.all Text.isNameChar = true := by decide
  refine ⟨?_, ?_⟩
  · simp [EnumLine.valueName]
  · rw [EnumLine.valueName, List.all_append, List.all_append, h.2, k.2, underscore]
    rfl

/-- Only the first token changes, so that there are as many as before. -/
theorem scan_valueText {className t : Text} {first : Token} {ts : List Token} {tail : Text}
    (named : className.isIdentifier = true) (identifier : first.text.isIdentifier = true)
    (tokens : Token.scan t = (first :: ts, tail)) :
    ∃ rest, t = first.gap ++ (first.text ++ rest) ∧
      valueText className t = first.gap ++ EnumLine.valueName (some className) first.text ++ rest ∧
      Token.scan (valueText className t) =
        (⟨first.gap, EnumLine.valueName (some className) first.text⟩ :: ts, tail) := by
  obtain ⟨rest, start, behind⟩ := Token.exists_first tokens
  have source := start.source
  rw [List.append_assoc] at source
  have dropped : t.drop (first.gap.length + first.text.length) = rest := by
    rw [source, ← List.append_assoc, ← List.length_append]
    exact List.drop_left
  have text : valueText className t =
      first.gap ++ EnumLine.valueName (some className) first.text ++ rest := by
    unfold valueText
    rw [tokens]
    simp only [identifier, if_true, dropped]
  have value := inner_of_isIdentifier (valueName_isIdentifier named identifier)
  have stops : rest.head?.any Token.isInner = false := by
    refine start.whole ?_
    have inner := inner_of_isIdentifier identifier
    obtain ⟨c, w, eq⟩ := List.exists_cons_of_ne_nil inner.1
    have all := inner.2
    rw [eq, List.all_cons, Bool.and_eq_true] at all
    rw [eq]
    exact all.1
  refine ⟨rest, source, text, ?_⟩
  have scanned := Token.scan_inner value.1 value.2 stops
  rw [behind] at scanned
  have front := Token.scan_blank_append start.blank scanned
  rw [text, List.append_assoc, front, List.append_nil]

theorem prefixed?_cut {className t : Text} {first : Token} {ts : List Token}
    (named : className.isIdentifier = true) (tokens : (Token.scan t).1 = first :: ts)
    (identifier : first.text.isIdentifier = true) :
    (Line.cut t).prefixed? className = some (valueText className t) := by
  obtain ⟨rest, source, text, -⟩ := scan_valueText named identifier (Prod.ext tokens rfl)
  have filtered : ((Line.cut t).word? 0).filter Text.isIdentifier = some first.text := by
    rw [Line.word?, words_cut_cons tokens, List.getElem?_cons_zero, Option.filter_some,
      if_pos identifier]
  have span : (Line.cut t).span? 0 = some ⟨first.gap.byteLength,
      first.gap.byteLength + first.text.byteLength⟩ := by
    rw [Line.span?, Line.cut, tokens]
    simp [Token.spans]
  have length : Span.length ⟨first.gap.byteLength,
      first.gap.byteLength + first.text.byteLength⟩ = first.text.byteLength :=
    Nat.add_sub_cancel_left _ _
  have spliced : t.splice (EnumLine.valueName (some className) first.text) first.gap.byteLength
      first.text.byteLength none = .ok (valueText className t) := by
    rw [text, source]
    exact Text.splice_between _ _ _ _
  unfold Line.prefixed?
  simp only [filtered, span, length]
  show (t.splice _ _ _ _).toOption = _
  rw [spliced]
  rfl

namespace Conversion

variable {config : Config} {m : Mode} {name raw : Text} {s t : State}

/-- The line with its value renamed, and the value recorded. -/
def renamed (s : State) (className : Text) : State :=
  ({ s with line := .cut (valueText className s.line.text) } : State).addValues
    (valueNames className s.line.words)

theorem run_recordFirstWord {value : Text} (h : s.line.word? 0 = some value) :
    recordFirstWord.run s = .ok false (s.addValue value) := by
  unfold recordFirstWord
  rw [EStateM.run_bind, EStateM.run_get]
  simp only [h, EStateM.run_bind, run_addEnumValue]
  rfl

theorem run_replaceLine {x : Text} (fits : (Line.cut x).tokens.length ≤ config.rules.maxTokens) :
    (replaceLine config x).run s = .ok () { s with line := .cut x } := by
  unfold replaceLine
  rw [EStateM.run_bind, EStateM.run_modify]
  exact run_retokenize (s := { s with line := .ofText x }) (Line.retokenize_ofText fits)

theorem run_recordEnumValue_other (h : (s.line.word? 0).filter Text.isIdentifier = none) :
    (recordEnumValue config).run s = .ok false s := by
  unfold recordEnumValue
  rw [EStateM.run_bind, EStateM.run_get]
  simp only [h]
  split_ifs <;> rfl

theorem renamed_eq_self {className t : Text} (line : s.line = .cut t)
    (text : valueText className t = t) (names : valueNames className (Line.cut t).words = []) :
    renamed s className = s := by
  unfold renamed
  rw [line, names]
  show ({ s with line := .cut (valueText className t) } : State) = s
  rw [text, ← line]

/-- The value at the start of a line of an enum body is renamed and recorded. -/
theorem run_recordEnumValue_identifier {className t : Text} {first : Token} {ts : List Token}
    (enum : s.mode.enumBody.isSome = true) (opened : s.mode.classState = .opened className)
    (named : className.isIdentifier = true) (line : s.line = .cut t)
    (fits : (Line.cut t).words.length ≤ config.rules.maxTokens)
    (tokens : (Token.scan t).1 = first :: ts) (identifier : first.text.isIdentifier = true) :
    (recordEnumValue config).run s = .ok false (renamed s className) := by
  obtain ⟨-, -, -, scanned⟩ := scan_valueText named identifier (Prod.ext tokens rfl)
  have words := words_cut_cons tokens
  have active : s.mode.classState.name? = some className := by
    rw [opened]
    rfl
  have change : s.line.prefixed? className = some (valueText className t) := by
    rw [line]
    exact prefixed?_cut named tokens identifier
  have count : (Line.cut (valueText className t)).tokens.length ≤ config.rules.maxTokens := by
    rw [words, List.length_cons, List.length_map] at fits
    rw [Line.cut, scanned, List.length_cons]
    exact fits
  have firstWord : ({ s with line := .cut (valueText className t) } : State).line.word? 0 =
      some (EnumLine.valueName (some className) first.text) := by
    show (Line.cut (valueText className t)).words[0]? = _
    rw [Line.words, Line.cut, scanned]
    rfl
  have recorded := run_recordFirstWord firstWord
  have values : valueNames className s.line.words =
      [EnumLine.valueName (some className) first.text] := by
    rw [line, words]
    exact if_pos identifier
  rw [run_recordEnumValue_prefixed enum active change]
  simp only [EStateM.run_bind, run_replaceLine count, recorded]
  rw [renamed, values, line]
  rfl

theorem run_recordEnumValue {className t : Text} (enum : s.mode.enumBody.isSome = true)
    (opened : s.mode.classState = .opened className) (named : className.isIdentifier = true)
    (line : s.line = .cut t) (fits : (Line.cut t).words.length ≤ config.rules.maxTokens) :
    (recordEnumValue config).run s = .ok false (renamed s className) := by
  cases value : (Token.wordsOf t)[0]?.filter Text.isIdentifier with
  | none =>
    obtain ⟨text, names⟩ := valueText_of_no_value value className
    rw [renamed_eq_self line text names]
    apply run_recordEnumValue_other
    rw [line]
    exact value
  | some w =>
    obtain ⟨first, ts, tokens, identifier⟩ := exists_value value
    exact run_recordEnumValue_identifier enum opened named line fits tokens identifier

theorem line_addValues (s : State) (names : List Text) : (s.addValues names).line = s.line := by
  induction names generalizing s with
  | nil => rfl
  | cons name names ih =>
    have one : (s.addValue name).line = s.line := by
      unfold State.addValue
      split_ifs <;> rfl
    exact (ih (s.addValue name)).trans one

theorem run_liftMembers_unclaimed (active : s.mode.classState.isActive = true)
    (awaited : s.line.words = [['{']] → s.mode.classState.awaited? = none)
    (access : s.line.words ∉ accessWords) (undeclared : s.line.text.declaredName? = none) :
    liftMembers.run s = .ok false s := by
  have brace := brace_eq_none awaited
  have other : accessWords.contains s.line.words = false :=
    Bool.eq_false_iff.2 (mt List.contains_iff_mem.1 access)
  simp only [liftMembers, EStateM.run_bind, EStateM.run_get, active, brace, other, Bool.not_true,
    Bool.false_or, Bool.false_eq_true, if_false]
  split_ifs
  · rfl
  · exact run_liftMember_none undeclared

end Conversion

/-- At most the first word changes, and then both the old and the new one are identifiers. -/
theorem wordsOf_valueText {className : Text} (named : className.isIdentifier = true) (t : Text) :
    valueText className t = t ∨ ∃ w v ws, Token.wordsOf t = w :: ws ∧
      Token.wordsOf (valueText className t) = v :: ws ∧ v.isIdentifier = true := by
  cases value : (Token.wordsOf t)[0]?.filter Text.isIdentifier with
  | none => exact .inl (valueText_of_no_value value className).1
  | some w =>
    obtain ⟨first, ts, tokens, identifier⟩ := exists_value value
    obtain ⟨-, -, -, scanned⟩ := scan_valueText named identifier (Prod.ext tokens rfl)
    have renamed := congrArg (fun scan => scan.1.map Token.text) scanned
    exact .inr ⟨first.text, _, ts.map Token.text, words_cut_cons tokens, renamed,
      valueName_isIdentifier named identifier⟩

/-- A line of an enum body that no other stage has a use for. -/
structure Line.IsValues (m : Mode) (l : Line) : Prop where
  unclaimed : l.Unclaimed m
  noSemicolon : [';'] ∉ l.words
  noAccess : l.words ∉ Conversion.accessWords

instance (m : Mode) (l : Line) : Decidable (l.IsValues m) :=
  decidable_of_iff (l.Unclaimed m ∧ l.words.contains [';'] = false ∧
      Conversion.accessWords.contains l.words = false) <| by
    rw [← Bool.not_eq_true, ← Bool.not_eq_true, List.contains_iff_mem, List.contains_iff_mem]
    exact ⟨fun ⟨a, b, c⟩ => ⟨a, b, c⟩, fun ⟨a, b, c⟩ => ⟨a, b, c⟩⟩

theorem Line.IsValues.congr {m : Mode} {l l' : Line} (h : l.IsValues m) (words : l'.words = l.words) :
    l'.IsValues m := by
  obtain ⟨unclaimed, noSemicolon, noAccess⟩ := h
  rw [← words] at noSemicolon noAccess
  exact ⟨unclaimed.congr words, noSemicolon, noAccess⟩

theorem Line.IsValues.renamed {m : Mode} {className t : Text} (h : (Line.cut t).IsValues m)
    (named : className.isIdentifier = true) :
    ';' ∉ valueText className t ∧
      (Line.cut (valueText className t)).words ∉ Conversion.accessWords := by
  have noSemicolon : [';'] ∉ Token.wordsOf t := h.noSemicolon
  have noAccess : Token.wordsOf t ∉ Conversion.accessWords := h.noAccess
  have semicolon := Token.mem_wordsOf_delimiter (c := ';') (by decide) (s := valueText className t)
  show _ ∧ Token.wordsOf (valueText className t) ∉ Conversion.accessWords
  rcases wordsOf_valueText named t with same | ⟨w, v, ws, old, new, identifier⟩
  · rw [same] at semicolon ⊢
    exact ⟨mt semicolon noSemicolon, noAccess⟩
  · rw [new] at semicolon ⊢
    rw [old, List.mem_cons, not_or] at noSemicolon
    refine ⟨fun mem => ?_, fun mem => ?_⟩
    · rcases List.mem_cons.1 (semicolon mem) with first | later
      · rw [← first] at identifier
        exact absurd identifier (by decide)
      · exact noSemicolon.2 later
    · have none : ∀ ws ∈ Conversion.accessWords, ws.head?.any Text.isIdentifier = false := by decide
      exact Bool.false_ne_true ((none _ mem).symm.trans identifier)

namespace Conversion

variable {config : Config} {m : Mode} {name raw : Text} {s t : State}

theorem valueText_of_passed {t : Text} (passed : (Line.cut t).Passed) (className : Text) :
    valueText className t = t ∧ valueNames className (Line.cut t).words = [] := by
  cases value : (Token.wordsOf t)[0]?.filter Text.isIdentifier with
  | none => exact valueText_of_no_value value className
  | some w =>
    obtain ⟨first, ts, tokens, identifier⟩ := exists_value value
    obtain ⟨after, eq⟩ := slashes_of_passed passed tokens
    have slash : Text.isNameChar '/' = false := by decide
    rw [eq, Text.isIdentifier, List.all_cons, slash] at identifier
    simp at identifier

theorem mode_renamed (s : State) (className : Text) : (renamed s className).mode = s.mode := by
  rw [renamed, State.mode_addValues]

theorem line_renamed (s : State) (className : Text) :
    (renamed s className).line = .cut (valueText className s.line.text) := by
  rw [renamed, line_addValues]

theorem brings_renamed (s : State) (className : Text) :
    Brings { values := valueNames className s.line.words } s (renamed s className) := by
  have relined (l : Line) : Brings {} s { s with line := l } := .of_account rfl
  exact (relined _).trans (.addValues _ (valueNames className s.line.words))

theorem ordered_renamed (o : s.Ordered) (className : Text) : (renamed s className).Ordered := by
  have relined (l : Line) : ({ s with line := l } : State).Ordered := ⟨o.comments, o.enum⟩
  exact (relined _).addValues _

theorem leaves_late_values {className t : Text} (h : s.mode.InClass className)
    (enum : s.mode.enumBody.isSome = true) (named : className.isIdentifier = true)
    (line : s.line = .cut t) (fits : (Line.cut t).words.length ≤ config.rules.maxTokens)
    (values : (Line.cut t).IsValues s.mode) :
    Leaves (late config) s () ((renamed s className).put ⟨.copied, valueText className t⟩) := by
  obtain ⟨noSemicolon, noAccess⟩ := values.renamed named
  have noConstant : Pattern.constMember.replace "#define $1 ($2)".toList s.line.text = none := by
    rw [line]
    exact noConstant_of_noSemicolon values.noSemicolon
  have lineAfter : (renamed s className).line = .cut (valueText className t) := by
    rw [line_renamed, line]
    rfl
  have modeAfter := mode_renamed s className
  have noMethod : (convertMethods config).run (renamed s className) = _ :=
    run_convertMethods_unclaimed (by rw [modeAfter]; exact h.struct)
  have noMember : liftMembers.run (renamed s className) = .ok false (renamed s className) := by
    apply run_liftMembers_unclaimed
    · rw [modeAfter, h.opened]
      rfl
    · intro _
      rw [modeAfter, h.opened]
      rfl
    · rw [lineAfter]
      exact noAccess
    · rw [lineAfter]
      exact Text.declaredName?_of_absent noSemicolon
  have unclaimed : (firstClaim [trackFunctions config, defineConstants, recordEnumValue config,
      convertMethods config, liftMembers]).run s = .ok false (renamed s className) := by
    rw [run_firstClaim_unclaimed _ (run_trackFunctions_inEnum enum),
      run_firstClaim_unclaimed _ (run_defineConstants_unclaimed noConstant),
      run_firstClaim_unclaimed _ (run_recordEnumValue enum h.opened named line fits),
      run_firstClaim_unclaimed _ noMethod, run_firstClaim_unclaimed _ noMember]
    rfl
  refine .after_run unclaimed ?_
  have emitted := leaves_emitLine (renamed s className)
  rw [lineAfter] at emitted
  exact emitted

theorem leaves_values (h : s.mode.InClass name) (enum : s.mode.enumBody.isSome = true)
    (named : name.isIdentifier = true) (fits : config.Fits raw)
    (values : (Line.cut raw).IsValues s.mode) :
    let u := s.arrive config raw (.reached none (.cut (config.cutIndent raw)))
    Leaves (processLine config raw) s ()
      ((renamed u name).put ⟨.copied, valueText name (config.cutIndent raw)⟩) := by
  intro u
  have seen := words_cutIndent config raw
  have cutFits : (Line.cut (config.cutIndent raw)).words.length ≤ config.rules.maxTokens := by
    rw [seen]
    exact fits
  have arrives := Arrives.of_unclaimed h.withClass fits values.unclaimed
  exact leaves_reached arrives
    (leaves_late_values (s := u) h enum named rfl cutFits (values.congr seen))

/-- A line of an enum body is put off with its value renamed. -/
theorem advances_values (h : m.InClass name) (enum : m.enumBody.isSome = true)
    (named : name.isIdentifier = true) (fits : config.Fits raw)
    (line : (Line.cut raw).Passed ∨ (Line.cut raw).IsValues m) :
    Advances config [raw] m m
      { deferred := valueText name (config.cutIndent raw)
        values := valueNames name (Line.cut raw).words
        lines := 1 } := by
  have seen := words_cutIndent config raw
  rcases line with passed | values
  · have cut : (Line.cut (config.cutIndent raw)).Passed := by
      unfold Line.Passed
      rw [seen, Line.leads_congr seen]
      exact passed
    rw [(valueText_of_passed cut name).1, (valueText_of_passed passed name).2]
    exact advances_passed h fits passed
  · refine advances_line fun s mode room ordered => ?_
    subst mode
    let u := s.arrive config raw (.reached none (.cut (config.cutIndent raw)))
    have ordered' : u.Ordered := ordered.arrive config raw _
    have started : Brings { lines := 1 } s u := .arrive s config raw rfl
    have mode : (renamed u name).mode = s.mode := mode_renamed u name
    have opened : (renamed u name).mode.classState.isOpen = true := by
      rw [mode]
      exact h.isOpen
    have renamedOrdered := ordered_renamed ordered' name
    have recorded := brings_renamed u name
    rw [show u.line.words = (Line.cut raw).words from seen] at recorded
    refine ⟨_, leaves_values h enum named fits values, (State.mode_put _ _).trans mode, ?_,
      renamedOrdered.put fun none => ?_⟩
    · have brought := (started.trans recorded).trans
        (.put ⟨.copied, valueText name (config.cutIndent raw)⟩ opened renamedOrdered)
      simp only [Yield.append_eq, List.append_nil, List.nil_append, Nat.add_zero] at brought
      exact brought
    · rw [mode] at none
      exact absurd (none.symm.trans enum) Bool.false_ne_true

end Conversion
end HeaderFlattening
