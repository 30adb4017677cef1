import HeaderFlattening.Proofs.Emission

/-!
How a line gets to the stage that follows functions. Blank lines and `//` lines are copied before it;
lines of block comments, openers and closers of types, and lines with too many tokens do not get
there; all others do, some of them edited. Which of these a line is depends on the mode alone.
-/

set_option autoImplicit false
namespace HeaderFlattening

/-- The edit that a line calls for, and the text that it gives. -/
def Line.edit? (config : Config) (l : Line) : Option (MacroEdit × Text) :=
  if l.word? 0 = some "#define".toList then
    match (l.word? 1).bind config.findEdit? with
    | none => none
    | some edit =>
      match l.text.replaceAll edit.search edit.replacement none with
      | .ok (some text) => some (edit, text)
      | _ => none
  else none

/-- Whether the line starts with these characters, blanks aside. -/
def Line.leads (l : Line) (mark : Text) : Bool := mark.isPrefixOf ((l.word? 0).getD [])

/-- A line that neither opens nor closes a block or a type. -/
structure Line.Loose (m : Mode) (l : Line) : Prop where
  externC : l.startsWith ["extern".toList, "\"C\"".toList, ['{']] = false
  noEnum : TypeDeclaration.ofWords? "enum".toList l.words = none
  noStruct : TypeDeclaration.ofWords? "struct".toList l.words = none
  noClass : TypeDeclaration.ofWords? "class".toList l.words = none
  notFlat : l.words[0]? = some "typedef".toList → l.words.contains [';'] = false →
    l.words[1]? ≠ some "enum".toList ∧ l.words[1]? ≠ some "struct".toList
  closer : l.isTypeCloser = true →
    m.enumBody = none ∧ m.structBody = none ∧ m.classState = .none
  brace : l.words = [['}']] → m.inExternC = false

instance (m : Mode) (l : Line) : Decidable (l.Loose m) :=
  decidable_of_iff
    (l.startsWith ["extern".toList, "\"C\"".toList, ['{']] = false ∧
      TypeDeclaration.ofWords? "enum".toList l.words = none ∧
      TypeDeclaration.ofWords? "struct".toList l.words = none ∧
      TypeDeclaration.ofWords? "class".toList l.words = none ∧
      (l.words[0]? = some "typedef".toList → l.words.contains [';'] = false →
        l.words[1]? ≠ some "enum".toList ∧ l.words[1]? ≠ some "struct".toList) ∧
      (l.isTypeCloser = true → m.enumBody = none ∧ m.structBody = none ∧ m.classState = .none) ∧
      (l.words = [['}']] → m.inExternC = false))
    ⟨fun ⟨a, b, c, d, e, f, g⟩ => ⟨a, b, c, d, e, f, g⟩,
      fun ⟨a, b, c, d, e, f, g⟩ => ⟨a, b, c, d, e, f, g⟩⟩

/-- The line with its tokens, however many there are. -/
def Line.cut (t : Text) : Line := ⟨t, (Token.scan t).1⟩

theorem Line.retokenize_ofText {t : Text} {limit : Nat} (h : (Line.cut t).tokens.length ≤ limit) :
    (Line.ofText t).retokenize limit = .ok (Line.cut t) := by
  have tokens : Token.tokenize t limit = .ok (Token.scan t).1 := if_neg (Nat.not_lt.2 h)
  show (Token.tokenize t limit).bind _ = _
  rw [tokens]
  rfl

/-- The spaces that are taken from a line, and the rest of it. -/
def Config.outdent (config : Config) (m : Mode) (raw : Text) : Text × Text :=
  if m.classState.isActive then
    let spaces := (raw.take config.rules.unindentWidth).takeWhile (· = ' ')
    (spaces, raw.drop spaces.length)
  else ([], raw)

/-- How a line is seen by the stage that follows functions. -/
inductive Seen where
  /-- Not at all: it was copied. -/
  | copied (l : Line)
  /-- As this line, which is the work of an edit if there is one. -/
  | reached (edit : Option MacroEdit) (l : Line)

def Seen.line : Seen → Line
  | .copied l | .reached _ l => l

def Seen.edit? : Seen → Option MacroEdit
  | .copied _ => none
  | .reached edit _ => edit

/-- The lines that get to this stage or are copied before it. -/
inductive Arrives (config : Config) (m : Mode) (raw : Text) : Seen → Prop
  | blank {l : Line}
      (cut : (Line.ofText (config.outdent m raw).2).retokenize config.rules.maxTokens = .ok l)
      (empty : l.isEmpty = true) : Arrives config m raw (.copied l)
  | comment {l : Line}
      (cut : (Line.ofText (config.outdent m raw).2).retokenize config.rules.maxTokens = .ok l)
      (slashes : l.leads "//".toList = true) : Arrives config m raw (.copied l)
  | plain {l : Line}
      (cut : (Line.ofText (config.outdent m raw).2).retokenize config.rules.maxTokens = .ok l)
      (full : l.isEmpty = false) (outside : m.inComment = false)
      (slashes : l.leads "//".toList = false) (star : l.leads "/*".toList = false)
      (noEdit : l.edit? config = none) (loose : l.Loose m) : Arrives config m raw (.reached none l)
  | edited {l l' : Line} {edit : MacroEdit} {text : Text}
      (cut : (Line.ofText (config.outdent m raw).2).retokenize config.rules.maxTokens = .ok l)
      (full : l.isEmpty = false) (outside : m.inComment = false)
      (slashes : l.leads "//".toList = false) (star : l.leads "/*".toList = false)
      (change : l.edit? config = some (edit, text))
      (recut : (Line.ofText text).retokenize config.rules.maxTokens = .ok l')
      (loose : l'.Loose m) : Arrives config m raw (.reached (some edit) l')

namespace State

/-- The state in which the line is seen. -/
def arrive (s : State) (config : Config) (raw : Text) (x : Seen) : State :=
  { s with
    lineNumber := s.lineNumber + 1
    indent := (config.outdent s.mode raw).1
    line := x.line
    trace :=
      match x.edit? with
      | none => s.trace
      | some edit => s.trace ++ [.macroEdited edit.name]
    diagnostics :=
      match x.edit? with
      | none => s.diagnostics
      | some edit => s.diagnostics ++ [{
        severity := .info
        message := "rewrote macro ".toList ++ edit.name
        line := some (s.lineNumber + 1) }] }

end State

namespace Conversion

variable {config : Config} {raw : Text} {s t : State}

/-- What is left to do with a line that gets to the stage that follows functions. -/
def late (config : Config) : Conversion Unit := do
  if ← firstClaim [trackFunctions config, defineConstants, recordEnumValue config,
    convertMethods config, liftMembers] then return
  emitLine

theorem run_beginLine (config : Config) (raw : Text) (s : State) :
    (beginLine config raw).run s = .ok () { s with
      lineNumber := s.lineNumber + 1
      indent := (config.outdent s.mode raw).1
      line := .ofText (config.outdent s.mode raw).2 } := by
  unfold Config.outdent
  simp only [beginLine, EStateM.run_bind, EStateM.run_modify, EStateM.run_get]
  cases s.mode.classState.isActive <;> rfl

theorem run_retokenize {l : Line} (h : s.line.retokenize config.rules.maxTokens = .ok l) :
    (retokenize config).run s = .ok () { s with line := l } := by
  simp only [retokenize, EStateM.run_bind, EStateM.run_get, h]
  rfl

theorem run_retokenize_overflow {e : TooManyTokens}
    (h : s.line.retokenize config.rules.maxTokens = .error e) :
    (retokenize config).run s = .error (.tooManyTokens s.lineNumber e.limit) s := by
  simp only [retokenize, EStateM.run_bind, EStateM.run_get, h]
  rfl

theorem run_firstClaim_unclaimed {stage : Conversion Bool} (stages : List (Conversion Bool))
    (h : stage.run s = .ok false t) :
    (firstClaim (stage :: stages)).run s = (firstClaim stages).run t := by
  rw [firstClaim, EStateM.run_bind, h]
  rfl

theorem run_firstClaim_claimed {stage : Conversion Bool} (stages : List (Conversion Bool))
    (h : stage.run s = .ok true t) : (firstClaim (stage :: stages)).run s = .ok true t := by
  rw [firstClaim, EStateM.run_bind, h]
  rfl

/-- Stages that leave the line to the next one do so one after the other. -/
theorem exists_of_run_firstClaim {stage : Conversion Bool} {stages : List (Conversion Bool)}
    (h : (firstClaim (stage :: stages)).run s = .ok false t) :
    ∃ u, stage.run s = .ok false u ∧ (firstClaim stages).run u = .ok false t := by
  rw [firstClaim, EStateM.run_bind] at h
  cases run : stage.run s with
  | error e u =>
    rw [run] at h
    cases h
  | ok claimed u =>
    rw [run] at h
    cases claimed with
    | true => cases h
    | false => exact ⟨u, rfl, h⟩

theorem run_firstClaim_append (xs ys : List (Conversion Bool))
    (h : (firstClaim xs).run s = .ok false t) :
    (firstClaim (xs ++ ys)).run s = (firstClaim ys).run t := by
  induction xs generalizing s with
  | nil =>
    cases h
    rfl
  | cons x xs ih =>
    obtain ⟨u, first, rest⟩ := exists_of_run_firstClaim h
    rw [List.cons_append, run_firstClaim_unclaimed _ first]
    exact ih rest

theorem leaves_firstClaim {stage : Conversion Bool} (h : Leaves stage s true t)
    (stages : List (Conversion Bool)) : Leaves (firstClaim (stage :: stages)) s true t := h.claim rfl

theorem run_passComments (outside : s.mode.inComment = false)
    (slashes : s.line.leads "//".toList = false) (star : s.line.leads "/*".toList = false) :
    passComments.run s = .ok false s := by
  unfold Line.leads at slashes star
  simp only [passComments, EStateM.run_bind, EStateM.run_get, slashes, star, outside,
    Bool.false_eq_true, if_false]
  rfl

theorem replaceAll_unlimited (subject search replacement : Text) :
    ∃ r, subject.replaceAll search replacement none = .ok r := by
  unfold Text.replaceAll
  split_ifs
  · exact ⟨_, rfl⟩
  · simp only []
    split_ifs
    · exact ⟨_, rfl⟩
    · exact ⟨_, rfl⟩

theorem run_editMacro_unedited (h : s.line.edit? config = none) :
    (editMacro config).run s = .ok false s := by
  unfold Line.edit? at h
  unfold editMacro
  rw [EStateM.run_bind, EStateM.run_get]
  simp only []
  split_ifs at h ⊢
  · cases found : (s.line.word? 1).bind config.findEdit? with
    | none => rfl
    | some edit =>
      obtain ⟨r, replaced⟩ := replaceAll_unlimited s.line.text edit.search edit.replacement
      simp only [found, replaced] at h ⊢
      cases r with
      | none => rfl
      | some text => cases h
  · rfl

/-- An edit of which the settings know is named by the first two words of the line. -/
theorem exists_edit {l : Line} {edit : MacroEdit} {text : Text}
    (h : l.edit? config = some (edit, text)) :
    l.word? 0 = some "#define".toList ∧ (l.word? 1).bind config.findEdit? = some edit ∧
      l.text.replaceAll edit.search edit.replacement none = .ok (some text) := by
  unfold Line.edit? at h
  split_ifs at h with define
  cases found : (l.word? 1).bind config.findEdit? with
  | none =>
    rw [found] at h
    cases h
  | some edit' =>
    obtain ⟨r, replaced⟩ := replaceAll_unlimited l.text edit'.search edit'.replacement
    simp only [found, replaced] at h
    cases r with
    | none => cases h
    | some text' =>
      cases h
      exact ⟨define, rfl, replaced⟩

theorem run_editMacro_edited {l : Line} {edit : MacroEdit} {text : Text}
    (h : s.line.edit? config = some (edit, text))
    (cut : (Line.ofText text).retokenize config.rules.maxTokens = .ok l) :
    (editMacro config).run s = .ok false { s with
      line := l
      trace := s.trace ++ [.macroEdited edit.name]
      diagnostics := s.diagnostics ++ [{
        severity := .info
        message := "rewrote macro ".toList ++ edit.name
        line := some s.lineNumber }] } := by
  obtain ⟨define, found, replaced⟩ := exists_edit h
  simp only [editMacro, EStateM.run_bind, EStateM.run_get, define, found, replaced, if_true, note,
    replaceLine, remark, EStateM.run_modify]
  rw [run_retokenize cut]
  rfl

/-- The edited line has too many tokens: the edit is noted, and no remark is made. -/
theorem run_editMacro_overflow {e : TooManyTokens} {edit : MacroEdit} {text : Text}
    (h : s.line.edit? config = some (edit, text))
    (cut : (Line.ofText text).retokenize config.rules.maxTokens = .error e) :
    (editMacro config).run s = .error (.tooManyTokens s.lineNumber e.limit) { s with
      line := .ofText text
      trace := s.trace ++ [.macroEdited edit.name] } := by
  obtain ⟨define, found, replaced⟩ := exists_edit h
  simp only [editMacro, EStateM.run_bind, EStateM.run_get, define, found, replaced, if_true, note,
    replaceLine, EStateM.run_modify]
  rw [run_retokenize_overflow cut]

theorem run_openExternC
    (h : s.line.startsWith ["extern".toList, "\"C\"".toList, ['{']] = false) :
    openExternC.run s = .ok false s := by
  simp only [openExternC, EStateM.run_bind, EStateM.run_get, h, Bool.false_eq_true, if_false]
  rfl

theorem run_openEnum_unclaimed (h : TypeDeclaration.ofWords? "enum".toList s.line.words = none) :
    openEnum.run s = .ok false s := by
  simp only [openEnum, EStateM.run_bind, EStateM.run_get, h]
  rfl

theorem run_openStruct_unclaimed (h : TypeDeclaration.ofWords? "struct".toList s.line.words = none) :
    openStruct.run s = .ok false s := by
  simp only [openStruct, EStateM.run_bind, EStateM.run_get, h]
  rfl

theorem run_openClass_unclaimed (h : TypeDeclaration.ofWords? "class".toList s.line.words = none) :
    openClass.run s = .ok false s := by
  simp only [openClass, EStateM.run_bind, EStateM.run_get, h]
  rfl

theorem run_openFlatType_unclaimed
    (h : s.line.words[0]? = some "typedef".toList → s.line.words.contains [';'] = false →
      s.line.words[1]? ≠ some "enum".toList ∧ s.line.words[1]? ≠ some "struct".toList) :
    openFlatType.run s = .ok false s := by
  unfold openFlatType
  rw [EStateM.run_bind, EStateM.run_get]
  simp only []
  by_cases typedef : s.line.words[0]? = some "typedef".toList
  · cases semicolon : s.line.words.contains [';'] with
    | true =>
      rw [if_pos (Bool.or_true _)]
      rfl
    | false =>
      obtain ⟨enum, struct⟩ := h typedef semicolon
      rw [if_neg (by simp [typedef]), if_neg enum, if_neg struct]
      rfl
  · rw [if_pos (Bool.or_eq_true_iff.2 (.inl (decide_eq_true typedef)))]
    rfl

theorem run_closeType_unclaimed
    (h : s.line.isTypeCloser = true →
      s.mode.enumBody = none ∧ s.mode.structBody = none ∧ s.mode.classState = .none) :
    closeType.run s = .ok false s := by
  unfold closeType
  rw [EStateM.run_bind, EStateM.run_get]
  simp only []
  cases closer : s.line.isTypeCloser with
  | false => rfl
  | true =>
    obtain ⟨enum, struct, class'⟩ := h closer
    simp only [enum, struct, class']
    rfl

theorem run_closeExternC_unclaimed (h : s.line.words = [['}']] → s.mode.inExternC = false) :
    closeExternC.run s = .ok false s := by
  unfold closeExternC
  rw [EStateM.run_bind, EStateM.run_get]
  simp only []
  rw [if_neg]
  · rfl
  · intro both
    rw [Bool.and_eq_true] at both
    have off := h (of_decide_eq_true both.1)
    rw [off] at both
    exact Bool.false_ne_true both.2

theorem run_trackTypes (h : s.line.Loose s.mode) : trackTypes.run s = .ok false s := by
  unfold trackTypes
  rw [run_firstClaim_unclaimed _ (run_openExternC h.externC),
    run_firstClaim_unclaimed _ (run_openEnum_unclaimed h.noEnum),
    run_firstClaim_unclaimed _ (run_openStruct_unclaimed h.noStruct),
    run_firstClaim_unclaimed _ (run_openClass_unclaimed h.noClass),
    run_firstClaim_unclaimed _ (run_openFlatType_unclaimed h.notFlat),
    run_firstClaim_unclaimed _ (run_closeType_unclaimed h.closer),
    run_firstClaim_unclaimed _ (run_closeExternC_unclaimed h.brace)]
  rfl

/-- The stage does not leave the line to the next one. -/
def Claims (x : Conversion Bool) (s : State) : Prop := ∀ t, x.run s ≠ .ok false t

theorem claims_true (s : State) : Claims (pure true) s := by
  intro t run
  cases run

theorem claims_bind {α : Type} {x : Conversion α} {f : α → Conversion Bool}
    (h : ∀ a t, Claims (f a) t) (s : State) : Claims (x >>= f) s := by
  intro t run
  rw [EStateM.run_bind] at run
  cases first : x.run s with
  | ok a u =>
    rw [first] at run
    exact h a u t run
  | error e u =>
    rw [first] at run
    cases run

theorem claims_last (x : Conversion Unit) (s : State) : Claims (x >>= fun _ => pure true) s :=
  claims_bind (fun _ => claims_true) s

/-- If the stage leaves the line to the next one, it has left everything as it was. -/
def PassesOn (x : Conversion Bool) (s : State) : Prop := ∀ t, x.run s = .ok false t → t = s

theorem passesOn_of_claims {x : Conversion Bool} (h : Claims x s) : PassesOn x s :=
  fun t run => absurd run (h t)

theorem passesOn_false (s : State) : PassesOn (pure false) s := by
  intro t run
  cases run
  rfl

theorem passesOn_get {f : State → Conversion Bool} (h : PassesOn (f s) s) : PassesOn (get >>= f) s := h

theorem passesOn_openExternC (s : State) : PassesOn openExternC s := by
  unfold openExternC
  apply passesOn_get
  split_ifs
  · exact passesOn_of_claims (claims_last _ s)
  · exact passesOn_false s

theorem passesOn_openEnum (s : State) : PassesOn openEnum s := by
  unfold openEnum
  apply passesOn_get
  simp only []
  split
  · exact passesOn_false s
  · apply passesOn_of_claims
    split
    · exact claims_last _ s
    · split <;> exact claims_last _ s
    · exact claims_last _ s

theorem passesOn_openStruct (s : State) : PassesOn openStruct s := by
  unfold openStruct
  apply passesOn_get
  split
  · exact passesOn_false s
  · apply passesOn_of_claims
    split_ifs
    · exact claims_last _ s
    · exact claims_bind (fun _ => claims_last _) s

theorem passesOn_openClass (s : State) : PassesOn openClass s := by
  unfold openClass
  apply passesOn_get
  split
  · exact passesOn_false s
  · apply passesOn_of_claims
    split
    · exact claims_last _ s
    · exact claims_bind (fun _ => claims_last _) s
    · exact claims_bind (fun _ => claims_last _) s

theorem passesOn_openFlatType (s : State) : PassesOn openFlatType s := by
  unfold openFlatType
  apply passesOn_get
  simp only []
  split_ifs
  · exact passesOn_false s
  · apply passesOn_of_claims
    refine claims_bind (fun _ t => ?_) s
    refine claims_bind (fun u t => ?_) t
    split_ifs
    · exact claims_bind (fun _ => claims_last _) t
    · exact claims_last _ t
  · exact passesOn_of_claims (claims_bind (fun _ => claims_last _) s)
  · exact passesOn_false s

theorem passesOn_closeType (s : State) : PassesOn closeType s := by
  unfold closeType
  apply passesOn_get
  split_ifs
  · exact passesOn_false s
  split
  · exact passesOn_of_claims (claims_bind (fun _ => claims_last _) s)
  split
  · exact passesOn_of_claims (claims_bind (fun _ => claims_last _) s)
  split
  · exact passesOn_of_claims (claims_last _ s)
  · exact passesOn_false s

theorem passesOn_closeExternC (s : State) : PassesOn closeExternC s := by
  unfold closeExternC
  apply passesOn_get
  split_ifs
  · exact passesOn_of_claims (claims_last _ s)
  · exact passesOn_false s

theorem passesOn_firstClaim {stages : List (Conversion Bool)}
    (h : ∀ stage ∈ stages, ∀ s, PassesOn stage s) (s : State) : PassesOn (firstClaim stages) s := by
  induction stages with
  | nil => exact passesOn_false s
  | cons stage stages ih =>
    intro t run
    obtain ⟨u, first, rest⟩ := exists_of_run_firstClaim run
    obtain rfl := h stage List.mem_cons_self s u first
    exact ih (fun stage mem => h stage (List.mem_cons_of_mem _ mem)) t rest

theorem passesOn_trackTypes (s : State) : PassesOn trackTypes s := by
  refine passesOn_firstClaim (fun stage mem => ?_) s
  simp only [List.mem_cons, List.not_mem_nil, or_false] at mem
  rcases mem with rfl | rfl | rfl | rfl | rfl | rfl | rfl
  · exact passesOn_openExternC
  · exact passesOn_openEnum
  · exact passesOn_openStruct
  · exact passesOn_openClass
  · exact passesOn_openFlatType
  · exact passesOn_closeType
  · exact passesOn_closeExternC

/-- A step that fails only for the sink is not recovered from. -/
theorem leaves_recover {x : Conversion Unit} (h : Leaves x s () t) :
    Leaves (tryCatch x (recover config raw)) s () t := by
  unfold Leaves at *
  rw [run_tryCatch]
  rcases h with h | ⟨h, full⟩
  · rw [h]
    exact .inl rfl
  · rw [h]
    exact .inr ⟨rfl, full⟩

theorem leaves_processLine {l : Line}
    (cut : (Line.ofText (config.outdent s.mode raw).2).retokenize config.rules.maxTokens = .ok l)
    (h : Leaves (classify config) (s.arrive config raw (.copied l)) () t) :
    Leaves (processLine config raw) s () t := by
  unfold processLine
  refine .after_run (run_beginLine config raw s) ?_
  refine leaves_recover ?_
  exact .after_run (run_retokenize cut) h

theorem leaves_passComments (slashes : s.line.leads "//".toList = true) :
    Leaves passComments s true (s.put ⟨.copied, s.line.text⟩) := by
  unfold Line.leads at slashes
  unfold passComments
  refine .after_run rfl ?_
  rw [if_pos slashes]
  exact (leaves_emitLine s).then_pure fun _ => true

theorem isEmpty_of_leads {l : Line} {c : Char} {mark : Text} (h : l.leads (c :: mark) = true) :
    l.isEmpty = false := by
  unfold Line.leads Line.word? Line.words at h
  cases tokens : l.tokens with
  | nil =>
    rw [tokens] at h
    exact absurd h Bool.false_ne_true
  | cons t ts =>
    unfold Line.isEmpty
    rw [tokens]
    rfl

/-- A line without tokens is emitted as it is. -/
theorem run_classify_empty (empty : s.line.isEmpty = true) :
    (classify config).run s = emitLine.run s := by
  unfold classify
  rw [EStateM.run_bind, EStateM.run_get]
  simp only []
  rw [if_neg (by rw [empty]; exact Bool.false_ne_true)]

/-- Any other line goes through the stages and is emitted if none of them claims it. -/
theorem run_classify_full (full : s.line.isEmpty = false) :
    (classify config).run s = (firstClaim (stages config) >>= fun claimed =>
      if claimed then pure () else emitLine).run s := by
  unfold classify
  rw [EStateM.run_bind, EStateM.run_get]
  simp only []
  rw [if_pos (by rw [full]; rfl)]

theorem leaves_classify_empty (empty : s.line.isEmpty = true) :
    Leaves (classify config) s () (s.put ⟨.copied, s.line.text⟩) := by
  unfold Leaves
  rw [run_classify_empty empty]
  exact leaves_emitLine s

theorem leaves_classify_full (full : s.line.isEmpty = false)
    (h : Leaves (firstClaim (stages config) >>= fun claimed => if claimed then pure () else emitLine)
      s () t) : Leaves (classify config) s () t := by
  unfold Leaves
  rw [run_classify_full full]
  exact h

theorem leaves_copied {l : Line} (h : Arrives config s.mode raw (.copied l)) :
    Leaves (processLine config raw) s ()
      ((s.arrive config raw (.copied l)).put ⟨.copied, l.text⟩) := by
  cases h with
  | blank cut empty => exact leaves_processLine cut (leaves_classify_empty empty)
  | comment cut slashes =>
    refine leaves_processLine cut (leaves_classify_full (isEmpty_of_leads slashes) ?_)
    have claimed := leaves_passComments (s := s.arrive config raw (.copied l)) slashes
    exact (leaves_firstClaim claimed _).claim rfl

/-- What becomes of the other lines once their tokens are found: the three stages before the one that
follows functions leave the line alone, or one of them edits it. -/
theorem exists_run_classify {edit : Option MacroEdit} {l : Line}
    (h : Arrives config s.mode raw (.reached edit l)) :
    ∃ l', (Line.ofText (config.outdent s.mode raw).2).retokenize config.rules.maxTokens = .ok l' ∧
      (classify config).run (s.arrive config raw (.copied l')) =
        (late config).run (s.arrive config raw (.reached edit l)) := by
  have rest {l' : Line} (full : l'.isEmpty = false)
      (early : (firstClaim [passComments, editMacro config, trackTypes]).run
        (s.arrive config raw (.copied l')) = .ok false (s.arrive config raw (.reached edit l))) :
      (classify config).run (s.arrive config raw (.copied l')) =
        (late config).run (s.arrive config raw (.reached edit l)) := by
    have split := run_firstClaim_append _ [trackFunctions config, defineConstants,
      recordEnumValue config, convertMethods config, liftMembers] early
    have claims : (classify config).run (s.arrive config raw (.copied l')) =
        (firstClaim (stages config) >>= fun claimed => if claimed then pure () else emitLine).run
          (s.arrive config raw (.copied l')) := by
      unfold classify
      rw [EStateM.run_bind, EStateM.run_get]
      simp only []
      rw [if_pos (by show (!l'.isEmpty) = true; rw [full]; rfl)]
    rw [claims, late, EStateM.run_bind, EStateM.run_bind, ← split]
    rfl
  cases h with
  | plain cut full outside slashes star noEdit loose =>
    have comments := run_passComments (s := s.arrive config raw (.copied l)) outside slashes star
    have edits := run_editMacro_unedited (s := s.arrive config raw (.copied l)) noEdit
    have types := run_trackTypes (s := s.arrive config raw (.copied l)) loose
    refine ⟨l, cut, rest full ?_⟩
    rw [run_firstClaim_unclaimed _ comments, run_firstClaim_unclaimed _ edits,
      run_firstClaim_unclaimed _ types]
    rfl
  | @edited l' l edit text cut full outside slashes star change recut loose =>
    have comments := run_passComments (s := s.arrive config raw (.copied l')) outside slashes star
    have edits := run_editMacro_edited (s := s.arrive config raw (.copied l')) change recut
    have types := run_trackTypes (s := s.arrive config raw (.reached (some edit) l)) loose
    refine ⟨l', cut, rest full ?_⟩
    rw [run_firstClaim_unclaimed _ comments, run_firstClaim_unclaimed _ edits]
    exact run_firstClaim_unclaimed [] types

/-- The other lines get to the stage that follows functions. -/
theorem leaves_reached {edit : Option MacroEdit} {l : Line}
    (h : Arrives config s.mode raw (.reached edit l))
    (k : Leaves (late config) (s.arrive config raw (.reached edit l)) () t) :
    Leaves (processLine config raw) s () t := by
  obtain ⟨l', cut, run⟩ := exists_run_classify h
  refine leaves_processLine cut ?_
  unfold Leaves at k ⊢
  rw [run]
  exact k

end Conversion
end HeaderFlattening
