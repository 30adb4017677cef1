import HeaderFlattening.Proofs.Flattening
import HeaderFlattening.Proofs.Simulation

/-!
Lines that stay as they are. While no class and no function is open, what becomes of a line depends on
its place: the mode, and the last word that was read in search of functions. `Kept` lists the lines
that are copied from a place, and each of them leads to its next place and adds nothing but itself and
the enum value that it starts with.
-/

set_option autoImplicit false
namespace HeaderFlattening

namespace Scan

/-- Whether a parenthesis among the words opens a signature. `two` and `one` are the words before them
on the line, and `carried` is the last word of the lines before. -/
def opens (carried : Text) : (two one : Option Text) → List Text → Bool
  | _, _, [] => false
  | two, one, w :: ws =>
    (w = ['('] && isCallable (one.getD carried) two) || opens carried one (some w) ws

variable {source carried : Text} {two one : Option Text} {s : Scan}

theorem opens_of_noParen {ws : List Text} (h : ['('] ∉ ws) : opens carried two one ws = false := by
  induction ws generalizing two one with
  | nil => rfl
  | cons w ws ih =>
    rw [List.mem_cons, not_or] at h
    rw [opens, decide_eq_false (Ne.symm h.1), Bool.false_and, Bool.false_or, ih h.2]

theorem opens_append (ws vs : List Text) :
    opens carried two one (ws ++ vs) =
      (opens carried two one ws || opens carried (lastTwo two one ws).1 (lastTwo two one ws).2 vs) := by
  induction ws generalizing two one with
  | nil => simp [opens, lastTwo]
  | cons w ws ih => rw [List.cons_append, opens, opens, ih, lastTwo, Bool.or_assoc]

/-- Words that open no signature leave nothing but the last of them. -/
theorem steps_of_not_opens {ws : List Text} (h : s.function = .outside)
    (back : s.cursor.previous = one.getD carried) (quiet : opens carried two one ws = false) :
    steps false source two one ws s =
      { s with cursor := { s.cursor with previous := (ws.getLast?.or one).getD carried } } := by
  induction ws generalizing two one s with
  | nil =>
    rw [List.getLast?_nil, Option.none_or, ← back]
    rfl
  | cons w ws ih =>
    rw [opens, Bool.or_eq_false_iff] at quiet
    have idle : step false source two w s = { s with cursor := { s.cursor with previous := w } } := by
      have noCall : ¬(w = ['('] ∧ isCallable s.cursor.previous two = true) := by
        rintro ⟨paren, callable⟩
        rw [back] at callable
        rw [paren, callable] at quiet
        exact absurd quiet.1 (by decide)
      simp only [step, h, outside, noCall, Bool.false_eq_true, if_false]
    have last : (ws.getLast?.or (some w)).getD carried = ((w :: ws).getLast?.or one).getD carried := by
      rw [List.getLast?_cons]
      cases ws.getLast? <;> rfl
    have rest : steps false source one (some w) ws
        { s with cursor := { s.cursor with previous := w } } = _ := ih h rfl quiet.2
    rw [steps, idle, rest, last]

theorem suppress_of_opens {ws : List Text} (h : s.function = .outside)
    (back : s.cursor.previous = one.getD carried) (call : opens carried two one ws = true) :
    (steps false source two one ws s).suppress = true := by
  induction ws generalizing two one s with
  | nil => exact absurd call Bool.false_ne_true
  | cons w ws ih =>
    rw [opens, Bool.or_eq_true, Bool.and_eq_true, decide_eq_true_eq, ← back] at call
    by_cases here : w = ['('] ∧ isCallable s.cursor.previous two = true
    · refine suppress_steps ws ?_
      simp only [step, h, outside, here, and_self, Bool.false_eq_true, if_false, if_true]
    · have outside' : (step false source two w s).function = .outside := by
        rw [function_step_outside w h, if_neg here]
      exact ih outside' rfl (call.resolve_left here)

end Scan

namespace Line

/-- The words that are read in search of functions. -/
def read (l : Line) : List Text := l.words.takeWhile fun w => !stopsScan w

theorem read_eq_words {l : Line} (h : ∀ w ∈ l.words, stopsScan w = false) : l.read = l.words := by
  refine List.takeWhile_eq_self_iff.2 fun w mem => ?_
  rw [h w mem]
  rfl

/-- The line has nothing to do with functions when none is open. -/
structure Quiet (carried : Text) (l : Line) : Prop where
  notInline : l.word? 0 ≠ some "inline".toList
  noCall : Scan.opens carried none none l.read = false

/-- The enum value that the line would record in an enum. -/
def value? (l : Line) : Option Text := (l.word? 0).filter Text.isIdentifier

/-- The line ends a block comment. -/
def endsComment (l : Line) : Bool := (l.lastWord?.getD []).reverse.take 2 = ['/', '*']

/-- The stages before the one that follows functions leave the line alone. -/
structure Plain (config : Config) (m : Mode) (l : Line) : Prop where
  full : l.words ≠ []
  outside : m.inComment = false
  slashes : l.leads "//".toList = false
  star : l.leads "/*".toList = false
  noEdit : l.edit? config = none
  loose : l.Loose m

instance (config : Config) (m : Mode) (l : Line) : Decidable (l.Plain config m) :=
  decidable_of_iff
    (l.words ≠ [] ∧ m.inComment = false ∧ l.leads "//".toList = false ∧ l.leads "/*".toList = false ∧
      l.edit? config = none ∧ l.Loose m)
    ⟨fun ⟨a, b, c, d, e, f⟩ => ⟨a, b, c, d, e, f⟩, fun ⟨a, b, c, d, e, f⟩ => ⟨a, b, c, d, e, f⟩⟩

theorem scan_of_quiet {l : Line} {cursor : Cursor} (h : l.Quiet cursor.previous) :
    Scan.line l .outside cursor =
      { function := .outside
        cursor := { cursor with previous := l.read.getLast?.getD cursor.previous } } := by
  rw [Scan.line, decide_eq_false h.notInline, Scan.tokens_eq_steps]
  have steps : Scan.steps false l.text none none l.read { function := .outside, cursor } = _ :=
    Scan.steps_of_not_opens rfl rfl h.noCall
  rw [Option.or_none] at steps
  exact steps

theorem suppress_of_not_quiet {l : Line} {cursor : Cursor} (h : ¬l.Quiet cursor.previous) :
    (Scan.line l .outside cursor).suppress = true := by
  by_cases startsInline : l.word? 0 = some "inline".toList
  · exact (Scan.line_inline cursor startsInline).2
  · have call : Scan.opens cursor.previous none none l.read = true := by
      rw [← Bool.not_eq_false]
      exact fun noCall => h ⟨startsInline, noCall⟩
    rw [Scan.line, decide_eq_false startsInline, Scan.tokens_eq_steps]
    exact Scan.suppress_of_opens rfl rfl call

end Line

/-- What the next line can tell of the lines before, as long as no class and no function is open. -/
structure Place where
  mode : Mode := {}
  /-- The last word that was read in search of functions. -/
  previous : Text := []
  deriving DecidableEq, Repr

namespace Place

def withMode (p : Place) (g : Mode → Mode) : Place := { p with mode := g p.mode }

/-- No class and no function is open. -/
structure Clear (p : Place) : Prop where
  noClass : p.mode.classState = .none
  noFunction : p.mode.function = .outside

end Place

def State.place (s : State) : Place := ⟨s.mode, s.cursor.previous⟩

/-- The text holds a constant that would become a macro. -/
def Text.hasConstant (t : Text) : Bool := Pattern.constMember.occursIn t

/-- The text holds a virtual method. -/
def Text.hasMethod (t : Text) : Bool := Pattern.virtualMethod.occursIn t

/-- A line that a stage for types claims and leaves as it is, with the mode behind it and the enum
values that it records. -/
inductive KeptType (raw : Text) (m : Mode) : Mode → List Text → Prop
  | forward {keyword : Text} {d : TypeDeclaration}
      (known : keyword = "enum".toList ∨ keyword = "struct".toList)
      (opener : TypeDeclaration.ofWords? keyword (Line.cut raw).words = some d)
      (forward : d.brace = .forward) : KeptType raw m m []
  | bareEnum (same : raw = "enum\n".toList) :
      KeptType raw m { m with enumBody := some ⟨[], false⟩ } []
  | bareStruct (same : raw = "struct\n".toList) :
      KeptType raw m { m with structBody := some ⟨[], false⟩ } []
  | enumLine {d : TypeDeclaration} {e : EnumLine}
      (opener : TypeDeclaration.ofWords? "enum".toList (Line.cut raw).words = some d)
      (brace : d.brace = .sameLine) (line : EnumLine.ofTokens? (Line.cut raw).tokens = some e)
      (same : raw = e.text none d.name) :
      KeptType raw m { m with enumBody := none } (e.values none)
  | flatEnum (opener : (Line.cut raw).opensFlat "enum".toList = true) :
      KeptType raw m { m with enumBody := some (Line.cut raw).flatBody } []
  | flatStruct (opener : (Line.cut raw).opensFlat "struct".toList = true) :
      KeptType raw m { m with structBody := some (Line.cut raw).flatBody } []
  | closeEnum {b : TypeBody} (closer : (Line.cut raw).isTypeCloser = true)
      (enum : m.enumBody = some b) (same : b.flat = true ∨ raw = closerText b.name) :
      KeptType raw m { m with enumBody := none } []
  | closeStruct {b : TypeBody} (closer : (Line.cut raw).isTypeCloser = true)
      (noEnum : m.enumBody = none) (struct : m.structBody = some b)
      (same : b.flat = true ∨ raw = closerText b.name) :
      KeptType raw m { m with structBody := none } []

/-- A line that is copied from a place, with its next place and the enum values that it records. -/
inductive Kept (config : Config) (raw : Text) (p : Place) : Place → List Text → Prop
  | passed (passed : (Line.cut raw).Passed) : Kept config raw p p []
  | comment (unpassed : ¬(Line.cut raw).Passed)
      (inside : p.mode.inComment = true ∨ (Line.cut raw).leads "/*".toList = true) :
      Kept config raw p
        (p.withMode ({ · with inComment := !(Line.cut raw).endsComment })) []
  | type {m : Mode} {values : List Text} (outside : p.mode.inComment = false)
      (type : KeptType raw p.mode m values) : Kept config raw p (p.withMode fun _ => m) values
  | value (plain : (Line.cut raw).Plain config p.mode) (enum : p.mode.enumBody.isSome = true)
      (noConstant : raw.hasConstant = false)
      (noMethod : p.mode.structBody.isSome = true → raw.hasMethod = false) :
      Kept config raw p p (Line.cut raw).value?.toList
  | field (plain : (Line.cut raw).Plain config p.mode) (noEnum : p.mode.enumBody = none)
      (struct : p.mode.structBody.isSome = true) (noConstant : raw.hasConstant = false)
      (noMethod : raw.hasMethod = false) : Kept config raw p p []
  | loose (plain : (Line.cut raw).Plain config p.mode) (noEnum : p.mode.enumBody = none)
      (noStruct : p.mode.structBody = none) (quiet : (Line.cut raw).Quiet p.previous)
      (noConstant : raw.hasConstant = false) :
      Kept config raw p
        { p with previous := (Line.cut raw).read.getLast?.getD p.previous } []

theorem Kept.clear {config : Config} {raw : Text} {p q : Place} {values : List Text}
    (h : Kept config raw p q values) (clear : p.Clear) : q.Clear := by
  cases h with
  | passed | value | field => exact clear
  | comment | loose => exact ⟨clear.noClass, clear.noFunction⟩
  | type outside type => cases type <;> exact ⟨clear.noClass, clear.noFunction⟩

namespace Brings

variable {s : State}

theorem put_closed (c : Chunk) (closed : s.mode.classState = .none) :
    Brings { written := c.text } s (s.put c) := by
  rw [s.put_closed c (by rw [closed]; rfl)]
  exact .putDirect s c

theorem putAll_closed (cs : List Chunk) (closed : s.mode.classState = .none) :
    Brings { written := cs.flatMap Chunk.text } s (s.putAll cs) := by
  rw [s.putAll_closed cs (by rw [closed]; rfl)]
  exact ⟨rfl, List.flatMap_append .., (List.append_nil _).symm, rfl, rfl, (List.append_nil _).symm, rfl,
    rfl, rfl⟩

theorem withMode (s : State) (g : Mode → Mode) : Brings {} s (s.withMode g) := .of_account rfl

end Brings

namespace State

theorem cursor_put (s : State) (c : Chunk) : (s.put c).cursor = s.cursor := by
  unfold put
  split_ifs <;> rfl

theorem place_put (s : State) (c : Chunk) : (s.put c).place = s.place := by
  unfold place
  rw [mode_put, cursor_put]

theorem cursor_addValues (s : State) (names : List Text) : (s.addValues names).cursor = s.cursor := by
  induction names generalizing s with
  | nil => rfl
  | cons name names ih =>
    have one : (s.addValue name).cursor = s.cursor := by
      unfold addValue
      split_ifs <;> rfl
    exact (ih (s.addValue name)).trans one

theorem place_addValues (s : State) (names : List Text) : (s.addValues names).place = s.place := by
  unfold place
  rw [mode_addValues, cursor_addValues]

end State

namespace Conversion

variable {config : Config} {raw : Text} {s t : State}

theorem outdent_closed (config : Config) {m : Mode} (closed : m.classState = .none) (raw : Text) :
    config.outdent m raw = ([], raw) := by
  unfold Config.outdent
  rw [closed]
  rfl

theorem cut_closed {m : Mode} (closed : m.classState = .none) (fits : config.Fits raw) :
    (Line.ofText (config.outdent m raw).2).retokenize config.rules.maxTokens = .ok (.cut raw) := by
  unfold Config.Fits at fits
  rw [Line.words, List.length_map] at fits
  rw [outdent_closed config closed]
  exact Line.retokenize_ofText fits

theorem arrives_passed (closed : s.mode.classState = .none) (fits : config.Fits raw)
    (passed : (Line.cut raw).Passed) : Arrives config s.mode raw (.copied (.cut raw)) := by
  rcases passed with empty | slashes
  · exact .blank (cut_closed closed fits) ((Line.isEmpty_iff _).2 empty)
  · exact .comment (cut_closed closed fits) slashes

theorem arrives_plain (closed : s.mode.classState = .none) (fits : config.Fits raw)
    (plain : (Line.cut raw).Plain config s.mode) :
    Arrives config s.mode raw (.reached none (.cut raw)) :=
  .plain (cut_closed closed fits) (Bool.eq_false_iff.2 (mt (Line.isEmpty_iff _).1 plain.full))
    plain.outside plain.slashes plain.star plain.noEdit plain.loose

/-- Lines of a block comment are copied. -/
theorem leaves_passComments_block (slashes : s.line.leads "//".toList = false)
    (inside : s.mode.inComment = true ∨ s.line.leads "/*".toList = true) :
    Leaves passComments s true
      ((s.withMode ({ · with inComment := !s.line.endsComment })).put ⟨.copied, s.line.text⟩) := by
  have rest (u : State) (line : u.line = s.line) (comment : u.mode.inComment = true) : Leaves (do
      let s ← get
      if s.mode.inComment then
        if (s.line.lastWord?.getD []).reverse.take 2 = ['/', '*'] then
          modifyMode ({ · with inComment := false })
        emitLine
        return true
      return false) u true
      ((u.withMode ({ · with inComment := !s.line.endsComment })).put ⟨.copied, s.line.text⟩) := by
    refine .after_run rfl ?_
    rw [if_pos comment, ← line]
    cases ends : u.line.endsComment with
    | true =>
      rw [if_pos (of_decide_eq_true ends)]
      refine .after_run rfl ?_
      exact (leaves_emitLine _).then_pure fun _ => true
    | false =>
      have same : u.withMode ({ · with inComment := true }) = u := by
        unfold State.withMode
        rw [← comment]
      rw [if_neg (of_decide_eq_false ends), Bool.not_false, same]
      exact (leaves_emitLine u).then_pure fun _ => true
  unfold Line.leads at slashes inside
  unfold passComments
  refine .after_run rfl ?_
  rw [if_neg (ne_true_of_eq_false slashes)]
  by_cases star : "/*".toList.isPrefixOf ((s.line.word? 0).getD []) = true
  · rw [if_pos star]
    refine .after_run rfl ?_
    exact rest (s.withMode ({ · with inComment := true })) rfl rfl
  · rw [if_neg star]
    exact rest s rfl (inside.resolve_right star)

theorem leaves_openEnum_forward {d : TypeDeclaration}
    (h : TypeDeclaration.ofWords? "enum".toList s.line.words = some d) (forward : d.brace = .forward) :
    Leaves openEnum s true (s.put ⟨.copied, s.line.text⟩) := by
  unfold openEnum
  refine .after_run rfl ?_
  simp only [h, forward]
  exact (leaves_emitLine s).then_pure fun _ => true

theorem leaves_openStruct_forward {d : TypeDeclaration}
    (h : TypeDeclaration.ofWords? "struct".toList s.line.words = some d)
    (forward : d.brace = .forward) :
    Leaves openStruct s true (s.put ⟨.copied, s.line.text⟩) := by
  unfold openStruct
  refine .after_run rfl ?_
  simp only [h, forward, if_true]
  exact (leaves_emitLine s).then_pure fun _ => true

theorem leaves_trackTypes_struct {d : TypeDeclaration}
    (h : TypeDeclaration.ofWords? "struct".toList s.line.words = some d)
    (k : Leaves openStruct s true t) : Leaves trackTypes s true t := by
  obtain ⟨rest, words⟩ := TypeDeclaration.words_of_ofWords? h
  have noEnum : TypeDeclaration.ofWords? "enum".toList s.line.words = none :=
    TypeDeclaration.ofWords?_of_ne words (by decide)
  unfold Leaves trackTypes
  rw [run_firstClaim_unclaimed _ (run_openExternC (Line.not_externC words (by decide))),
    run_firstClaim_unclaimed _ (run_openEnum_unclaimed noEnum)]
  exact leaves_firstClaim k _

/-- The stages for openers leave a line that starts with `typedef` to the one for flat types. -/
theorem run_trackTypes_typedef {rest : List Text} (words : s.line.words = "typedef".toList :: rest) :
    trackTypes.run s = (firstClaim [openFlatType, closeType, closeExternC]).run s := by
  have none (keyword : Text) (ne : "typedef".toList ≠ keyword) :
      TypeDeclaration.ofWords? keyword s.line.words = none := TypeDeclaration.ofWords?_of_ne words ne
  unfold trackTypes
  rw [run_firstClaim_unclaimed _ (run_openExternC (Line.not_externC words (by decide))),
    run_firstClaim_unclaimed _ (run_openEnum_unclaimed (none _ (by decide))),
    run_firstClaim_unclaimed _ (run_openStruct_unclaimed (none _ (by decide))),
    run_firstClaim_unclaimed _ (run_openClass_unclaimed (none _ (by decide)))]

theorem leaves_trackTypes_flat {rest : List Text} (words : s.line.words = "typedef".toList :: rest)
    (k : Leaves openFlatType s true t) : Leaves trackTypes s true t := by
  unfold Leaves
  rw [run_trackTypes_typedef words]
  exact leaves_firstClaim k _

theorem words_of_opensFlat {l : Line} {keyword : Text} (h : l.opensFlat keyword = true) :
    ∃ rest, l.words = "typedef".toList :: rest := by
  obtain ⟨typedef, -, -⟩ := Line.opensFlat_iff.1 h
  rw [← List.head?_eq_getElem?] at typedef
  exact List.head?_eq_some_iff.1 typedef

/-- The first word of a line that a stage for types claims and leaves as it is. -/
theorem exists_words_of_keptType {m m' : Mode} {values : List Text} (h : KeptType raw m m' values) :
    ∃ w rest, (Line.cut raw).words = w :: rest ∧
      w ∈ ["enum".toList, "struct".toList, "typedef".toList, ['}']] := by
  cases h with
  | @forward keyword d known opener forward =>
    obtain ⟨rest, words⟩ := TypeDeclaration.words_of_ofWords? opener
    refine ⟨keyword, rest, words, ?_⟩
    rcases known with rfl | rfl <;> decide
  | bareEnum same =>
    subst same
    exact ⟨"enum".toList, [], by decide, by decide⟩
  | bareStruct same =>
    subst same
    exact ⟨"struct".toList, [], by decide, by decide⟩
  | enumLine opener =>
    obtain ⟨rest, words⟩ := TypeDeclaration.words_of_ofWords? opener
    exact ⟨_, rest, words, by decide⟩
  | flatEnum opener | flatStruct opener =>
    obtain ⟨rest, words⟩ := words_of_opensFlat opener
    exact ⟨_, rest, words, by decide⟩
  | closeEnum closer | closeStruct closer =>
    obtain ⟨rest, words⟩ := Line.words_of_isTypeCloser closer
    exact ⟨_, rest, words, by decide⟩

/-- The parts of a step that copies the line and records values. -/
structure Copies (raw : Text) (values : List Text) (p : Place) (s t : State) : Prop where
  place : t.place = p
  brings : Brings { written := raw, values } s t

theorem copies_put {c : Chunk} (closed : s.mode.classState = .none) (same : c.text = raw) :
    Copies raw [] s.place s (s.put c) := by
  subst same
  exact ⟨State.place_put s c, .put_closed c closed⟩

theorem Copies.after_mode {values : List Text} (g : Mode → Mode)
    (h : Copies raw values (s.withMode g).place (s.withMode g) t) :
    Copies raw values (s.place.withMode g) s t :=
  ⟨h.place, (Brings.withMode s g).trans h.brings⟩

theorem Copies.then_mode {values : List Text} {p : Place} (h : Copies raw values p s t)
    (g : Mode → Mode) : Copies raw values (p.withMode g) s (t.withMode g) := by
  have brings := h.brings.trans (.withMode t g)
  rw [Yield.append_empty] at brings
  refine ⟨?_, brings⟩
  rw [← h.place]
  rfl

theorem copies_closer {b : TypeBody} (closed : s.mode.classState = .none)
    (same : b.flat = true ∨ s.line.text = closerText b.name) :
    Copies s.line.text [] s.place s (s.put (closerChunk b s.line)) := by
  refine copies_put closed ?_
  unfold closerChunk
  split_ifs with flat
  · rfl
  · exact (same.resolve_left flat).symm

theorem copies_opener {keyword : Text} (closed : s.mode.classState = .none)
    (same : raw = keyword ++ "\n".toList) :
    Copies raw [] s.place s (s.putAll (openerChunks keyword ⟨[], .deferred⟩)) :=
  copies_put (c := ⟨.made, openerText keyword []⟩) closed same.symm

theorem copies_enumLine {d : TypeDeclaration} {e : EnumLine} (closed : s.mode.classState = .none)
    (same : raw = e.text none d.name) :
    Copies raw (e.values none) (s.place.withMode ({ · with enumBody := none })) s
      (enumLineState d.name e s) := by
  have noName : s.mode.classState.name? = none := by rw [closed]; rfl
  have recorded := Brings.addValues s (e.values none)
  have place := s.place_addValues (e.values none)
  have mode := s.mode_addValues (e.values none)
  rw [enumLineState, noName, ← same]
  generalize s.addValues (e.values none) = u at recorded place mode
  have outside : u.mode.classState = .none := by rw [mode, closed]
  rw [u.enterEnum_closed _ (by rw [outside]; decide)]
  have put := copies_put (s := u.withMode ({ · with enumBody := some ⟨d.name, true⟩ })) (c := ⟨.made, raw⟩)
    outside rfl
  have left := put.then_mode ({ · with enumBody := none })
  have brings := recorded.trans ((Brings.withMode u _).trans left.brings)
  simp only [Yield.append_eq, List.append_nil, List.nil_append, Nat.add_zero] at brings
  refine ⟨left.place.trans ?_, brings⟩
  rw [← place]
  rfl

/-- The stages for types copy such a line and lead to the mode behind it. -/
theorem leaves_trackTypes_kept {m : Mode} {values : List Text} (h : KeptType raw s.mode m values)
    (line : s.line = .cut raw) (closed : s.mode.classState = .none) (room : s.sink.room = none) :
    ∃ t, Leaves trackTypes s true t ∧ Copies raw values (s.place.withMode fun _ => m) s t := by
  have text : s.line.text = raw := by rw [line]; rfl
  have notOpen : ¬s.mode.classState.isOpen = true := by rw [closed]; decide
  have unbounded {x : Conversion Bool} {t : State} (h : Reaches x s true t) : Leaves x s true t :=
    .of_run (h.run_eq room)
  cases h with
  | @forward keyword d known opener forward =>
    rw [← line] at opener
    refine ⟨s.put ⟨.copied, s.line.text⟩, ?_, copies_put closed text⟩
    rcases known with rfl | rfl
    · exact leaves_trackTypes_enum opener (leaves_openEnum_forward opener forward)
    · exact leaves_trackTypes_struct opener (leaves_openStruct_forward opener forward)
  | bareEnum same =>
    have opener : TypeDeclaration.ofWords? "enum".toList s.line.words = some ⟨[], .deferred⟩ := by
      rw [line, same]
      decide
    have opens := reaches_openEnumBody_line opener (by decide) (by simp)
    rw [s.enterEnum_closed _ notOpen] at opens
    exact ⟨_, leaves_trackTypes_enum opener (unbounded opens),
      .after_mode ({ · with enumBody := some ⟨[], false⟩ }) (copies_opener closed same)⟩
  | bareStruct same =>
    have opener : TypeDeclaration.ofWords? "struct".toList s.line.words = some ⟨[], .deferred⟩ := by
      rw [line, same]
      decide
    exact ⟨_, leaves_trackTypes_struct opener (unbounded (reaches_openStruct opener (by decide))),
      (copies_opener closed same).then_mode ({ · with structBody := some ⟨[], false⟩ })⟩
  | @enumLine d e opener brace tokens same =>
    rw [← line] at opener tokens
    exact ⟨_, leaves_trackTypes_enum opener (unbounded (reaches_openEnum_line opener brace tokens)),
      copies_enumLine closed same⟩
  | flatEnum opener =>
    rw [← line] at opener
    obtain ⟨rest, words⟩ := words_of_opensFlat opener
    have opens := reaches_openFlatType_enum opener
    rw [s.enterEnum_closed _ notOpen] at opens
    rw [← line]
    exact ⟨_, leaves_trackTypes_flat words (unbounded opens),
      .after_mode ({ · with enumBody := some s.line.flatBody }) (copies_put closed text)⟩
  | flatStruct opener =>
    rw [← line] at opener
    obtain ⟨rest, words⟩ := words_of_opensFlat opener
    rw [← line]
    exact ⟨_, leaves_trackTypes_flat words (unbounded (reaches_openFlatType_struct opener)),
      .after_mode ({ · with structBody := some s.line.flatBody }) (copies_put closed text)⟩
  | @closeEnum b closer enum same =>
    rw [← line] at closer
    rw [← text] at same ⊢
    exact ⟨_, leaves_trackTypes_closer closer (unbounded (reaches_closeType_enum closer enum)),
      (copies_closer closed same).then_mode ({ · with enumBody := none })⟩
  | @closeStruct b closer noEnum struct same =>
    rw [← line] at closer
    rw [← text] at same ⊢
    exact ⟨_, leaves_trackTypes_closer closer (unbounded (reaches_closeType_struct closer noEnum struct)),
      .after_mode ({ · with structBody := none }) (copies_closer (s := s.leaveStruct) closed same)⟩

theorem run_trackFunctions_inStruct (h : s.mode.structBody.isSome = true) :
    (trackFunctions config).run s = .ok false s := by
  simp only [trackFunctions, EStateM.run_bind, EStateM.run_get, h, Bool.or_true, if_true]
  rfl

theorem run_defineConstants_none (h : s.line.text.hasConstant = false) :
    defineConstants.run s = .ok false s :=
  run_defineConstants_unclaimed (if_neg (ne_true_of_eq_false h))

theorem run_convertMethods_none (h : s.mode.structBody.isSome = true → s.line.text.hasMethod = false) :
    (convertMethods config).run s = .ok false s := by
  cases struct : s.mode.structBody with
  | none => exact run_convertMethods_unclaimed struct
  | some body =>
    have none : Pattern.virtualMethod.replace config.rules.methodTemplate s.line.text = none :=
      if_neg (ne_true_of_eq_false (h (by rw [struct]; rfl)))
    simp only [convertMethods, EStateM.run_bind, EStateM.run_get, struct, none, Option.isNone_some,
      Bool.false_eq_true, if_false]
    rfl

theorem run_liftMembers_closed (closed : s.mode.classState = .none) :
    liftMembers.run s = .ok false s := by
  simp only [liftMembers, EStateM.run_bind, EStateM.run_get, closed]
  rfl

/-- Outside classes the value of a line is recorded under its own name. -/
theorem run_recordEnumValue_closed (enum : s.mode.enumBody.isSome = true)
    (closed : s.mode.classState = .none) :
    (recordEnumValue config).run s = .ok false (s.addValues s.line.value?.toList) := by
  cases value : s.line.value? with
  | none => exact run_recordEnumValue_other value
  | some first =>
    have word : s.line.word? 0 = some first := (Option.filter_eq_some_iff.1 value).1
    have body : s.mode.enumBody.isNone = false := by
      rw [Option.isNone_eq_false_iff]
      exact enum
    unfold Line.value? at value
    unfold recordEnumValue
    rw [EStateM.run_bind, EStateM.run_get]
    simp only [body, value, closed, ClassState.name?, Bool.false_eq_true, if_false]
    exact run_recordFirstWord word

/-- A line that no late stage claims is copied. -/
theorem leaves_late_copied (unclaimed : (firstClaim [trackFunctions config, defineConstants,
      recordEnumValue config, convertMethods config, liftMembers]).run s = .ok false t) :
    Leaves (late config) s () (t.put ⟨.copied, t.line.text⟩) :=
  .after_run unclaimed (leaves_emitLine t)

theorem leaves_late_value (enum : s.mode.enumBody.isSome = true)
    (closed : s.mode.classState = .none) (noConstant : s.line.text.hasConstant = false)
    (noMethod : s.mode.structBody.isSome = true → s.line.text.hasMethod = false) :
    ∃ t, Leaves (late config) s () t ∧ Copies s.line.text s.line.value?.toList s.place s t := by
  have line := line_addValues s s.line.value?.toList
  have mode := s.mode_addValues s.line.value?.toList
  have place := s.place_addValues s.line.value?.toList
  have recorded := Brings.addValues s s.line.value?.toList
  have value : (recordEnumValue config).run s = _ := run_recordEnumValue_closed enum closed
  generalize s.addValues s.line.value?.toList = u at line mode place recorded value
  have methods : (convertMethods config).run u = .ok false u := by
    apply run_convertMethods_none
    rw [mode, line]
    exact noMethod
  have outside : u.mode.classState = .none := by rw [mode, closed]
  refine ⟨u.put ⟨.copied, u.line.text⟩, leaves_late_copied ?_, ?_⟩
  · rw [run_firstClaim_unclaimed _ (run_trackFunctions_inEnum enum),
      run_firstClaim_unclaimed _ (run_defineConstants_none noConstant),
      run_firstClaim_unclaimed _ value, run_firstClaim_unclaimed _ methods,
      run_firstClaim_unclaimed _ (run_liftMembers_closed outside)]
    rfl
  · have put : Copies s.line.text [] u.place u (u.put ⟨.copied, u.line.text⟩) :=
      copies_put outside (by rw [line])
    have brings := recorded.trans put.brings
    simp only [Yield.append_eq, List.append_nil, List.nil_append, Nat.add_zero] at brings
    exact ⟨put.place.trans place, brings⟩

theorem leaves_late_field (noEnum : s.mode.enumBody = none) (struct : s.mode.structBody.isSome = true)
    (closed : s.mode.classState = .none) (noConstant : s.line.text.hasConstant = false)
    (noMethod : s.line.text.hasMethod = false) :
    ∃ t, Leaves (late config) s () t ∧ Copies s.line.text [] s.place s t := by
  refine ⟨s.put ⟨.copied, s.line.text⟩, leaves_late_copied ?_, copies_put closed rfl⟩
  rw [run_firstClaim_unclaimed _ (run_trackFunctions_inStruct struct),
    run_firstClaim_unclaimed _ (run_defineConstants_none noConstant),
    run_firstClaim_unclaimed _ (run_recordEnumValue_unclaimed noEnum),
    run_firstClaim_unclaimed _ (run_convertMethods_none fun _ => noMethod),
    run_firstClaim_unclaimed _ (run_liftMembers_closed closed)]
  rfl

theorem leaves_late_loose (w : s.Watching) (clear : s.place.Clear)
    (quiet : s.line.Quiet s.cursor.previous) (noConstant : s.line.text.hasConstant = false) :
    ∃ t, Leaves (late config) s () t ∧ Copies s.line.text []
      { s.place with previous := s.line.read.getLast?.getD s.cursor.previous } s t := by
  have closed : s.mode.classState = .none := clear.noClass
  have outside : s.mode.function = .outside := clear.noFunction
  have scan := Line.scan_of_quiet quiet
  have followed : Brings {} s s.followOutside := .followOutside (by rw [scan])
  have place : s.followOutside.place =
      { s.place with previous := s.line.read.getLast?.getD s.cursor.previous } := by
    unfold State.followOutside State.place
    rw [scan, ← outside]
  have idle : (Scan.line s.line .outside s.cursor).suppress = false := by rw [scan]
  have noMember : liftMembers.run s.followOutside = _ := run_liftMembers_closed closed
  refine ⟨s.followOutside.put ⟨.copied, s.line.text⟩, leaves_late_copied ?_, ?_⟩
  · rw [run_lateStages_idle w outside idle (if_neg (ne_true_of_eq_false noConstant)),
      run_firstClaim_unclaimed _ noMember]
    rfl
  · have put := copies_put (s := s.followOutside) (c := ⟨.copied, s.line.text⟩) closed rfl
    exact ⟨put.place.trans place, followed.trans put.brings⟩

variable {q : Place} {values : List Text}

/-- A line that stays adds itself to the output. -/
theorem exists_kept (h : Kept config raw s.place q values) (clear : s.place.Clear)
    (fits : config.Fits raw) (room : s.sink.room = none) :
    ∃ t, (processLine config raw).run s = .ok () t ∧ t.place = q ∧
      Brings { written := raw, values, lines := 1 } s t := by
  have closed : s.mode.classState = .none := clear.noClass
  have cut := cut_closed closed fits
  generalize begun : s.arrive config raw (.copied (.cut raw)) = u
  have started : Brings { lines := 1 } s u := by
    rw [← begun]
    exact .arrive s config raw rfl
  have place : u.place = s.place := by
    rw [← begun]
    rfl
  have line : u.line = .cut raw := by
    rw [← begun]
    rfl
  have reached : s.arrive config raw (.reached none (.cut raw)) = u := by rw [← begun]; rfl
  have text : u.line.text = raw := by rw [line]; rfl
  have unbounded : u.sink.room = none := started.room.trans room
  have outside : u.mode.classState = .none := (congrArg (·.mode.classState) place).trans closed
  -- Each case gives the state behind the line, and what it copies.
  have done {t : State} (leaves : Leaves (processLine config raw) s () t)
      (copies : Copies raw values q u t) : ∃ t, (processLine config raw).run s = .ok () t ∧
      t.place = q ∧ Brings { written := raw, values, lines := 1 } s t := by
    have brings := started.trans copies.brings
    simp only [Yield.append_eq, List.append_nil, List.nil_append, Nat.add_zero] at brings
    exact ⟨t, leaves.run_eq (brings.room.trans room), copies.place, brings⟩
  cases h with
  | passed passed =>
    have leaves := leaves_copied (arrives_passed closed fits passed)
    rw [begun] at leaves
    exact done leaves (place ▸ copies_put outside rfl)
  | comment unpassed inside =>
    have full : (Line.cut raw).isEmpty = false :=
      Bool.eq_false_iff.2 fun empty => unpassed (.inl ((Line.isEmpty_iff _).1 empty))
    have slashes : (Line.cut raw).leads "//".toList = false :=
      Bool.eq_false_iff.2 fun leads => unpassed (.inr leads)
    have claimed := leaves_passComments_block (s := u) (by rw [line]; exact slashes) (by
      rw [line, show u.mode = s.mode from congrArg Place.mode place]
      exact inside)
    rw [← begun] at claimed
    have leaves := leaves_processLine cut
      (leaves_classify_full full ((leaves_firstClaim claimed _).claim rfl))
    rw [begun, line] at leaves
    refine done leaves ?_
    rw [← place]
    exact .after_mode ({ · with inComment := !(Line.cut raw).endsComment }) (copies_put outside rfl)
  | type notComment type =>
    obtain ⟨w, rest, words, keyword⟩ := exists_words_of_keptType type
    have first : ∀ w ∈ ["enum".toList, "struct".toList, "typedef".toList, ['}']],
        "//".toList.isPrefixOf w = false ∧ "/*".toList.isPrefixOf w = false ∧
          w ≠ "#define".toList := by decide
    obtain ⟨slashes, star, define⟩ := first w keyword
    have type' := type
    rw [← place] at type'
    obtain ⟨t, leaves, copies⟩ := leaves_trackTypes_kept type' line outside unbounded
    rw [place] at copies
    rw [← begun] at leaves
    exact done (leaves_types cut words notComment slashes star define leaves) copies
  | value plain enum noConstant noMethod =>
    have arrives := arrives_plain closed fits plain
    have mode : u.mode = s.mode := congrArg Place.mode place
    obtain ⟨t, leaves, copies⟩ : ∃ t, Leaves (late config) u () t ∧ _ :=
      leaves_late_value (by rw [mode]; exact enum) outside (by rw [text]; exact noConstant)
        (by rw [mode, text]; exact noMethod)
    rw [text, line, place] at copies
    exact done (leaves_reached arrives (reached ▸ leaves)) copies
  | field plain noEnum struct noConstant noMethod =>
    have arrives := arrives_plain closed fits plain
    have mode : u.mode = s.mode := congrArg Place.mode place
    obtain ⟨t, leaves, copies⟩ : ∃ t, Leaves (late config) u () t ∧ _ :=
      leaves_late_field (by rw [mode]; exact noEnum) (by rw [mode]; exact struct) outside
        (by rw [text]; exact noConstant) (by rw [text]; exact noMethod)
    rw [text, place] at copies
    exact done (leaves_reached arrives (reached ▸ leaves)) copies
  | loose plain noEnum noStruct quiet noConstant =>
    have arrives := arrives_plain closed fits plain
    have mode : u.mode = s.mode := congrArg Place.mode place
    have carried : u.cursor.previous = s.cursor.previous := congrArg Place.previous place
    obtain ⟨t, leaves, copies⟩ : ∃ t, Leaves (late config) u () t ∧ _ :=
      leaves_late_loose ⟨by rw [mode]; exact noEnum, by rw [mode]; exact noStruct⟩
        (by rw [place]; exact clear) (by rw [line, carried]; exact quiet)
        (by rw [text]; exact noConstant)
    rw [text, place, line, carried] at copies
    exact done (leaves_reached arrives (reached ▸ leaves)) copies

/-- Lines that are copied one after the other, each from the place that the one before leads to. -/
inductive KeptLines (config : Config) : List Text → Place → Place → List Text → Prop
  | nil (p : Place) : KeptLines config [] p p []
  | cons {raw : Text} {rest : List Text} {p q r : Place} {values more : List Text}
      (line : Kept config raw p q values) (fits : config.Fits raw)
      (others : KeptLines config rest q r more) : KeptLines config (raw :: rest) p r (values ++ more)

theorem KeptLines.append {xs ys : List Text} {p q r : Place} {values more : List Text}
    (h : KeptLines config xs p q values) (k : KeptLines config ys q r more) :
    KeptLines config (xs ++ ys) p r (values ++ more) := by
  induction h with
  | nil => exact k
  | cons line fits _ ih =>
    rw [List.append_assoc]
    exact .cons line fits (ih k)

theorem exists_keptLines {ls : List Text} (h : KeptLines config ls s.place q values)
    (clear : s.place.Clear) (room : s.sink.room = none) :
    ∃ t, Runs config ls s t ∧ t.place = q ∧ t.place.Clear ∧
      Brings { written := ls.flatten, values, lines := ls.length } s t := by
  generalize start : s.place = p at h clear
  induction h generalizing s with
  | nil => exact ⟨s, .nil s, start, start ▸ clear, .refl s⟩
  | @cons raw rest p q r values more line fits _ ih =>
    subst start
    obtain ⟨t, run, place, first⟩ := exists_kept line clear fits room
    obtain ⟨u, runs, last, clear', others⟩ := ih (first.room.trans room) place (line.clear clear)
    have brings := first.trans others
    simp only [Yield.append_eq, List.append_nil] at brings
    rw [List.flatten_cons, List.length_cons, Nat.add_comm]
    exact ⟨u, .cons run runs, last, clear', brings⟩

theorem Runs.runLines_eq {ls : List Text} (h : Runs config ls s t) : runLines config ls s = t := by
  induction h with
  | nil => rfl
  | cons line _ ih =>
    rw [runLines, stateAfter_of_run line]
    exact ih

/-- The report of lines that only add enum values. -/
def keptReport (ls values : List Text) : Report where
  lines := ls.length
  enumValues := (NameList.insertAll {} values).toList
  functions := []
  classes := []
  diagnostics := []

/-- What a text becomes when all its lines are converted and no class is open behind them. -/
theorem convertText_of_runs {x : Text} {y : Yield} (runs : Runs config x.lines {} t)
    (closed : t.mode.classState = .none) (brings : Brings y {} t) :
    convertText config x = .ok ⟨y.written, {
      lines := y.lines
      enumValues := (NameList.insertAll {} y.values).toList
      functions := y.functions
      classes := []
      diagnostics := [] }⟩ := by
  obtain ⟨text, -, -, report⟩ := brings.of_start
  unfold convertText convertLines
  rw [runs.processAll, run_finish_idle closed, Converted.ofResult, text, report]

/-- A text whose lines are all copied is left as it is. -/
theorem convertText_of_kept {x : Text} (h : KeptLines config x.lines {} q values) :
    convertText config x = .ok ⟨x, keptReport x.lines values⟩ ∧
      (runLines config x.lines {}).place = q := by
  obtain ⟨t, runs, place, clear, brings⟩ := exists_keptLines (s := {}) h ⟨rfl, rfl⟩ rfl
  rw [Text.flatten_lines] at brings
  exact ⟨convertText_of_runs runs clear.noClass brings, by rw [runs.runLines_eq, place]⟩

end Conversion

end HeaderFlattening
