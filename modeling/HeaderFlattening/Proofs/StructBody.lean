import HeaderFlattening.Proofs.Kept
import HeaderFlattening.Proofs.Methods

/-!
Structs with virtual methods. A struct is given by its items, and `StructSource.flat` says what becomes
of it: a type definition with the lines in their order, each method a pointer to a function and each
other line as it is.
-/

set_option autoImplicit false
namespace HeaderFlattening

namespace Line

/-- First words that make a line of a struct something else than a part of its body. -/
def bodyKeywords : List Text :=
  ["enum".toList, "struct".toList, "class".toList, "typedef".toList, "extern".toList,
    "#define".toList]

/-- A line of a struct that opens and closes nothing and holds no constant. -/
structure IsField (l : Line) : Prop where
  first : ∀ w ∈ bodyKeywords, l.word? 0 ≠ some w
  star : l.leads "/*".toList = false
  notCloser : l.isTypeCloser = false
  noConstant : l.text.hasConstant = false

instance (l : Line) : Decidable l.IsField :=
  decidable_of_iff
    ((∀ w ∈ bodyKeywords, l.word? 0 ≠ some w) ∧ l.leads "/*".toList = false ∧
      l.isTypeCloser = false ∧ l.text.hasConstant = false)
    ⟨fun ⟨a, b, c, d⟩ => ⟨a, b, c, d⟩, fun ⟨a, b, c, d⟩ => ⟨a, b, c, d⟩⟩

theorem IsField.plain {config : Config} {m : Mode} {l : Line} (h : l.IsField) (unpassed : ¬l.Passed)
    (outside : m.inComment = false) (noExternC : m.inExternC = false) : l.Plain config m := by
  have full : l.words ≠ [] := fun none => unpassed (.inl none)
  obtain ⟨w, ws, words⟩ := List.exists_cons_of_ne_nil full
  have ne : ∀ k ∈ bodyKeywords, w ≠ k := by
    intro k mem same
    refine h.first k mem ?_
    rw [word?, words, same]
    rfl
  have other (k : Text) (mem : k ∈ bodyKeywords) : TypeDeclaration.ofWords? k l.words = none :=
    TypeDeclaration.ofWords?_of_ne words (ne k mem)
  have slashes : l.leads "//".toList = false := Bool.eq_false_iff.2 fun leads => unpassed (.inr leads)
  refine ⟨full, outside, slashes, h.star, edit?_of_not_define config (h.first _ (by decide)), ?_⟩
  refine ⟨not_externC words (ne _ (by decide)), other _ (by decide), other _ (by decide),
    other _ (by decide), fun typedef => absurd typedef (h.first _ (by decide)), fun closer => ?_,
    fun _ => noExternC⟩
  exact absurd (h.notCloser.symm.trans closer) Bool.false_ne_true

end Line

/-- A line in the body of a struct. -/
inductive StructItem where
  /-- A virtual method with the text around it. -/
  | method (indent : Text) (m : VirtualMethod) (trail : Text)
  | other (raw : Text)

namespace StructItem

def line : StructItem → Text
  | method indent m trail => indent ++ m.before trail
  | other raw => raw

/-- The line has the form that the item stands for. -/
def Valid : StructItem → Prop
  | method indent m trail =>
    indent.all Text.isBlank = true ∧ m.Valid ∧ ';' ∉ trail ∧
      (indent ++ m.before trail).hasConstant = false
  | other raw => (Line.cut raw).Passed ∨ ((Line.cut raw).IsField ∧ raw.hasMethod = false)

instance : (item : StructItem) → Decidable item.Valid
  | method .. => inferInstanceAs (Decidable (_ ∧ _))
  | other _ => inferInstanceAs (Decidable (_ ∨ _))

/-- What the line becomes. -/
def flat (config : Config) : StructItem → Text
  | method indent m trail => indent ++ (m.expanded config.rules.methodTemplate ++ trail)
  | other raw => raw

end StructItem

/-- A struct: what stands between the keyword and the brace, the opening line, the line of the brace if
that is another one, the items of the body and the closing line. -/
structure StructSource where
  declspec : Option Text
  name : Option Text
  opener : Text
  brace : Option Text
  items : List StructItem
  closer : Text

namespace StructSource

def lines (c : StructSource) : List Text :=
  c.opener :: (c.brace.toList ++ (c.items.map StructItem.line ++ [c.closer]))

def openerWords (c : StructSource) : List Text :=
  "struct".toList ::
    ((match c.declspec with
      | none => []
      | some x => ["__declspec".toList, ['('], x, [')']])
    ++ (c.name.toList ++ if c.brace.isNone then [['{']] else []))

structure Valid (c : StructSource) : Prop where
  named : ∀ n ∈ c.name, n ≠ [] ∧ n ≠ ['{']
  opener : (Line.cut c.opener).words = c.openerWords
  brace : ∀ line ∈ c.brace, (Line.cut line).words = [['{']]
  items : ∀ item ∈ c.items, item.Valid
  closer : (Line.cut c.closer).isTypeCloser = true

instance (c : StructSource) : Decidable c.Valid :=
  decidable_of_iff
    ((∀ n ∈ c.name, n ≠ [] ∧ n ≠ ['{']) ∧ (Line.cut c.opener).words = c.openerWords ∧
      (∀ line ∈ c.brace, (Line.cut line).words = [['{']]) ∧ (∀ item ∈ c.items, item.Valid) ∧
      (Line.cut c.closer).isTypeCloser = true)
    ⟨fun ⟨a, b, c, d, e⟩ => ⟨a, b, c, d, e⟩, fun ⟨a, b, c, d, e⟩ => ⟨a, b, c, d, e⟩⟩

/-- The flat form of the struct. -/
def flat (config : Config) (c : StructSource) : Text :=
  (match c.name with
    | none => "struct\n".toList
    | some n => "typedef struct _".toList ++ n ++ "\n".toList)
  ++ c.brace.getD "\x7b\n".toList
  ++ c.items.flatMap (StructItem.flat config)
  ++ match c.name with
    | none => "\x7d;\n".toList
    | some n => "\x7d ".toList ++ n ++ ";\n".toList

/-- All lines between the opening line and the closing line. -/
def body (c : StructSource) : List StructItem := c.brace.toList.map .other ++ c.items

def declaration (c : StructSource) : TypeDeclaration :=
  ⟨c.name.getD [], if c.brace.isNone then .sameLine else .deferred⟩

/-- The mode in the body of the struct. -/
def inside (c : StructSource) : Mode := { structBody := some ⟨c.name.getD [], false⟩ }

theorem ofWords?_openerWords (c : StructSource) (named : ∀ n ∈ c.name, n ≠ [] ∧ n ≠ ['{']) :
    TypeDeclaration.ofWords? "struct".toList c.openerWords = some c.declaration := by
  have skip (rest : List Text) (short : rest.length ≤ 2) :
      TypeDeclaration.skipDeclspec rest = rest := by
    match rest, short with
    | [], _ | [_], _ | [_, _], _ => rfl
  have short : (c.name.toList ++ if c.brace.isNone then [['{']] else []).length ≤ 2 := by
    cases c.name <;> cases c.brace <;> simp
  have behind : TypeDeclaration.skipDeclspec c.openerWords.tail =
      c.name.toList ++ if c.brace.isNone then [['{']] else [] := by
    unfold openerWords
    cases c.declspec with
    | none => exact skip _ short
    | some x => simp [TypeDeclaration.skipDeclspec]
  rw [openerWords, List.tail_cons] at behind
  rw [openerWords, TypeDeclaration.ofWords?, if_pos rfl, behind, declaration]
  cases name : c.name with
  | none => cases c.brace <;> rfl
  | some n =>
    have ne := (named n name).2
    cases c.brace <;> simp [ne]

theorem lines_eq (c : StructSource) :
    c.lines = c.opener :: (c.body.map StructItem.line ++ [c.closer]) := by
  have brace (o : Option Text) : (o.toList.map StructItem.other).map StructItem.line = o.toList := by
    cases o <;> rfl
  rw [lines, body, List.map_append, brace, List.append_assoc]

theorem flat_eq (config : Config) (c : StructSource) (named : ∀ n ∈ c.name, n ≠ [] ∧ n ≠ ['{']) :
    c.flat config = (Conversion.openerChunks "struct".toList c.declaration).flatMap Chunk.text
      ++ c.body.flatMap (StructItem.flat config) ++ closerText (c.name.getD []) := by
  have brace : (c.brace.toList.map StructItem.other).flatMap (StructItem.flat config) =
      c.brace.getD [] := by
    cases c.brace with
    | none => rfl
    | some line => exact List.append_nil line
  have sameLine : (if c.declaration.brace = .sameLine then "\x7b\n".toList else []) ++ c.brace.getD [] =
      c.brace.getD "\x7b\n".toList := by
    unfold declaration
    cases c.brace <;> simp
  rw [flat, Conversion.text_openerChunks, body, List.flatMap_append, brace, ← sameLine]
  cases name : c.name with
  | none => simp [declaration, name, openerText, closerText]
  | some n => simp [declaration, name, openerText, closerText, (named n name).1]

end StructSource

theorem exists_words_method {indent : Text} (m : VirtualMethod) (trail : Text)
    (blanks : indent.all Text.isBlank = true) :
    ∃ rest, (Line.cut (indent ++ m.before trail)).words = "virtual".toList :: rest := by
  obtain ⟨rest, source⟩ : ∃ rest, m.before trail = "virtual".toList ++ ' ' :: rest := ⟨_, rfl⟩
  have first : Token.wordsOf (m.before trail) = "virtual".toList :: Token.wordsOf (' ' :: rest) := by
    rw [source]
    exact Token.wordsOf_inner (by decide) (by decide) (by decide : Token.isInner ' ' = false)
  exact ⟨_, (Token.wordsOf_blank_append blanks _).trans first⟩

theorem isField_method {indent trail : Text} {m : VirtualMethod}
    (blanks : indent.all Text.isBlank = true)
    (noConstant : (indent ++ m.before trail).hasConstant = false) :
    (Line.cut (indent ++ m.before trail)).IsField ∧ ¬(Line.cut (indent ++ m.before trail)).Passed := by
  obtain ⟨rest, words⟩ := exists_words_method m trail blanks
  have first : (Line.cut (indent ++ m.before trail)).word? 0 = some "virtual".toList := by
    rw [Line.word?, words]
    rfl
  have leads (mark : Text) (other : mark.isPrefixOf "virtual".toList = false) :
      (Line.cut (indent ++ m.before trail)).leads mark = false := by
    rw [Line.leads, first]
    exact other
  refine ⟨⟨?_, leads _ (by decide), Bool.eq_false_iff.2 fun closer => ?_, noConstant⟩, ?_⟩
  · rw [first]
    decide
  · obtain ⟨others, close⟩ := Line.words_of_isTypeCloser closer
    exact absurd (List.cons.inj (words.symm.trans close)).1 (by decide)
  · rintro (none | slashes)
    · exact List.cons_ne_nil _ _ (words.symm.trans none)
    · exact Bool.false_ne_true ((leads _ (by decide)).symm.trans slashes)

namespace Conversion

variable {config : Config} {raw : Text} {s t : State}

theorem leaves_late_method {x : Text} (noEnum : s.mode.enumBody = none)
    (struct : s.mode.structBody.isSome = true) (noConstant : s.line.text.hasConstant = false)
    (converts : Pattern.virtualMethod.replace config.rules.methodTemplate s.line.text = some x) :
    Leaves (late config) s () (s.put ⟨.made, x⟩) := by
  have claimed : Leaves (convertMethods config) s true (s.put ⟨.made, x⟩) := by
    have body : s.mode.structBody.isNone = false := Option.isNone_eq_false_iff.2 struct
    unfold convertMethods
    refine .after_run rfl ?_
    simp only [body, converts, Bool.false_eq_true, if_false]
    exact (leaves_emit .made x s).then_pure fun _ => true
  refine Leaves.claim ?_ rfl
  unfold Leaves
  rw [run_firstClaim_unclaimed _ (run_trackFunctions_inStruct struct),
    run_firstClaim_unclaimed _ (run_defineConstants_none noConstant),
    run_firstClaim_unclaimed _ (run_recordEnumValue_unclaimed noEnum)]
  exact leaves_firstClaim claimed _

/-- A line of a struct becomes what it should, and the struct stays open. -/
theorem exists_item {c : StructSource} {item : StructItem} (valid : item.Valid)
    (mode : s.mode = c.inside) (fits : config.Fits item.line) (room : s.sink.room = none) :
    ∃ t, (processLine config item.line).run s = .ok () t ∧ t.mode = c.inside ∧
      Brings { written := item.flat config, lines := 1 } s t := by
  have clear : s.place.Clear := by
    refine ⟨?_, ?_⟩
    · rw [State.place, mode]
      rfl
    · rw [State.place, mode]
      rfl
  cases item with
  | method indent m trail =>
    obtain ⟨blanks, method, single, noConstant⟩ := valid
    obtain ⟨field, unpassed⟩ := isField_method blanks noConstant
    have plain : (Line.cut (indent ++ m.before trail)).Plain config s.mode :=
      field.plain unpassed (by rw [mode]; rfl) (by rw [mode]; rfl)
    have arrives := arrives_plain clear.noClass fits plain
    have late := leaves_late_method
      (s := s.arrive config (indent ++ m.before trail) (.reached none (.cut (indent ++ m.before trail))))
      (by show s.mode.enumBody = none; rw [mode]; rfl)
      (by show s.mode.structBody.isSome = true; rw [mode]; rfl) noConstant
      (Pattern.replace_virtualMethod config.rules.methodTemplate blanks method single)
    have brings := (Brings.arrive s config (indent ++ m.before trail)
      (x := .reached none (.cut (indent ++ m.before trail))) rfl).trans
        (.put_closed ⟨.made, StructItem.flat config (.method indent m trail)⟩ clear.noClass)
    have leaves := leaves_reached arrives late
    exact ⟨_, leaves.run_eq (brings.room.trans room), (State.mode_put _ _).trans mode, brings⟩
  | other raw =>
    have kept : Kept config raw s.place s.place [] := by
      by_cases passed : (Line.cut raw).Passed
      · exact .passed passed
      · obtain ⟨field, noMethod⟩ := valid.resolve_left passed
        have plain : (Line.cut raw).Plain config s.mode :=
          field.plain passed (by rw [mode]; rfl) (by rw [mode]; rfl)
        exact .field plain (by show s.mode.enumBody = none; rw [mode]; rfl)
          (by show s.mode.structBody.isSome = true; rw [mode]; rfl) field.noConstant noMethod
    obtain ⟨t, run, place, brings⟩ := exists_kept kept clear fits room
    exact ⟨t, run, (congrArg Place.mode place).trans mode, brings⟩

theorem exists_items {c : StructSource} (items : List StructItem) (valid : ∀ item ∈ items, item.Valid)
    (mode : s.mode = c.inside) (fits : ∀ line ∈ items.map StructItem.line, config.Fits line)
    (room : s.sink.room = none) :
    ∃ t, Runs config (items.map StructItem.line) s t ∧ t.mode = c.inside ∧
      Brings { written := items.flatMap (StructItem.flat config), lines := items.length } s t := by
  induction items generalizing s with
  | nil => exact ⟨s, .nil s, mode, .refl s⟩
  | cons item items ih =>
    obtain ⟨t, run, inside, first⟩ := exists_item (valid item List.mem_cons_self) mode
      (fits item.line List.mem_cons_self) room
    obtain ⟨u, runs, inside', others⟩ := ih (fun other mem => valid other (List.mem_cons_of_mem item mem))
      inside (fun line mem => fits line (List.mem_cons_of_mem item.line mem)) (first.room.trans room)
    have brings := first.trans others
    simp only [Yield.append_eq, List.append_nil] at brings
    rw [List.flatMap_cons, List.length_cons, Nat.add_comm]
    exact ⟨u, .cons run runs, inside', brings⟩

/-- A line outside classes that a stage for types claims does just what the stage makes of it. -/
theorem exists_claimed {w : Text} {rest : List Text} {m : Mode} {z : Yield}
    (closed : s.mode.classState = .none) (outside : s.mode.inComment = false)
    (fits : config.Fits raw) (words : (Line.cut raw).words = w :: rest)
    (slashes : "//".toList.isPrefixOf w = false) (star : "/*".toList.isPrefixOf w = false)
    (define : w ≠ "#define".toList) (room : s.sink.room = none)
    (claims : ∀ u, u.mode = s.mode → u.line = .cut raw → u.sink.room = none →
      ∃ t, Leaves trackTypes u true t ∧ t.mode = m ∧ Brings z u t) :
    ∃ t, (processLine config raw).run s = .ok () t ∧ t.mode = m ∧ Brings ({ lines := 1 } ++ z) s t := by
  obtain ⟨t, claimed, mode, brings⟩ := claims (s.arrive config raw (.copied (.cut raw))) rfl rfl room
  have leaves := leaves_types (cut_closed closed fits) words outside slashes star define claimed
  exact ⟨t, leaves.run_eq (brings.room.trans room), mode, (Brings.arrive s config raw rfl).trans brings⟩

/-- The opening line of a struct at the top level. -/
theorem exists_opened_struct {d : TypeDeclaration} (mode : s.mode = {}) (fits : config.Fits raw)
    (opener : TypeDeclaration.ofWords? "struct".toList (Line.cut raw).words = some d)
    (body : d.brace ≠ .forward) (room : s.sink.room = none) :
    ∃ t, (processLine config raw).run s = .ok () t ∧
      t.mode = { structBody := some ⟨d.name, false⟩ } ∧
      Brings ({ lines := 1 } ++ { written := (openerChunks "struct".toList d).flatMap Chunk.text })
        s t := by
  obtain ⟨rest, words⟩ := TypeDeclaration.words_of_ofWords? opener
  refine exists_claimed (by rw [mode]) (by rw [mode]) fits words (by decide) (by decide) (by decide)
    room fun u same line room => ?_
  have default : u.mode = {} := same.trans mode
  rw [← line] at opener
  have claimed : Leaves trackTypes u true _ :=
    leaves_trackTypes_struct opener (.of_run ((reaches_openStruct opener body).run_eq room))
  refine ⟨_, claimed, ?_, ?_⟩
  · unfold State.enterStruct
    rw [State.mode_putAll, default]
  · have put := Brings.putAll_closed (s := u) (openerChunks "struct".toList d) (by rw [default])
    have entered : Brings {} (u.putAll (openerChunks "struct".toList d))
        ((u.putAll (openerChunks "struct".toList d)).enterStruct ⟨d.name, false⟩) := .of_account rfl
    have brings := put.trans entered
    rw [Yield.append_empty] at brings
    exact brings

/-- The closing line of a struct at the top level. -/
theorem exists_closed_struct {name : Text} (mode : s.mode = { structBody := some ⟨name, false⟩ })
    (fits : config.Fits raw) (closer : (Line.cut raw).isTypeCloser = true)
    (room : s.sink.room = none) :
    ∃ t, (processLine config raw).run s = .ok () t ∧ t.mode = {} ∧
      Brings ({ lines := 1 } ++ { written := closerText name }) s t := by
  obtain ⟨rest, words⟩ := Line.words_of_isTypeCloser closer
  refine exists_claimed (by rw [mode]) (by rw [mode]) fits words (by decide) (by decide) (by decide)
    room fun u same line room => ?_
  have inside : u.mode = { structBody := some ⟨name, false⟩ } := same.trans mode
  rw [← line] at closer
  have closes := reaches_closeType_struct closer (by rw [inside]) (by rw [inside])
  refine ⟨_, leaves_trackTypes_closer closer (.of_run (closes.run_eq room)), ?_, ?_⟩
  · rw [State.mode_put]
    unfold State.leaveStruct
    rw [inside]
  · have left : Brings {} u u.leaveStruct := .of_account rfl
    exact left.trans (.put_closed ⟨.made, closerText name⟩ (by unfold State.leaveStruct; rw [inside]))

/-- The line of the brace is one of the lines that stay. -/
theorem valid_brace {line : Text} (words : (Line.cut line).words = [['{']]) :
    (StructItem.other line).Valid := by
  have noEnd : ';' ∉ line := by
    intro mem
    have word := Token.mem_wordsOf_delimiter (by decide) mem
    rw [Token.wordsOf, show (Token.scan line).1.map Token.text = _ from words] at word
    exact absurd word (by decide)
  have first : (Line.cut line).word? 0 = some ['{'] := by
    rw [Line.word?, words]
    rfl
  have noConstant : line.hasConstant = false := by
    rw [Text.hasConstant, Pattern.occursIn, Pattern.hits_of_absent Pattern.constMember_semicolon noEnd]
    rfl
  have noMethod : line.hasMethod = false := by
    rw [Text.hasMethod, Pattern.occursIn, Pattern.hits_of_absent Pattern.virtualMethod_semicolon noEnd]
    rfl
  refine .inr ⟨⟨?_, ?_, ?_, noConstant⟩, noMethod⟩
  · rw [first]
    decide
  · rw [Line.leads, first]
    rfl
  · unfold Line.isTypeCloser
    rw [words]

/-- A struct is flattened as `StructSource.flat` says, whatever the settings and the items, and nothing
is open behind it. The default template makes a pointer to a function of a method. -/
theorem struct_flattened (config : Config) (c : StructSource) (t : Text) (lines : t.lines = c.lines)
    (valid : c.Valid) (fits : ∀ line ∈ t.lines, config.Fits line) :
    convertText config t = .ok ⟨c.flat config, {
      lines := t.lines.length
      enumValues := []
      functions := []
      classes := []
      diagnostics := [] }⟩ ∧
    (runLines config t.lines {}).mode = {} ∧
    ∀ m : VirtualMethod, m.expanded ({} : Rules).methodTemplate =
      m.result ++ " (*".toList ++ m.name ++ ")(".toList ++ m.params ++ ");".toList := by
  have fit : ∀ line ∈ c.opener :: (c.body.map StructItem.line ++ [c.closer]), config.Fits line := by
    rw [← c.lines_eq, ← lines]
    exact fits
  have opener : TypeDeclaration.ofWords? "struct".toList (Line.cut c.opener).words = some c.declaration := by
    rw [valid.opener]
    exact c.ofWords?_openerWords valid.named
  have braced : c.declaration.brace ≠ .forward := by
    unfold StructSource.declaration
    cases c.brace <;> nofun
  have items : ∀ item ∈ c.body, item.Valid := by
    intro item mem
    rcases List.mem_append.1 mem with brace | inner
    · obtain ⟨line, given, rfl⟩ := List.mem_map.1 brace
      exact valid_brace (valid.brace line (Option.mem_toList.1 given))
    · exact valid.items item inner
  obtain ⟨u, first, inside, opens⟩ := exists_opened_struct (s := {}) rfl (fit _ List.mem_cons_self)
    opener braced rfl
  obtain ⟨v, middle, inside', fills⟩ := exists_items (c := c) c.body items inside
    (fun line mem => fit line (List.mem_cons_of_mem _ (List.mem_append_left _ mem))) opens.room
  obtain ⟨w, last, outside, closes⟩ := exists_closed_struct inside'
    (fit _ (List.mem_cons_of_mem _ (List.mem_append_right _ List.mem_cons_self))) valid.closer
    (fills.room.trans opens.room)
  have runs : Runs config t.lines {} w := by
    rw [lines, c.lines_eq]
    exact .cons first (middle.append (.cons last (.nil w)))
  have brings := opens.trans (fills.trans closes)
  have converts := convertText_of_runs runs (by rw [outside]) brings
  refine ⟨?_, by rw [runs.runLines_eq, outside], VirtualMethod.expanded_default⟩
  have count : t.lines.length = 1 + (c.body.length + 1) := by
    rw [lines, c.lines_eq]
    simp only [List.length_cons, List.length_append, List.length_map, List.length_nil]
    omega
  simp only [Yield.append_eq, List.nil_append] at converts
  rw [converts, c.flat_eq config valid.named, count, List.append_assoc]
  rfl

/-- A struct with all kinds of lines. -/
def canvasStruct : StructSource where
  declspec := some "novtable".toList
  name := some "ICanvas".toList
  opener := "struct __declspec(novtable) ICanvas\n".toList
  brace := some "\x7b\n".toList
  items := [
    .other "    // painting\n".toList,
    .method "    ".toList ⟨"HRESULT".toList, some "WINAPI".toList, "Draw".toList, "INT x, INT y".toList, true⟩
      "\r\n".toList,
    .other "\n".toList,
    .method "\t".toList ⟨"void".toList, none, "Clear".toList, [], false⟩ " // all\n".toList,
    .other "    ULONG flags; \x7d\n".toList]
  closer := "\x7d Canvas;".toList

/-- Its flat form. -/
def flatCanvas : List String := [
  "typedef struct _ICanvas\n", "\x7b\n", "    // painting\n",
  "    HRESULT (*Draw)(INT x, INT y);\r\n", "\n", "\tvoid (*Clear)(); // all\n",
  "    ULONG flags; \x7d\n", "\x7d ICanvas;\n"]

theorem canvasStruct_flattened :
    let t : Text := canvasStruct.lines.flatten
    t.lines = canvasStruct.lines ∧ canvasStruct.Valid ∧ (∀ line ∈ t.lines, ({} : Config).Fits line) ∧
    convertText {} t = .ok ⟨flatCanvas.flatMap String.toList, ⟨8, [], [], [], []⟩⟩ := by
  intro t
  have lines : t.lines = canvasStruct.lines := by decide +kernel
  have valid : canvasStruct.Valid := by decide +kernel
  have fits : ∀ line ∈ t.lines, ({} : Config).Fits line := by decide +kernel
  have flat : canvasStruct.flat {} = flatCanvas.flatMap String.toList := by decide +kernel
  have count : t.lines.length = 8 := by
    rw [lines]
    decide
  have converts := (struct_flattened {} canvasStruct t lines valid fits).1
  rw [flat, count] at converts
  exact ⟨lines, valid, fits, converts⟩

end Conversion
end HeaderFlattening
