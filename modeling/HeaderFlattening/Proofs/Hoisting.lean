import HeaderFlattening.Proofs.Enumerators

/-!
Enums in the body of a class, however they are laid out. The values get the name of the class in front
and everything else stays as it was just if the layout lets the renaming find each name and nothing
else: on one line all names stand apart from the signs of their initializers and no comma in an
initializer precedes an identifier; on lines of their own the names stand apart and are alone on their
lines.
-/

set_option autoImplicit false
namespace HeaderFlattening

/-- The flat form of an enum that stands on one line, with this between its braces. -/
def enumText (name body : Text) : Text :=
  let braced := "\x7b".toList ++ body ++ "\x7d".toList
  if name.isEmpty then "enum ".toList ++ braced ++ ";\n".toList
  else
    "typedef enum _".toList ++ name ++ " ".toList ++ braced ++ " ".toList ++ name ++ ";\n".toList

theorem EnumLine.text_eq (e : EnumLine) (className : Option Text) (name : Text) :
    e.text className name = enumText name (e.body className) := rfl

theorem enumText_inj (name : Text) {body body' : Text} :
    enumText name body = enumText name body' ↔ body = body' := by
  refine ⟨fun same => ?_, fun same => by rw [same]⟩
  unfold enumText at same
  split_ifs at same
  · simpa only [List.append_assoc, List.append_cancel_left_eq, List.append_cancel_right_eq] using same
  · simpa only [List.append_assoc, List.append_cancel_left_eq, List.append_cancel_right_eq] using same

theorem exists_of_dropWhile {α : Type} {p : α → Bool} {xs rest : List α} {x : α}
    (h : xs.dropWhile p = x :: rest) : xs = xs.takeWhile p ++ x :: rest ∧ p x = false := by
  have parts := List.takeWhile_append_dropWhile (p := p) (l := xs)
  have stops := List.head?_dropWhile_not p xs
  rw [h] at parts stops
  exact ⟨parts.symm, stops⟩

namespace EnumLine

theorem text_ne_of_not_mem {c : Char} {t : Text} (h : c ∉ t) {u : Token}
    (mem : u ∈ (Token.scan t).1) : u.text ≠ [c] := by
  intro eq
  have word : [c] ∈ Token.wordsOf t := eq ▸ List.mem_map_of_mem mem
  exact h (Token.mem_of_mem_wordsOf word List.mem_cons_self)

/-- The body lies between the first braces, and the end of a declaration follows it. -/
theorem ofTokens?_eq_some_iff {ts : List Token} {e : EnumLine} :
    ofTokens? ts = some e ↔ ∃ head first tail,
      ts = head ++ first :: (e.inner ++ e.close :: tail) ∧ first.text = ['{'] ∧
        e.close.text = ['}'] ∧ (∀ u ∈ head, u.text ≠ ['{'] ∧ u.text ≠ ['}']) ∧
        (∀ u ∈ e.inner, u.text ≠ ['}']) ∧ isTail (tail.map Token.text) = true := by
  constructor
  · intro h
    unfold ofTokens? at h
    simp only at h
    split at h
    · cases h
    · rename_i noClose
      split at h
      · cases h
      · rename_i first rest opens
        split at h
        · cases h
        · rename_i close tail closes
          split at h
          · rename_i ends
            cases h
            obtain ⟨front, isOpen⟩ := exists_of_dropWhile opens
            obtain ⟨back, isClose⟩ := exists_of_dropWhile closes
            rw [Bool.not_eq_false', decide_eq_true_eq] at isOpen isClose
            refine ⟨ts.takeWhile (fun u => !decide (u.text = ['{'])), first, tail, ?_, isOpen,
              isClose, fun u mem => ⟨?_, fun eq => ?_⟩, fun u mem => ?_, ends⟩
            · rw [← back]
              exact front
            · simpa using List.mem_takeWhile_imp mem
            · exact noClose (List.any_eq_true.2 ⟨u, mem, decide_eq_true eq⟩)
            · simpa using List.mem_takeWhile_imp mem
          · cases h
  · rintro ⟨head, first, tail, rfl, isOpen, isClose, outside, inside, ends⟩
    have before : ∀ u ∈ head, (!decide (u.text = ['{'])) = true := fun u mem => by
      simpa using (outside u mem).1
    have within : ∀ u ∈ e.inner, (!decide (u.text = ['}'])) = true := fun u mem => by
      simpa using inside u mem
    have noClose : (head.any fun u => decide (u.text = ['}'])) = false := by
      rw [List.any_eq_false]
      intro u mem
      simpa using (outside u mem).2
    simp only [ofTokens?, List.takeWhile_append_of_pos before, List.dropWhile_append_of_pos before,
      List.takeWhile_append_of_pos within, List.dropWhile_append_of_pos within, List.takeWhile_cons,
      List.dropWhile_cons, isOpen, isClose, decide_true, Bool.not_true, Bool.false_eq_true, if_false,
      List.append_nil, noClose]
    exact if_pos ends

/-- The first braces of the line are those around the body. -/
theorem ofTokens?_braces {head body tail : Text} (noOpen : '{' ∉ head) (noClose : '}' ∉ head)
    (inside : '}' ∉ body) (ends : isTail (Token.wordsOf tail) = true) :
    ofTokens? (Token.scan (head ++ '{' :: (body ++ '}' :: tail))).1 =
      some ⟨(Token.scan body).1, ⟨(Token.scan body).2, ['}']⟩⟩ := by
  refine ofTokens?_eq_some_iff.2 ⟨(Token.scan head).1, ⟨(Token.scan head).2, ['{']⟩,
    (Token.scan tail).1, ?_, rfl, rfl,
    fun u mem => ⟨text_ne_of_not_mem noOpen mem, text_ne_of_not_mem noClose mem⟩,
    fun u mem => text_ne_of_not_mem inside mem, ends⟩
  rw [Token.scan_append_delimiter (by decide), Token.scan_append_delimiter (by decide)]

theorem ofTokens?_of_no_close {t : Text} (h : '}' ∉ t) : ofTokens? (Token.scan t).1 = none := by
  cases found : ofTokens? (Token.scan t).1 with
  | none => rfl
  | some e =>
    obtain ⟨head, first, tail, tokens, -, isClose, -⟩ := ofTokens?_eq_some_iff.1 found
    have mem : e.close ∈ (Token.scan t).1 := by
      rw [tokens]
      exact List.mem_append_right _ (List.mem_cons_of_mem _
        (List.mem_append_right _ List.mem_cons_self))
    exact absurd isClose (text_ne_of_not_mem h mem)

end EnumLine

/-- The declaration of an enum: all on one line, or lines of enumerators between an opening brace at
the end of the first line or on a line of its own and a closing line. -/
inductive EnumLayout where
  | oneLine (name head : Text) (row : EnumRow) (tail : Text)
  | spread (name opener : Text) (brace : Option Text) (rows : List EnumRow) (closer : Text)
  deriving DecidableEq, Repr

namespace EnumLayout

def lines : EnumLayout → List Text
  | .oneLine _ head row tail => [head ++ '{' :: (row.text ++ '}' :: tail)]
  | .spread _ opener brace rows closer =>
    opener :: (brace.toList ++ (rows.map EnumRow.text ++ [closer]))

def values : EnumLayout → List Enumerator
  | .oneLine _ _ row _ => row.values
  | .spread _ _ _ rows _ => rows.flatMap EnumRow.values

/-- Where the opening brace of such lines is. -/
def placement (brace : Option Text) : BracePlacement :=
  if brace.isSome then .deferred else .sameLine

theorem placement_ne_forward (brace : Option Text) : placement brace ≠ .forward := by
  unfold placement
  split_ifs
  · exact BracePlacement.noConfusion
  · exact BracePlacement.noConfusion

/-- The lines declare an enum with this name in a recognised form. Behind a brace at the end of the
first line nothing follows. -/
def Valid : EnumLayout → Prop
  | .oneLine name head row tail =>
    ('{' ∉ head ∧ '}' ∉ head) ∧ row.Valid ∧ EnumLine.isTail (Token.wordsOf tail) = true ∧
      TypeDeclaration.ofWords? "enum".toList
        (Token.wordsOf (head ++ '{' :: (row.text ++ '}' :: tail))) = some ⟨name, .sameLine⟩
  | .spread name opener brace rows closer =>
    (TypeDeclaration.ofWords? "enum".toList (Token.wordsOf opener) = some ⟨name, placement brace⟩ ∧
        '}' ∉ opener ∧ (brace = none → (Token.wordsOf opener).getLast? = some ['{'])) ∧
      (∀ b, brace = some b → Token.wordsOf b = [['{']]) ∧ (∀ r ∈ rows, r.Valid) ∧
      (Line.cut closer).isTypeCloser = true

/-- The flat form with this for the text between braces and for the lines of a body. -/
def render (config : Config) (between line : EnumRow → Text) : EnumLayout → List Chunk
  | .oneLine name _ row _ => [⟨.made, enumText name (between row)⟩]
  | .spread name _ brace rows _ =>
    Conversion.openerChunks "enum".toList ⟨name, placement brace⟩ ++
      (brace.toList.map (fun b => ⟨.copied, config.cutIndent b⟩) ++
        (rows.map (fun r => ⟨.copied, line r⟩) ++ [⟨.made, closerText name⟩]))

/-- The flat form in a class with its values hoisted: each has the name of the class in front, and its
initializer is what it was. -/
def hoisted (config : Config) (className : Text) : EnumLayout → List Chunk :=
  render config (EnumRow.hoisted className) fun r => config.cutIndent (r.hoisted className)

/-- The flat form that comes out. -/
def emitted (config : Config) (className : Text) : EnumLayout → List Chunk :=
  render config (fun r => EnumLine.hoist className r.text) fun r =>
    valueText className (config.cutIndent r.text)

/-- The values that are recorded. -/
def recorded (className : Text) : EnumLayout → List Text
  | .oneLine _ _ row _ => EnumLine.hoistNames className row.text
  | .spread _ _ _ rows _ => rows.flatMap fun r => valueNames className (Token.wordsOf r.text)

/-- All names are found and nothing else is taken for one. -/
def Found : EnumLayout → Prop
  | .oneLine _ _ row _ => ∀ e ∈ row.values, e.Found
  | .spread _ _ _ rows _ => ∀ r ∈ rows, r.Alone

variable {layout : EnumLayout} {className : Text}

theorem emitted_eq_iff (config : Config) (valid : layout.Valid)
    (named : className.isIdentifier = true) :
    layout.emitted config className = layout.hoisted config className ↔ layout.Found := by
  cases layout with
  | oneLine name head row tail =>
    rw [emitted, hoisted, render, render, List.singleton_inj, Chunk.mk.injEq, enumText_inj]
    exact (and_iff_right rfl).trans (valid.2.1.hoist_eq_iff named)
  | spread name opener brace rows closer =>
    rw [emitted, hoisted, render, render, List.append_cancel_left_eq, List.append_cancel_left_eq,
      List.append_cancel_right_eq, List.map_inj_left]
    refine forall₂_congr fun r mem => ?_
    rw [Chunk.mk.injEq, ← (valid.2.2.1 r mem).valueText_eq_iff config named, and_iff_right rfl]

theorem recorded_eq (valid : layout.Valid) (found : layout.Found) (className : Text) :
    layout.recorded className = layout.values.map (Enumerator.value className) := by
  cases layout with
  | oneLine name head row tail =>
    exact valid.2.1.hoistNames_eq found className
  | spread name opener brace rows closer =>
    rw [recorded, values, List.map_flatMap]
    refine List.flatMap_congr fun r mem => ?_
    have alone := found r mem
    rw [(valid.2.2.1 r mem).valueNames_eq alone, EnumRow.values, alone.others]
    rfl

end EnumLayout

/-- What `t` has emitted and recorded more than `s`. -/
structure Adds (chunks : List Chunk) (values : List Text) (s t : State) : Prop where
  sink : t.sink = s.sink
  emitted : t.emitted = s.emitted ++ chunks
  values : t.enumValues = s.enumValues.insertAll values

namespace Adds

variable {s t u : State} {chunks chunks' : List Chunk} {values values' : List Text}

theorem trans (h : Adds chunks values s t) (k : Adds chunks' values' t u) :
    Adds (chunks ++ chunks') (values ++ values') s u where
  sink := k.sink.trans h.sink
  emitted := by rw [k.emitted, h.emitted, List.append_assoc]
  values := by
    rw [k.values, h.values]
    exact (List.foldl_append ..).symm

theorem unchanged (sink : t.sink = s.sink) (emitted : t.emitted = s.emitted)
    (values : t.enumValues = s.enumValues) : Adds [] [] s t :=
  ⟨sink, emitted.trans (List.append_nil _).symm, values⟩

theorem putAll (cs : List Chunk) (opened : s.mode.classState.isOpen = true) :
    Adds cs [] s (s.putAll cs) := by
  cases enum : s.mode.enumBody.isSome with
  | true =>
    rw [State.putAll_open_enum cs opened enum]
    exact ⟨rfl, rfl, rfl⟩
  | false =>
    rw [State.putAll_open_member cs opened enum]
    exact ⟨rfl, rfl, rfl⟩

theorem put (c : Chunk) (opened : s.mode.classState.isOpen = true) : Adds [c] [] s (s.put c) :=
  putAll [c] opened

theorem addValues (s : State) (names : List Text) : Adds [] names s (s.addValues names) := by
  have brought := Brings.addValues s names
  refine ⟨s.sink_addValues names, ?_, brought.values⟩
  rw [List.append_nil]
  induction names generalizing s with
  | nil => rfl
  | cons name names ih =>
    have one : (s.addValue name).emitted = s.emitted := by
      unfold State.addValue
      split_ifs <;> rfl
    exact (ih (s.addValue name) (Brings.addValues _ names)).trans one

theorem enterEnum (s : State) (body : TypeBody) : Adds [] [] s (s.enterEnum body) := by
  unfold State.enterEnum
  split_ifs
  · exact .unchanged rfl rfl rfl
  · exact .unchanged rfl rfl rfl

theorem leaveEnum (s : State) : Adds [] [] s s.leaveEnum := .unchanged rfl rfl rfl

theorem arrive (s : State) (config : Config) (raw : Text) (x : Seen) :
    Adds [] [] s (s.arrive config raw x) := .unchanged rfl rfl rfl

end Adds

namespace Conversion

variable {config : Config} {m m' m'' : Mode} {name raw : Text} {chunks chunks' : List Chunk}
  {values values' : List Text} {s : State}

/-- The lines lead from one mode to another, emit these texts and record these values. -/
def Emits (config : Config) (lines : List Text) (m m' : Mode) (chunks : List Chunk)
    (values : List Text) : Prop :=
  ∀ s, s.mode = m → s.sink.hasAll = true →
    ∃ t, Runs config lines s t ∧ t.mode = m' ∧ Adds chunks values s t

theorem Emits.append {xs ys : List Text} (h : Emits config xs m m' chunks values)
    (k : Emits config ys m' m'' chunks' values') :
    Emits config (xs ++ ys) m m'' (chunks ++ chunks') (values ++ values') := by
  intro s mode kept
  obtain ⟨t, runs, mode', adds⟩ := h s mode kept
  obtain ⟨u, others, mode'', more⟩ := k t mode' (by rw [adds.sink]; exact kept)
  exact ⟨u, runs.append others, mode'', adds.trans more⟩

theorem emits_nil : Emits config [] m m [] [] := by
  intro s mode _
  exact ⟨s, .nil s, mode, .unchanged rfl rfl rfl⟩

/-- One line, by the state that it leaves. -/
theorem emits_line (h : ∀ s, s.mode = m → ∃ t,
    Leaves (processLine config raw) s () t ∧ t.mode = m' ∧ Adds chunks values s t) :
    Emits config [raw] m m' chunks values := by
  intro s mode kept
  obtain ⟨t, leaves, mode', adds⟩ := h s mode
  rw [← adds.sink] at kept
  exact ⟨t, .cons (leaves.run_of_kept kept) (.nil t), mode', adds⟩

theorem adds_enumLineState (enumName : Text) (e : EnumLine) (h : s.mode.InClass name) :
    Adds [⟨.made, e.text (some name) enumName⟩] (e.values (some name)) s
      (enumLineState enumName e s) := by
  have className : s.mode.classState.name? = some name := by
    rw [h.opened]
    rfl
  have recorded := (Adds.addValues s (e.values (some name))).trans (.enterEnum _ ⟨enumName, true⟩)
  have opened : ((s.addValues (e.values (some name))).enterEnum
      ⟨enumName, true⟩).mode.classState.isOpen = true := by
    rw [State.mode_enterEnum, State.mode_addValues]
    exact h.isOpen
  have put := recorded.trans (.put ⟨.made, e.text (some name) enumName⟩ opened)
  have adds := put.trans (.leaveEnum _)
  simp only [List.append_nil, List.nil_append] at adds
  rw [enumLineState, className]
  exact adds

theorem emits_enumLine {d : TypeDeclaration} {e : EnumLine} (h : m.InClass name)
    (noEnum : m.enumBody = none) (fits : config.Fits raw)
    (opener : TypeDeclaration.ofWords? "enum".toList (Line.cut raw).words = some d)
    (brace : d.brace = .sameLine) (line : EnumLine.ofTokens? (Line.cut raw).tokens = some e) :
    Emits config [raw] m m [⟨.made, e.text (some name) d.name⟩] (e.values (some name)) := by
  apply emits_line
  intro s mode
  subst mode
  have arrived := Adds.arrive s config raw (.copied (.cut (config.cutIndent raw)))
  have adds := adds_enumLineState d.name e
    (s := s.arrive config raw (.copied (.cut (config.cutIndent raw)))) h
  refine ⟨_, leaves_enumLine h fits opener brace line, ?_, arrived.trans adds⟩
  rw [mode_enumLineState, ← noEnum]
  rfl

theorem emits_opener {d : TypeDeclaration} (h : m.InClass name) (fits : config.Fits raw)
    (opener : TypeDeclaration.ofWords? "enum".toList (Line.cut raw).words = some d)
    (body : d.brace ≠ .forward)
    (open' : d.brace = .sameLine → EnumLine.ofTokens? (Line.cut raw).tokens = none) :
    Emits config [raw] m { m with enumBody := some ⟨d.name, false⟩ } (openerChunks "enum".toList d)
      [] := by
  apply emits_line
  intro s mode
  subst mode
  have arrived := Adds.arrive s config raw (.copied (.cut (config.cutIndent raw)))
  have entered := arrived.trans (.enterEnum _ ⟨d.name, false⟩)
  have inside := State.mode_enterEnum
    (s.arrive config raw (.copied (.cut (config.cutIndent raw)))) ⟨d.name, false⟩
  have adds := entered.trans (.putAll (openerChunks "enum".toList d) (by rw [inside]; exact h.isOpen))
  exact ⟨_, leaves_enumOpener h fits opener body open', (State.mode_putAll _ _).trans inside, adds⟩

theorem emits_closer {body : TypeBody} (h : m.InClass name) (enum : m.enumBody = some body)
    (made : body.flat = false) (fits : config.Fits raw)
    (closer : (Line.cut raw).isTypeCloser = true) :
    Emits config [raw] m { m with enumBody := none } [⟨.made, closerText body.name⟩] [] := by
  apply emits_line
  intro s mode
  subst mode
  have arrived := Adds.arrive s config raw (.copied (.cut (config.cutIndent raw)))
  have adds := (arrived.trans (.put ⟨.made, closerText body.name⟩ h.isOpen)).trans (.leaveEnum _)
  refine ⟨_, leaves_enumCloser h enum made fits closer, ?_, adds⟩
  show ({ (State.put _ _).mode with enumBody := none } : Mode) = _
  rw [State.mode_put]
  rfl

theorem adds_renamed (s : State) (className : Text) :
    Adds [] (valueNames className s.line.words) s (renamed s className) := by
  have relined (l : Line) : Adds [] [] s { s with line := l } := .unchanged rfl rfl rfl
  exact (relined _).trans (.addValues _ _)

/-- A line of an enum body is copied with its value renamed. -/
theorem emits_values (h : m.InClass name) (enum : m.enumBody.isSome = true)
    (named : name.isIdentifier = true) (fits : config.Fits raw) (values : (Line.cut raw).IsValues m) :
    Emits config [raw] m m [⟨.copied, valueText name (config.cutIndent raw)⟩]
      (valueNames name (Token.wordsOf raw)) := by
  apply emits_line
  intro s mode
  subst mode
  let u := s.arrive config raw (.reached none (.cut (config.cutIndent raw)))
  have names : valueNames name u.line.words = valueNames name (Token.wordsOf raw) :=
    congrArg (valueNames name) (words_cutIndent config raw)
  have mode : (renamed u name).mode = s.mode := mode_renamed u name
  have adds := ((Adds.arrive s config raw _).trans (adds_renamed u name)).trans
    (.put ⟨.copied, valueText name (config.cutIndent raw)⟩ (by rw [mode]; exact h.isOpen))
  simp only [List.append_nil, List.nil_append, names] at adds
  exact ⟨_, leaves_values h enum named fits values, (State.mode_put _ _).trans mode, adds⟩

theorem emits_brace (h : m.InClass name) (enum : m.enumBody.isSome = true)
    (named : name.isIdentifier = true) (fits : config.Fits raw)
    (brace : Token.wordsOf raw = [['{']]) :
    Emits config [raw] m m [⟨.copied, config.cutIndent raw⟩] [] := by
  have words : (Line.cut raw).words = [['{']] := brace
  have plain : (Line.cut ['{']).IsValues m := by
    have unclaimed : (Line.cut ['{']).Unclaimed .strict := by decide
    exact ⟨unclaimed.anywhere m, by decide, by decide⟩
  have emits := emits_values h enum named fits (plain.congr words)
  have same : valueText name (config.cutIndent raw) = config.cutIndent raw := by
    have seen : Token.wordsOf (config.cutIndent raw) = [['{']] :=
      (words_cutIndent config raw).trans words
    exact valueText_of_word seen (by decide)
  rw [same, brace] at emits
  exact emits

theorem emits_rows (h : m.InClass name) (enum : m.enumBody.isSome = true)
    (named : name.isIdentifier = true) {rows : List EnumRow} (valid : ∀ r ∈ rows, r.Valid)
    (fits : ∀ r ∈ rows, config.Fits r.text) :
    Emits config (rows.map EnumRow.text) m m
      (rows.map fun r => ⟨.copied, valueText name (config.cutIndent r.text)⟩)
      (rows.flatMap fun r => valueNames name (Token.wordsOf r.text)) := by
  induction rows with
  | nil => exact emits_nil
  | cons r rows ih =>
    have first := emits_values h enum named (fits r List.mem_cons_self)
      ((valid r List.mem_cons_self).isValues m)
    exact first.append (ih (fun r mem => valid r (List.mem_cons_of_mem _ mem))
      fun r mem => fits r (List.mem_cons_of_mem _ mem))

theorem emits_layout {layout : EnumLayout} (h : m.InClass name) (noEnum : m.enumBody = none)
    (named : name.isIdentifier = true) (valid : layout.Valid)
    (fits : ∀ raw ∈ layout.lines, config.Fits raw) :
    Emits config layout.lines m m (layout.emitted config name) (layout.recorded name) := by
  cases layout with
  | oneLine enumName head row tail =>
    obtain ⟨⟨noOpen, noClose⟩, row', ends, opener⟩ := valid
    have line := EnumLine.ofTokens?_braces noOpen noClose (row'.not_mem_text (.inr (.inr rfl))) ends
    have emits := emits_enumLine h noEnum (fits _ List.mem_cons_self) opener rfl line
    rw [EnumLine.text_eq] at emits
    exact emits
  | spread enumName opener brace rows closer =>
    obtain ⟨⟨opens, noClose, -⟩, braces, rows', closes⟩ := valid
    simp only [EnumLayout.lines, List.forall_mem_cons, List.forall_mem_append, List.forall_mem_map]
      at fits
    obtain ⟨fitsOpener, fitsBrace, fitsRows, fitsCloser, -⟩ := fits
    let inside : Mode := { m with enumBody := some ⟨enumName, false⟩ }
    have inEnum : inside.InClass name := ⟨h.opened, h.comment, h.struct⟩
    have first := emits_opener h fitsOpener opens (EnumLayout.placement_ne_forward brace) fun _ =>
      EnumLine.ofTokens?_of_no_close noClose
    have second : Emits config brace.toList inside inside
        (brace.toList.map fun b => ⟨.copied, config.cutIndent b⟩) [] := by
      cases brace with
      | none => exact emits_nil
      | some b => exact emits_brace inEnum rfl named (fitsBrace b List.mem_cons_self) (braces b rfl)
    have third := emits_rows inEnum rfl named rows' fitsRows
    have last := emits_closer inEnum rfl rfl fitsCloser closes
    have closed : ({ inside with enumBody := none } : Mode) = m := by
      show ({ m with enumBody := none } : Mode) = m
      rw [← noEnum]
    have all := first.append (second.append (third.append last))
    rw [closed, List.append_nil] at all
    exact all

/-- An enum in an open class, in any layout. Its text comes out with the name of the class in front of
each value and nothing else changed, and these are the values recorded, just if all names are found
and nothing else is taken for one. -/
theorem hoisted_iff_found (config : Config) {className : Text} (h : s.mode.InClass className)
    (noEnum : s.mode.enumBody = none) (kept : s.sink.hasAll = true)
    (named : className.isIdentifier = true) {layout : EnumLayout} (valid : layout.Valid)
    (fits : ∀ raw ∈ layout.lines, config.Fits raw) :
    ∃ t, Runs config layout.lines s t ∧ t.mode = s.mode ∧
      ((t.emitted = s.emitted ++ layout.hoisted config className ∧
          t.enumValues = s.enumValues.insertAll (layout.values.map (Enumerator.value className))) ↔
        layout.Found) := by
  obtain ⟨t, runs, mode, adds⟩ := emits_layout h noEnum named valid fits s rfl kept
  refine ⟨t, runs, mode, ?_⟩
  rw [← layout.emitted_eq_iff config valid named, adds.emitted, adds.values,
    List.append_cancel_left_eq]
  refine ⟨fun both => both.1, fun same => ⟨same, ?_⟩⟩
  rw [EnumLayout.recorded_eq valid ((layout.emitted_eq_iff config valid named).1 same)]

/-- An enum with two values on one line of its body. -/
def sharedLine : EnumLayout :=
  .spread ['E'] "    enum E\n".toList (some "    \x7b\n".toList)
    [⟨none, ⟨"        ".toList, ['A'], []⟩, [⟨[' '], ['B'], ['\n']⟩], none⟩] "    \x7d;\n".toList

/-- The second value keeps its name. -/
theorem sharedLine_not_hoisted :
    let s := runLines {} ["class Foo \x7b\n".toList] {}
    ∃ t, Runs {} sharedLine.lines s t ∧ t.mode = s.mode ∧
      ¬(t.emitted = s.emitted ++ sharedLine.hoisted {} "Foo".toList ∧
        t.enumValues =
          s.enumValues.insertAll (sharedLine.values.map (Enumerator.value "Foo".toList))) := by
  intro s
  have opened : s.mode.InClass "Foo".toList := ⟨rfl, rfl, rfl⟩
  have row : (EnumRow.mk none ⟨"        ".toList, ['A'], []⟩
      [⟨[' '], ['B'], ['\n']⟩] none).Valid :=
    ⟨(fun _ none => nomatch none), by decide, (fun _ none => nomatch none)⟩
  have valid : sharedLine.Valid := by
    refine ⟨⟨by decide, by decide, fun none => nomatch none⟩, ?_, ?_, by decide⟩
    · intro b some
      cases some
      decide
    · intro r mem
      rw [List.mem_singleton.1 mem]
      exact row
  obtain ⟨t, runs, mode, hoisted⟩ :=
    hoisted_iff_found {} opened rfl rfl (by decide) valid (by decide)
  refine ⟨t, runs, mode, fun both => ?_⟩
  have alone := (hoisted.1 both _ List.mem_cons_self).others
  cases alone

end Conversion
end HeaderFlattening
