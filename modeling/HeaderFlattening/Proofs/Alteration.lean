import HeaderFlattening.Proofs.Divergence
import HeaderFlattening.Proofs.Overflow

/-!
What becomes of a single line with the default settings while no class and no function is open. Unless
it opens or closes an `extern "C"` block, it is kept, or the output goes on with something else than
the line: a stage has claimed it and written a line of its own, or has rewritten a part of it.
-/

set_option autoImplicit false
namespace HeaderFlattening

/-- Nothing that is open would be closed by a made line with a name. -/
structure Place.Calm (p : Place) : Prop where
  clear : p.Clear
  enum : ∀ b, p.mode.enumBody = some b → b.flat = true ∨ b.name = []
  struct : ∀ b, p.mode.structBody = some b → b.flat = true ∨ b.name = []

theorem Place.Calm.withExternC {p : Place} (h : p.Calm) (inExternC : Bool) :
    (p.withMode ({ · with inExternC })).Calm :=
  ⟨⟨h.clear.noClass, h.clear.noFunction⟩, h.enum, h.struct⟩

theorem Place.calm_start : Place.Calm {} :=
  ⟨⟨rfl, rfl⟩, fun b eq => (Option.some_ne_none b eq.symm).elim,
    fun b eq => (Option.some_ne_none b eq.symm).elim⟩

theorem Kept.calm {config : Config} {raw : Text} {p q : Place} {values : List Text}
    (h : Kept config raw p q values) (calm : p.Calm) : q.Calm := by
  have clear := h.clear calm.clear
  have single {b c : TypeBody} (eq : some c = some b) (fine : c.flat = true ∨ c.name = []) :
      b.flat = true ∨ b.name = [] := Option.some.inj eq ▸ fine
  cases h with
  | passed | value | field => exact calm
  | comment | loose => exact ⟨clear, calm.enum, calm.struct⟩
  | type outside type =>
    cases type with
    | forward => exact calm
    | bareEnum => exact ⟨clear, fun b eq => single eq (.inr rfl), calm.struct⟩
    | bareStruct => exact ⟨clear, calm.enum, fun b eq => single eq (.inr rfl)⟩
    | flatEnum => exact ⟨clear, fun b eq => single eq (.inl rfl), calm.struct⟩
    | flatStruct => exact ⟨clear, calm.enum, fun b eq => single eq (.inl rfl)⟩
    | enumLine | closeEnum =>
      exact ⟨clear, fun b eq => (Option.some_ne_none b eq.symm).elim, calm.struct⟩
    | closeStruct => exact ⟨clear, calm.enum, fun b eq => (Option.some_ne_none b eq.symm).elim⟩

theorem Kept.inExternC {config : Config} {raw : Text} {p q : Place} {values : List Text}
    (h : Kept config raw p q values) : q.mode.inExternC = p.mode.inExternC := by
  cases h with
  | type outside type => cases type <;> rfl
  | _ => rfl

namespace Conversion

variable {raw : Text} {s t u : State}

theorem text_put {c : Chunk} (closed : s.mode.classState = .none) :
    (s.put c).sink.text = s.sink.text ++ c.text := by
  rw [s.put_closed c (by rw [closed]; rfl)]
  exact Brings.text_offer s.sink c

/-- The first of several texts is what the output goes on with. -/
theorem prefix_putAll (c : Chunk) (cs : List Chunk) (closed : s.mode.classState = .none) :
    s.sink.text ++ c.text <+: (s.putAll (c :: cs)).sink.text := by
  rw [s.putAll_closed _ (by rw [closed]; rfl)]
  refine ⟨cs.flatMap Chunk.text, ?_⟩
  unfold Sink.text
  rw [List.flatMap_append, List.flatMap_cons, List.append_assoc]

theorem prefix_of_grows (h : s.Grows t) : s.sink.text <+: t.sink.text := by
  obtain ⟨more, offered⟩ := h.offered
  refine ⟨more.flatMap Chunk.text, ?_⟩
  unfold Sink.text
  rw [← List.flatMap_append, offered]

theorem hasConstant_of_replace_none
    (h : Pattern.constMember.replace "#define $1 ($2)".toList raw = none) :
    raw.hasConstant = false := by
  unfold Pattern.replace at h
  split_ifs at h with occurs
  exact Bool.eq_false_iff.2 occurs

theorem hasMethod_of_replace_none {template : Text}
    (h : Pattern.virtualMethod.replace template raw = none) : raw.hasMethod = false := by
  unfold Pattern.replace at h
  split_ifs at h with occurs
  exact Bool.eq_false_iff.2 occurs

/-- A stage leaves the line to the next one, and has written nothing. -/
structure Silent (x : Conversion Bool) (s t : State) : Prop where
  run : x.run s = .ok false t
  line : t.line = s.line
  mode : t.mode = s.mode
  sink : t.sink = s.sink

theorem exists_silent_trackFunctions (clear : s.place.Clear)
    (quiet : s.mode.enumBody.isSome = true ∨ s.mode.structBody.isSome = true ∨
      s.line.Quiet s.cursor.previous) : ∃ t, Silent (trackFunctions {}) s t := by
  cases enum : s.mode.enumBody with
  | some b => exact ⟨s, run_trackFunctions_inEnum (by rw [enum]; rfl), rfl, rfl, rfl⟩
  | none =>
    cases struct : s.mode.structBody with
    | some b => exact ⟨s, run_trackFunctions_inStruct (by rw [struct]; rfl), rfl, rfl, rfl⟩
    | none =>
      rw [enum, struct] at quiet
      have quiet := (quiet.resolve_left Bool.false_ne_true).resolve_left Bool.false_ne_true
      have scan := Line.scan_of_quiet quiet
      have outside : s.mode.function = .outside := clear.noFunction
      refine ⟨s.followOutside, run_trackFunctions_idle ⟨enum, struct⟩ outside (by rw [scan]), rfl, ?_,
        rfl⟩
      unfold State.followOutside
      rw [scan, ← outside]

theorem exists_silent_recordEnumValue (closed : s.mode.classState = .none) :
    ∃ t, Silent (recordEnumValue {}) s t := by
  cases enum : s.mode.enumBody with
  | none => exact ⟨s, run_recordEnumValue_unclaimed enum, rfl, rfl, rfl⟩
  | some b =>
    exact ⟨_, run_recordEnumValue_closed (by rw [enum]; rfl) closed, line_addValues s _,
      s.mode_addValues _, s.sink_addValues _⟩

theorem leaves_defineConstants {e : Text}
    (h : Pattern.constMember.replace "#define $1 ($2)".toList s.line.text = some e) :
    Leaves defineConstants s true (s.put ⟨.made, e⟩) := by
  unfold defineConstants
  refine .after_run rfl ?_
  rw [h]
  exact (leaves_emit .made e s).then_pure fun _ => true

/-- A constant that gets past the function stage is what the line becomes. -/
theorem leaves_late_constant {config : Config} {e : Text}
    (functions : (trackFunctions config).run s = .ok false t)
    (h : Pattern.constMember.replace "#define $1 ($2)".toList t.line.text = some e) :
    Leaves (late config) s () (t.put ⟨.made, e⟩) := by
  refine Leaves.claim ?_ rfl
  unfold Leaves
  rw [run_firstClaim_unclaimed _ functions]
  exact leaves_firstClaim (leaves_defineConstants h) _

theorem leaves_convertMethods {config : Config} {e : Text} (struct : s.mode.structBody.isSome = true)
    (h : Pattern.virtualMethod.replace config.rules.methodTemplate s.line.text = some e) :
    Leaves (convertMethods config) s true (s.put ⟨.made, e⟩) := by
  obtain ⟨b, inside⟩ := Option.isSome_iff_exists.1 struct
  unfold convertMethods
  refine .after_run rfl ?_
  rw [inside, Option.isNone_some, if_neg Bool.false_ne_true, h]
  exact (leaves_emit .made e s).then_pure fun _ => true

/-- Behind the stage that follows functions a line is copied unless it holds a constant, or a method
within a struct. -/
theorem late_cases (clear : s.place.Clear) (room : s.sink.room = none)
    (quiet : s.mode.enumBody.isSome = true ∨ s.mode.structBody.isSome = true ∨
      s.line.Quiet s.cursor.previous) (run : (late {}).run s = .ok () t) :
    (∃ e, Rewrites s.line.text e ∧ t.sink.text = s.sink.text ++ e) ∨
    (s.line.text.hasConstant = false ∧
      (s.mode.structBody.isSome = true → s.line.text.hasMethod = false) ∧
      t.sink.text = s.sink.text ++ s.line.text) := by
  obtain ⟨u, functions⟩ := exists_silent_trackFunctions clear quiet
  have closed : u.mode.classState = .none := functions.mode ▸ clear.noClass
  have free : u.sink.room = none := functions.sink ▸ room
  -- All that is written is the text of one chunk.
  have written {v : State} {c : Chunk} (sink : v.sink = s.sink) (closed : v.mode.classState = .none)
      (leaves : Leaves (late {}) s () (v.put c)) : t.sink.text = s.sink.text ++ c.text := by
    have run' := leaves.run_eq (by rw [room_put, sink, room])
    rw [run] at run'
    cases run'
    rw [text_put closed, sink]
  cases constant : Pattern.constMember.replace "#define $1 ($2)".toList u.line.text with
  | some e =>
    refine .inl ⟨e, rewrites_constant (functions.line ▸ constant), ?_⟩
    exact written (c := ⟨.made, e⟩) functions.sink closed (leaves_late_constant functions.run constant)
  | none =>
    obtain ⟨v, values⟩ := exists_silent_recordEnumValue closed
    have line : v.line = s.line := values.line.trans functions.line
    have mode : v.mode = s.mode := values.mode.trans functions.mode
    have sink : v.sink = s.sink := values.sink.trans functions.sink
    have closed' : v.mode.classState = .none := by rw [mode]; exact clear.noClass
    have early (stages : List (Conversion Bool)) :
        (firstClaim (trackFunctions {} :: defineConstants :: recordEnumValue {} :: stages)).run s =
          (firstClaim stages).run v := by
      rw [run_firstClaim_unclaimed _ functions.run,
        run_firstClaim_unclaimed _ (run_defineConstants_unclaimed constant),
        run_firstClaim_unclaimed _ values.run]
    have copied (methods : (convertMethods {}).run v = .ok false v) :
        t.sink.text = s.sink.text ++ s.line.text := by
      refine (written sink closed' (leaves_late_copied ?_)).trans (by rw [line])
      rw [early, run_firstClaim_unclaimed _ methods,
        run_firstClaim_unclaimed _ (run_liftMembers_closed closed')]
      rfl
    have noConstant := hasConstant_of_replace_none (functions.line ▸ constant)
    cases struct : s.mode.structBody with
    | none =>
      refine .inr ⟨noConstant, fun some' => absurd some' Bool.false_ne_true, ?_⟩
      exact copied (run_convertMethods_unclaimed (by rw [mode, struct]))
    | some b =>
      cases method : Pattern.virtualMethod.replace ({} : Config).rules.methodTemplate v.line.text with
      | some e =>
        refine .inl ⟨e, rewrites_method (line ▸ method), ?_⟩
        have inside : v.mode.structBody.isSome = true := by rw [mode, struct]; rfl
        refine written (c := ⟨.made, e⟩) sink closed' (.claim ?_ rfl)
        unfold Leaves
        rw [early]
        exact leaves_firstClaim (leaves_convertMethods inside method) _
      | none =>
        have noMethod := hasMethod_of_replace_none (line ▸ method)
        refine .inr ⟨noConstant, fun _ => noMethod, copied (run_convertMethods_none fun _ => ?_)⟩
        rw [line]
        exact noMethod

theorem render_annotate (level : Int) (x : Text) : Suppression.annotate.render level x =
    [⟨.suppressed, "//".toList ++ '(' :: (Text.ofInt level ++ (") ".toList ++ x))⟩] := by
  rw [Suppression.render, List.append_assoc, List.append_assoc]
  rfl

/-- A line that has to do with functions is written behind a mark of its own. -/
theorem exists_suppressed (w : s.Watching) (clear : s.place.Clear) (room : s.sink.room = none)
    (loud : ¬s.line.Quiet s.cursor.previous) (run : (late {}).run s = .ok () t) :
    ∃ e, t.sink.text = s.sink.text ++ ("//".toList ++ '(' :: e) := by
  have closed : s.followOutside.mode.classState = .none := clear.noClass
  have follow := run_followFunction_outside clear.noFunction
  rw [Line.suppress_of_not_quiet loud] at follow
  have leaves : Leaves (late {}) s () _ := leaves_late (leaves_trackFunctions w follow)
  rw [show ({} : Config).rules.suppression = .annotate from rfl, render_annotate] at leaves
  have same := leaves.run_eq ((room_put s.followOutside _).trans room)
  rw [run] at same
  cases same
  exact ⟨_, text_put (s := s.followOutside) closed⟩

theorem prefix_put (x : Text) (closed : s.mode.classState = .none) :
    s.sink.text ++ x <+: (s.put ⟨.made, x⟩).sink.text :=
  prefix_putAll ⟨.made, x⟩ [] closed

theorem prefix_opener (keyword : Text) (d : TypeDeclaration) (closed : s.mode.classState = .none) :
    s.sink.text ++ openerText keyword d.name <+: (s.putAll (openerChunks keyword d)).sink.text :=
  prefix_putAll ⟨.made, openerText keyword d.name⟩ _ closed

/-- The stages for types claim the line, and the line is kept or changed. -/
def ClaimedType (raw : Text) (s : State) : Prop :=
  (∃ m values, KeptType raw s.mode m values) ∨
    ∃ e t, Changed raw e ∧ Leaves trackTypes s true t ∧ s.sink.text ++ e <+: t.sink.text

theorem claimedType_changed {e : Text} (changed : Changed raw e) (claimed : Leaves trackTypes s true t)
    (starts : s.sink.text ++ e <+: t.sink.text) : ClaimedType raw s :=
  .inr ⟨e, t, changed, claimed, starts⟩

section

variable (line : s.line = .cut raw) (room : s.sink.room = none) (closed : s.mode.classState = .none)

include line room closed

theorem claimedType_enum {d : TypeDeclaration} (oneLine : '\n' ∉ raw.dropLast)
    (opener : TypeDeclaration.ofWords? "enum".toList (Line.cut raw).words = some d) :
    ClaimedType raw s := by
  obtain ⟨rest, words⟩ := TypeDeclaration.words_of_ofWords? opener
  have notOpen : ¬s.mode.classState.isOpen = true := by rw [closed]; decide
  have seen := opener
  rw [← line] at seen
  have body (notForward : d.brace ≠ .forward)
      (open' : d.brace = .sameLine → EnumLine.ofTokens? s.line.tokens = none) : ClaimedType raw s := by
    by_cases bare : d.name = [] ∧ raw = "enum".toList ++ "\n".toList
    · exact .inl ⟨_, _, .bareEnum bare.2⟩
    · have opens := (reaches_openEnumBody_line seen notForward open').run_eq room
      refine claimedType_changed (.opener words (.inl rfl) fun anonymous same => bare ⟨anonymous, same⟩)
        (leaves_trackTypes_enum seen (.of_run opens)) ?_
      rw [s.enterEnum_closed _ notOpen]
      exact prefix_opener _ d (s := s.withMode ({ · with enumBody := some ⟨d.name, false⟩ })) closed
  cases brace : d.brace with
  | forward => exact .inl ⟨_, _, .forward (.inl rfl) opener brace⟩
  | deferred =>
    refine body (by rw [brace]; decide) fun sameLine => ?_
    rw [brace] at sameLine
    cases sameLine
  | sameLine =>
    cases tokens : EnumLine.ofTokens? (Line.cut raw).tokens with
    | none => exact body (by rw [brace]; decide) fun _ => by rw [line]; exact tokens
    | some e =>
      by_cases same : raw = e.text none d.name
      · exact .inl ⟨_, _, .enumLine opener brace tokens same⟩
      · have claimed := (reaches_openEnum_line seen brace (line ▸ tokens)).run_eq room
        refine claimedType_changed (.enumLine words oneLine tokens same)
          (leaves_trackTypes_enum seen (.of_run claimed)) ?_
        have noName : s.mode.classState.name? = none := by rw [closed]; rfl
        have mode := s.mode_addValues (e.values none)
        have sink := s.sink_addValues (e.values none)
        rw [enumLineState, noName]
        generalize s.addValues (e.values none) = v at mode sink
        have outside : v.mode.classState = .none := by rw [mode, closed]
        rw [v.enterEnum_closed _ (by rw [outside]; decide), ← sink]
        exact prefix_put _ (s := v.withMode ({ · with enumBody := some ⟨d.name, true⟩ })) outside

theorem claimedType_struct {d : TypeDeclaration}
    (opener : TypeDeclaration.ofWords? "struct".toList (Line.cut raw).words = some d) :
    ClaimedType raw s := by
  obtain ⟨rest, words⟩ := TypeDeclaration.words_of_ofWords? opener
  have seen := opener
  rw [← line] at seen
  by_cases brace : d.brace = .forward
  · exact .inl ⟨_, _, .forward (.inr rfl) opener brace⟩
  by_cases bare : d.name = [] ∧ raw = "struct".toList ++ "\n".toList
  · exact .inl ⟨_, _, .bareStruct bare.2⟩
  · have opens := (reaches_openStruct seen brace).run_eq room
    exact claimedType_changed (.opener words (.inr rfl) fun anonymous same => bare ⟨anonymous, same⟩)
      (leaves_trackTypes_struct seen (.of_run opens)) (prefix_opener _ d closed)

theorem claimedType_class {d : TypeDeclaration}
    (opener : TypeDeclaration.ofWords? "class".toList (Line.cut raw).words = some d) :
    ClaimedType raw s := by
  obtain ⟨rest, words⟩ := TypeDeclaration.words_of_ofWords? opener
  have seen := opener
  rw [← line] at seen
  by_cases brace : d.brace = .forward
  · have declares : Leaves openClass s true
        (s.put ⟨.made, "struct _".toList ++ d.name ++ ";\n".toList⟩) := by
      unfold openClass
      refine .after_run rfl ?_
      rw [seen]
      simp only [brace]
      exact (leaves_emit .made _ s).then_pure fun _ => true
    refine claimedType_changed ?_ (leaves_trackTypes_class seen declares) (prefix_put _ closed)
    rw [List.append_assoc]
    exact .keyword words (by decide) (.inr rfl) _
  · refine claimedType_changed ?_ (leaves_trackTypes_class seen (leaves_openClass seen brace room))
      (prefix_put _ closed)
    rw [List.append_assoc]
    exact .keyword words (by decide) (.inl rfl) _

theorem claimedType_closer (calm : s.place.Calm) (closer : (Line.cut raw).isTypeCloser = true)
    (inside : s.mode.enumBody.isSome = true ∨ s.mode.structBody.isSome = true) : ClaimedType raw s := by
  have seen := closer
  rw [← line] at seen
  -- A body that is not flat and not nameless is not there.
  have close {b : TypeBody} {u : State} (fine : b.flat = true ∨ b.name = [])
      (other : ¬(b.flat = true ∨ raw = closerText b.name)) (claimed : Reaches closeType s true u)
      (sink : u.sink = (s.put (closerChunk b s.line)).sink) : ClaimedType raw s := by
    rw [not_or] at other
    have nameless : b.name = [] := fine.resolve_left other.1
    rw [nameless] at other
    refine claimedType_changed (.closer other.2)
      (leaves_trackTypes_closer seen (.of_run (claimed.run_eq room))) ?_
    rw [sink, closerChunk, if_neg other.1, nameless]
    exact prefix_put _ closed
  cases enum : s.mode.enumBody with
  | some b =>
    by_cases same : b.flat = true ∨ raw = closerText b.name
    · exact .inl ⟨_, _, .closeEnum closer enum same⟩
    · exact close (calm.enum b enum) same (reaches_closeType_enum seen enum) rfl
  | none =>
    rw [enum] at inside
    obtain ⟨b, struct⟩ := Option.isSome_iff_exists.1 (inside.resolve_left Bool.false_ne_true)
    by_cases same : b.flat = true ∨ raw = closerText b.name
    · exact .inl ⟨_, _, .closeStruct closer enum struct same⟩
    · refine close (calm.struct b struct) same (reaches_closeType_struct seen enum struct) ?_
      have notOpen : s.mode.classState.isOpen = false := by rw [closed]; rfl
      rw [s.put_closed _ notOpen, s.leaveStruct.put_closed _ notOpen]
      rfl

/-- A line of which no other part of the mode is in the way is claimed by the stages for types, or
left to the stages behind them. -/
theorem loose_or_claimedType (calm : s.place.Calm) (oneLine : '\n' ∉ raw.dropLast)
    (noOpener : (Line.cut raw).opensExternC = false)
    (noBrace : (Line.cut raw).words = [['\x7d']] → s.mode.inExternC = false) :
    (Line.cut raw).Loose s.mode ∨ ClaimedType raw s := by
  cases enum : TypeDeclaration.ofWords? "enum".toList (Line.cut raw).words with
  | some d => exact .inr (claimedType_enum line room closed oneLine enum)
  | none =>
    cases struct : TypeDeclaration.ofWords? "struct".toList (Line.cut raw).words with
    | some d => exact .inr (claimedType_struct line room closed struct)
    | none =>
      cases class' : TypeDeclaration.ofWords? "class".toList (Line.cut raw).words with
      | some d => exact .inr (claimedType_class line room closed class')
      | none =>
        by_cases flatEnum : (Line.cut raw).opensFlat "enum".toList = true
        · exact .inr (.inl ⟨_, _, .flatEnum flatEnum⟩)
        by_cases flatStruct : (Line.cut raw).opensFlat "struct".toList = true
        · exact .inr (.inl ⟨_, _, .flatStruct flatStruct⟩)
        by_cases closes : (Line.cut raw).isTypeCloser = true ∧
            (s.mode.enumBody.isSome = true ∨ s.mode.structBody.isSome = true)
        · exact .inr (claimedType_closer line room closed calm closes.1 closes.2)
        · refine .inl ⟨noOpener, enum, struct, class', fun typedef semicolon => ?_, fun closer => ?_,
            noBrace⟩
          · rw [Line.opensFlat_iff] at flatEnum flatStruct
            exact ⟨fun word => flatEnum ⟨typedef, word, semicolon⟩,
              fun word => flatStruct ⟨typedef, word, semicolon⟩⟩
          · have neither := not_or.1 fun inside => closes ⟨closer, inside⟩
            rw [Option.not_isSome_iff_eq_none, Option.not_isSome_iff_eq_none] at neither
            exact ⟨neither.1, neither.2, closed⟩

end

/-- With the default settings no failure is recovered from. -/
theorem run_processLine_default (raw : Text) (s : State) : (processLine {} raw).run s =
    (retokenize {} >>= fun _ => classify {}).run (s.begin {} raw) := by
  rw [run_processLine, run_recover_rest raw fun skip => by cases skip]

theorem not_overflows (run : (processLine {} raw).run s = .ok () t) : ¬Overflows {} s raw := by
  intro overflows
  obtain ⟨u, failed, -⟩ := run_overflowing overflows
  rw [run_processLine_default, failed] at run
  cases run

theorem fits_of_run (closed : s.mode.classState = .none) (run : (processLine {} raw).run s = .ok () t) :
    ({} : Config).Fits raw := by
  unfold Config.Fits
  by_contra crowded
  rw [not_le, Line.words, List.length_map] at crowded
  refine not_overflows run (.first ?_)
  rw [outdent_closed {} closed]
  exact crowded

/-- The only edit of the default settings parts the line where the text that it looks for has its
`E`. -/
theorem parts_of_edit {l : Line} {edit : MacroEdit} {x : Text}
    (h : l.edit? {} = some (edit, x)) : l.text.Parts x 'e' := by
  obtain ⟨-, found, replaced⟩ := exists_edit h
  obtain ⟨name, -, found⟩ := Option.bind_eq_some_iff.1 found
  obtain rfl := List.mem_singleton.1 (List.mem_of_find?_eq_some found)
  obtain ⟨a, b, c, source, rfl⟩ := Text.exists_of_replaceAll replaced
  refine ⟨a ++ ['('], 'E', "mfPlusRecordType)".toList ++ b,
    "num _EmfPlusRecordType)".toList ++ c, ?_, ?_, by decide⟩
  · rw [source, List.append_assoc]
    rfl
  · rw [List.append_assoc]
    rfl

theorem words_of_edit {edit : MacroEdit} {x : Text} (h : (Line.cut raw).edit? {} = some (edit, x)) :
    ∃ ws, Token.wordsOf x = "#define".toList :: ws := by
  obtain ⟨define, found, replaced⟩ := exists_edit h
  obtain ⟨name, -, found⟩ := Option.bind_eq_some_iff.1 found
  obtain rfl := List.mem_singleton.1 (List.mem_of_find?_eq_some found)
  obtain ⟨a, b, c, source, rfl⟩ := Text.exists_of_replaceAll replaced
  have opens : Token.isDelimiter '(' = true := by decide
  have first : (Token.wordsOf a ++ ['('] :: Token.wordsOf ("EmfPlusRecordType)".toList ++ b))[0]? =
      some "#define".toList := by
    rw [← Token.wordsOf_append_delimiter opens]
    exact source ▸ define
  have split : Token.wordsOf (a ++ ("(enum _EmfPlusRecordType)".toList ++ c)) =
      Token.wordsOf a ++ ['('] :: Token.wordsOf ("enum _EmfPlusRecordType)".toList ++ c) :=
    Token.wordsOf_append_delimiter opens a _
  cases words : Token.wordsOf a with
  | nil =>
    rw [words] at first
    exact absurd (Option.some.inj first) (by decide)
  | cons w ws =>
    rw [words] at first
    rw [split, words, Option.some.inj first]
    exact ⟨_, rfl⟩

/-- What a line leaves to the stage that follows functions. -/
theorem run_late {edit : Option MacroEdit} {l : Line}
    (arrives : Arrives {} s.mode raw (.reached edit l)) (run : (processLine {} raw).run s = .ok () t) :
    (late {}).run (s.arrive {} raw (.reached edit l)) = .ok () t := by
  obtain ⟨l', cut, same⟩ := exists_run_classify arrives
  rw [run_processLine_default, EStateM.run_bind, run_retokenize cut] at run
  rw [← same]
  exact run

theorem exists_changed_of_edit {edit : MacroEdit} {x : Text} (calm : s.place.Calm)
    (room : s.sink.room = none) (full : (Line.cut raw).words ≠ []) (outside : s.mode.inComment = false)
    (slashes : (Line.cut raw).leads "//".toList = false)
    (star : (Line.cut raw).leads "/*".toList = false)
    (change : (Line.cut raw).edit? {} = some (edit, x))
    (run : (processLine {} raw).run s = .ok () t) :
    ∃ e, Changed raw e ∧ s.sink.text ++ e <+: t.sink.text := by
  have closed : s.mode.classState = .none := calm.clear.noClass
  have cut := cut_closed closed (fits_of_run closed run)
  have notEmpty : (Line.cut raw).isEmpty = false :=
    Bool.eq_false_iff.2 (mt (Line.isEmpty_iff _).1 full)
  obtain ⟨ws, words⟩ : ∃ ws, (Line.cut x).words = "#define".toList :: ws := words_of_edit change
  have recut : (Line.ofText x).retokenize ({} : Config).rules.maxTokens = .ok (.cut x) := by
    refine Line.retokenize_ofText (Nat.not_lt.1 fun crowded => ?_)
    have reached : passComments.run ((s.begin {} raw).withLine (.cut raw)) = .ok false _ :=
      run_passComments outside slashes star
    exact not_overflows run (.edited cut notEmpty reached change crowded)
  have loose : (Line.cut x).Loose s.mode :=
    Line.loose_of_first_word words (Line.not_externC words (by decide)) (by decide) s.mode
  have arrives : Arrives {} s.mode raw (.reached (some edit) (.cut x)) :=
    .edited cut notEmpty outside slashes star change recut loose
  have stops : stopsScan "#define".toList = true := by decide
  have quiet : (Line.cut x).Quiet s.cursor.previous := by
    refine ⟨?_, ?_⟩
    · rw [Line.word?, words]
      exact fun eq => absurd (Option.some.inj eq) (by decide)
    · rw [Line.read, words, List.takeWhile_cons, stops]
      rfl
  have cases' := late_cases (s := s.arrive {} raw (.reached (some edit) (.cut x))) calm.clear room
    (.inr (.inr quiet)) (run_late arrives run)
  rcases cases' with ⟨e, rewrites, text⟩ | ⟨-, -, text⟩
  · have changed : Changed raw e := .edited (parts_of_edit change) words (.inr rewrites)
    exact ⟨e, changed, [], (List.append_nil _).trans text.symm⟩
  · have changed : Changed raw x := .edited (parts_of_edit change) words (.inl rfl)
    exact ⟨x, changed, [], (List.append_nil _).trans text.symm⟩

theorem kept_or_changed_plain (calm : s.place.Calm) (room : s.sink.room = none)
    (plain : (Line.cut raw).Plain {} s.mode) (run : (processLine {} raw).run s = .ok () t) :
    (∃ q values, Kept {} raw s.place q values) ∨
      ∃ e, Changed raw e ∧ s.sink.text ++ e <+: t.sink.text := by
  have closed : s.mode.classState = .none := calm.clear.noClass
  have late := run_late (arrives_plain closed (fits_of_run closed run) plain) run
  by_cases quiet : s.mode.enumBody.isSome = true ∨ s.mode.structBody.isSome = true ∨
      (Line.cut raw).Quiet s.cursor.previous
  · have cases' := late_cases (s := s.arrive {} raw (.reached none (.cut raw))) calm.clear room quiet
      late
    rcases cases' with ⟨e, rewrites, text⟩ | ⟨noConstant, noMethod, -⟩
    · exact .inr ⟨e, .rewritten rewrites, [], (List.append_nil _).trans text.symm⟩
    · refine .inl ?_
      cases enum : s.mode.enumBody with
      | some b => exact ⟨_, _, .value plain (Option.isSome_of_eq_some enum) noConstant noMethod⟩
      | none =>
        cases struct : s.mode.structBody with
        | some b =>
          have inside := Option.isSome_of_eq_some struct
          exact ⟨_, _, .field plain enum inside noConstant (noMethod inside)⟩
        | none =>
          rw [enum, struct] at quiet
          have quiet := (quiet.resolve_left Bool.false_ne_true).resolve_left Bool.false_ne_true
          exact ⟨_, _, .loose plain enum struct quiet noConstant⟩
  · rw [not_or, not_or, Option.not_isSome_iff_eq_none, Option.not_isSome_iff_eq_none] at quiet
    obtain ⟨enum, struct, loud⟩ := quiet
    obtain ⟨e, text⟩ := exists_suppressed (s := s.arrive {} raw (.reached none (.cut raw)))
      ⟨enum, struct⟩ calm.clear room loud late
    obtain ⟨w, ws, words⟩ := List.exists_cons_of_ne_nil plain.full
    have other : "//".toList ≠ w := by
      have slashes := plain.slashes
      rw [Line.leads, Line.word?, words] at slashes
      rintro rfl
      cases slashes
    refine .inr ⟨"//".toList ++ '(' :: e, ?_, [], (List.append_nil _).trans text.symm⟩
    exact .reworded e words (by decide) (by decide) (by decide) other (by decide)

/-- A line of a text without open classes and functions is kept, or the output goes on with something
else. -/
theorem kept_or_changed (calm : s.place.Calm) (room : s.sink.room = none)
    (oneLine : '\n' ∉ raw.dropLast)
    (noBlock : s.mode.inComment = false → (Line.cut raw).opensExternC = false ∧
      ((Line.cut raw).words = [['\x7d']] → s.mode.inExternC = false))
    (run : (processLine {} raw).run s = .ok () t) :
    (∃ q values, Kept {} raw s.place q values) ∨
      ∃ e, Changed raw e ∧ s.sink.text ++ e <+: t.sink.text := by
  have closed : s.mode.classState = .none := calm.clear.noClass
  have cut := cut_closed closed (fits_of_run closed run)
  by_cases passed : (Line.cut raw).Passed
  · exact .inl ⟨_, _, .passed passed⟩
  by_cases inside : s.mode.inComment = true ∨ (Line.cut raw).leads "/*".toList = true
  · exact .inl ⟨_, _, .comment passed inside⟩
  have full : (Line.cut raw).words ≠ [] := fun empty => passed (.inl empty)
  have slashes : (Line.cut raw).leads "//".toList = false :=
    Bool.eq_false_iff.2 fun leads => passed (.inr leads)
  rw [not_or, Bool.not_eq_true, Bool.not_eq_true] at inside
  obtain ⟨outside, star⟩ := inside
  obtain ⟨noOpener, noBrace⟩ := noBlock outside
  cases edit : (Line.cut raw).edit? {} with
  | some change =>
    exact .inr (exists_changed_of_edit calm room full outside slashes star edit run)
  | none =>
    have typed := loose_or_claimedType (s := s.arrive {} raw (.copied (.cut raw))) rfl room closed calm
      oneLine noOpener noBrace
    rcases typed with loose | ⟨m, values, kept⟩ | ⟨e, u, changed, claimed, starts⟩
    · exact kept_or_changed_plain calm room ⟨full, outside, slashes, star, edit, loose⟩ run
    · exact .inl ⟨_, _, .type outside kept⟩
    · have same : t = u := by
        have leaves := leaves_types_unedited cut full outside slashes star edit claimed
        rcases leaves with done | ⟨failed, -⟩
        · rw [run] at done
          cases done
          rfl
        · rw [run] at failed
          cases failed
      exact .inr ⟨e, changed, same ▸ starts⟩

end Conversion
end HeaderFlattening
