import HeaderFlattening.Proofs.Alteration

/-!
The texts that conversion leaves as they are. By `convertText_of_kept` it does so if every line is
copied from where the lines before it lead to. No other text is left as it is: the first line that is
not copied is changed, and then the output parts from the text there, or it is left out, and then no
later line can stand in for it.
-/

set_option autoImplicit false
namespace HeaderFlattening.Conversion

variable {raw : Text} {s t u : State}

/-- A line that is left out: it opens or closes an `extern "C"` block. -/
def LeftOut (raw : Text) (s : State) : Prop :=
  s.mode.inComment = false ∧ ((Line.cut raw).opensExternC = true ∨
    (Line.cut raw).words = [['\x7d']] ∧ s.mode.inExternC = true)

theorem exists_of_leftOut (h : LeftOut raw s) (closed : s.mode.classState = .none)
    (run : (processLine {} raw).run s = .ok () t) :
    t.sink = s.sink ∧ ∃ inExternC, t.place = s.place.withMode ({ · with inExternC }) := by
  obtain ⟨outside, which⟩ := h
  have cut := cut_closed closed (fits_of_run closed run)
  have claims {w : Text} {ws : List Text} {inExternC : Bool} (words : (Line.cut raw).words = w :: ws)
      (slashes : "//".toList.isPrefixOf w = false) (star : "/*".toList.isPrefixOf w = false)
      (define : w ≠ "#define".toList)
      (claimed : trackTypes.run (s.arrive {} raw (.copied (.cut raw))) =
        .ok true ((s.arrive {} raw (.copied (.cut raw))).withMode ({ · with inExternC }))) :
      t.sink = s.sink ∧ ∃ inExternC, t.place = s.place.withMode ({ · with inExternC }) := by
    have leaves := leaves_types cut words outside slashes star define (.of_run claimed)
    rcases leaves with done | ⟨failed, -⟩
    · rw [run] at done
      cases done
      exact ⟨rfl, inExternC, rfl⟩
    · rw [run] at failed
      cases failed
  rcases which with opener | ⟨brace, inBlock⟩
  · obtain ⟨rest, words⟩ := List.isPrefixOf_iff_prefix.1 opener
    exact claims words.symm (by decide) (by decide) (by decide) (run_trackTypes_opener opener)
  · exact claims brace (by decide) (by decide) (by decide)
      (run_trackTypes_loneBrace (decide_eq_true brace) inBlock)

theorem noBlock_of_not_leftOut (h : ¬LeftOut raw s) (outside : s.mode.inComment = false) :
    (Line.cut raw).opensExternC = false ∧
      ((Line.cut raw).words = [['\x7d']] → s.mode.inExternC = false) :=
  ⟨Bool.eq_false_iff.2 fun opener => h ⟨outside, .inl opener⟩,
    fun brace => Bool.eq_false_iff.2 fun inBlock => h ⟨outside, .inr ⟨brace, inBlock⟩⟩⟩

theorem prefix_of_runs {ls : List Text} (runs : Runs {} ls s t) (ended : finish.run t = .ok () u) :
    s.sink.text <+: u.sink.text := by
  have last := (steady_finish t).grows
  rw [stateAfter_of_run ended] at last
  induction runs with
  | nil => exact prefix_of_grows last
  | @cons raw rest s v t line others ih =>
    refine List.IsPrefix.trans ?_ (ih ended last)
    have first := grows_processLine {} raw s
    rw [line] at first
    exact prefix_of_grows (s := s.begin {} raw) first

theorem text_of_kept {q : Place} {values : List Text} (h : Kept {} raw s.place q values)
    (clear : s.place.Clear) (room : s.sink.room = none) (run : (processLine {} raw).run s = .ok () t) :
    t.place = q ∧ t.sink.text = s.sink.text ++ raw ∧ t.sink.room = none := by
  obtain ⟨v, run', place, brings⟩ := exists_kept h clear (fits_of_run clear.noClass run) room
  rw [run] at run'
  cases run'
  exact ⟨place, brings.written, brings.room.trans room⟩

/-- Once an opener of an `extern "C"` block is left out, no line behind it is written in its place. -/
theorem text_ne_linkage {ls : List Text} (runs : Runs {} ls s t) (ended : finish.run t = .ok () u)
    {x : Text} (lines : Text.lines x = ls) (calm : s.place.Calm) (room : s.sink.room = none)
    (outside : s.mode.inComment = false) {a : Text} (linkage : a.Linkage) (z : Text) :
    u.sink.text ≠ s.sink.text ++ (a ++ '\x7b' :: z) := by
  induction runs generalizing x with
  | nil s =>
    rw [run_finish_idle calm.clear.noClass] at ended
    cases ended
    simp
  | @cons raw rest s v t line others ih =>
    obtain ⟨shape, y, lines'⟩ := Text.lineBefore_of_lines lines
    by_cases out : LeftOut raw s
    · obtain ⟨sink, inExternC, place⟩ := exists_of_leftOut out calm.clear.noClass line
      rw [← sink]
      refine ih ended lines' (place ▸ calm.withExternC inExternC) (sink ▸ room) ?_
      exact (congrArg (·.mode.inComment) place).trans outside
    · have noBlock := noBlock_of_not_leftOut out
      have noOpener := (noBlock outside).1
      have grown := prefix_of_runs others ended
      rcases kept_or_changed calm room shape.oneLine noBlock line with
        ⟨q, values, kept⟩ | ⟨e, changed, starts⟩
      · obtain ⟨place, text, -⟩ := text_of_kept kept calm.clear room line
        rw [text] at grown
        obtain ⟨w, whole⟩ := grown
        rw [← whole, List.append_assoc]
        intro same
        have same := List.append_cancel_left same
        -- The line ends before the brace, and yet it has a line feed or is the last.
        have noPrefix : ¬a ++ ['\x7b'] <+: raw := fun starts => by
          rw [linkage.opensExternC starts] at noOpener
          cases noOpener
        have short : raw <+: a ++ ['\x7b'] := by
          have other : a ++ ['\x7b'] <+: a ++ '\x7b' :: z := ⟨z, by rw [List.append_assoc]; rfl⟩
          exact (List.prefix_or_prefix_of_prefix ⟨w, same⟩ other).resolve_right noPrefix
        rcases shape with ended' | ⟨rfl, -⟩
        · have feed := short.mem (List.mem_of_getLast? ended'.1)
          rw [List.mem_append, List.mem_singleton] at feed
          exact feed.elim linkage.oneLine (by decide)
        · cases others
          have clear : v.place.Clear := place ▸ kept.clear calm.clear
          have closed : v.mode.classState = .none := clear.noClass
          rw [run_finish_idle closed] at ended
          cases ended
          rw [text, List.append_right_eq_self] at whole
          rw [whole, List.append_nil] at same
          exact noPrefix ⟨z, by rw [same, List.append_assoc]; rfl⟩
      · obtain ⟨w, whole⟩ := starts.trans grown
        rw [← whole, List.append_assoc]
        exact fun same =>
          changed.append_ne_linkage linkage noOpener w z (List.append_cancel_left same)

/-- If lines give themselves, each of them is kept. -/
theorem exists_keptLines_of_text {ls : List Text} (runs : Runs {} ls s t)
    (ended : finish.run t = .ok () u) {x : Text} (lines : Text.lines x = ls) (calm : s.place.Calm)
    (room : s.sink.room = none) (noBlock : s.mode.inExternC = false)
    (same : u.sink.text = s.sink.text ++ ls.flatten) :
    ∃ q values, KeptLines {} ls s.place q values := by
  induction runs generalizing x with
  | nil s => exact ⟨_, _, .nil s.place⟩
  | @cons raw rest s v t line others ih =>
    obtain ⟨shape, y, lines'⟩ := Text.lineBefore_of_lines lines
    have grown := prefix_of_runs others ended
    rw [List.flatten_cons] at same
    by_cases out : LeftOut raw s
    · obtain ⟨sink, inExternC, place⟩ := exists_of_leftOut out calm.clear.noClass line
      obtain ⟨outside, opener | ⟨-, inBlock⟩⟩ := out
      · obtain ⟨a, b, rfl, linkage⟩ := Text.Linkage.exists_of_opensExternC opener shape.oneLine
        rw [← sink, List.append_assoc] at same
        refine absurd same (text_ne_linkage others ended lines' (place ▸ calm.withExternC inExternC)
          (sink ▸ room) ?_ linkage _)
        exact (congrArg (·.mode.inComment) place).trans outside
      · rw [noBlock] at inBlock
        cases inBlock
    · rcases kept_or_changed calm room shape.oneLine (noBlock_of_not_leftOut out) line with
        ⟨q, values, kept⟩ | ⟨e, changed, starts⟩
      · obtain ⟨place, text, free⟩ := text_of_kept kept calm.clear room line
        have noBlock' : v.mode.inExternC = false := by
          rw [show v.mode = q.mode from congrArg Place.mode place, kept.inExternC]
          exact noBlock
        rw [← List.append_assoc, ← text] at same
        obtain ⟨r, more, rest'⟩ := ih ended lines' (place ▸ kept.calm calm) free noBlock' same
        exact ⟨r, values ++ more, .cons kept (fits_of_run calm.clear.noClass line) (place ▸ rest')⟩
      · obtain ⟨w, whole⟩ := starts.trans grown
        rw [same, List.append_assoc] at whole
        exact absurd (List.append_cancel_left whole) (changed.append_ne_line shape.flatten w)

/-- A text is left as it is by conversion with the default settings if and only if each of its lines is
copied from the place that the lines before it lead to. -/
theorem convertText_eq_self_iff (x : Text) : (∃ r, convertText {} x = .ok ⟨x, r⟩) ↔
    ∃ q values, KeptLines {} x.lines {} q values := by
  constructor
  · rintro ⟨r, converted⟩
    unfold convertText convertLines at converted
    cases run : (processAll {} (x.lines.map .ok)).run {} with
    | error e u =>
      rw [run] at converted
      cases converted
    | ok _ u =>
      rw [run, Converted.ofResult] at converted
      have text : u.sink.text = x := congrArg Converted.text (Except.ok.inj converted)
      obtain ⟨runs, ended⟩ := runs_of_ok run
      refine exists_keptLines_of_text (s := {}) runs ended rfl Place.calm_start rfl rfl ?_
      rw [text, Text.flatten_lines]
      rfl
  · rintro ⟨q, values, kept⟩
    exact ⟨_, (convertText_of_kept kept).1⟩

/-- A struct with a method that gives back an enum. -/
def enumGetter : Text :=
  "struct IFoo\n\x7b\n    virtual enum Kind GetKind(int x);\n\x7d;\n".toList

/-- Its flat form. -/
def flatGetter : Text :=
  "typedef struct _IFoo\n\x7b\n    enum (*GetKind)(int x);\n\x7d IFoo;\n".toList

/-- The flat form is the output for the struct. Its method reads like the opener of an enum, so that
it is not kept, and conversion does not leave the flat form as it is. -/
theorem flatGetter_not_kept :
    let again : Text := "typedef struct _IFoo\n\x7b\ntypedef enum _(\n\x7d (;\n".toList
    convertText {} enumGetter = .ok ⟨flatGetter, ⟨4, [], [], [], []⟩⟩ ∧
    convertText {} flatGetter = .ok ⟨again, ⟨4, [], [], [], []⟩⟩ ∧
    ¬∃ q values, KeptLines {} flatGetter.lines {} q values := by
  intro again
  have second : convertText {} flatGetter = .ok ⟨again, ⟨4, [], [], [], []⟩⟩ := by decide +kernel
  refine ⟨by decide +kernel, second, fun kept => ?_⟩
  obtain ⟨r, same⟩ := (convertText_eq_self_iff flatGetter).2 kept
  have text : again = flatGetter := congrArg Converted.text (Except.ok.inj (second.symm.trans same))
  exact absurd text (by decide)

end HeaderFlattening.Conversion
