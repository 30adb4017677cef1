import HeaderFlattening.Proofs.Depth32
import HeaderFlattening.Proofs.FunctionStage
import Mathlib.Data.List.Induction

/-!
The depth in a function body. It counts the braces on the lines of the body that get to the stage for
functions: it is never negative, never more than the braces that opened, and zero only while none was
counted. So the annotated level tells where a line stands, and 32 bits hold all sums as long as there
are not 2^31 braces.
-/

set_option autoImplicit false
namespace HeaderFlattening

namespace Scan

variable {startsInline : Bool} {source : Text} {two one : Option Text} {s : Scan} {depth : Int}

/-- No braces are counted while words are read in search of functions. -/
theorem shallow_step (w : Text) (h : ∀ depth, s.function = .body depth → depth = 0)
    (inside : (step startsInline source two w s).function = .body depth) : depth = 0 := by
  cases function : s.function with
  | outside =>
    simp only [step, function, outside] at inside
    split_ifs at inside
    all_goals simp_all
  | signature =>
    simp only [step, function, inSignature] at inside
    split_ifs at inside
    all_goals simp_all
  | body d =>
    obtain rfl := h d function
    simp only [step, function, behindSignature, if_true] at inside
    split_ifs at inside
    all_goals simp_all

theorem shallow_steps (ws : List Text) (h : ∀ depth, s.function = .body depth → depth = 0)
    (inside : (steps startsInline source two one ws s).function = .body depth) : depth = 0 := by
  induction ws generalizing two one s with
  | nil => exact h depth inside
  | cons w ws ih => exact ih (fun _ => shallow_step w h) inside

theorem shallow_line {l : Line} {function : FunctionState} {cursor : Cursor}
    (h : ∀ depth, function ≠ .body depth) (inside : (line l function cursor).function = .body depth) :
    depth = 0 := by
  rw [line, tokens_eq_steps] at inside
  exact shallow_steps _ (fun d body => absurd body (h d)) inside

end Scan

/-- The depth is what these words, counted since the signature was closed, make it. -/
structure DepthOf (depth : Int) (ws : List Text) : Prop where
  balance : depth = braceBalance ws
  nonneg : 0 ≤ depth
  zero : depth = 0 → braceCount ws = 0

theorem depthOf_nil : DepthOf 0 [] := ⟨rfl, Int.le_refl 0, fun _ => rfl⟩

theorem DepthOf.le_count {depth : Int} {ws : List Text} (h : DepthOf depth ws) :
    depth ≤ ws.count ['{'] := by
  have balance := h.balance
  unfold braceBalance at balance
  omega

/-- The function state behind words that are counted. -/
def FunctionState.afterWords (depth : Int) (ws : List Text) : FunctionState :=
  if braceCount ws = 0 then .body depth
  else if depth + braceBalance ws ≤ 0 then .outside else .body (depth + braceBalance ws)

theorem FunctionState.afterBodyLine_eq (depth : Int) (l : Line) :
    afterBodyLine depth l = afterWords depth l.words := by
  unfold afterBodyLine afterWords
  by_cases none : braceCount l.words = 0
  · rw [if_pos none, if_neg fun brace => l.hasBrace_iff.1 brace none]
  · rw [if_neg none, if_pos (l.hasBrace_iff.2 none)]
    rfl

theorem DepthOf.afterWords {depth next : Int} {ws more : List Text} (h : DepthOf depth ws)
    (inside : FunctionState.afterWords depth more = .body next) : DepthOf next (ws ++ more) := by
  unfold FunctionState.afterWords at inside
  have balance := h.balance
  split_ifs at inside with none out
  · cases inside
    have same := braceBalance_of_braceCount none
    refine ⟨?_, h.nonneg, fun zero => ?_⟩
    · rw [braceBalance_append]
      omega
    · rw [braceCount_append, h.zero zero, none]
  · cases inside
    refine ⟨?_, by omega, fun zero => absurd zero (by omega)⟩
    rw [braceBalance_append, balance]

/-- A line that gets to the stages for types has no more of a delimiter than the one that was read, unless
an edit adds some. -/
theorem Config.count_typesLine_le {config : Config} {c : Char} (delimiter : Token.isDelimiter c = true)
    (edits : ∀ e ∈ config.edits, e.replacement.count c ≤ e.search.count c) {m : Mode} {raw : Text}
    {edit : Option MacroEdit} {l : Line} (h : config.typesLine? m raw = some (edit, l)) :
    l.words.count [c] ≤ (Line.cut raw).words.count [c] := by
  have count (t : Text) : (Line.cut t).words.count [c] = t.count c := Token.count_wordsOf delimiter t
  rw [← words_outdent config m raw]
  rcases typesLine?_cases h with rfl | ⟨e, mem, text, rfl, replaced⟩
  · exact Nat.le_refl _
  · rw [count, count]
    exact Text.count_replaceAll_le (edits e mem) replaced

namespace Conversion

variable {config : Config} {raw : Text} {s t : State}

/-- The words whose braces are counted at the stage that follows functions: those of a line of a
function body, unless an enum or a struct is open. -/
def countedAt (t : State) : List Text :=
  if t.mode.enumBody.isSome || t.mode.structBody.isSome then []
  else
    match t.mode.function with
    | .body _ => t.line.words
    | _ => []

/-- The words of a line whose braces are counted. -/
def wordsCounted (config : Config) (raw : Text) (s : State) : List Text :=
  (functionStageOf? config raw s).elim [] countedAt

/-- The words whose braces are counted on these lines. -/
def allWordsCounted (config : Config) : List Text → State → List Text
  | [], _ => []
  | raw :: rest, s =>
    wordsCounted config raw s ++ allWordsCounted config rest (stateAfter (processLine config raw) s)

theorem allWordsCounted_append (config : Config) (xs ys : List Text) (s : State) :
    allWordsCounted config (xs ++ ys) s =
      allWordsCounted config xs s ++ allWordsCounted config ys (runLines config xs s) := by
  induction xs generalizing s with
  | nil => rfl
  | cons raw xs ih => rw [List.cons_append, allWordsCounted, ih, allWordsCounted, List.append_assoc]; rfl

/-- A line of a body moves the depth by the braces that are counted on it. -/
theorem function_processLine_body {depth : Int} (h : s.mode.function = .body depth) :
    (stateAfter (processLine config raw) s).mode.function =
      .afterWords depth (wordsCounted config raw s) := by
  have books := congrArg FunctionBooks.function (functionBooks_processLine config raw s)
  refine books.trans ?_
  unfold wordsCounted
  cases stage : functionStageOf? config raw s with
  | none => exact h
  | some t =>
    have same : t.mode.function = .body depth := by rw [mode_of_functionStageOf? stage, h]
    simp only [Option.elim_some, State.followed, countedAt, same]
    split_ifs
    · exact same
    · exact FunctionState.afterBodyLine_eq depth t.line

/-- On any other line a body can only be entered. -/
theorem depth_processLine {depth : Int} (h : ∀ depth, s.mode.function ≠ .body depth)
    (inside : (stateAfter (processLine config raw) s).mode.function = .body depth) : depth = 0 := by
  have books := congrArg FunctionBooks.function (functionBooks_processLine config raw s)
  have inside := books.symm.trans inside
  cases stage : functionStageOf? config raw s with
  | none =>
    rw [stage] at inside
    exact absurd inside (h depth)
  | some t =>
    rw [← mode_of_functionStageOf? stage] at h
    rw [stage, Option.elim_some, State.followed] at inside
    split_ifs at inside
    · exact absurd inside (h depth)
    · cases function : t.mode.function with
      | body d => exact absurd function (h d)
      | outside | signature =>
        rw [function] at h inside
        exact Scan.shallow_line h inside

/-- A function is open behind `opening ++ since`: its signature was closed on the last line of `opening`,
and all lines since then started in its body. -/
structure OpenBody (config : Config) (start : State) (opening since : List Text) : Prop where
  closed : ∃ before raw, opening = before ++ [raw] ∧
    ∀ depth, (runLines config before start).mode.function ≠ .body depth
  entered : (runLines config opening start).mode.function = .body 0
  inside : ∀ xs, xs <+: since →
    ∃ depth, (runLines config (opening ++ xs) start).mode.function = .body depth

theorem runLines_concat (config : Config) (ls : List Text) (raw : Text) (s : State) :
    runLines config (ls ++ [raw]) s = stateAfter (processLine config raw) (runLines config ls s) :=
  runLines_append config ls [raw] s

/-- A function that is open was entered on one of the lines, and its depth has counted the braces
since. -/
theorem exists_openBody {start : State} (out : ∀ depth, start.mode.function ≠ .body depth)
    {ls : List Text} {depth : Int} (h : (runLines config ls start).mode.function = .body depth) :
    ∃ opening since, ls = opening ++ since ∧ OpenBody config start opening since ∧
      DepthOf depth (allWordsCounted config since (runLines config opening start)) := by
  induction ls using List.reverseRecOn generalizing depth with
  | nil => exact absurd h (out depth)
  | append_singleton ls raw ih =>
    have last := h
    rw [runLines_concat] at last
    by_cases body : ∃ d, (runLines config ls start).mode.function = .body d
    · obtain ⟨d, body⟩ := body
      obtain ⟨opening, since, rfl, was, counted⟩ := ih body
      rw [function_processLine_body body] at last
      refine ⟨opening, since ++ [raw], List.append_assoc .., ⟨was.closed, was.entered, ?_⟩, ?_⟩
      · intro xs shorter
        rcases List.prefix_concat_iff.1 shorter with rfl | shorter
        · rw [← List.append_assoc]
          exact ⟨depth, h⟩
        · exact was.inside xs shorter
      · rw [allWordsCounted_append, ← runLines_append]
        simp only [allWordsCounted, List.append_nil]
        exact counted.afterWords last
    · have none : ∀ d, (runLines config ls start).mode.function ≠ .body d :=
        fun d inside => body ⟨d, inside⟩
      obtain rfl := depth_processLine none last
      refine ⟨ls ++ [raw], [], (List.append_nil _).symm, ⟨⟨ls, raw, rfl, none⟩, h, ?_⟩, depthOf_nil⟩
      intro xs empty
      rw [List.prefix_nil.1 empty, List.append_nil]
      exact ⟨0, h⟩

/-- The depth is within the braces counted on all lines. -/
theorem depth_le_braceCount {start : State} (out : ∀ depth, start.mode.function ≠ .body depth)
    {ls : List Text} {depth : Int} (h : (runLines config ls start).mode.function = .body depth) :
    0 ≤ depth ∧ depth ≤ braceCount (allWordsCounted config ls start) := by
  obtain ⟨opening, since, rfl, -, counted⟩ := exists_openBody out h
  have le := counted.le_count
  rw [allWordsCounted_append, braceCount_append]
  refine ⟨counted.nonneg, ?_⟩
  unfold braceCount
  omega

theorem count_allWordsCounted_le {c : Char} (delimiter : Token.isDelimiter c = true)
    (edits : ∀ e ∈ config.edits, e.replacement.count c ≤ e.search.count c) (ls : List Text)
    (s : State) : (allWordsCounted config ls s).count [c] ≤
      (ls.flatMap fun raw => (Line.cut raw).words).count [c] := by
  have line (raw : Text) (s : State) :
      (wordsCounted config raw s).count [c] ≤ (Line.cut raw).words.count [c] := by
    unfold wordsCounted
    cases stage : functionStageOf? config raw s with
    | none => exact Nat.zero_le _
    | some t =>
      obtain ⟨edit, l, seen, rfl⟩ := exists_of_functionStageOf? stage
      simp only [Option.elim_some, countedAt]
      split_ifs
      · exact Nat.zero_le _
      · split
        · exact Config.count_typesLine_le delimiter edits seen
        · exact Nat.zero_le _
  induction ls generalizing s with
  | nil => exact Nat.le_refl _
  | cons raw ls ih =>
    rw [allWordsCounted, List.flatMap_cons, List.count_append, List.count_append]
    exact Nat.add_le_add (line raw s) (ih _)

/-- If no edit adds braces, no more of them are counted than there are in the lines. -/
theorem braces_allWordsCounted_le (edits : config.AddsNoBraces) (ls : List Text) (s : State) :
    (allWordsCounted config ls s).count ['{'] ≤
        (ls.flatMap fun raw => (Line.cut raw).words).count ['{'] ∧
      braceCount (allWordsCounted config ls s) ≤
        braceCount (ls.flatMap fun raw => (Line.cut raw).words) := by
  have opened := count_allWordsCounted_le (c := '{') (by decide) (fun e mem => (edits e mem).1) ls s
  have closed := count_allWordsCounted_le (c := '}') (by decide) (fun e mem => (edits e mem).2) ls s
  exact ⟨opened, Nat.add_le_add opened closed⟩

/-- With a depth of 32 bits a line of a body comes to the same function state, if few braces were
counted up to the end of the line. -/
theorem exists_follow32 {start : State} (out : ∀ depth, start.mode.function ≠ .body depth)
    {before : List Text} {depth : Int32}
    (few : braceCount (allWordsCounted config (before ++ [raw]) start) < 2 ^ 31)
    (stage : functionStageOf? config raw (runLines config before start) = some t) (w : t.Watching)
    (body : t.mode.function = .body depth.toInt) :
    ∃ f, FunctionState32.afterBodyLine? depth t.line = some f ∧
      f.widen = (runLines config (before ++ [raw]) start).mode.function := by
  have here : (runLines config before start).mode.function = .body depth.toInt := by
    rw [← mode_of_functionStageOf? stage, body]
  have words : wordsCounted config raw (runLines config before start) = t.line.words := by
    simp only [wordsCounted, stage, Option.elim_some, countedAt, w.enum, w.struct, body]
    rfl
  obtain ⟨nonneg, le⟩ := depth_le_braceCount out here
  rw [allWordsCounted_append, braceCount_append] at few
  simp only [allWordsCounted, List.append_nil, words] at few
  have fits : depth.toInt.natAbs + braceCount t.line.words < 2 ^ 31 := by omega
  obtain ⟨f, found, same⟩ := FunctionState32.exists_afterBodyLine fits
  refine ⟨f, found, ?_⟩
  rw [runLines_concat, function_processLine_body here, words, same]
  exact FunctionState.afterBodyLine_eq depth.toInt t.line

/-- The depth of functions stays well-formed, whatever the lines. In a body it is the number of braces
that were opened on the lines counted since the signature was closed, less those that were closed; it is
neither negative nor more than those opened, and zero only if no brace was counted. So the level, which
every annotated line shows as it is behind the line, is 0 outside functions, -1 in a signature and at
least 1 in a body. If fewer than 2^31 - 1 braces are counted in all, the function state fits in 32 bits,
and no sum overflows: not in the level, not in the count of the braces of a line, and not in the new
depth. Tokens are those that a line has behind a macro edit; unless an edit adds braces, no more of them
are counted than the lines have as they are read. -/
theorem function_depth_wellFormed (config : Config) (room : Option Nat) (ls : List Text) :
    let start : State := { sink := { room } }
    let s := runLines config ls start
    (match s.mode.function with
      | .outside => s.mode.function.level = 0
      | .signature => s.mode.function.level = -1
      | .body depth => 1 ≤ s.mode.function.level ∧
          ∃ opening since, ls = opening ++ since ∧ OpenBody config start opening since ∧
            let ws := allWordsCounted config since (runLines config opening start)
            depth = braceBalance ws ∧ 0 ≤ depth ∧ depth ≤ ws.count ['{'] ∧
              (depth = 0 → braceCount ws = 0)) ∧
    (∀ before raw after, ls = before ++ raw :: after →
      ∀ t, functionStageOf? config raw (runLines config before start) = some t → t.Watching →
        belongsToFunction t = true →
        let u := runLines config (before ++ [raw]) start
        u.emitted = (runLines config before start).emitted ++
          config.rules.suppression.render u.mode.function.level t.line.text) ∧
    (braceCount (allWordsCounted config ls start) < 2 ^ 31 - 1 →
      (∀ xs, xs <+: ls →
        let f := (runLines config xs start).mode.function
        ∃ g : FunctionState32, g.widen = f ∧ g.level?.map Int32.toInt = some f.level) ∧
      ∀ before raw after, ls = before ++ raw :: after →
        ∀ t, functionStageOf? config raw (runLines config before start) = some t → t.Watching →
          ∀ depth : Int32, t.mode.function = .body depth.toInt →
          ∃ g, FunctionState32.afterBodyLine? depth t.line = some g ∧
            g.widen = (runLines config (before ++ [raw]) start).mode.function) ∧
    (config.AddsNoBraces → ∀ before after, ls = before ++ after →
      let ws := allWordsCounted config after (runLines config before start)
      let tokens := after.flatMap fun raw => (Line.cut raw).words
      ws.count ['{'] ≤ tokens.count ['{'] ∧ braceCount ws ≤ braceCount tokens) := by
  intro start s
  have out : ∀ depth, start.mode.function ≠ .body depth := fun _ => FunctionState.noConfusion
  have part {xs : List Text} (le : xs <+: ls) :
      braceCount (allWordsCounted config xs start) ≤ braceCount (allWordsCounted config ls start) := by
    obtain ⟨ys, rfl⟩ := le
    rw [allWordsCounted_append, braceCount_append]
    omega
  have upTo {before after : List Text} {raw : Text} (eq : ls = before ++ raw :: after) :
      before ++ [raw] <+: ls := ⟨after, by rw [eq, List.append_assoc]; rfl⟩
  refine ⟨?_, ?_, fun few => ⟨?_, ?_⟩,
    fun edits before after _ => braces_allWordsCounted_le edits after _⟩
  · cases function : s.mode.function with
    | outside | signature => rfl
    | body depth =>
      obtain ⟨opening, since, eq, was, counted⟩ := exists_openBody out function
      refine ⟨?_, opening, since, eq, was, counted.balance, counted.nonneg, counted.le_count,
        counted.zero⟩
      have nonneg := counted.nonneg
      show 1 ≤ 1 + depth
      omega
  · intro before raw after _ t stage w inside
    simp only [runLines_concat]
    exact emitted_processLine stage w inside
  · intro xs le
    refine FunctionState32.exists_widen_eq fun depth body => ?_
    obtain ⟨nonneg, most⟩ := depth_le_braceCount out body
    have total := part le
    omega
  · intro before raw after eq t stage w depth body
    have total := part (upTo eq)
    exact exists_follow32 out (by omega) stage w body

example : (runLines {} ["void f()\n".toList, "\x7b\n".toList] {}).mode.function = .body 1 := by
  decide

end Conversion
end HeaderFlattening
