import HeaderFlattening.Proofs.Concatenation
import HeaderFlattening.Proofs.Kept

/-!
Block comments. Their lines are copied, and the only thing that a line changes behind it is whether
the comment is still open. It is closed by its last token alone, and never by a line that starts with
`//`; where it is closed, the lines behind it are converted as if it were not there.
-/

set_option autoImplicit false
namespace HeaderFlattening

namespace Line

/-- Some token of the line ends in the mark that ends a block comment. -/
def hasEndMark (l : Line) : Bool := l.words.any ("*/".toList.isSuffixOf ·)

/-- An open block comment is closed behind the line. -/
def endsBlock (l : Line) : Bool := !l.leads "//".toList && l.endsComment

variable {l : Line}

theorem hasEndMark_of_endsComment (ends : l.endsComment = true) : l.hasEndMark = true := by
  unfold endsComment lastWord? at ends
  cases last : l.words.getLast? with
  | none =>
    rw [last] at ends
    exact absurd ends (by decide)
  | some w =>
    rw [last] at ends
    have mark : ['/', '*'] <+: w.reverse := by
      rw [← of_decide_eq_true ends]
      exact List.take_prefix 2 _
    refine List.any_eq_true.2 ⟨w, List.mem_of_getLast? last, ?_⟩
    exact List.isSuffixOf_iff_suffix.2 (List.reverse_prefix.1 mark)

theorem endsBlock_of_noEndMark (inner : l.hasEndMark = false) : l.endsBlock = false := by
  rw [endsBlock, Bool.and_eq_false_iff]
  exact .inr (Bool.eq_false_iff.2 (mt hasEndMark_of_endsComment (Bool.eq_false_iff.1 inner)))

end Line

/-- The lines of a block comment, of which only the last holds the end mark. -/
structure CommentBlock (config : Config) (front : List Text) (last : Text) : Prop where
  fits : ∀ raw ∈ front ++ [last], config.Fits raw
  starts : ∀ raw, (front ++ [last]).head? = some raw → (Line.cut raw).leads "/*".toList = true
  inner : ∀ raw ∈ front, (Line.cut raw).hasEndMark = false
  ends : (Line.cut last).hasEndMark = true

namespace State

/-- The state behind lines of which `last` is the last, all of them copied, with the block comment
open or not. -/
def copiedLines (s : State) (front : List Text) (last : Text) (inComment : Bool) : State :=
  { s with
    mode := { s.mode with inComment }
    lineNumber := s.lineNumber + (front ++ [last]).length
    line := .cut last
    indent := []
    emitted := s.emitted ++ (front ++ [last]).map (⟨.copied, ·⟩)
    sink := { s.sink with offered := s.sink.offered ++ (front ++ [last]).map (⟨.copied, ·⟩) } }

/-- What later lines can tell of the lines before, and nothing else. -/
def fresh (s : State) : State :=
  { s with
    lineNumber := 0
    line := {}
    indent := []
    enumValues := {}
    functions := []
    classes := []
    diagnostics := []
    trace := []
    emitted := []
    sink := {} }

theorem fresh_copiedLines (s : State) (front : List Text) (last : Text)
    (outside : s.mode.inComment = false) : (s.copiedLines front last false).fresh = s.fresh := by
  unfold fresh copiedLines
  rw [← outside]

end State

/-- The result of lines behind others that lead to `s`. -/
def Converted.behind (s : State) : Except ConvertError Converted → Except ConvertError Converted
  | .ok c => .ok ⟨s.sink.text ++ c.text, s.report.combine c.report⟩
  | .error e => .error (e.renumber (s.lineNumber + ·))

namespace Conversion

variable {config : Config} {raw : Text} {front : List Text} {last : Text} {s t : State}

theorem put_blockLine (config : Config) (closed : s.mode.classState = .none) (inComment : Bool) :
    ((s.arrive config raw (.copied (.cut raw))).withMode ({ · with inComment })).put ⟨.copied, raw⟩ =
      s.copiedLines [] raw inComment := by
  have direct : ((s.arrive config raw (.copied (.cut raw))).withMode
      ({ · with inComment })).mode.classState.isOpen = false := by
    change s.mode.classState.isOpen = false
    rw [closed]
    rfl
  rw [State.put_closed _ direct]
  unfold State.putDirect State.withMode State.arrive State.copiedLines
  rw [outdent_closed config closed]
  rfl

/-- Blank lines and `//` lines do not open a block comment, and do not end one. -/
theorem not_block_of_passed (passed : (Line.cut raw).Passed) :
    (Line.cut raw).leads "/*".toList = false ∧ (Line.cut raw).endsBlock = false := by
  rcases passed with empty | slashes
  · unfold Line.endsBlock Line.leads Line.endsComment Line.word? Line.lastWord?
    rw [empty]
    decide
  · refine ⟨Bool.eq_false_iff.2 fun star => ?_, by rw [Line.endsBlock, slashes]; rfl⟩
    unfold Line.leads at slashes star
    have two := List.isPrefixOf_iff_prefix.1 slashes
    have one := List.isPrefixOf_iff_prefix.1 star
    cases List.prefix_of_prefix_length_le two one (by decide) |>.eq_of_length rfl

/-- A line of a block comment, its first one included. -/
theorem leaves_blockLine (closed : s.mode.classState = .none) (fits : config.Fits raw)
    (inside : s.mode.inComment = true ∨ (Line.cut raw).leads "/*".toList = true) :
    Leaves (processLine config raw) s () (s.copiedLines [] raw !(Line.cut raw).endsBlock) := by
  by_cases passed : (Line.cut raw).Passed
  · obtain ⟨noStar, open_end⟩ := not_block_of_passed passed
    have comment : s.mode.inComment = true :=
      inside.resolve_right (Bool.eq_false_iff.1 noStar)
    have leaves := leaves_copied (arrives_passed closed fits passed)
    have same : s.arrive config raw (.copied (.cut raw)) =
        (s.arrive config raw (.copied (.cut raw))).withMode ({ · with inComment := true }) := by
      unfold State.withMode State.arrive
      rw [← comment]
    rw [same] at leaves
    rw [open_end, Bool.not_false, ← put_blockLine config closed]
    exact leaves
  · have full : (Line.cut raw).isEmpty = false :=
      Bool.eq_false_iff.2 fun empty => passed (.inl ((Line.isEmpty_iff _).1 empty))
    have slashes : (Line.cut raw).leads "//".toList = false :=
      Bool.eq_false_iff.2 fun leads => passed (.inr leads)
    have claimed := leaves_passComments_block (s := s.arrive config raw (.copied (.cut raw)))
      slashes inside
    have ends : (Line.cut raw).endsBlock = (Line.cut raw).endsComment := by
      rw [Line.endsBlock, slashes]
      rfl
    rw [ends, ← put_blockLine config closed]
    exact leaves_processLine (cut_closed closed fits)
      (leaves_classify_full full ((leaves_firstClaim claimed _).claim rfl))

theorem copiedLines_cons (s : State) (raw : Text) (front : List Text) (last : Text) (b c : Bool) :
    (s.copiedLines [] raw b).copiedLines front last c = s.copiedLines (raw :: front) last c := by
  unfold State.copiedLines
  simp only [List.nil_append, List.length_cons, List.length_nil, List.map_cons, List.map_nil,
    List.cons_append, List.append_assoc, State.mk.injEq, true_and, and_true]
  omega

/-- The lines of a block comment, from its first or from a later one. -/
theorem runLines_block (closed : s.mode.classState = .none)
    (fits : ∀ raw ∈ front ++ [last], config.Fits raw)
    (inside : s.mode.inComment = true ∨
      ∀ raw, (front ++ [last]).head? = some raw → (Line.cut raw).leads "/*".toList = true)
    (inner : ∀ raw ∈ front, (Line.cut raw).hasEndMark = false) :
    runLines config (front ++ [last]) s = s.copiedLines front last !(Line.cut last).endsBlock ∧
      (s.sink.room = none → Runs config (front ++ [last]) s
        (s.copiedLines front last !(Line.cut last).endsBlock)) := by
  induction front generalizing s with
  | nil =>
    have leaves := leaves_blockLine closed (fits last (List.mem_singleton_self last))
      (inside.imp_right fun leads => leads last rfl)
    exact ⟨leaves.stateAfter_eq, fun free => .cons (leaves.run_eq free) (.nil _)⟩
  | cons raw front ih =>
    have leaves := leaves_blockLine closed (fits raw (List.mem_cons_self ..))
      (inside.imp_right fun leads => leads raw rfl)
    have open_end := Line.endsBlock_of_noEndMark (inner raw (List.mem_cons_self ..))
    rw [open_end, Bool.not_false] at leaves
    obtain ⟨state, runs⟩ := ih (s := s.copiedLines [] raw true) closed
      (fun raw mem => fits raw (List.mem_cons_of_mem _ mem)) (.inl rfl)
      (fun raw mem => inner raw (List.mem_cons_of_mem _ mem))
    rw [copiedLines_cons] at state runs
    rw [List.cons_append, runLines, leaves.stateAfter_eq]
    exact ⟨state, fun free => .cons (leaves.run_eq free) (runs free)⟩

/-- What later lines can tell of a state is enough to convert them. -/
theorem follows_fresh (free : s.sink.room = none) :
    Follows s s.fresh { s with line := {}, indent := [] } where
  mode := rfl
  line := rfl
  indent := rfl
  lineNumber := rfl
  pendingEnums := rfl
  pendingMembers := rfl
  memberNames _ := rfl
  cursor := Cursor.alike_refl _ _
  enumValues := (List.append_nil _).symm
  functions := (List.append_nil _).symm
  classes := (List.append_nil _).symm
  diagnostics := (List.append_nil _).symm
  free := rfl
  sink := by
    change s.sink = { room := none, offered := s.sink.offered ++ [] }
    rw [List.append_nil, ← free]

theorem ofResult_behind (free : s.sink.room = none) (closed : s.mode.classState = .none)
    (more : List Text) :
    Converted.ofResult ((processAll config (more.map .ok)).run s) =
      Converted.behind s (Converted.ofResult ((processAll config (more.map .ok)).run s.fresh)) := by
  have beside := agree_processAll config more (follows_fresh free)
  rw [← ofResult_withLine more {} [] (by rw [closed]; rfl), ofResult_agree beside]
  rfl

/-- The lines of a block comment are copied. The comment is closed behind them exactly when the last
line does not start with `//` and its last token ends in the mark, and then the lines behind it are
converted as they would be without it. -/
theorem blockComment_closed_iff (closed : s.mode.classState = .none)
    (outside : s.mode.inComment = false) (block : CommentBlock config front last) :
    let t := runLines config (front ++ [last]) s
    t = s.copiedLines front last t.mode.inComment ∧
      (s.sink.room = none → Runs config (front ++ [last]) s t) ∧
      (t.mode.inComment = false ↔
        (Line.cut last).leads "//".toList = false ∧ (Line.cut last).endsComment = true) ∧
      (s.sink.room = none → t.mode.inComment = false → ∀ more : List Text, ∃ r,
        Converted.ofResult ((processAll config (more.map .ok)).run s) = Converted.behind s r ∧
        Converted.ofResult ((processAll config (more.map .ok)).run t) = Converted.behind t r) := by
  intro t
  obtain ⟨state, runs⟩ := runLines_block closed block.fits (.inr block.starts) block.inner
  have comment : t.mode.inComment = !(Line.cut last).endsBlock := congrArg (·.mode.inComment) state
  refine ⟨by rw [comment]; exact state, fun free => ?_, ?_, fun free ended more => ?_⟩
  · change Runs config _ s (runLines config (front ++ [last]) s)
    rw [state]
    exact runs free
  · rw [comment, Line.endsBlock]
    cases (Line.cut last).leads "//".toList <;> cases (Line.cut last).endsComment <;> decide
  · have own : t = s.copiedLines front last false := by
      rw [← ended, comment]
      exact state
    refine ⟨_, ofResult_behind free closed more, ?_⟩
    rw [← s.fresh_copiedLines front last outside, own]
    exact ofResult_behind (s := s.copiedLines front last false) free closed more

/-- A block comment in front of code on its line. -/
def commentBeforeCode : Text := "/* size */ int x;\n".toList

theorem commentBeforeCode_block : CommentBlock {} [] commentBeforeCode where
  fits := by decide +kernel
  starts raw same := by
    cases same
    decide +kernel
  inner := by decide
  ends := by decide +kernel

/-- The code keeps the comment open. -/
theorem commentBeforeCode_not_closed :
    let t := runLines {} [commentBeforeCode] {}
    t.mode.inComment = true ∧ t.sink.offered = [⟨.copied, commentBeforeCode⟩] := by
  intro t
  obtain ⟨state, -, closed, -⟩ :=
    blockComment_closed_iff (s := {}) rfl rfl commentBeforeCode_block
  have still : ¬(Line.cut commentBeforeCode).endsComment = true := by decide +kernel
  refine ⟨eq_true_of_ne_false fun ended => still (closed.1 ended).2, ?_⟩
  change (runLines {} ([] ++ [commentBeforeCode]) {}).sink.offered = _
  rw [state]
  rfl

end Conversion
end HeaderFlattening
