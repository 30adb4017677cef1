import HeaderFlattening.Conversion.Signature
import Mathlib.Tactic.SplitIfs

/-!
Reading the tokens of a line outside function bodies. A signature takes the scan behind its closing
parenthesis; from there a semicolon leads outside again, and so does every later call that has its
own semicolon. `Settled` describes the rests of lines behind which no function is open.
-/

set_option autoImplicit false
namespace HeaderFlattening

/-- A word at which the scan of a line stops. -/
def stopsScan (w : Text) : Bool := w = "#define".toList || w = "typedef".toList

/-- Whether the last parenthesis is an opening one. -/
def parenOpen (words : List Text) : Bool :=
  words.foldl (fun isOpen w => if w = ['('] then true else if w = [')'] then false else isOpen) false

/-- The words of a line with a signature whose parameters hold no parentheses. What stands before the
name may hold them, as attributes do, if they are closed. -/
structure Signature where
  before : List Text
  name : Text
  params : List Text
  after : List Text
  identifier : name.isIdentifier = true
  closed : parenOpen before = false
  plain : ∀ w ∈ params, w ≠ ['('] ∧ w ≠ [')'] ∧ w ≠ [';']
  scanned : ∀ w ∈ before ++ name :: params, stopsScan w = false

/-- The words before the parenthesis that closes the signature. -/
def Signature.head (g : Signature) : List Text := g.before ++ g.name :: ['('] :: g.params

def Signature.words (g : Signature) : List Text := g.head ++ [')'] :: g.after

/-- The last of these words. -/
def Signature.last (g : Signature) : Text := (['('] :: g.params).getLast (List.cons_ne_nil _ _)

/-- The two words before a place, after more words were read. -/
def lastTwo (two one : Option Text) : List Text → Option Text × Option Text
  | [] => (two, one)
  | w :: ws => lastTwo one (some w) ws

/-- Whether a parenthesis behind a name is among the words that follow `two` and `one`. -/
def hasCall (two one : Text) : List Text → Bool
  | [] => false
  | w :: ws => (w = ['('] && Scan.isCallable one (some two)) || hasCall one w ws

/-- The words behind a signature leave no function open: there is a semicolon, and each call behind
it has its parentheses and another semicolon. -/
inductive Settled : (two one : Text) → List Text → Prop
  | pass {two one w : Text} {ws : List Text} (h : w ≠ [';']) (rest : Settled one w ws) :
      Settled two one (w :: ws)
  | ended {two one : Text} {ws : List Text} (h : hasCall one [';'] ws = false) :
      Settled two one ([';'] :: ws)
  | again {two one : Text} {ws args rest : List Text} (before : hasCall one [';'] ws = false)
      (call : hasCall one [';'] (ws ++ [['(']]) = true) (open' : [')'] ∉ args)
      (last : Text) (back : (['('] :: args).getLast? = some last) (rest' : Settled last [')'] rest) :
      Settled two one ([';'] :: ws ++ ['('] :: args ++ [')'] :: rest)

namespace Scan

/-- The words read one after the other, none of which stops the scan. -/
def steps (startsInline : Bool) (source : Text) :
    (twoBack oneBack : Option Text) → List Text → Scan → Scan
  | _, _, [], s => s
  | two, one, w :: ws, s => steps startsInline source one (some w) ws (step startsInline source two w s)

variable {startsInline : Bool} {source : Text} {two one : Option Text}

/-- The scan reads the words before the first that stops it. -/
theorem tokens_eq_steps (ws : List Text) (s : Scan) :
    tokens startsInline source two one ws s =
      steps startsInline source two one (ws.takeWhile fun w => !stopsScan w) s := by
  induction ws generalizing two one s with
  | nil => rfl
  | cons w ws ih =>
    rw [tokens]
    by_cases stop : w = "#define".toList ∨ w = "typedef".toList
    · rw [if_pos stop, List.takeWhile_cons_of_neg]
      · rfl
      · have stops : stopsScan w = true := by
          unfold stopsScan
          rw [Bool.or_eq_true, decide_eq_true_eq, decide_eq_true_eq]
          exact stop
        rw [stops]
        exact Bool.false_ne_true
    · rw [if_neg stop, List.takeWhile_cons_of_pos]
      · exact ih _
      · have goes : stopsScan w = false := by
          unfold stopsScan
          rw [Bool.or_eq_false_iff, decide_eq_false_iff_not, decide_eq_false_iff_not]
          exact not_or.1 stop
        rw [goes]
        rfl

theorem steps_append (ws vs : List Text) (s : Scan) :
    steps startsInline source two one (ws ++ vs) s =
      steps startsInline source (lastTwo two one ws).1 (lastTwo two one ws).2 vs
        (steps startsInline source two one ws s) := by
  induction ws generalizing two one s with
  | nil => rfl
  | cons w ws ih => exact ih _

theorem previous_step (w : Text) (s : Scan) :
    (step startsInline source two w s).cursor.previous = w := rfl

theorem suppress_step (w : Text) {s : Scan} (h : s.suppress = true) :
    (step startsInline source two w s).suppress = true := by
  unfold step outside inSignature behindSignature
  cases s.function with
  | outside =>
    simp only []
    split_ifs <;> simp_all
  | signature =>
    simp only []
    split_ifs <;> simp_all
  | body depth =>
    simp only []
    split_ifs <;> simp_all

theorem suppress_steps (ws : List Text) {s : Scan} (h : s.suppress = true) :
    (steps startsInline source two one ws s).suppress = true := by
  induction ws generalizing two one s with
  | nil => exact h
  | cons w ws ih => exact ih (suppress_step w h)

variable {s : Scan}

theorem function_step_outside (w : Text) (h : s.function = .outside) :
    (step false source two w s).function =
      if w = ['('] ∧ isCallable s.cursor.previous two then .signature else .outside := by
  simp only [step, h, outside, Bool.false_eq_true, if_false]
  split_ifs
  · rfl
  · exact h

theorem function_step_signature (w : Text) (h : s.function = .signature) :
    (step startsInline source two w s).function = if w = [')'] then .body 0 else .signature := by
  simp only [step, h, inSignature]
  split_ifs with comma close
  · rw [comma] at close
    exact absurd close (by decide)
  · rfl
  · rfl
  · exact h

theorem function_step_behind (w : Text) (h : s.function = .body 0) :
    (step startsInline source two w s).function = if w = [';'] then .outside else .body 0 := by
  simp only [step, h, behindSignature, if_true]
  split_ifs
  · rfl
  · exact h

/-- A word that is no parenthesis behind a name opens no signature. -/
theorem function_step_noCall {w x y : Text} (h : s.function = .outside)
    (previous : s.cursor.previous = y) (noCall : (w = ['('] && isCallable y (some x)) = false) :
    (step false source (some x) w s).function = .outside := by
  rw [function_step_outside w h, previous, if_neg]
  rintro ⟨paren, callable⟩
  rw [paren, callable] at noCall
  exact Bool.false_ne_true noCall.symm

theorem function_steps_outside {ws : List Text} {x y : Text} (h : s.function = .outside)
    (previous : s.cursor.previous = y) (noCall : hasCall x y ws = false) :
    (steps false source (some x) (some y) ws s).function = .outside := by
  induction ws generalizing x y s with
  | nil => exact h
  | cons w ws ih =>
    rw [hasCall, Bool.or_eq_false_iff] at noCall
    exact ih (function_step_noCall h previous noCall.1) rfl noCall.2

theorem function_steps_call {ws : List Text} {x y : Text} (h : s.function = .outside)
    (previous : s.cursor.previous = y) (noCall : hasCall x y ws = false)
    (call : hasCall x y (ws ++ [['(']]) = true) :
    (steps false source (some x) (some y) (ws ++ [['(']]) s).function = .signature := by
  induction ws generalizing x y s with
  | nil =>
    have callable : isCallable y (some x) = true := by simpa [hasCall] using call
    rw [List.nil_append, steps, steps, function_step_outside _ h, previous]
    exact if_pos ⟨rfl, callable⟩
  | cons w ws ih =>
    rw [hasCall, Bool.or_eq_false_iff] at noCall
    rw [List.cons_append, hasCall, noCall.1, Bool.false_or] at call
    exact ih (function_step_noCall h previous noCall.1) rfl noCall.2 call

theorem function_steps_signature {ws : List Text} (h : s.function = .signature) (noClose : [')'] ∉ ws) :
    (steps startsInline source two one ws s).function = .signature := by
  induction ws generalizing two one s with
  | nil => exact h
  | cons w ws ih =>
    rw [List.mem_cons, not_or] at noClose
    refine ih ?_ noClose.2
    rw [function_step_signature w h, if_neg (Ne.symm noClose.1)]

theorem function_steps_behind {ws : List Text} (h : s.function = .body 0) (noEnd : [';'] ∉ ws) :
    (steps startsInline source two one ws s).function = .body 0 := by
  induction ws generalizing two one s with
  | nil => exact h
  | cons w ws ih =>
    rw [List.mem_cons, not_or] at noEnd
    refine ih ?_ noEnd.2
    rw [function_step_behind w h, if_neg (Ne.symm noEnd.1)]

theorem lastTwo_append (ws vs : List Text) :
    lastTwo two one (ws ++ vs) = lastTwo (lastTwo two one ws).1 (lastTwo two one ws).2 vs := by
  induction ws generalizing two one with
  | nil => rfl
  | cons w ws ih => exact ih

theorem snd_lastTwo (w : Text) (ws : List Text) :
    (lastTwo two one (w :: ws)).2 = (w :: ws).getLast? := by
  induction ws generalizing two one w with
  | nil => rfl
  | cons v ws ih =>
    rw [List.getLast?_cons_cons]
    have back : (lastTwo one (some w) (v :: ws)).2 = (v :: ws).getLast? := ih v
    exact back

theorem snd_lastTwo_or (ws : List Text) : (lastTwo two one ws).2 = ws.getLast?.or one := by
  cases ws with
  | nil => rfl
  | cons w ws =>
    rw [snd_lastTwo, List.getLast?_cons]
    rfl

/-- Behind a settled rest the scan is outside. -/
theorem outside_of_settled {ws : List Text} {x y : Text} (settled : Settled x y ws)
    (h : s.function = .body 0) :
    (steps false source (some x) (some y) ws s).function = .outside := by
  induction settled generalizing s with
  | pass ne _ ih =>
    refine ih ?_
    rw [function_step_behind _ h, if_neg ne]
  | ended noCall =>
    rw [steps]
    refine function_steps_outside ?_ rfl noCall
    rw [function_step_behind _ h, if_pos rfl]
  | @again x y ws args rest noCall call noClose last back _ ih =>
    have semicolon : (step false source (some x) [';'] s).function = .outside := by
      rw [function_step_behind _ h, if_pos rfl]
    have opened : (steps false source (some y) (some [';']) (ws ++ [['(']])
        (step false source (some x) [';'] s)).function = .signature :=
      function_steps_call semicolon rfl noCall call
    rw [show [';'] :: ws ++ ['('] :: args ++ [')'] :: rest =
      [';'] :: ((ws ++ [['(']]) ++ (args ++ [')'] :: rest)) by simp]
    rw [steps, steps_append, steps_append, steps]
    -- The word before the closing parenthesis is the one that the rest looks back to.
    have look : (lastTwo (lastTwo (some y) (some [';']) (ws ++ [['(']])).1
        (lastTwo (some y) (some [';']) (ws ++ [['(']])).2 args).2 = some last := by
      rw [← lastTwo_append, ← back, List.append_assoc, lastTwo_append]
      exact snd_lastTwo _ _
    rw [look]
    refine ih ?_
    rw [function_step_signature _ (function_steps_signature opened noClose), if_pos rfl]

theorem exists_call {ws : List Text} {x y : Text} (h : hasCall x y ws = true) :
    ∃ vs us, ws = vs ++ ['('] :: us ∧ hasCall x y vs = false ∧ hasCall x y (vs ++ [['(']]) = true := by
  induction ws generalizing x y with
  | nil => exact absurd h Bool.false_ne_true
  | cons w ws ih =>
    rw [hasCall, Bool.or_eq_true] at h
    cases here : (w = ['('] && isCallable y (some x)) with
    | true =>
      have paren : w = ['('] := by
        rw [Bool.and_eq_true, decide_eq_true_eq] at here
        exact here.1
      subst paren
      exact ⟨[], ws, rfl, rfl, by rw [List.nil_append, hasCall, here, Bool.true_or]⟩
    | false =>
      obtain ⟨vs, us, rfl, before, call⟩ := ih (h.resolve_left (by rw [here]; exact Bool.false_ne_true))
      refine ⟨w :: vs, us, rfl, ?_, ?_⟩
      · rw [hasCall, here, Bool.false_or]
        exact before
      · rw [List.cons_append, hasCall, here, Bool.false_or]
        exact call

/-- Words behind which the scan is outside are settled. -/
theorem settled_of_outside {ws : List Text} {x y : Text} (h : s.function = .body 0)
    (out : (steps false source (some x) (some y) ws s).function = .outside) : Settled x y ws := by
  induction size : ws.length using Nat.strongRecOn generalizing ws x y s with
  | ind n ih =>
    cases ws with
    | nil =>
      rw [steps, h] at out
      cases out
    | cons w ws =>
      rw [List.length_cons] at size
      rw [steps] at out
      by_cases semicolon : w = [';']
      · subst semicolon
        have outside : (step false source (some x) [';'] s).function = .outside := by
          rw [function_step_behind _ h, if_pos rfl]
        cases calls : hasCall y [';'] ws with
        | false => exact .ended calls
        | true =>
          obtain ⟨vs, us, rfl, before, call⟩ := exists_call calls
          have opened : (steps false source (some y) (some [';']) (vs ++ [['(']])
              (step false source (some x) [';'] s)).function = .signature :=
            function_steps_call outside rfl before call
          rw [show vs ++ ['('] :: us = (vs ++ [['(']]) ++ us by simp, steps_append] at out
          by_cases close : [')'] ∈ us
          · obtain ⟨args, rest, rfl, noClose⟩ := List.eq_append_cons_of_mem close
            have look : (lastTwo (lastTwo (some y) (some [';']) (vs ++ [['(']])).1
                (lastTwo (some y) (some [';']) (vs ++ [['(']])).2 args).2 =
                some ((['('] :: args).getLast (by simp)) := by
              rw [← lastTwo_append, List.append_assoc, lastTwo_append]
              exact (snd_lastTwo _ _).trans (List.getLast?_eq_some_getLast _)
            rw [steps_append, steps, look] at out
            have rest' := ih rest.length (by simp at size; omega)
              (by rw [function_step_signature _ (function_steps_signature opened noClose), if_pos rfl])
              out rfl
            rw [show [';'] :: (vs ++ ['('] :: (args ++ [')'] :: rest)) =
              [';'] :: vs ++ ['('] :: args ++ [')'] :: rest by simp]
            exact .again before call noClose _ (List.getLast?_eq_some_getLast (by simp)) rest'
          · rw [function_steps_signature opened close] at out
            cases out
      · refine .pass semicolon (ih ws.length (by omega) ?_ out rfl)
        rw [function_step_behind _ h, if_neg semicolon]

theorem outside_iff_settled {ws : List Text} {x y : Text} (h : s.function = .body 0) :
    (steps false source (some x) (some y) ws s).function = .outside ↔ Settled x y ws :=
  ⟨settled_of_outside h, fun settled => outside_of_settled settled h⟩

/-- What holds while a line that started outside is read, as long as no body was counted: the scan is
outside, in a signature or behind one, in a signature only with a parenthesis open, and the line is
to be suppressed unless the scan is outside. -/
structure Fresh (isOpen : Bool) (s : Scan) : Prop where
  states : s.function = .outside ∨ s.function = .signature ∨ s.function = .body 0
  isOpen : s.function = .signature → isOpen = true
  suppress : s.function ≠ .outside → s.suppress = true

theorem suppress_step_call (w : Text) (h : s.function = .outside)
    (opened : (step startsInline source two w s).function ≠ .outside) :
    (step startsInline source two w s).suppress = true := by
  revert opened
  simp only [step, h, outside]
  split_ifs
  · exact fun _ => rfl
  · exact fun _ => rfl
  · exact fun ne => absurd h ne

theorem Fresh.step {isOpen : Bool} (f : Fresh isOpen s) (w : Text) :
    Fresh (if w = ['('] then true else if w = [')'] then false else isOpen)
      (step false source two w s) := by
  rcases f.states with out | sign | behind
  · have after : (Scan.step false source two w s).function = _ := function_step_outside w out
    refine ⟨?_, ?_, suppress_step_call w out⟩
    · rw [after]
      split_ifs <;> simp
    · rw [after]
      split_ifs with call <;> simp_all
  · have after : (Scan.step false source two w s).function = _ := function_step_signature w sign
    have open' := f.isOpen sign
    have suppressed : s.suppress = true := f.suppress (by rw [sign]; simp)
    refine ⟨?_, ?_, fun _ => suppress_step w suppressed⟩
    · rw [after]
      split_ifs <;> simp
    · rw [after]
      split_ifs <;> simp_all
  · have after : (Scan.step false source two w s).function = _ := function_step_behind w behind
    have suppressed : s.suppress = true := f.suppress (by rw [behind]; simp)
    refine ⟨?_, ?_, fun _ => suppress_step w suppressed⟩
    · rw [after]
      split_ifs <;> simp
    · rw [after]
      split_ifs <;> simp_all

theorem Fresh.steps {isOpen : Bool} (f : Fresh isOpen s) (ws : List Text) :
    Fresh (ws.foldl (fun b w => if w = ['('] then true else if w = [')'] then false else b) isOpen)
      (steps false source two one ws s) := by
  induction ws generalizing isOpen two one s with
  | nil => exact f
  | cons w ws ih => exact ih (f.step w)

theorem ne_of_isIdentifier {w : Text} (h : w.isIdentifier = true) :
    w ≠ ['('] ∧ w ≠ [')'] ∧ w ≠ [';'] := by
  refine ⟨?_, ?_, ?_⟩
  all_goals
    rintro rfl
    exact absurd h (by decide)

theorem steps_signature (g : Signature) (h : s.function = .outside) :
    (steps false source two one (g.head ++ [[')']]) s).function = .body 0 ∧
    (steps false source two one (g.head ++ [[')']]) s).suppress = true := by
  have start : Fresh false s := ⟨.inl h, by simp [h], fun ne => absurd h ne⟩
  have before : Fresh (parenOpen g.before) (steps false source two one g.before s) := start.steps g.before
  rw [g.closed] at before
  rw [Signature.head, List.append_assoc, steps_append]
  generalize steps false source two one g.before s = t at before
  generalize (lastTwo two one g.before).1 = a
  generalize (lastTwo two one g.before).2 = b
  obtain ⟨notOpen, notClose, notEnd⟩ := ne_of_isIdentifier g.identifier
  rcases before.states with out | sign | behind
  · have named : (step false source a g.name t).function = .outside := by
      rw [function_step_outside _ out, if_neg fun call => notOpen call.1]
    have opened : (step false source b ['('] (step false source a g.name t)).function =
        .signature := by
      rw [function_step_outside _ named, if_pos]
      refine ⟨rfl, ?_⟩
      rw [previous_step, isCallable, g.identifier]
      rfl
    have suppressed : (step false source b ['('] (step false source a g.name t)).suppress = true :=
      suppress_step_call _ named (by rw [opened]; simp)
    rw [List.cons_append, List.cons_append, steps, steps, steps_append]
    constructor
    · rw [steps, steps, function_step_signature _ (function_steps_signature opened ?_), if_pos rfl]
      exact fun mem => (g.plain _ mem).2.1 rfl
    · exact suppress_steps _ (suppress_steps _ suppressed)
  · exact absurd (before.isOpen sign) Bool.false_ne_true
  · have suppressed : t.suppress = true := before.suppress (by rw [behind]; simp)
    refine ⟨function_steps_behind behind ?_, suppress_steps _ suppressed⟩
    intro mem
    simp only [List.mem_append, List.mem_cons, List.not_mem_nil, or_false] at mem
    rcases mem with (name | paren | param) | close
    · exact notEnd name.symm
    · exact absurd paren (by decide)
    · exact (g.plain _ param).2.2 rfl
    · exact absurd close (by decide)

theorem lastTwo_signature (g : Signature) :
    lastTwo two one (g.head ++ [[')']]) = (some g.last, some [')']) := by
  have last : (lastTwo two one g.head).2 = some g.last := by
    rw [Signature.head, show g.before ++ g.name :: ['('] :: g.params =
      (g.before ++ [g.name]) ++ ['('] :: g.params by simp, lastTwo_append, snd_lastTwo]
    exact List.getLast?_eq_some_getLast _
  rw [lastTwo_append, lastTwo, lastTwo, last]

theorem takeWhile_signature (g : Signature) :
    g.words.takeWhile (fun w => !stopsScan w) =
      (g.head ++ [[')']]) ++ g.after.takeWhile fun w => !stopsScan w := by
  rw [Signature.words, show g.head ++ [')'] :: g.after = (g.head ++ [[')']]) ++ g.after by simp]
  refine List.takeWhile_append_of_pos fun w mem => ?_
  have goes : stopsScan w = false := by
    simp only [Signature.head, List.mem_append, List.mem_cons, List.not_mem_nil, or_false] at mem
    rcases mem with (before | name | paren | param) | close
    · exact g.scanned w (by simp [before])
    · exact g.scanned w (by simp [name])
    · rw [paren]
      decide
    · exact g.scanned w (by simp [param])
    · rw [close]
      decide
  rw [goes]
  rfl

variable {l : Line} {g : Signature} (words : l.words = g.words) (cursor : Cursor)

include words

/-- How a line with a signature is read: behind the signature only what follows it counts. -/
theorem exists_line_signature (h : l.word? 0 ≠ some "inline".toList) :
    ∃ t : Scan, t.function = .body 0 ∧ t.suppress = true ∧
      line l .outside cursor = steps false l.text (some g.last) (some [')'])
        (g.after.takeWhile fun w => !stopsScan w) t := by
  obtain ⟨behind, suppressed⟩ : _ ∧ _ :=
    steps_signature g (s := { function := .outside, cursor }) rfl
  refine ⟨_, behind, suppressed, ?_⟩
  rw [line, decide_eq_false h, words, tokens_eq_steps, takeWhile_signature, steps_append,
    lastTwo_signature]

theorem suppress_line_signature (h : l.word? 0 ≠ some "inline".toList) :
    (line l .outside cursor).suppress = true := by
  obtain ⟨t, -, suppressed, eq⟩ := exists_line_signature words cursor h
  rw [eq]
  exact suppress_steps _ suppressed

theorem function_line_signature (h : l.word? 0 ≠ some "inline".toList) (noEnd : [';'] ∉ g.after) :
    (line l .outside cursor).function = .body 0 := by
  obtain ⟨t, behind, -, eq⟩ := exists_line_signature words cursor h
  rw [eq]
  exact function_steps_behind behind fun mem => noEnd ((List.takeWhile_sublist _).mem mem)

/-- With a whole body on the line no function is open behind it just if the body is settled. -/
theorem line_outside_iff (h : l.word? 0 ≠ some "inline".toList) :
    (line l .outside cursor).function = .outside ↔
      Settled g.last [')'] (g.after.takeWhile fun w => !stopsScan w) := by
  obtain ⟨t, behind, -, eq⟩ := exists_line_signature words cursor h
  rw [eq]
  exact outside_iff_settled behind

omit words

theorem function_steps_inline (ws : List Text) (h : s.function = .outside) :
    (steps true source two one ws s).function = .outside := by
  induction ws generalizing two one s with
  | nil => exact h
  | cons w ws ih =>
    refine ih ?_
    simp only [step, h, outside, if_true]

theorem line_inline (h : l.word? 0 = some "inline".toList) :
    (line l .outside cursor).function = .outside ∧ (line l .outside cursor).suppress = true := by
  rw [line, decide_eq_true h, tokens_eq_steps]
  refine ⟨function_steps_inline _ rfl, ?_⟩
  unfold Line.word? at h
  cases words : l.words with
  | nil =>
    rw [words] at h
    cases h
  | cons w ws =>
    rw [words, List.getElem?_cons_zero, Option.some.injEq] at h
    have goes : stopsScan w = false := by
      rw [h]
      decide
    rw [List.takeWhile_cons_of_pos (by rw [goes]; rfl), steps]
    exact suppress_steps _ rfl

end Scan
end HeaderFlattening
