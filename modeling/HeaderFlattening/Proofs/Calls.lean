import HeaderFlattening.Proofs.Scanning
import Mathlib.Data.List.TakeWhile

/-!
Lines with at most one opening parenthesis. Without one the line has nothing to do with functions;
with one behind a name the line records a function, which is open behind the line unless a semicolon
follows the parameters.
-/

set_option autoImplicit false
namespace HeaderFlattening

/-- The words of a line with one opening parenthesis, which stands behind a name, and with a closing
one behind it. -/
structure Call where
  before : List Text
  name : Text
  params : List Text
  after : List Text
  identifier : name.isIdentifier = true
  single : ∀ w ∈ before ++ params ++ after, w ≠ ['(']
  unclosed : [')'] ∉ params
  scanned : ∀ w ∈ before ++ name :: params ++ after, stopsScan w = false

def Call.words (g : Call) : List Text :=
  g.before ++ g.name :: ['('] :: (g.params ++ [')'] :: g.after)

/-- The names that stand before a comma or a closing parenthesis, with `previous` in front. -/
def namesListed : (previous : Text) → List Text → List Text
  | _, [] => []
  | previous, w :: ws =>
    if (w = [','] || w = [')']) && previous.isIdentifier then previous :: namesListed w ws
    else namesListed w ws

/-- What is recorded of the function: its name and the names of its parameters, each once. -/
def Call.record (g : Call) : FunctionRecord :=
  ⟨g.name, ((namesListed ['('] (g.params ++ [[')']])).foldl NameList.insert {}).toList⟩

namespace Scan

variable {startsInline : Bool} {source : Text} {two one : Option Text} {s : Scan}

theorem steps_idle {ws : List Text} (h : s.function = .outside) (noParen : ['('] ∉ ws) :
    ∃ cursor, steps false source two one ws s = { s with cursor } := by
  induction ws generalizing two one s with
  | nil => exact ⟨s.cursor, rfl⟩
  | cons w ws ih =>
    rw [List.mem_cons, not_or] at noParen
    have idle : step false source two w s = { s with cursor := { s.cursor with previous := w } } := by
      simp only [step, h, outside, Ne.symm noParen.1, false_and, Bool.false_eq_true, if_false]
    rw [steps, idle]
    exact ih h noParen.2

/-- The words of a signature up to its closing parenthesis record the function. -/
theorem steps_closed {ws : List Text} (h : s.function = .signature) (unclosed : [')'] ∉ ws) :
    (steps startsInline source two one (ws ++ [[')']]) s).function = .body 0 ∧
    (steps startsInline source two one (ws ++ [[')']]) s).suppress = s.suppress ∧
    (steps startsInline source two one (ws ++ [[')']]) s).functions = s.functions ++ [⟨s.cursor.name,
      ((namesListed s.cursor.previous (ws ++ [[')']])).foldl NameList.insert s.cursor.params).toList⟩] := by
  induction ws generalizing two one s with
  | nil =>
    have close : ([')'] : Text) ≠ [','] := by decide
    have last : step startsInline source two [')'] s =
        { s with
          cursor := { addParam s.cursor with previous := [')'] }
          function := .body 0
          functions := s.functions ++ [⟨(addParam s.cursor).name, (addParam s.cursor).params.toList⟩]
          trace := s.trace ++
            [.functionEntered (addParam s.cursor).name (addParam s.cursor).params] } := by
      simp only [step, h, inSignature, close, if_false, if_true]
    rw [List.nil_append, steps, steps, last]
    refine ⟨rfl, rfl, ?_⟩
    simp only [namesListed, addParam]
    cases s.cursor.previous.isIdentifier <;> rfl
  | cons w ws ih =>
    rw [List.mem_cons, not_or] at unclosed
    have other : ¬w = [')'] := Ne.symm unclosed.1
    have next : step startsInline source two w s =
        { s with
          cursor := { (if w = [','] then addParam s.cursor else s.cursor) with previous := w } } := by
      simp only [step, h, inSignature, other, if_false]
      split_ifs
      · rfl
      · rw [h]
    rw [List.cons_append, steps, next]
    have start : ({ s with
        cursor := { (if w = [','] then addParam s.cursor else s.cursor) with previous := w } } :
        Scan).function = .signature := h
    obtain ⟨function, suppress, functions⟩ := ih start unclosed.2
    refine ⟨function, suppress, functions.trans ?_⟩
    rw [namesListed, decide_eq_false other, Bool.or_false]
    by_cases comma : w = [',']
    · simp only [comma, if_true, decide_true, Bool.true_and, addParam]
      cases s.cursor.previous.isIdentifier <;> rfl
    · simp only [comma, if_false, decide_false, Bool.false_and, Bool.false_eq_true]

/-- Behind a signature a semicolon ends the function. -/
theorem steps_behind {ws : List Text} (h : s.function = .body 0) (noParen : ['('] ∉ ws) :
    (steps false source two one ws s).function = (if [';'] ∈ ws then .outside else .body 0) ∧
    (steps false source two one ws s).functions = s.functions := by
  induction ws generalizing two one s with
  | nil => exact ⟨h, rfl⟩
  | cons w ws ih =>
    rw [List.mem_cons, not_or] at noParen
    have same : (step false source two w s).functions = s.functions := by
      simp only [step, h, behindSignature, if_true]
      split_ifs <;> rfl
    have function : (step false source two w s).function = _ := function_step_behind w h
    rw [steps]
    by_cases semicolon : w = [';']
    · rw [if_pos semicolon] at function
      obtain ⟨cursor, eq⟩ : ∃ cursor, steps false source one (some w) ws (step false source two w s) = _ :=
        steps_idle function noParen.2
      rw [eq]
      refine ⟨?_, same⟩
      rw [semicolon, if_pos List.mem_cons_self]
      exact semicolon ▸ function
    · rw [if_neg semicolon] at function
      obtain ⟨rest, functions⟩ := ih function noParen.2
      refine ⟨rest.trans ?_, functions.trans same⟩
      simp only [List.mem_cons, Ne.symm semicolon, false_or]

variable {l : Line}

theorem line_idle (cursor : Cursor) (h : l.word? 0 ≠ some "inline".toList) (noParen : ['('] ∉ l.words) :
    ∃ cursor', line l .outside cursor = { function := .outside, cursor := cursor' } := by
  rw [line, decide_eq_false h, tokens_eq_steps]
  exact steps_idle rfl fun mem => noParen ((List.takeWhile_sublist _).mem mem)

/-- A line with a call is suppressed and records it. -/
theorem line_call {g : Call} (words : l.words = g.words) (cursor : Cursor)
    (h : l.word? 0 ≠ some "inline".toList) :
    (line l .outside cursor).function = (if [';'] ∈ g.after then .outside else .body 0) ∧
    (line l .outside cursor).suppress = true ∧
    (line l .outside cursor).functions = [g.record] := by
  have all : g.words.takeWhile (fun w => !stopsScan w) = g.words := by
    refine List.takeWhile_eq_self_iff.2 fun w mem => ?_
    have goes : stopsScan w = false := by
      simp only [Call.words, List.mem_append, List.mem_cons] at mem
      rcases mem with before | name | paren | param | close | after
      · exact g.scanned w (by simp [before])
      · exact g.scanned w (by simp [name])
      · rw [paren]
        decide
      · exact g.scanned w (by simp [param])
      · rw [close]
        decide
      · exact g.scanned w (by simp [after])
    rw [goes]
    rfl
  have noBefore : ['('] ∉ g.before := fun mem => g.single _ (by simp [mem]) rfl
  have noAfter : ['('] ∉ g.after := fun mem => g.single _ (by simp [mem]) rfl
  have notParen : g.name ≠ ['('] := (ne_of_isIdentifier g.identifier).1
  obtain ⟨before, idle⟩ : ∃ before, steps false l.text none none g.before
      { function := .outside, cursor } = { function := .outside, cursor := before } :=
    steps_idle rfl noBefore
  have named (two : Option Text) : step false l.text two g.name { function := .outside, cursor := before } =
      { function := .outside, cursor := { before with previous := g.name } } := by
    simp only [step, outside, notParen, false_and, Bool.false_eq_true, if_false]
  have opened (two : Option Text) : step false l.text two ['(']
      { function := .outside, cursor := { before with previous := g.name } } =
      { function := .signature
        cursor := ⟨g.name, {}, ['(']⟩
        suppress := true } := by
    simp only [step, outside, isCallable, g.identifier, Bool.true_or, true_and, Bool.false_eq_true,
      if_false, if_true]
  rw [line, decide_eq_false h, words, tokens_eq_steps, all, show g.words =
    g.before ++ g.name :: ['('] :: ((g.params ++ [[')']]) ++ g.after) by simp [Call.words],
    steps_append, idle, steps, named, steps, opened, steps_append]
  generalize lastTwo (some g.name) (some ['(']) (g.params ++ [[')']]) = back
  obtain ⟨behind, suppress, functions⟩ : _ ∧ (steps false l.text (some g.name) (some ['('])
      (g.params ++ [[')']])
      { function := .signature, cursor := ⟨g.name, {}, ['(']⟩, suppress := true }).suppress =
      true ∧ _ := steps_closed rfl g.unclosed
  obtain ⟨function, same⟩ : (steps false l.text back.1 back.2 g.after _).function = _ ∧ _ :=
    steps_behind behind noAfter
  exact ⟨function, suppress_steps _ suppress, same.trans functions⟩

end Scan
end HeaderFlattening
