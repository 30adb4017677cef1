import HeaderFlattening.Proofs.Calls
import HeaderFlattening.Proofs.FunctionStage
import Mathlib.Data.List.Induction

/-!
Where the records of functions come from. Of all words that are read in search of functions, each record
is a stretch: a name, an opening parenthesis, and the words up to the first closing one. Its parameters
are the identifiers in front of a comma or of that parenthesis, in the order in which they first occur.
-/

set_option autoImplicit false
namespace HeaderFlattening

theorem namesListed_append (previous : Text) (xs ys : List Text) :
    namesListed previous (xs ++ ys) =
      namesListed previous xs ++ namesListed (xs.getLast?.getD previous) ys := by
  induction xs generalizing previous with
  | nil => rfl
  | cons x xs ih =>
    have last : (x :: xs).getLast?.getD previous = xs.getLast?.getD x := by
      rw [List.getLast?_cons]
      rfl
    rw [last, List.cons_append, namesListed, namesListed, ih]
    split_ifs <;> rfl

theorem isIdentifier_of_mem_namesListed {previous name : Text} {ws : List Text}
    (h : name ∈ namesListed previous ws) : name.isIdentifier = true := by
  induction ws generalizing previous with
  | nil => cases h
  | cons w ws ih =>
    rw [namesListed] at h
    split_ifs at h with listed
    · rcases List.mem_cons.1 h with rfl | rest
      · exact (Bool.and_eq_true_iff.1 listed).2
      · exact ih rest
    · exact ih h

theorem NameList.insertAll_append (l : NameList) (xs ys : List Text) :
    l.insertAll (xs ++ ys) = (l.insertAll xs).insertAll ys := List.foldl_append

theorem NameList.valid_insertAll {l : NameList} (h : l.Valid) (names : List Text) :
    (l.insertAll names).Valid := by
  induction names generalizing l with
  | nil => exact h
  | cons name names ih => exact ih (h.insert name)

/-- Names put into a list follow those that it had, each that is new at its first occurrence. -/
theorem NameList.toList_insertAll (l : NameList) {names : List Text} (h : [] ∉ names) :
    (l.insertAll names).toList = l.toList ++ (names.filter (· ∉ l.toList)).eraseDups := by
  induction names using List.reverseRecOn with
  | nil => exact (List.append_nil _).symm
  | append_singleton names name ih =>
    rw [List.mem_append, not_or] at h
    have named : name.isEmpty = false := by
      rw [List.isEmpty_eq_false_iff]
      exact fun empty => h.2 (empty ▸ List.mem_singleton_self _)
    have has : (l.insertAll names).has name = decide (name ∈ l.toList ∨ name ∈ names) := by
      rw [NameList.has, named, Bool.false_or, ih h.1, List.contains_eq_mem]
      apply decide_eq_decide.2
      rw [List.mem_append, List.mem_eraseDups, List.mem_filter, decide_eq_true_eq]
      tauto
    rw [NameList.insertAll_append, List.filter_append, List.eraseDups_append, ← List.append_assoc,
      ← ih h.1]
    show (NameList.insert _ name).toList = _
    unfold NameList.insert
    rw [has]
    by_cases old : name ∈ l.toList
    · simp [old]
    · by_cases mem : name ∈ names
      · simp [old, mem, List.removeAll]
      · simp [old, mem, List.removeAll, List.eraseDups_cons]

/-- Names put into a list one after the other stand there in the order of their first occurrences. -/
theorem NameList.insertAll_eq_eraseDups {names : List Text} (h : [] ∉ names) :
    (NameList.insertAll {} names).toList = names.eraseDups := by
  rw [NameList.toList_insertAll {} h, List.filter_eq_self.2 fun name _ => by simp]
  rfl

/-- The record comes from these words: a name before an opening parenthesis, and parameters between it
and the closing one. -/
structure FunctionRecord.FromWords (r : FunctionRecord) (ws : List Text) : Prop where
  source : ∃ before args after, ws = before ++ ['('] :: (args ++ [')'] :: after) ∧ [')'] ∉ args ∧
    r.name = before.getLast?.getD [] ∧
    r.params = (namesListed ['('] (args ++ [[')']])).eraseDups

theorem FunctionRecord.FromWords.append {r : FunctionRecord} {ws : List Text} (h : r.FromWords ws)
    (vs : List Text) : r.FromWords (ws ++ vs) := by
  obtain ⟨before, args, after, rfl, unclosed, name, params⟩ := h
  refine ⟨before, args, after ++ vs, ?_, unclosed, name, params⟩
  simp only [List.append_assoc, List.cons_append]

/-- So no parameter is named twice, and each is an identifier. -/
theorem FunctionRecord.FromWords.params_valid {r : FunctionRecord} {ws : List Text}
    (h : r.FromWords ws) : r.params.Nodup ∧ ∀ p ∈ r.params, p.isIdentifier = true := by
  obtain ⟨before, args, after, -, -, -, params⟩ := h
  have names {p : Text} (mem : p ∈ namesListed ['('] (args ++ [[')']])) : p.isIdentifier = true :=
    isIdentifier_of_mem_namesListed mem
  have listed : [] ∉ namesListed ['('] (args ++ [[')']]) := fun mem =>
    absurd (names mem) (by decide)
  refine ⟨?_, fun p mem => names ?_⟩
  · rw [params, ← NameList.insertAll_eq_eraseDups listed]
    exact (NameList.valid_insertAll NameList.valid_empty _).1
  · rw [params] at mem
    exact List.mem_eraseDups.1 mem

/-- The books fit the words read so far. -/
structure FunctionBooks.Tracks (b : FunctionBooks) (ws : List Text) : Prop where
  previous : b.cursor.previous = ws.getLast?.getD []
  signature : b.function = .signature → ∃ before args, ws = before ++ ['('] :: args ∧
    [')'] ∉ args ∧ b.cursor.name = before.getLast?.getD [] ∧
    b.cursor.params = NameList.insertAll {} (namesListed ['('] args)
  records : ∀ r ∈ b.functions, r.FromWords ws

namespace Scan

variable {startsInline : Bool} {source w : Text} {two one : Option Text} {s : Scan}
  {earlier : List FunctionRecord} {ws : List Text}

theorem params_addParam (c : Cursor) (names : List Text)
    (h : c.params = NameList.insertAll {} names) :
    (addParam c).params =
      NameList.insertAll {} (names ++ if c.previous.isIdentifier then [c.previous] else []) := by
  unfold addParam
  split_ifs
  · rw [NameList.insertAll_append, ← h]
    rfl
  · rw [List.append_nil]
    exact h

theorem name_addParam (c : Cursor) : (addParam c).name = c.name := by
  unfold addParam
  split_ifs <;> rfl

theorem getLast?_concat (ws : List Text) (w : Text) :
    (ws ++ [w]).getLast?.getD [] = w := by
  rw [List.getLast?_concat]
  rfl

theorem tracks_outside (out : s.function = .outside) (h : (s.books earlier).Tracks ws) :
    ((step startsInline source two w s).books earlier).Tracks (ws ++ [w]) := by
  have records : ∀ r ∈ earlier ++ s.functions, r.FromWords (ws ++ [w]) :=
    fun r mem => (h.records r mem).append [w]
  by_cases opens : startsInline = false ∧ w = ['('] ∧ isCallable s.cursor.previous two = true
  · obtain ⟨rfl, rfl, callable⟩ := opens
    have next : step false source two ['('] s =
        { s with
          function := .signature
          suppress := true
          cursor := ⟨s.cursor.previous, {}, ['(']⟩ } := by
      simp only [step, out, outside, callable, Bool.false_eq_true, if_false, and_self, if_true]
    rw [next]
    refine ⟨(getLast?_concat ws _).symm, fun _ => ?_, records⟩
    exact ⟨ws, [], rfl, List.not_mem_nil, h.previous, rfl⟩
  · have idle : ∃ suppress, step startsInline source two w s =
        { s with suppress, cursor := { s.cursor with previous := w } } := by
      cases startsInline with
      | true => exact ⟨true, by simp only [step, out, outside, if_true]⟩
      | false =>
        have closed : ¬(w = ['('] ∧ isCallable s.cursor.previous two = true) := fun both =>
          opens ⟨rfl, both⟩
        exact ⟨s.suppress, by simp only [step, out, outside, Bool.false_eq_true, if_false, closed]⟩
    obtain ⟨suppress, next⟩ := idle
    rw [next]
    refine ⟨(getLast?_concat ws w).symm, fun sign => ?_, records⟩
    exact absurd (out.symm.trans sign) (by simp)

/-- What has been read of a signature, and what the cursor knows of it. -/
theorem exists_args (sign : s.function = .signature) (h : (s.books earlier).Tracks ws) :
    ∃ before args, ws = before ++ ['('] :: args ∧ [')'] ∉ args ∧
      s.cursor.name = before.getLast?.getD [] ∧
      s.cursor.params = NameList.insertAll {} (namesListed ['('] args) ∧
      s.cursor.previous = args.getLast?.getD ['('] := by
  obtain ⟨before, args, rfl, unclosed, name, params⟩ := h.signature sign
  refine ⟨before, args, rfl, unclosed, name, params, ?_⟩
  rw [show s.cursor.previous = _ from h.previous, List.getLast?_append, List.getLast?_cons]
  rfl

/-- A comma and the closing parenthesis add the name in front of them. -/
theorem params_listed {c : Cursor} {args : List Text}
    (params : c.params = NameList.insertAll {} (namesListed ['('] args))
    (previous : c.previous = args.getLast?.getD ['(']) (mark : w = [','] ∨ w = [')']) :
    (addParam c).params = NameList.insertAll {} (namesListed ['('] (args ++ [w])) := by
  have marked : (decide (w = [',']) || decide (w = [')'])) = true := by simpa using mark
  rw [namesListed_append, ← previous, params_addParam _ _ params]
  simp only [namesListed, marked, Bool.true_and]

theorem tracks_close (sign : s.function = .signature) (h : (s.books earlier).Tracks ws) :
    ((step startsInline source two [')'] s).books earlier).Tracks (ws ++ [[')']]) := by
  obtain ⟨before, args, rfl, unclosed, name, params, previous⟩ := exists_args sign h
  have next : step startsInline source two [')'] s =
      { s with
        cursor := { addParam s.cursor with previous := [')'] }
        function := .body 0
        functions := s.functions ++ [⟨(addParam s.cursor).name, (addParam s.cursor).params.toList⟩]
        trace := s.trace ++
          [.functionEntered (addParam s.cursor).name (addParam s.cursor).params] } := by
    simp only [step, sign, inSignature, show ([')'] : Text) ≠ [','] by decide, if_false, if_true]
  rw [next]
  refine ⟨(getLast?_concat _ _).symm, fun eq => FunctionState.noConfusion eq, fun r mem => ?_⟩
  rw [Scan.books, ← List.append_assoc] at mem
  rcases List.mem_append.1 mem with old | last
  · exact (h.records r old).append [[')']]
  · have names : [] ∉ namesListed ['('] (args ++ [[')']]) := fun mem =>
      absurd (isIdentifier_of_mem_namesListed mem) (by decide)
    rw [List.mem_singleton.1 last]
    refine ⟨before, args, [], by simp, unclosed, (name_addParam _).trans name, ?_⟩
    rw [params_listed params previous (.inr rfl), NameList.insertAll_eq_eraseDups names]

theorem tracks_signature (sign : s.function = .signature) (h : (s.books earlier).Tracks ws) :
    ((step startsInline source two w s).books earlier).Tracks (ws ++ [w]) := by
  by_cases close : w = [')']
  · subst close
    exact tracks_close sign h
  have records : ∀ r ∈ earlier ++ s.functions, r.FromWords (ws ++ [w]) :=
    fun r mem => (h.records r mem).append [w]
  obtain ⟨before, args, rfl, unclosed, name, params, previous⟩ := exists_args sign h
  have unclosed' : [')'] ∉ args ++ [w] := by
    rw [List.mem_append, not_or, List.mem_singleton]
    exact ⟨unclosed, Ne.symm close⟩
  have longer : (before ++ ['('] :: args) ++ [w] = before ++ ['('] :: (args ++ [w]) := by
    rw [List.append_assoc, List.cons_append]
  by_cases comma : w = [',']
  · have next : step startsInline source two w s =
        { s with cursor := { addParam s.cursor with previous := w } } := by
      simp only [step, sign, inSignature, comma, if_true]
    rw [next]
    refine ⟨(getLast?_concat _ w).symm, fun _ => ?_, records⟩
    exact ⟨before, args ++ [w], longer, unclosed', (name_addParam _).trans name,
      params_listed params previous (.inl comma)⟩
  · have next : step startsInline source two w s =
        { s with cursor := { s.cursor with previous := w } } := by
      simp only [step, sign, inSignature, comma, close, if_false]
    have same : namesListed ['('] (args ++ [w]) = namesListed ['('] args := by
      rw [namesListed_append]
      simp [namesListed, comma, close]
    rw [next]
    refine ⟨(getLast?_concat _ w).symm, fun _ => ?_, records⟩
    exact ⟨before, args ++ [w], longer, unclosed', name, params.trans (congrArg _ same.symm)⟩

theorem tracks_body {depth : Int} (inside : s.function = .body depth)
    (h : (s.books earlier).Tracks ws) :
    ((step startsInline source two w s).books earlier).Tracks (ws ++ [w]) := by
  have next : ∃ function suppress trace, function ≠ .signature ∧ step startsInline source two w s =
      { s with function, suppress, trace, cursor := { s.cursor with previous := w } } := by
    simp only [step, inside, behindSignature]
    split_ifs
    · exact ⟨.outside, _, _, fun eq => FunctionState.noConfusion eq, rfl⟩
    · exact ⟨s.function, _, _, fun eq => FunctionState.noConfusion (inside.symm.trans eq), rfl⟩
    · exact ⟨s.function, _, _, fun eq => FunctionState.noConfusion (inside.symm.trans eq), rfl⟩
  obtain ⟨function, suppress, trace, other, next⟩ := next
  rw [next]
  exact ⟨(getLast?_concat ws w).symm, fun sign => absurd sign other,
    fun r mem => (h.records r mem).append [w]⟩

theorem tracks_step (h : (s.books earlier).Tracks ws) :
    ((step startsInline source two w s).books earlier).Tracks (ws ++ [w]) := by
  cases function : s.function with
  | outside => exact tracks_outside function h
  | signature => exact tracks_signature function h
  | body depth => exact tracks_body function h

theorem tracks_steps (vs : List Text) (h : (s.books earlier).Tracks ws) :
    ((steps startsInline source two one vs s).books earlier).Tracks (ws ++ vs) := by
  induction vs generalizing two one s ws with
  | nil =>
    rw [List.append_nil]
    exact h
  | cons v vs ih =>
    have first : ((step startsInline source two v s).books earlier).Tracks (ws ++ [v]) :=
      tracks_step h
    rw [show ws ++ v :: vs = ws ++ [v] ++ vs by rw [List.append_assoc]; rfl]
    exact ih first

/-- A line is read from the books behind the line before. -/
theorem books_start (b : FunctionBooks) :
    (({ function := b.function, cursor := b.cursor } : Scan).books b.functions) = b := by
  rw [books, List.append_nil]

/-- Reading a line keeps track of the words that are read. -/
theorem tracks_line {l : Line} {b : FunctionBooks} {ws : List Text} (h : b.Tracks ws) :
    ((line l b.function b.cursor).books b.functions).Tracks (ws ++ l.read) := by
  rw [line, tokens_eq_steps]
  refine tracks_steps l.read ?_
  rw [books_start]
  exact h

end Scan

namespace Conversion

variable {config : Config} {raw : Text} {s t : State}

/-- The words that are read in search of functions there: none in an enum, a struct or the body of a
function, and elsewhere those before a `#define` or `typedef`. -/
def wordsAt (t : State) : List Text :=
  if t.mode.enumBody.isSome || t.mode.structBody.isSome then []
  else
    match t.mode.function with
    | .body _ => []
    | _ => t.line.read

/-- The words of a line that are read in search of functions. -/
def wordsRead (config : Config) (raw : Text) (s : State) : List Text :=
  match (retokenize config).run (s.begin config raw) with
  | .ok _ u => (functionStage? config u).elim [] wordsAt
  | .error _ _ => []

/-- The words that are read in search of functions on these lines. -/
def allWordsRead (config : Config) : List Text → State → List Text
  | [], _ => []
  | raw :: rest, s =>
    wordsRead config raw s ++ allWordsRead config rest (stateAfter (processLine config raw) s)

theorem wordsRead_eq (config : Config) (raw : Text) (s : State) :
    wordsRead config raw s = (functionStageOf? config raw s).elim [] wordsAt := by
  unfold wordsRead functionStageOf?
  cases (retokenize config).run (s.begin config raw) <;> rfl

/-- The stage that follows functions keeps track of the words that it reads. -/
theorem tracks_followed {ws : List Text} (h : t.functionBooks.Tracks ws) :
    t.followed.Tracks (ws ++ wordsAt t) := by
  unfold State.followed wordsAt
  split_ifs
  · rw [List.append_nil]
    exact h
  have scanned : ((Scan.line t.line t.mode.function t.cursor).books t.functions).Tracks
      (ws ++ t.line.read) := Scan.tracks_line h
  cases function : t.mode.function with
  | body depth =>
    rw [List.append_nil]
    refine ⟨h.previous, fun sign => ?_, h.records⟩
    have after : FunctionState.afterBodyLine depth t.line = .signature := sign
    unfold FunctionState.afterBodyLine at after
    split_ifs at after
  | outside | signature =>
    rw [function] at scanned
    exact scanned

/-- A line keeps track of the words that are read on it, also if it fails. -/
theorem tracks_processLine {ws : List Text} (raw : Text) (h : s.functionBooks.Tracks ws) :
    (stateAfter (processLine config raw) s).functionBooks.Tracks
      (ws ++ wordsRead config raw s) := by
  rw [functionBooks_processLine, wordsRead_eq]
  cases stage : functionStageOf? config raw s with
  | none =>
    rw [Option.elim_none, Option.elim_none, List.append_nil]
    exact h
  | some t =>
    rw [← functionBooks_of_functionStageOf? stage] at h
    exact tracks_followed h

/-- The records of functions are stretches of the words that were read. -/
theorem tracks_runLines {ws : List Text} (config : Config) (ls : List Text)
    (h : s.functionBooks.Tracks ws) :
    (runLines config ls s).functionBooks.Tracks (ws ++ allWordsRead config ls s) := by
  induction ls generalizing s ws with
  | nil =>
    rw [allWordsRead, List.append_nil]
    exact h
  | cons raw ls ih =>
    rw [allWordsRead, ← List.append_assoc]
    exact ih (tracks_processLine raw h)

theorem tracks_start (room : Option Nat) :
    ({ sink := { room } } : State).functionBooks.Tracks [] :=
  ⟨rfl, nofun, fun _ mem => absurd mem List.not_mem_nil⟩

end Conversion
end HeaderFlattening
