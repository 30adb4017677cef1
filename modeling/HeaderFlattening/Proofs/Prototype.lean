import HeaderFlattening.Proofs.Parameters

/-!
Prototypes over several lines. As long as each opening parenthesis stands behind a name, what a word
does to the books of the functions depends on these books alone. So it does not matter where the words
of a prototype are broken into lines: they leave what they would leave on one line.
-/

set_option autoImplicit false
namespace HeaderFlattening

/-- Each opening parenthesis stands behind a name; `previous` is the word in front. -/
def ParensNamed : (previous : Text) → List Text → Prop
  | _, [] => True
  | previous, w :: ws => (w = ['('] → previous.isIdentifier = true) ∧ ParensNamed w ws

theorem parensNamed_append {previous : Text} {ws vs : List Text} :
    ParensNamed previous (ws ++ vs) ↔
      ParensNamed previous ws ∧ ParensNamed (ws.getLast?.getD previous) vs := by
  induction ws generalizing previous with
  | nil => exact (true_and _).symm.to_iff
  | cons w ws ih =>
    rw [List.cons_append, ParensNamed, ParensNamed, ih, and_assoc, List.getLast?_cons]
    rfl

theorem parensNamed_of_noParen {ws : List Text} (h : ['('] ∉ ws) (previous : Text) :
    ParensNamed previous ws := by
  induction ws generalizing previous with
  | nil => trivial
  | cons w ws ih =>
    rw [List.mem_cons, not_or] at h
    exact ⟨fun paren => absurd paren.symm h.1, ih h.2 w⟩

namespace FunctionBooks

/-- The books behind one more word. -/
def readWord (b : FunctionBooks) (w : Text) : FunctionBooks :=
  (Scan.step false [] none w { function := b.function, cursor := b.cursor }).books b.functions

def readWords (b : FunctionBooks) (ws : List Text) : FunctionBooks := ws.foldl readWord b

variable {b : FunctionBooks} {ws : List Text}

theorem readWords_append (ws vs : List Text) :
    b.readWords (ws ++ vs) = (b.readWords ws).readWords vs := List.foldl_append

theorem previous_readWords (ws : List Text) :
    (b.readWords ws).cursor.previous = ws.getLast?.getD b.cursor.previous := by
  induction ws using List.reverseRecOn with
  | nil => rfl
  | append_singleton ws w =>
    rw [readWords_append, List.getLast?_concat]
    rfl

theorem function_readWords_signature (h : b.function = .signature) (unclosed : [')'] ∉ ws) :
    (b.readWords ws).function = .signature := by
  induction ws generalizing b with
  | nil => exact h
  | cons w ws ih =>
    rw [List.mem_cons, not_or] at unclosed
    refine ih ?_ unclosed.2
    exact (Scan.function_step_signature w h).trans (if_neg (Ne.symm unclosed.1))

/-- Up to the closing parenthesis, the signature is open from the opening one on. -/
theorem function_readWords (h : b.function = .outside) (named : ParensNamed b.cursor.previous ws)
    (unclosed : [')'] ∉ ws) :
    (b.readWords ws).function = if ['('] ∈ ws then .signature else .outside := by
  induction ws generalizing b with
  | nil => exact h
  | cons w ws ih =>
    have next : (b.readWord w).function = _ := Scan.function_step_outside w h
    rw [List.mem_cons, not_or] at unclosed
    by_cases paren : w = ['(']
    · have callable : Scan.isCallable b.cursor.previous none = true := by
        rw [Scan.isCallable, named.1 paren]
        rfl
      rw [if_pos ⟨paren, callable⟩] at next
      rw [if_pos (List.mem_cons.2 (.inl paren.symm))]
      exact function_readWords_signature (b := b.readWord w) next unclosed.2
    · rw [if_neg fun call => paren call.1] at next
      have rest : ((b.readWord w).readWords ws).function = _ := ih next named.2 unclosed.2
      refine rest.trans ?_
      simp only [List.mem_cons, Ne.symm paren, false_or]

end FunctionBooks

namespace Scan

variable {source w : Text} {two one : Option Text} {s : Scan} {ws : List Text}

/-- What a word does to the books depends neither on the line nor on the word two places back. -/
theorem books_step (earlier : List FunctionRecord)
    (named : w = ['('] → s.cursor.previous.isIdentifier = true) :
    (step false source two w s).books earlier = (s.books earlier).readWord w := by
  unfold FunctionBooks.readWord books
  cases function : s.function with
  | outside =>
    by_cases paren : w = ['(']
    · simp only [step, function, outside, isCallable, paren, named paren, Bool.true_or, and_self,
        Bool.false_eq_true, if_false, if_true, List.append_nil]
    · simp only [step, function, outside, paren, false_and, Bool.false_eq_true, if_false,
        List.append_nil]
  | signature =>
    simp only [step, function, inSignature]
    split_ifs
    · simp
    · simp
    · simp [function]
  | body depth =>
    simp only [step, function, behindSignature]
    split_ifs
    · simp
    · simp [function]
    · simp [function]

theorem books_steps (earlier : List FunctionRecord) (named : ParensNamed s.cursor.previous ws) :
    (steps false source two one ws s).books earlier = (s.books earlier).readWords ws := by
  induction ws generalizing two one s with
  | nil => rfl
  | cons w ws ih =>
    have first : (step false source two w s).books earlier = _ := books_step earlier named.1
    have rest : (steps false source one (some w) ws (step false source two w s)).books earlier = _ :=
      ih named.2
    rw [first] at rest
    exact rest

/-- Reading a line is reading its words. -/
theorem books_line {l : Line} {b : FunctionBooks} (notInline : l.word? 0 ≠ some "inline".toList)
    (named : ParensNamed b.cursor.previous l.read) :
    (line l b.function b.cursor).books b.functions = b.readWords l.read := by
  rw [line, decide_eq_false notInline, tokens_eq_steps]
  have words : (steps false l.text none none l.read { function := b.function, cursor := b.cursor }).books
      b.functions = _ := books_steps b.functions named
  rw [books_start] at words
  exact words

theorem opens_of_named {carried : Text} (named : ParensNamed (one.getD carried) ws)
    (paren : ['('] ∈ ws) : opens carried two one ws = true := by
  induction ws generalizing two one with
  | nil => cases paren
  | cons w ws ih =>
    rw [opens, Bool.or_eq_true]
    by_cases here : w = ['(']
    · left
      rw [here, isCallable, named.1 here]
      rfl
    · exact .inr (ih named.2 ((List.mem_cons.1 paren).resolve_left (Ne.symm here)))

theorem suppress_line_named {l : Line} {cursor : Cursor} (named : ParensNamed cursor.previous l.read)
    (paren : ['('] ∈ l.read) : (line l .outside cursor).suppress = true := by
  refine Line.suppress_of_not_quiet fun quiet => ?_
  have opens : opens cursor.previous none none l.read = true := opens_of_named named paren
  rw [quiet.noCall] at opens
  cases opens

end Scan

theorem namesListed_unmarked {ws : List Text} (h : [','] ∉ ws ∧ [')'] ∉ ws) (previous : Text) :
    namesListed previous ws = [] := by
  induction ws generalizing previous with
  | nil => rfl
  | cons w ws ih =>
    rw [List.mem_cons, not_or, List.mem_cons, not_or] at h
    rw [namesListed, decide_eq_false (Ne.symm h.1.1), decide_eq_false (Ne.symm h.2.1)]
    exact ih ⟨h.1.2, h.2.2⟩ w

/-- A segment and the mark behind it list the last word of the segment if that is a name. -/
theorem namesListed_segment {previous mark : Text} {ws : List Text} (h : [','] ∉ ws ∧ [')'] ∉ ws)
    (unnamed : previous.isIdentifier = false) (marks : mark = [','] ∨ mark = [')']) :
    namesListed previous (ws ++ [mark]) = ws.getLast?.toList.filter Text.isIdentifier := by
  have marked : (decide (mark = [',']) || decide (mark = [')'])) = true := by simpa using marks
  rw [namesListed_append, namesListed_unmarked h, List.nil_append, namesListed, marked]
  cases ws.getLast? with
  | none => simp [unnamed, namesListed]
  | some last => cases identifier : last.isIdentifier <;> simp [identifier, namesListed]

theorem namesListed_segments {previous : Text} {segments : List (List Text)}
    (h : [','] ∉ segments.flatten ∧ [')'] ∉ segments.flatten)
    (unnamed : previous.isIdentifier = false) :
    namesListed previous ([[',']].intercalate segments ++ [[')']]) =
      (segments.filterMap List.getLast?).filter Text.isIdentifier := by
  induction segments generalizing previous with
  | nil => simp [namesListed, unnamed]
  | cons ws segments ih =>
    rw [List.flatten_cons, List.mem_append, List.mem_append, not_or, not_or] at h
    have first {mark : Text} (marks : mark = [','] ∨ mark = [')']) :
        namesListed previous (ws ++ [mark]) = _ :=
      namesListed_segment ⟨h.1.1, h.2.1⟩ unnamed marks
    have parts : ((ws :: segments).filterMap List.getLast?).filter Text.isIdentifier =
        ws.getLast?.toList.filter Text.isIdentifier ++
          (segments.filterMap List.getLast?).filter Text.isIdentifier := by
      rw [← List.filter_append]
      cases last : ws.getLast? <;> simp [last]
    rw [parts]
    cases segments with
    | nil =>
      rw [List.intercalate_singleton, first (.inr rfl)]
      simp
    | cons vs segments =>
      have rest : namesListed [','] ([[',']].intercalate (vs :: segments) ++ [[')']]) = _ :=
        ih ⟨h.1.2, h.2.2⟩ (by decide)
      rw [List.intercalate_cons_cons, List.append_assoc, namesListed_append, first (.inl rfl),
        List.getLast?_concat, Option.getD_some, rest]

/-- A prototype: the words before its name, the segments that commas part between its parentheses, and
the words between these and the semicolon. -/
structure Prototype where
  before : List Text
  name : Text
  segments : List (List Text)
  after : List Text

namespace Prototype

variable {p : Prototype}

def args (p : Prototype) : List Text := [[',']].intercalate p.segments

def words (p : Prototype) : List Text :=
  p.before ++ p.name :: ['('] :: (p.args ++ [')'] :: (p.after ++ [[';']]))

/-- The name with the identifiers that segments end in, each once. -/
def record (p : Prototype) : FunctionRecord :=
  ⟨p.name, ((p.segments.filterMap List.getLast?).filter Text.isIdentifier).eraseDups⟩

/-- The words that the parts of a prototype are free of: its own marks and the keywords that end the
search for functions or make all of a line a function. -/
def marks : List Text :=
  [['('], [')'], [','], [';'], "#define".toList, "typedef".toList, "inline".toList]

structure Valid (p : Prototype) : Prop where
  identifier : p.name.isIdentifier = true
  free : ∀ w ∈ p.before ++ p.name :: p.segments.flatten ++ p.after, w ∉ marks

instance (p : Prototype) : Decidable p.Valid :=
  decidable_of_iff
    (p.name.isIdentifier = true ∧
      ∀ w ∈ p.before ++ p.name :: p.segments.flatten ++ p.after, ∀ mark ∈ marks, ¬w = mark)
    ⟨fun ⟨a, b⟩ => ⟨a, fun w mem => List.forall_mem_ne.1 (b w mem)⟩,
      fun ⟨a, b⟩ => ⟨a, fun w mem => List.forall_mem_ne.2 (b w mem)⟩⟩

namespace Valid

variable (valid : p.Valid)

include valid

/-- A word of a prototype is a mark only where its form has it. -/
theorem of_mem_words {w : Text} (h : w ∈ p.words) :
    w ∉ marks ∨ w ∈ [['('], [')'], [','], [';']] := by
  have part (mem : w ∈ p.before ++ p.name :: p.segments.flatten ++ p.after) := valid.free w mem
  simp only [List.mem_append, List.mem_cons] at part
  simp only [words, List.mem_append, List.mem_cons, List.not_mem_nil, or_false] at h
  rcases h with before | name | paren | args | close | after | semicolon
  · exact .inl (part (.inl (.inl before)))
  · exact .inl (part (.inl (.inr (.inl name))))
  · exact .inr (by simp [paren])
  · rcases mem_intercalate args with comma | segment
    · exact .inr (by simp [List.mem_singleton.1 comma])
    · exact .inl (part (.inl (.inr (.inr segment))))
  · exact .inr (by simp [close])
  · exact .inl (part (.inr after))
  · exact .inr (by simp [semicolon])

theorem scanned {w : Text} (h : w ∈ p.words) : stopsScan w = false := by
  rcases valid.of_mem_words h with part | mark
  · rw [stopsScan, decide_eq_false (ne_of_mem_of_not_mem (by decide) part).symm,
      decide_eq_false (ne_of_mem_of_not_mem (by decide) part).symm]
    rfl
  · have all : ∀ w ∈ [['('], [')'], [','], [';']], stopsScan w = false := by decide
    exact all w mark

theorem notInline {w : Text} (h : w ∈ p.words) : w ≠ "inline".toList := by
  rcases valid.of_mem_words h with part | mark
  · exact (ne_of_mem_of_not_mem (by decide) part).symm
  · rintro rfl
    exact absurd mark (by decide)

/-- The parts of a prototype hold none of its marks. -/
theorem unmarked {mark : Text} (h : mark ∈ marks) :
    mark ∉ p.before ∧ mark ≠ p.name ∧ mark ∉ p.segments.flatten ∧ mark ∉ p.after := by
  refine ⟨fun mem => ?_, fun same => ?_, fun mem => ?_, fun mem => ?_⟩
  · exact valid.free mark (by simp [mem]) h
  · exact valid.free mark (by simp [same]) h
  · exact valid.free mark (by simp only [List.mem_append, List.mem_cons]; tauto) h
  · exact valid.free mark (by simp [mem]) h

/-- Between the parentheses there are commas beside the segments. -/
theorem not_mem_args {mark : Text} (h : mark ∈ marks) (noComma : mark ≠ [',']) : mark ∉ p.args := by
  intro mem
  rcases mem_intercalate mem with comma | segment
  · exact noComma (List.mem_singleton.1 comma)
  · exact (valid.unmarked h).2.2.1 segment

/-- On one line a prototype is a call. -/
def call : Call where
  before := p.before
  name := p.name
  params := p.args
  after := p.after ++ [[';']]
  identifier := valid.identifier
  single := by
    have paren := valid.unmarked (by decide : ['('] ∈ marks)
    have args := valid.not_mem_args (by decide : ['('] ∈ marks) (by decide)
    rintro w mem rfl
    simp only [List.mem_append, List.mem_singleton] at mem
    rcases mem with (before | inside) | after | semicolon
    · exact paren.1 before
    · exact args inside
    · exact paren.2.2.2 after
    · exact absurd semicolon (by decide)
  unclosed := valid.not_mem_args (by decide) (by decide)
  scanned := by
    intro w mem
    refine valid.scanned ?_
    simp only [List.mem_append, List.mem_cons] at mem
    simp only [words, List.mem_append, List.mem_cons]
    tauto

theorem record_call : valid.call.record = p.record := by
  have comma := (valid.unmarked (by decide : [','] ∈ marks)).2.2.1
  have close := (valid.unmarked (by decide : [')'] ∈ marks)).2.2.1
  have listed : namesListed ['('] (p.args ++ [[')']]) =
      (p.segments.filterMap List.getLast?).filter Text.isIdentifier :=
    namesListed_segments ⟨comma, close⟩ (by decide)
  have named : [] ∉ (p.segments.filterMap List.getLast?).filter Text.isIdentifier := by
    rw [List.mem_filter]
    exact fun mem => absurd mem.2 (by decide)
  show (⟨p.name, (NameList.insertAll {} (namesListed ['('] (p.args ++ [[')']]))).toList⟩ :
    FunctionRecord) = p.record
  rw [listed, NameList.insertAll_eq_eraseDups named]
  rfl

theorem parensNamed (previous : Text) : ParensNamed previous p.words := by
  have paren := valid.unmarked (by decide : ['('] ∈ marks)
  have args := valid.not_mem_args (by decide : ['('] ∈ marks) (by decide)
  refine parensNamed_append.2 ⟨parensNamed_of_noParen paren.1 previous, ?_⟩
  refine ⟨fun same => absurd same.symm paren.2.1, fun _ => valid.identifier, ?_⟩
  refine parensNamed_of_noParen ?_ _
  simp only [List.mem_append, List.mem_cons, List.not_mem_nil, or_false, not_or]
  exact ⟨args, by decide, paren.2.2.2, by decide⟩

theorem count_close : p.words.count [')'] = 1 := by
  have close := valid.unmarked (by decide : [')'] ∈ marks)
  have args := valid.not_mem_args (by decide : [')'] ∈ marks) (by decide)
  simp only [words, List.count_append, List.count_cons, List.count_eq_zero.2 close.1,
    List.count_eq_zero.2 args, List.count_eq_zero.2 close.2.2.2]
  simp [Ne.symm close.2.1]

/-- In front of the opening parenthesis there is no semicolon. -/
theorem noSemicolon {ws : List Text} (h : ws <+: p.words) (unopened : ['('] ∉ ws) : [';'] ∉ ws := by
  have semicolon := valid.unmarked (by decide : [';'] ∈ marks)
  obtain ⟨rest, eq⟩ := h
  rw [words, show p.before ++ p.name :: ['('] :: (p.args ++ [')'] :: (p.after ++ [[';']])) =
    (p.before ++ [p.name]) ++ ['('] :: (p.args ++ [')'] :: (p.after ++ [[';']])) by simp] at eq
  rcases List.append_eq_append_iff.1 eq with ⟨more, front, -⟩ | ⟨more, front, behind⟩
  · intro mem
    have inside : [';'] ∈ p.before ++ [p.name] := by
      rw [front]
      exact List.mem_append_left _ mem
    rw [List.mem_append, List.mem_singleton] at inside
    exact inside.elim semicolon.1 semicolon.2.1
  · cases more with
    | nil =>
      rw [front, List.append_nil, List.mem_append, List.mem_singleton, not_or]
      exact ⟨semicolon.1, semicolon.2.1⟩
    | cons w more =>
      refine absurd ?_ unopened
      rw [front, (List.cons.inj behind).1]
      exact List.mem_append_right _ List.mem_cons_self

/-- All words of a prototype together record it and leave no function open. -/
theorem readWords {b : FunctionBooks} (outside : b.function = .outside) :
    (b.readWords p.words).function = .outside ∧
      (b.readWords p.words).functions = b.functions ++ [p.record] := by
  have words : (Line.ofWords p.words).words = p.words := Line.words_ofWords p.words
  have all : (Line.ofWords p.words).read = p.words := by
    rw [Line.read_eq_words fun w mem => valid.scanned (words ▸ mem), words]
  have notInline : (Line.ofWords p.words).word? 0 ≠ some "inline".toList := by
    rw [Line.word?, words]
    exact fun first => valid.notInline (List.mem_of_getElem? first) rfl
  have named := valid.parensNamed b.cursor.previous
  rw [← all] at named
  have books := Scan.books_line notInline named
  obtain ⟨function, -, functions⟩ := Scan.line_call (g := valid.call) words b.cursor notInline
  rw [all, outside] at books
  rw [← books]
  refine ⟨function.trans (if_pos ?_), ?_⟩
  · exact List.mem_append_right _ List.mem_cons_self
  · rw [← valid.record_call, ← functions]
    rfl

end Valid

end Prototype

/-- The words of the lines, without blank lines and `//` lines. -/
def spelled (ls : List Text) : List Text :=
  ls.flatMap fun raw => if (Line.cut raw).Passed then [] else (Line.cut raw).words

theorem spelled_append (xs ys : List Text) : spelled (xs ++ ys) = spelled xs ++ spelled ys :=
  List.flatMap_append

theorem spelled_passed {raw : Text} (h : (Line.cut raw).Passed) : spelled [raw] = [] := by
  simp [spelled, h]

theorem spelled_unpassed {raw : Text} (h : ¬(Line.cut raw).Passed) :
    spelled [raw] = (Line.cut raw).words := by
  simp [spelled, h]

/-- The words of the prototype, broken into lines anywhere but between the closing parenthesis and the
semicolon, which are on the last line. There may be blank lines and `//` lines between, and the stages
before the one that follows functions claim none of the others. -/
structure Prototype.Broken (config : Config) (m : Mode) (p : Prototype) (front : List Text)
    (last : Text) : Prop where
  fits : ∀ raw ∈ front ++ [last], config.Fits raw
  lines : ∀ raw ∈ front ++ [last], (Line.cut raw).Passed ∨ (Line.cut raw).Unclaimed m
  words : spelled (front ++ [last]) = p.words
  close : [')'] ∈ spelled [last]

instance (config : Config) (m : Mode) (p : Prototype) (front : List Text) (last : Text) :
    Decidable (p.Broken config m front last) :=
  decidable_of_iff
    ((∀ raw ∈ front ++ [last], config.Fits raw) ∧
      (∀ raw ∈ front ++ [last], (Line.cut raw).Passed ∨ (Line.cut raw).Unclaimed m) ∧
      spelled (front ++ [last]) = p.words ∧ ∃ w ∈ spelled [last], w = [')'])
    ⟨fun ⟨a, b, c, _, d, same⟩ => ⟨a, b, c, same ▸ d⟩, fun ⟨a, b, c, d⟩ => ⟨a, b, c, _, d, rfl⟩⟩

namespace Mode

/-- No block comment, enum, struct or function is open. -/
structure Free (m : Mode) : Prop where
  comment : m.inComment = false
  enum : m.enumBody = none
  struct : m.structBody = none
  function : m.function = .outside

/-- The modes differ in nothing but functions and in whether the brace of a class was seen. -/
structure Beside (m n : Mode) : Prop where
  comment : n.inComment = m.inComment
  externC : n.inExternC = m.inExternC
  enum : n.enumBody = m.enumBody
  struct : n.structBody = m.structBody
  active : n.classState.isActive = m.classState.isActive

theorem Beside.refl (m : Mode) : m.Beside m := ⟨rfl, rfl, rfl, rfl, rfl⟩

theorem Beside.trans {l m n : Mode} (h : l.Beside m) (k : m.Beside n) : l.Beside n :=
  ⟨k.comment.trans h.comment, k.externC.trans h.externC, k.enum.trans h.enum,
    k.struct.trans h.struct, k.active.trans h.active⟩

theorem beside_function (m : Mode) (function : FunctionState) : m.Beside { m with function } :=
  ⟨rfl, rfl, rfl, rfl, rfl⟩

end Mode

theorem ClassState.eq_none_of_inactive {c : ClassState} (h : c.isActive = false) : c = .none := by
  cases c with
  | none => rfl
  | pending name | opened name => cases h

theorem Line.Unclaimed.beside {l : Line} {m n : Mode} (h : l.Unclaimed m) (beside : m.Beside n) :
    l.Unclaimed n := by
  obtain ⟨full, slashes, star, define, loose⟩ := h
  refine ⟨full, slashes, star, define, loose.externC, loose.noEnum, loose.noStruct, loose.noClass,
    loose.notFlat, fun closer => ?_, fun brace => beside.externC.trans (loose.brace brace)⟩
  obtain ⟨enum, struct, closed⟩ := loose.closer closer
  have inactive := beside.active
  rw [closed] at inactive
  exact ⟨beside.enum.trans enum, beside.struct.trans struct, ClassState.eq_none_of_inactive inactive⟩

/-- The words were read from the state `s` on, and nothing else that matters to words has changed. -/
structure State.HasRead (s : State) (ws : List Text) (t : State) : Prop where
  beside : s.mode.Beside t.mode
  books : t.functionBooks = s.functionBooks.readWords ws

namespace State.HasRead

variable {s t u : State} {ws vs : List Text}

theorem trans (h : s.HasRead ws t) (k : t.HasRead vs u) : s.HasRead (ws ++ vs) u :=
  ⟨h.beside.trans k.beside, by rw [k.books, h.books, FunctionBooks.readWords_append]⟩

theorem previous (h : s.HasRead ws t) : t.cursor.previous = ws.getLast?.getD s.cursor.previous :=
  (congrArg (·.cursor.previous) h.books).trans (FunctionBooks.previous_readWords ws)

theorem function (h : s.HasRead ws t) (outside : s.mode.function = .outside)
    (named : ParensNamed s.cursor.previous ws) (unclosed : [')'] ∉ ws) :
    t.mode.function = if ['('] ∈ ws then .signature else .outside :=
  (congrArg (·.function) h.books).trans
    (FunctionBooks.function_readWords (b := s.functionBooks) outside named unclosed)

end State.HasRead

namespace Conversion

variable {config : Config} {raw : Text} {s t : State}

/-- In the last stage a line that declares no member may open the body of a class. It changes nothing
else of the mode. -/
theorem liftMembers_cases (undeclared : s.line.text.declaredName? = none) :
    liftMembers.run s = .ok false s ∨ ∃ t, Leaves liftMembers s true t ∧ s.HasRead [] t := by
  cases active : s.mode.classState.isActive with
  | false => exact .inl (run_liftMembers_closed (ClassState.eq_none_of_inactive active))
  | true =>
    by_cases access : s.line.words ∈ accessWords
    · exact .inr ⟨s, .of_run (run_liftMembers_access active access), .refl s.mode, rfl⟩
    by_cases brace : s.line.words = [['{']] ∧ s.mode.classState.awaited?.isSome = true
    · obtain ⟨words, awaited⟩ := brace
      cases state : s.mode.classState with
      | pending name =>
        refine .inr ⟨_, leaves_liftMembers_brace words state, ⟨rfl, rfl, rfl, rfl, ?_⟩, rfl⟩
        exact active.symm
      | none | opened name =>
        rw [state] at awaited
        cases awaited
    · refine .inl (run_liftMembers_unclaimed active (fun words => ?_) access undeclared)
      rw [← Option.not_isSome_iff_eq_none]
      exact fun awaited => brace ⟨words, awaited⟩

/-- A line without calls and semicolons is read, whatever becomes of it behind the function stage. -/
theorem exists_late_idle (w : s.Watching) (function : s.mode.function = .outside)
    (idle : (Scan.line s.line .outside s.cursor).suppress = false)
    (noSemicolon : ';' ∉ s.line.text) :
    ∃ t, Leaves (late config) s () t ∧ s.followOutside.HasRead [] t := by
  have noConstant : Pattern.constMember.replace "#define $1 ($2)".toList s.line.text = none :=
    Pattern.replace_of_absent Pattern.constMember_semicolon _ noSemicolon
  have lift : liftMembers.run s.followOutside = _ ∨ _ :=
    liftMembers_cases (s := s.followOutside) (Text.declaredName?_of_absent noSemicolon)
  rcases lift with unclaimed | ⟨t, leaves, read⟩
  · refine ⟨s.followOutside.put ⟨.copied, s.line.text⟩, leaves_late_copied ?_, ?_, ?_⟩
    · rw [run_lateStages_idle w function idle noConstant, run_firstClaim_unclaimed _ unclaimed]
      rfl
    · rw [State.mode_put]
      exact .refl _
    · exact congrArg Books.ofFunction (State.books_put _ _)
  · exact ⟨t, leaves_late_idle w function idle noConstant leaves, read⟩

variable {l : Line} {ws : List Text}

/-- A line that starts outside function bodies and has to do with functions is suppressed. -/
theorem exists_loud_line (w : s.Watching) (inside : ∀ depth, s.mode.function ≠ .body depth)
    (arrives : Arrives config s.mode raw (.reached none l))
    (books : (Scan.line l s.mode.function s.cursor).books s.functions =
      s.functionBooks.readWords ws)
    (suppress : s.mode.function ≠ .outside ∨
      (Scan.line l s.mode.function s.cursor).suppress = true) :
    ∃ t, Leaves (processLine config raw) s () t ∧ s.HasRead ws t ∧
      t.emitted = s.emitted ++ config.rules.suppression.render t.mode.function.level l.text := by
  have claimed : (decide (s.mode.function ≠ .outside) ||
      (Scan.line l s.mode.function s.cursor).suppress) = true := by
    rw [Bool.or_eq_true, decide_eq_true_eq]
    exact suppress
  have follow := run_followFunction_scan (s := s.arrive config raw (.reached none l)) inside
  have seen : (s.arrive config raw (.reached none l)).Watching := ⟨w.enum, w.struct⟩
  have leaves : Leaves (trackFunctions config) (s.arrive config raw (.reached none l)) true _ :=
    leaves_trackFunctions seen (follow.trans (congrArg (EStateM.Result.ok · _) claimed))
  refine ⟨_, leaves_reached arrives (leaves_late leaves), ⟨?_, ?_⟩, ?_⟩
  · rw [State.mode_putAll]
    exact s.mode.beside_function _
  · exact (congrArg Books.ofFunction (State.books_putAll _ _)).trans books
  · rw [State.emitted_putAll, State.mode_putAll]
    rfl

/-- A line without calls and semicolons is read, too. -/
theorem exists_quiet_line (w : s.Watching) (outside : s.mode.function = .outside)
    (arrives : Arrives config s.mode raw (.reached none l))
    (books : (Scan.line l s.mode.function s.cursor).books s.functions =
      s.functionBooks.readWords ws)
    (idle : (Scan.line l .outside s.cursor).suppress = false) (noSemicolon : ';' ∉ l.text) :
    ∃ t, Leaves (processLine config raw) s () t ∧ s.HasRead ws t := by
  obtain ⟨t, leaves, rest⟩ : ∃ t, Leaves (late config) (s.arrive config raw (.reached none l)) () t ∧ _ :=
    exists_late_idle ⟨w.enum, w.struct⟩ outside idle noSemicolon
  rw [outside] at books
  refine ⟨t, leaves_reached arrives leaves, ?_, rest.books.trans books⟩
  exact (s.mode.beside_function _).trans rest.beside

/-- A line of words that are all read, which is suppressed if it has to do with functions. -/
theorem exists_read_line (comment : s.mode.inComment = false) (w : s.Watching)
    (inside : ∀ depth, s.mode.function ≠ .body depth) (fits : config.Fits raw)
    (unclaimed : (Line.cut raw).Unclaimed s.mode)
    (plain : ∀ w ∈ (Line.cut raw).words, stopsScan w = false ∧ w ≠ "inline".toList)
    (named : ParensNamed s.cursor.previous (Line.cut raw).words)
    (quiet : s.mode.function = .outside → ['('] ∉ (Line.cut raw).words →
      [';'] ∉ (Line.cut raw).words) :
    ∃ t, Leaves (processLine config raw) s () t ∧ s.HasRead (Line.cut raw).words t ∧
      (s.mode.function ≠ .outside ∨ ['('] ∈ (Line.cut raw).words → t.emitted = s.emitted ++
        config.rules.suppression.render t.mode.function.level (config.outdent s.mode raw).2) := by
  have arrives := Arrives.reached_outdent comment fits unclaimed
  have words := words_outdent config s.mode raw
  rw [← words] at plain named quiet ⊢
  have read := Line.read_eq_words fun w mem => (plain w mem).1
  have notInline : (Line.cut (config.outdent s.mode raw).2).word? 0 ≠ some "inline".toList :=
    fun first => (plain _ (List.mem_of_getElem? first)).2 rfl
  rw [← read] at named
  have books := Scan.books_line (b := s.functionBooks) notInline named
  by_cases loud : s.mode.function ≠ .outside ∨
      ['('] ∈ (Line.cut (config.outdent s.mode raw).2).words
  · have suppress : s.mode.function ≠ .outside ∨
        (Scan.line (.cut (config.outdent s.mode raw).2) s.mode.function s.cursor).suppress = true := by
      refine or_iff_not_imp_left.2 fun outside => ?_
      have paren := loud.resolve_left outside
      rw [← read] at paren
      rw [not_not.1 outside]
      exact Scan.suppress_line_named named paren
    rw [read] at books
    obtain ⟨t, leaves, next, emitted⟩ := exists_loud_line w inside arrives books suppress
    exact ⟨t, leaves, next, fun _ => emitted⟩
  · obtain ⟨outside, noParen⟩ := not_or.1 loud
    rw [not_not] at outside
    have noSemicolon : ';' ∉ (config.outdent s.mode raw).2 := fun mem =>
      quiet outside noParen (Token.mem_wordsOf_delimiter (by decide) mem)
    rw [← read] at noParen
    have idle : (Scan.line (.cut (config.outdent s.mode raw).2) .outside s.cursor).suppress = false := by
      rw [Line.scan_of_quiet ⟨notInline, Scan.opens_of_noParen noParen⟩]
    rw [read] at books
    obtain ⟨t, leaves, next⟩ := exists_quiet_line w outside arrives books idle noSemicolon
    exact ⟨t, leaves, next, fun other => absurd other loud⟩

end Conversion

namespace Prototype.Broken

variable {config : Config} {m : Mode} {p : Prototype} {front xs ys : List Text} {last raw : Text}

theorem whole (broken : p.Broken config m front last) (split : front ++ [last] = xs ++ raw :: ys) :
    spelled xs ++ (spelled [raw] ++ spelled ys) = p.words := by
  rw [← broken.words, split, ← spelled_append, ← spelled_append]
  rfl

/-- The closing parenthesis is on the last line only. -/
theorem unclosed (broken : p.Broken config m front last) (valid : p.Valid)
    (split : front ++ [last] = xs ++ raw :: ys) : [')'] ∉ spelled xs := by
  have single := valid.count_close
  rw [← broken.words, spelled_append, List.count_append] at single
  have close := List.count_pos_iff.2 broken.close
  have none : [')'] ∉ spelled front := List.count_eq_zero.1 (by omega)
  have before : xs <+: front := by
    have start : xs <+: front ++ [last] := ⟨raw :: ys, split.symm⟩
    refine (List.prefix_concat_iff.1 start).resolve_left fun whole => ?_
    rw [whole] at split
    simp at split
  obtain ⟨zs, rfl⟩ := before
  rw [spelled_append, List.mem_append, not_or] at none
  exact none.1

end Prototype.Broken

namespace Conversion

variable {config : Config} {p : Prototype} {front xs ys : List Text} {last raw : Text} {s t : State}

/-- One more line of a prototype is read. From the opening parenthesis on it is suppressed, unless it is
a blank line or a `//` line. -/
theorem exists_broken_line (free : s.mode.Free) (valid : p.Valid)
    (broken : p.Broken config s.mode front last) (split : front ++ [last] = xs ++ raw :: ys)
    (read : s.HasRead (spelled xs) t) :
    ∃ u, Leaves (processLine config raw) t () u ∧ s.HasRead (spelled (xs ++ [raw])) u ∧
      ((Line.cut raw).Passed → u.emitted = t.emitted ++ [⟨.copied, (config.outdent t.mode raw).2⟩]) ∧
      (¬(Line.cut raw).Passed → ['('] ∈ spelled (xs ++ [raw]) → u.emitted = t.emitted ++
        config.rules.suppression.render u.mode.function.level (config.outdent t.mode raw).2) := by
  have mem : raw ∈ front ++ [last] := by
    rw [split]
    exact List.mem_append_right _ List.mem_cons_self
  have fits := broken.fits raw mem
  by_cases passed : (Line.cut raw).Passed
  · refine ⟨_, leaves_copied (Arrives.copied_outdent t.mode fits passed), ⟨?_, ?_⟩, fun _ => ?_,
      fun other => absurd passed other⟩
    · rw [State.mode_put]
      exact read.beside
    · rw [spelled_append, spelled_passed passed, List.append_nil]
      exact (congrArg Books.ofFunction (State.books_put _ _)).trans read.books
    · exact State.emitted_put _ _
  have own := spelled_unpassed passed
  have whole := broken.whole split
  rw [own] at whole
  have named := valid.parensNamed s.cursor.previous
  rw [← whole, parensNamed_append, parensNamed_append, ← read.previous] at named
  have function := read.function free.function named.1 (broken.unclosed valid split)
  have inside (depth : Int) : t.mode.function ≠ .body depth := by
    rw [function]
    split_ifs <;> exact FunctionState.noConfusion
  have plain (w : Text) (mem : w ∈ (Line.cut raw).words) :
      stopsScan w = false ∧ w ≠ "inline".toList := by
    have part : w ∈ p.words := by
      rw [← whole]
      exact List.mem_append_right _ (List.mem_append_left _ mem)
    exact ⟨valid.scanned part, valid.notInline part⟩
  -- A line that is not suppressed ends before the opening parenthesis.
  have quiet (outside : t.mode.function = .outside) (noParen : ['('] ∉ (Line.cut raw).words) :
      [';'] ∉ (Line.cut raw).words := by
    have unopened : ['('] ∉ spelled xs := by
      intro opened
      rw [function, if_pos opened] at outside
      cases outside
    have start : spelled xs ++ (Line.cut raw).words <+: p.words :=
      ⟨spelled ys, by rw [List.append_assoc]; exact whole⟩
    have none := valid.noSemicolon start fun mem => (List.mem_append.1 mem).elim unopened noParen
    exact fun mem => none (List.mem_append_right _ mem)
  obtain ⟨u, leaves, next, suppressed⟩ := exists_read_line (read.beside.comment.trans free.comment)
    ⟨read.beside.enum.trans free.enum, read.beside.struct.trans free.struct⟩ inside fits
    (((broken.lines raw mem).resolve_left passed).beside read.beside) plain named.2.1 quiet
  rw [spelled_append, own]
  refine ⟨u, leaves, read.trans next, fun other => absurd other passed, fun _ opened => ?_⟩
  refine suppressed ((List.mem_append.1 opened).imp_left fun before => ?_)
  rw [function, if_pos before]
  exact FunctionState.noConfusion

/-- The lines of a prototype are read one after the other. -/
theorem hasRead_runLines (free : s.mode.Free) (valid : p.Valid)
    (broken : p.Broken config s.mode front last) (split : front ++ [last] = xs ++ ys) :
    s.HasRead (spelled xs) (runLines config xs s) := by
  induction xs using List.reverseRecOn generalizing ys with
  | nil => exact ⟨.refl s.mode, rfl⟩
  | append_singleton xs raw ih =>
    rw [List.append_assoc] at split
    obtain ⟨t, leaves, read, -⟩ := exists_broken_line free valid broken split (ih split)
    rw [runLines_append, runLines, runLines, leaves.stateAfter_eq]
    exact read

/-- A prototype leaves what it leaves on one line, wherever its words are broken into lines: one record
of its name and parameters and no open function. From the opening parenthesis on all its lines are
suppressed, and blank lines and `//` lines between them are copied. -/
theorem prototype_recorded (free : s.mode.Free) (valid : p.Valid)
    (broken : p.Broken config s.mode front last) :
    (runLines config (front ++ [last]) s).functions = s.functions ++ [p.record] ∧
    (runLines config (front ++ [last]) s).mode.function = .outside ∧
    ∀ xs raw ys, front ++ [last] = xs ++ raw :: ys →
      let before := runLines config xs s
      let after := runLines config (xs ++ [raw]) s
      Leaves (processLine config raw) before () after ∧
      ((Line.cut raw).Passed → after.emitted =
        before.emitted ++ [⟨.copied, (config.outdent before.mode raw).2⟩]) ∧
      (¬(Line.cut raw).Passed → ['('] ∈ spelled (xs ++ [raw]) → after.emitted =
        before.emitted ++ config.rules.suppression.render after.mode.function.level
          (config.outdent before.mode raw).2) := by
  have read := hasRead_runLines free valid broken (List.append_nil _).symm
  rw [broken.words] at read
  obtain ⟨outside, recorded⟩ := valid.readWords (b := s.functionBooks) free.function
  rw [← read.books] at outside recorded
  refine ⟨recorded, outside, fun xs raw ys split => ?_⟩
  obtain ⟨t, leaves, -, copied, suppressed⟩ :=
    exists_broken_line free valid broken split (hasRead_runLines free valid broken split)
  have next : runLines config (xs ++ [raw]) s = t :=
    (runLines_append config xs [raw] s).trans leaves.stateAfter_eq
  rw [next]
  exact ⟨leaves, copied, suppressed⟩

theorem brokenSum_recorded :
    let t := runLines {} ["extern int sum(int first,\n".toList, "\n".toList,
      "    // the second summand\n".toList, "    int second, ...) noexcept;\n".toList] {}
    t.functions = [⟨"sum".toList, ["first".toList, "second".toList]⟩] ∧
      t.mode.function = .outside := by
  let p : Prototype := {
    before := ["extern".toList, "int".toList]
    name := "sum".toList
    segments := [["int".toList, "first".toList], ["int".toList, "second".toList], ["...".toList]]
    after := ["noexcept".toList] }
  have broken : p.Broken {} {} ["extern int sum(int first,\n".toList, "\n".toList,
      "    // the second summand\n".toList] "    int second, ...) noexcept;\n".toList := by
    decide +kernel
  have record : p.record = ⟨"sum".toList, ["first".toList, "second".toList]⟩ := by decide
  obtain ⟨functions, outside, -⟩ :=
    prototype_recorded (s := {}) ⟨rfl, rfl, rfl, rfl⟩ (by decide : p.Valid) broken
  rw [record] at functions
  exact ⟨functions, outside⟩

end Conversion

end HeaderFlattening
