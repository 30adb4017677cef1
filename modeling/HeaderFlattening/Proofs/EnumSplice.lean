import HeaderFlattening.Proofs.Hoisting
import HeaderFlattening.Proofs.Parameters
import HeaderFlattening.Proofs.Spans

/-!
The body of an enum on one line: which lines have one, what of the text it is, what is put into it and
which values it records. Putting it together from slices of the text between the offsets of the
tokens gives the same body, so that every slice lies in the text, between characters.
-/

set_option autoImplicit false
namespace HeaderFlattening

namespace EnumLine

theorem isTail_iff (ws : List Text) :
    isTail ws = true ↔ ws = [[';']] ∨ ∃ n : Text, n.isIdentifier = true ∧ ws = [n, [';']] := by
  unfold isTail
  split
  · simp
  · rename_i n semicolon
    simp only [Bool.and_eq_true, decide_eq_true_eq]
    constructor
    · rintro ⟨named, rfl⟩
      exact .inr ⟨n, named, rfl⟩
    · rintro (eq | ⟨m, named, eq⟩)
      · cases eq
      · cases eq
        exact ⟨named, rfl⟩
  · rename_i one two
    simp only [Bool.false_eq_true, false_iff, not_or, not_exists, not_and]
    exact ⟨fun eq => one _ eq, fun n _ eq => two _ _ eq⟩

/-- Whether a name directly behind this word is a value. -/
def separates (w : Text) : Bool := w = ['{'] || w = [',']

/-- What is put in front of a value. -/
def lead (className : Option Text) : Text := className.elim [] (· ++ "_".toList)

theorem valueName_eq (className : Option Text) (name : Text) :
    valueName className name = lead className ++ name := by
  cases className <;> rfl

/-- The text between the braces. -/
def source (e : EnumLine) : Text := e.inner.flatMap Token.source ++ e.close.gap

/-- The tokens between the braces, each with the word directly before it. -/
def placed (e : EnumLine) : List (Text × Token) :=
  (['{'] :: e.inner.map Token.text).zip e.inner

/-- An identifier directly behind a brace or a comma. -/
def isValue (p : Text × Token) : Bool := separates p.1 && p.2.text.isIdentifier

/-- A part of the body in its flat form: put in, or copied from the source. -/
structure Part where
  inserted : Bool
  text : Text

/-- The parts that a token becomes. -/
def partsOf (className : Option Text) (p : Text × Token) : List Part :=
  if isValue p then [⟨false, p.2.gap⟩, ⟨true, lead className⟩, ⟨false, p.2.text⟩]
  else [⟨false, p.2.source⟩]

def parts (e : EnumLine) (className : Option Text) : List Part :=
  e.placed.flatMap (partsOf className) ++ [⟨false, e.close.gap⟩]

/-- The values, as they are renamed. -/
def renamed (e : EnumLine) (className : Option Text) : List Text :=
  (e.placed.filter isValue).map fun p => lead className ++ p.2.text

theorem text_partsOf (className : Option Text) (p : Text × Token) :
    (partsOf className p).flatMap Part.text =
      if isValue p then p.2.gap ++ valueName className p.2.text else p.2.source := by
  rw [partsOf, valueName_eq]
  split_ifs <;> simp

theorem rename_cons (className : Option Text) (before : Text) (t : Token) (ts : List Token) :
    rename className (separates before) (t :: ts) =
      ((partsOf className (before, t)).flatMap Part.text ++
          (rename className (separates t.text) ts).1,
        (if isValue (before, t) then [lead className ++ t.text] else []) ++
          (rename className (separates t.text) ts).2) := by
  rw [rename, text_partsOf, valueName_eq]
  show (if isValue (before, t) = true then _ else _ : Text × List Text) = _
  split_ifs <;> rfl

theorem rename_eq (className : Option Text) (before : Text) (ts : List Token) :
    rename className (separates before) ts =
      ((((before :: ts.map Token.text).zip ts).flatMap (partsOf className)).flatMap Part.text,
        (((before :: ts.map Token.text).zip ts).filter isValue).map
          fun p => lead className ++ p.2.text) := by
  induction ts generalizing before with
  | nil => rfl
  | cons t ts ih =>
    rw [rename_cons, ih, List.map_cons, List.zip_cons_cons, List.flatMap_cons, List.flatMap_append,
      List.filter_cons]
    split_ifs <;> rfl

theorem body_eq_parts (e : EnumLine) (className : Option Text) :
    e.body className = (e.parts className).flatMap Part.text := by
  have between : rename className true e.inner = _ := rename_eq className ['{'] e.inner
  rw [body, between, parts, List.flatMap_append]
  simp [placed]

theorem values_eq_renamed (e : EnumLine) (className : Option Text) :
    e.values className = e.renamed className := by
  have between : rename className true e.inner = _ := rename_eq className ['{'] e.inner
  rw [values, between]
  rfl

/-- The source is back once all that was put in is gone. -/
theorem copied_parts (e : EnumLine) (className : Option Text) :
    ((e.parts className).filter (!·.inserted)).flatMap Part.text = e.source := by
  have tokens (before : Text) (ts : List Token) :
      ((((before :: ts.map Token.text).zip ts).flatMap (partsOf className)).filter
        (!·.inserted)).flatMap Part.text = ts.flatMap Token.source := by
    induction ts generalizing before with
    | nil => rfl
    | cons t ts ih =>
      rw [List.map_cons, List.zip_cons_cons, List.flatMap_cons, List.filter_append,
        List.flatMap_append, ih t.text, List.flatMap_cons, partsOf]
      split_ifs <;> simp [Token.source]
  rw [parts, List.filter_append, List.flatMap_append, placed, tokens, source]
  simp

theorem body_none (e : EnumLine) : e.body none = e.source := by
  rw [body, source, rename_none]

theorem nil_not_mem_renamed (e : EnumLine) (className : Option Text) :
    [] ∉ e.renamed className := by
  intro mem
  obtain ⟨p, value, empty⟩ := List.mem_map.1 mem
  have named := (Bool.and_eq_true_iff.1 (List.mem_filter.1 value).2).2
  rw [(List.append_eq_nil_iff.1 empty).2] at named
  cases named

end EnumLine

namespace Line

/-- One round of the loop that puts a body together, for the token with this number: what there is of
the body, and the offset up to which the line was copied. -/
def spliceRound (l : Line) (className : Option Text) (done : Text × Nat) (i : Nat) :
    Option (Text × Nat) :=
  match (l.word? i).filter fun w =>
      (l.word? (i - 1)).any EnumLine.separates && w.isIdentifier with
  | none => some done
  | some name => do
    let span ← l.span? i
    let gap ← l.text.slice? done.2 span.start
    return (done.1 ++ gap ++ EnumLine.valueName className name, span.stop)

/-- The body put together from slices of the line: one up to each value, and one up to the closing
brace. It is absent if a slice does not lie in the line, or not between characters. -/
def spliceBody? (l : Line) (className : Option Text) : Option Text := do
  let first ← l.words.findIdx? (· = ['{'])
  let last ← l.words.findIdx? (· = ['}'])
  let start ← l.span? first
  let stop ← l.span? last
  let (body, copied) ← (List.range' (first + 1) (last - (first + 1))).foldlM
    (l.spliceRound className) ([], start.stop)
  let rest ← l.text.slice? copied stop.start
  return body ++ rest

/-- The tokens of the line make up its text, but for what is behind them. -/
def Whole (l : Line) : Prop := l.tokens.flatMap Token.source <+: l.text

variable {l : Line} {className : Option Text}

theorem whole_cut (t : Text) : (cut t).Whole := ⟨(Token.scan t).2, Token.append_tail t⟩

theorem word?_append {seen more : List Token} {u : Token} (tokens : l.tokens = seen ++ u :: more) :
    l.word? seen.length = some u.text := by
  rw [word?, words, tokens, List.getElem?_map, List.getElem?_append_right (Nat.le_refl _),
    Nat.sub_self]
  rfl

theorem span?_append {seen more : List Token} {u : Token} (tokens : l.tokens = seen ++ u :: more) :
    l.span? seen.length = some ⟨Text.byteLength (seen.flatMap Token.source ++ u.gap),
      Text.byteLength (seen.flatMap Token.source ++ u.source)⟩ := by
  rw [span?, tokens, Token.getElem?_spans_append, Nat.zero_add, Nat.zero_add]

/-- What was not copied yet can be sliced from the line. -/
theorem Whole.slice? (h : l.Whole) {seen more : List Token} {u : Token} {copied pending : Text}
    (tokens : l.tokens = seen ++ u :: more)
    (parts : seen.flatMap Token.source = copied ++ pending) :
    l.text.slice? (Text.byteLength copied)
      (Text.byteLength (seen.flatMap Token.source ++ u.gap)) = some (pending ++ u.gap) := by
  obtain ⟨tail, text⟩ := h
  have split : l.text = copied ++ ((pending ++ u.gap) ++
      (u.text ++ (more.flatMap Token.source ++ tail))) := by
    rw [← text, tokens, List.flatMap_append, List.flatMap_cons, parts]
    simp only [Token.source, List.append_assoc]
  rw [split, parts, show copied ++ pending ++ u.gap = copied ++ (pending ++ u.gap) from
    List.append_assoc _ _ _, Text.slice?_append]

theorem Whole.spliceRound (h : l.Whole) (body : Text) {seen more : List Token} {u : Token}
    {before copied pending : Text} (tokens : l.tokens = seen ++ u :: more)
    (last : l.word? (seen.length - 1) = some before)
    (parts : seen.flatMap Token.source = copied ++ pending) :
    l.spliceRound className (body, Text.byteLength copied) seen.length =
      some (if EnumLine.isValue (before, u) then
          (body ++ (pending ++ u.gap) ++ EnumLine.valueName className u.text,
            Text.byteLength (seen.flatMap Token.source ++ u.source))
        else (body, Text.byteLength copied)) := by
  rw [Line.spliceRound, word?_append tokens, last, Option.any_some, Option.filter_some]
  show (match if EnumLine.isValue (before, u) = true then some u.text else none with
    | none => _
    | some name => _) = _
  split_ifs
  · simp only [span?_append tokens, Option.bind_eq_bind, Option.bind_some, h.slice? tokens parts]
    rfl
  · rfl

/-- What the loop has put together and what it has not copied yet make up the renamed tokens. -/
theorem Whole.foldlM_spliceRound (h : l.Whole) (className : Option Text) (ts more : List Token)
    (body : Text) {seen : List Token} {before copied pending : Text}
    (tokens : l.tokens = seen ++ (ts ++ more)) (last : l.word? (seen.length - 1) = some before)
    (parts : seen.flatMap Token.source = copied ++ pending) :
    ∃ body' copied' pending',
      (List.range' seen.length ts.length).foldlM (l.spliceRound className)
        (body, Text.byteLength copied) = some (body', Text.byteLength copied') ∧
      (seen ++ ts).flatMap Token.source = copied' ++ pending' ∧
      body' ++ pending' =
        body ++ pending ++ (EnumLine.rename className (EnumLine.separates before) ts).1 := by
  induction ts generalizing seen before body copied pending with
  | nil =>
    refine ⟨body, copied, pending, rfl, ?_, ?_⟩
    · rw [List.append_nil, parts]
    · exact (List.append_nil _).symm
  | cons u ts ih =>
    have round : l.spliceRound className (body, Text.byteLength copied) seen.length = _ :=
      h.spliceRound body tokens last parts
    have length : (seen ++ [u]).length = seen.length + 1 := List.length_append
    have next : l.tokens = (seen ++ [u]) ++ (ts ++ more) := by
      rw [tokens, List.append_assoc]
      rfl
    have behind : l.word? ((seen ++ [u]).length - 1) = some u.text := by
      rw [length, Nat.add_sub_cancel]
      exact word?_append tokens
    have grown : (seen ++ [u]).flatMap Token.source = seen.flatMap Token.source ++ u.source := by
      rw [List.flatMap_append, List.flatMap_singleton]
    rw [List.length_cons, List.range'_succ, List.foldlM_cons, round, EnumLine.rename_cons,
      EnumLine.text_partsOf, List.append_cons seen u ts, ← length]
    cases value : EnumLine.isValue (before, u) with
    | true =>
      obtain ⟨body', copied', pending', run, split, result⟩ :=
        ih (body ++ (pending ++ u.gap) ++ EnumLine.valueName className u.text) next behind
          (grown.trans (List.append_nil _).symm)
      refine ⟨body', copied', pending', run, split, ?_⟩
      rw [result]
      simp only [if_true, List.append_assoc, List.nil_append]
    | false =>
      rw [parts, List.append_assoc] at grown
      obtain ⟨body', copied', pending', run, split, result⟩ := ih body next behind grown
      refine ⟨body', copied', pending', run, split, ?_⟩
      rw [result]
      simp only [Bool.false_eq_true, if_false, List.append_assoc]

theorem findIdx?_words {seen more : List Token} {u : Token} {w : Text}
    (tokens : l.tokens = seen ++ u :: more) (here : u.text = w) (first : ∀ v ∈ seen, v.text ≠ w) :
    l.words.findIdx? (· = w) = some seen.length := by
  have none : (seen.map Token.text).findIdx? (· = w) = none := by
    rw [List.findIdx?_eq_none_iff]
    intro v mem
    obtain ⟨v, earlier, rfl⟩ := List.mem_map.1 mem
    exact decide_eq_false (first v earlier)
  rw [words, tokens, List.map_append, List.findIdx?_append, none, List.map_cons,
    List.findIdx?_cons, here]
  simp

/-- Copied by offsets, the body of an enum line is the one that renaming its tokens gives. -/
theorem Whole.spliceBody? (h : l.Whole) {e : EnumLine}
    (found : EnumLine.ofTokens? l.tokens = some e) :
    l.spliceBody? className = some (e.body className) := by
  obtain ⟨head, first, tail, opens, isOpen, isClose, outside, inside, -⟩ :=
    EnumLine.ofTokens?_eq_some_iff.1 found
  have behind : l.tokens = (head ++ [first]) ++ (e.inner ++ e.close :: tail) := by
    rw [opens, List.append_assoc]
    rfl
  have closes : l.tokens = (head ++ [first] ++ e.inner) ++ e.close :: tail := by
    rw [behind, List.append_assoc (head ++ [first])]
  have noClose : ∀ u ∈ head ++ [first] ++ e.inner, u.text ≠ ['}'] := by
    intro u mem
    rcases List.mem_append.1 mem with before | within
    · rcases List.mem_append.1 before with before | same
      · exact (outside u before).2
      · rw [List.mem_singleton.1 same, isOpen]
        decide
    · exact inside u within
  have openAt := findIdx?_words opens isOpen fun u mem => (outside u mem).1
  have closeAt := findIdx?_words closes isClose noClose
  have upTo : Text.byteLength (head.flatMap Token.source ++ first.source) =
      Text.byteLength ((head ++ [first]).flatMap Token.source) := by
    rw [List.flatMap_append, List.flatMap_singleton]
  have firstRound : head.length + 1 = (head ++ [first]).length := by
    rw [List.length_append, List.length_singleton]
  have rounds : (head ++ [first] ++ e.inner).length - (head ++ [first]).length = e.inner.length := by
    rw [List.length_append, Nat.add_sub_cancel_left]
  have last : l.word? ((head ++ [first]).length - 1) = some first.text := by
    rw [← firstRound, Nat.add_sub_cancel]
    exact word?_append opens
  obtain ⟨body, copied, pending, run, parts, result⟩ :=
    h.foldlM_spliceRound className e.inner (e.close :: tail) [] behind last
      (List.append_nil _).symm
  have rest := h.slice? closes parts
  rw [Line.spliceBody?, openAt, closeAt]
  simp only [Option.bind_eq_bind, Option.bind_some, span?_append opens, span?_append closes, upTo,
    rounds, firstRound, run, rest]
  rw [isOpen] at result
  have whole : body ++ (pending ++ e.close.gap) = e.body className := by
    rw [← List.append_assoc, result]
    rfl
  exact congrArg some whole

end Line

namespace EnumLine

theorem isSome_ofTokens?_iff (l : Line) :
    (ofTokens? l.tokens).isSome = true ↔ ∃ head inner tail,
      l.words = head ++ ['{'] :: (inner ++ ['}'] :: tail) ∧ ['{'] ∉ head ∧ ['}'] ∉ head ∧
        ['}'] ∉ inner ∧
        (tail = [[';']] ∨ ∃ n : Text, n.isIdentifier = true ∧ tail = [n, [';']]) := by
  have unseen {w : Text} {ts : List Token} (h : ∀ u ∈ ts, u.text ≠ w) :
      w ∉ ts.map Token.text := by
    intro mem
    obtain ⟨u, token, eq⟩ := List.mem_map.1 mem
    exact h u token eq
  rw [Option.isSome_iff_exists]
  constructor
  · rintro ⟨e, found⟩
    obtain ⟨head, first, tail, tokens, isOpen, isClose, outside, inside, ends⟩ :=
      ofTokens?_eq_some_iff.1 found
    refine ⟨head.map Token.text, e.inner.map Token.text, tail.map Token.text, ?_,
      unseen fun u mem => (outside u mem).1, unseen fun u mem => (outside u mem).2, unseen inside,
      (isTail_iff _).1 ends⟩
    rw [Line.words, tokens, List.map_append, List.map_cons, List.map_append, List.map_cons, isOpen,
      isClose]
  · rintro ⟨head, inner, tail, words, noOpen, noClose, inside, ends⟩
    obtain ⟨before, ts, tokens, rfl, rest⟩ := List.map_eq_append_iff.1 words
    obtain ⟨first, us, rfl, isOpen, behind⟩ := List.map_eq_cons_iff.1 rest
    obtain ⟨within, vs, rfl, rfl, ending⟩ := List.map_eq_append_iff.1 behind
    obtain ⟨close, after, rfl, isClose, rfl⟩ := List.map_eq_cons_iff.1 ending
    refine ⟨⟨within, close⟩, ofTokens?_eq_some_iff.2 ⟨before, first, after, tokens, isOpen, isClose,
      fun u mem => ⟨fun eq => ?_, fun eq => ?_⟩, fun u mem eq => ?_, (isTail_iff _).2 ends⟩⟩
    · exact noOpen (eq ▸ List.mem_map_of_mem mem)
    · exact noClose (eq ▸ List.mem_map_of_mem mem)
    · exact inside (eq ▸ List.mem_map_of_mem mem)

/-- The first braces of the text are those around the body, with the text of the body between them. -/
theorem exists_braces {t : Text} {e : EnumLine}
    (found : ofTokens? (Token.scan t).1 = some e) : ∃ head first tail,
      (Token.scan t).1 = head ++ first :: (e.inner ++ e.close :: tail) ∧
        ∃ before after, t = before ++ '{' :: (e.source ++ '}' :: after) ∧
          before = head.flatMap Token.source ++ first.gap ∧
          '{' ∉ before ∧ '}' ∉ before ∧ '}' ∉ e.source := by
  obtain ⟨head, first, tail, tokens, isOpen, isClose, outside, inside, -⟩ :=
    ofTokens?_eq_some_iff.1 found
  have text := Token.append_tail t
  have inHead : ∀ u ∈ head, u ∈ (Token.scan t).1 := fun u mem => by
    rw [tokens]
    exact List.mem_append_left _ mem
  have isFirst : first ∈ (Token.scan t).1 := by
    rw [tokens]
    exact List.mem_append_right _ List.mem_cons_self
  have inBody : ∀ u ∈ e.inner, u ∈ (Token.scan t).1 := fun u mem => by
    rw [tokens]
    exact List.mem_append_right _ (List.mem_cons_of_mem _ (List.mem_append_left _ mem))
  have isLast : e.close ∈ (Token.scan t).1 := by
    rw [tokens]
    exact List.mem_append_right _ (List.mem_cons_of_mem _
      (List.mem_append_right _ List.mem_cons_self))
  have open' : Token.isDelimiter '{' = true := by decide
  have close' : Token.isDelimiter '}' = true := by decide
  refine ⟨head, first, tail, tokens, _, tail.flatMap Token.source ++ (Token.scan t).2, ?_, rfl,
    ?_, ?_, ?_⟩
  · rw [tokens] at text
    simp only [List.flatMap_append, List.flatMap_cons] at text
    simp only [Token.source, isOpen, isClose] at text
    generalize (Token.scan t).2 = last at text ⊢
    rw [← text, source]
    simp
  · rw [List.mem_append, not_or]
    exact ⟨Token.not_mem_flatMap_source open' inHead fun u mem => (outside u mem).1,
      Token.not_mem_gap open' isFirst⟩
  · rw [List.mem_append, not_or]
    exact ⟨Token.not_mem_flatMap_source close' inHead fun u mem => (outside u mem).2,
      Token.not_mem_gap close' isFirst⟩
  · rw [source, List.mem_append, not_or]
    exact ⟨Token.not_mem_flatMap_source close' inBody inside, Token.not_mem_gap close' isLast⟩

end EnumLine

namespace Conversion

/-- Whatever the sink keeps, the values are recorded and the declaration is emitted. -/
theorem stateAfter_emitEnumLine (name : Text) (e : EnumLine) (s : State) :
    (stateAfter (emitEnumLine name e) s).enumValues =
        s.enumValues.insertAll (e.values s.mode.classState.name?) ∧
      (stateAfter (emitEnumLine name e) s).emitted =
        s.emitted ++ [⟨.made, e.text s.mode.classState.name? name⟩] := by
  have recorded := Adds.addValues s (e.values s.mode.classState.name?)
  have emits (x : Text) (v : State) :
      (stateAfter (emit .made x >>= fun _ => modifyMode ({ · with enumBody := none })) v).enumValues =
          v.enumValues ∧
        (stateAfter (emit .made x >>= fun _ => modifyMode ({ · with enumBody := none })) v).emitted =
          v.emitted ++ [⟨.made, x⟩] := by
    have values : (v.put ⟨.made, x⟩).enumValues = v.enumValues := by
      unfold State.put
      split_ifs <;> rfl
    unfold stateAfter
    rw [EStateM.run_bind, run_emit]
    split_ifs
    · exact ⟨values, v.emitted_put _⟩
    · exact ⟨values, v.emitted_put _⟩
  obtain ⟨v, entered, run⟩ : ∃ v, Adds [] [] (s.addValues (e.values s.mode.classState.name?)) v ∧
      (emitEnumLine name e).run s = (emit .made (e.text s.mode.classState.name? name) >>= fun _ =>
        modifyMode ({ · with enumBody := none })).run v := by
    refine ⟨(s.addValues (e.values s.mode.classState.name?)).enterEnum ⟨name, true⟩,
      .enterEnum _ _, ?_⟩
    unfold emitEnumLine
    simp only [EStateM.run_bind, EStateM.run_get, run_addEnumValues]
    generalize s.addValues (e.values s.mode.classState.name?) = u
    by_cases opened : u.mode.classState.isOpen = true
    · rw [u.enterEnum_open _ opened, if_pos opened]
      rfl
    · rw [u.enterEnum_closed _ opened, if_neg opened]
      rfl
  have same : stateAfter (emitEnumLine name e) s = stateAfter
      (emit .made (e.text s.mode.classState.name? name) >>= fun _ =>
        modifyMode ({ · with enumBody := none })) v := by
    unfold stateAfter
    rw [run]
  rw [same, (emits _ v).1, (emits _ v).2, (recorded.trans entered).emitted,
    (recorded.trans entered).values]
  simp

end Conversion

open Conversion in
/-- An enum on one line is found by its braces and its end. Its body is the text between the braces,
with the name of the class put in front of the identifiers directly behind a brace or a comma and
nothing else changed; these names are recorded; and slices of the line between the offsets of its
tokens give the same body. -/
theorem enumLine_spliced (t name : Text) (s : State) :
    let className := s.mode.classState.name?
    ((EnumLine.ofTokens? (Line.cut t).tokens).isSome = true ↔ ∃ head inner tail,
      (Line.cut t).words = head ++ ['{'] :: (inner ++ ['}'] :: tail) ∧
        ['{'] ∉ head ∧ ['}'] ∉ head ∧ ['}'] ∉ inner ∧
        (tail = [[';']] ∨ ∃ n : Text, n.isIdentifier = true ∧ tail = [n, [';']])) ∧
    ∀ e, EnumLine.ofTokens? (Line.cut t).tokens = some e →
      (∃ head first tail, (Line.cut t).tokens = head ++ first :: (e.inner ++ e.close :: tail) ∧
        ∃ before after, t = before ++ '{' :: (e.source ++ '}' :: after) ∧
          before = head.flatMap Token.source ++ first.gap ∧
          '{' ∉ before ∧ '}' ∉ before ∧ '}' ∉ e.source) ∧
      e.body className = (e.parts className).flatMap EnumLine.Part.text ∧
      ((e.parts className).filter (!·.inserted)).flatMap EnumLine.Part.text = e.source ∧
      (s.mode.classState = .none → e.body className = e.source) ∧
      (Line.cut t).spliceBody? className = some (e.body className) ∧
      (stateAfter (emitEnumLine name e) s).emitted =
        s.emitted ++ [⟨.made, enumText name (e.body className)⟩] ∧
      (stateAfter (emitEnumLine name e) s).enumValues.toList = s.enumValues.toList ++
        ((e.renamed className).filter (· ∉ s.enumValues.toList)).eraseDups := by
  refine ⟨EnumLine.isSome_ofTokens?_iff _, fun e found => ⟨EnumLine.exists_braces found,
    e.body_eq_parts _, e.copied_parts _, fun noClass => ?_, (Line.whole_cut t).spliceBody? found,
    ?_, ?_⟩⟩
  · rw [noClass]
    exact e.body_none
  · exact (stateAfter_emitEnumLine name e s).2
  · rw [(stateAfter_emitEnumLine name e s).1, e.values_eq_renamed,
      NameList.toList_insertAll _ (e.nil_not_mem_renamed _)]

open Conversion in
theorem enumLine_spliced_inClass :
    let t := "enum Kind { Red, Grün = 2, Blue };\n".toList
    let s : State := { mode := { classState := .opened "Canvas".toList } }
    ∃ e, EnumLine.ofTokens? (Line.cut t).tokens = some e ∧
      (Line.cut t).spliceBody? (some "Canvas".toList) =
        some " Canvas_Red, Grün = 2, Canvas_Blue ".toList ∧
      (stateAfter (emitEnumLine "Kind".toList e) s).enumValues.toList =
        ["Canvas_Red".toList, "Canvas_Blue".toList] := by
  intro t s
  let e := (EnumLine.ofTokens? (Line.cut t).tokens).get (by decide)
  have found : EnumLine.ofTokens? (Line.cut t).tokens = some e := (Option.some_get _).symm
  obtain ⟨-, -, -, -, spliced, -, values⟩ := (enumLine_spliced t "Kind".toList s).2 e found
  exact ⟨e, found, spliced.trans (by decide), values.trans (by decide)⟩

end HeaderFlattening
