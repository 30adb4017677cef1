import HeaderFlattening.Proofs.Alteration
import HeaderFlattening.Proofs.Methods

/-!
Lines that define a constant. The shape for constants finds the definition whole and makes a macro of
it; but functions are followed before that, and a parenthesis in the value that stands where that of a
signature would stand makes a prototype of the line.
-/

set_option autoImplicit false
namespace HeaderFlattening

/-- The parts of a line `const TYPE NAME = VALUE;`. -/
structure ConstantLine where
  indent : Text
  type : Text
  name : Text
  value : Text
  ending : Text
  deriving DecidableEq, Repr

namespace ConstantLine

/-- The definition in front of `behind`. -/
def before (c : ConstantLine) (behind : Text) : Text :=
  "const ".toList ++ (c.type ++ ' ' :: (c.name ++ (" = ".toList ++ (c.value ++ ';' :: behind))))

def text (c : ConstantLine) : Text := c.indent ++ c.before c.ending

/-- The macro that the line should become. -/
def macroText (c : ConstantLine) : Text :=
  c.indent ++ ("#define ".toList ++ c.name ++ " (".toList ++ c.value ++ ")".toList ++ c.ending)

structure Valid (c : ConstantLine) : Prop where
  indent : c.indent.all Text.isBlank = true
  type : VirtualMethod.IsWord c.type
  name : VirtualMethod.IsWord c.name
  full : c.value ≠ []
  value : ';' ∉ c.value
  ending : c.ending.all Text.isBlank = true

instance (c : ConstantLine) : Decidable c.Valid :=
  decidable_of_iff
    (c.indent.all Text.isBlank = true ∧ VirtualMethod.IsWord c.type ∧ VirtualMethod.IsWord c.name ∧
      c.value ≠ [] ∧ ';' ∉ c.value ∧ c.ending.all Text.isBlank = true)
    ⟨fun ⟨a, b, c, d, e, f⟩ => ⟨a, b, c, d, e, f⟩, fun ⟨a, b, c, d, e, f⟩ => ⟨a, b, c, d, e, f⟩⟩

/-- No parenthesis in the value stands behind a word that could name a function, as far as the words
are read in search of functions. -/
def Callless (c : ConstantLine) : Prop :=
  c.type = "typedef".toList ∨ c.name = "typedef".toList ∨
    Scan.opens [] (some c.name) (some ['=']) ((Token.wordsOf c.value).takeWhile (!stopsScan ·)) = false

instance (c : ConstantLine) : Decidable c.Callless := inferInstanceAs (Decidable (_ ∨ _ ∨ _))

end ConstantLine

namespace Pattern

variable {first : Bool}

/-- The match that takes the definition. -/
def constantHit (c : ConstantLine) : Hit where
  taken := c.before []
  group
    | 1 => some c.name
    | 2 => some c.value
    | _ => none

/-- The definition of a constant is found whole. -/
theorem prefers_constMember {c : ConstantLine} (valid : c.Valid) (behind : Text) :
    constMember.Prefers first (c.before behind) { rest := behind, group := (constantHit c).group } := by
  have value (later : Bool) : (atLeastOne (· ≠ ';')).Prefers later (c.value ++ ';' :: behind)
      { rest := ';' :: behind } := by
    refine prefers_atLeastOne valid.full (List.all_eq_true.2 fun d mem => ?_) rfl
    exact decide_eq_true fun semicolon => valid.value (semicolon ▸ mem)
  have found := (prefers_literal first "const ".toList _).seq fun _ =>
    (prefers_word valid.type (by decide) _).seq fun _ => (prefers_char ' ').seq fun _ =>
    ((prefers_word valid.name (by decide) _).group_taken 1).seq fun later =>
    (prefers_literal later " = ".toList _).seq fun later => ((value later).group_taken 2).seq fun _ =>
    prefers_char ';'
  refine found.congr rfl fun i => ?_
  match i with
  | 0 | 1 | 2 | n + 3 => rfl

theorem constMember_blank {c : Char} (h : Text.isBlank c = true) (first : Bool) (t : Text) :
    constMember.outcomes first (c :: t) = [] := by
  refine outcomes_seq_nil (outcomes_literal_of_ne (by decide) (fun starts => ?_) first t)
  obtain rfl := Option.some.inj starts
  exact absurd h (by decide)

/-- A line with one definition of a constant, and what becomes of it. -/
theorem replace_constMember {c : ConstantLine} (valid : c.Valid) :
    constMember.replace "#define $1 ($2)".toList c.text = some c.macroText := by
  have shorter : c.ending.length < (c.before c.ending).length := by
    unfold ConstantLine.before
    simp only [List.length_append, List.length_cons]
    omega
  have single : ';' ∉ c.ending := Text.notMem_of_all valid.ending (by decide)
  have taken : c.before c.ending = c.before [] ++ c.ending := by
    unfold ConstantLine.before
    simp only [List.append_assoc, List.cons_append, List.nil_append]
  have hit : (Outcome.mk c.ending (constantHit c).group).toHit (c.before c.ending) =
      constantHit c := by
    rw [Outcome.toHit, taken, Text.before_append_right]
    rfl
  have expanded : expand constMember.groupCount (constantHit c) "#define $1 ($2)".toList =
      "#define ".toList ++ c.name ++ " (".toList ++ c.value ++ ")".toList := by
    rw [show constMember.groupCount = 2 from rfl]
    simp [expand, groupRef?, Hit.group?, constantHit]
  have replaced := replace_single (b := c.indent)
    (fun d mem => constMember_blank (List.all_eq_true.1 valid.indent d mem))
    (fun _ => prefers_constMember valid c.ending) shorter constMember_semicolon single
    "#define $1 ($2)".toList
  rw [hit, expanded] at replaced
  exact replaced

end Pattern

theorem VirtualMethod.IsWord.inner {w : Text} (h : VirtualMethod.IsWord w) :
    w.all Token.isInner = true :=
  List.all_eq_true.2 fun c mem => Token.inner_of_isWord (List.all_eq_true.1 h.2 c mem)

/-- A word of word characters is no parenthesis. -/
theorem VirtualMethod.IsWord.ne_paren {w : Text} (h : VirtualMethod.IsWord w) : w ≠ ['('] := by
  rintro rfl
  exact absurd h.2 (by decide)

namespace Scan

variable {carried : Text} {two one : Option Text} {w : Text}

theorem opens_cons_other (h : w ≠ ['(']) (ws : List Text) :
    opens carried two one (w :: ws) = opens carried one (some w) ws := by
  rw [opens, decide_eq_false h, Bool.false_and, Bool.false_or]

theorem opens_append_other (h : w ≠ ['(']) (ws : List Text) :
    opens carried two one (ws ++ [w]) = opens carried two one ws := by
  rw [opens_append, opens_cons_other h, opens, Bool.or_false]

/-- Behind a word of the line, what the lines before end in does not matter. -/
theorem opens_behind (carried : Text) (ws : List Text) :
    opens carried two (some w) ws = opens [] two (some w) ws := by
  induction ws generalizing two w with
  | nil => rfl
  | cons v ws ih => rw [opens, opens, ih, Option.getD_some, Option.getD_some]

end Scan

namespace ConstantLine

variable {c : ConstantLine}

theorem Valid.words (valid : c.Valid) : (Line.cut c.text).words =
    "const".toList :: c.type :: c.name :: ['='] :: (Token.wordsOf c.value ++ [[';']]) := by
  have space : Token.isInner ' ' = false := by decide
  have wordThen (w s : Text) (h : VirtualMethod.IsWord w) :
      Token.wordsOf (w ++ ' ' :: s) = w :: Token.wordsOf s := by
    rw [Token.wordsOf_inner h.1 h.inner (by exact space), Token.wordsOf_cons_blank (by decide)]
  show Token.wordsOf (c.indent ++ c.before c.ending) = _
  rw [Token.wordsOf_blank_append valid.indent]
  show Token.wordsOf ("const".toList ++ ' ' :: (c.type ++ ' ' :: (c.name ++ ' ' ::
    (['='] ++ ' ' :: (c.value ++ ';' :: c.ending))))) = _
  rw [wordThen _ _ (by decide), wordThen _ _ valid.type, wordThen _ _ valid.name,
    Token.wordsOf_inner (by decide) (by decide) (by exact space), Token.wordsOf_cons_blank (by decide),
    Token.wordsOf_append_delimiter (by decide), Token.wordsOf_blank valid.ending]

/-- The line has nothing to do with functions just if its value is without calls. -/
theorem Valid.quiet_iff (valid : c.Valid) (carried : Text) :
    (Line.cut c.text).Quiet carried ↔ c.Callless := by
  have stops {w : Text} (word : VirtualMethod.IsWord w) :
      stopsScan w = true ↔ w = "typedef".toList := by
    have noDefine : w ≠ "#define".toList := by
      rintro rfl
      exact absurd word.2 (by decide)
    rw [stopsScan, decide_eq_false noDefine, Bool.false_or, decide_eq_true_eq]
  have notInline : (Line.cut c.text).word? 0 ≠ some "inline".toList := by
    rw [Line.word?, valid.words]
    exact fun same => absurd (Option.some.inj same) (by decide)
  have calls : (Line.cut c.text).Quiet carried ↔
      Scan.opens carried none none (Line.cut c.text).read = false :=
    ⟨fun quiet => quiet.noCall, fun noCall => ⟨notInline, noCall⟩⟩
  have start : ("const".toList : Text) ≠ ['('] := by decide
  rw [calls, Line.read, valid.words, Callless, List.takeWhile_cons_of_pos (by decide)]
  by_cases type : c.type = "typedef".toList
  · rw [List.takeWhile_cons_of_neg (by rw [(stops valid.type).2 type]; decide)]
    exact iff_of_true rfl (.inl type)
  rw [List.takeWhile_cons_of_pos (by simpa using mt (stops valid.type).1 type)]
  by_cases name : c.name = "typedef".toList
  · rw [List.takeWhile_cons_of_neg (by rw [(stops valid.name).2 name]; decide),
      Scan.opens_cons_other start, Scan.opens_cons_other valid.type.ne_paren]
    exact iff_of_true rfl (.inr (.inl name))
  rw [List.takeWhile_cons_of_pos (by simpa using mt (stops valid.name).1 name),
    List.takeWhile_cons_of_pos (by decide), Scan.opens_cons_other start,
    Scan.opens_cons_other valid.type.ne_paren, Scan.opens_cons_other valid.name.ne_paren,
    Scan.opens_cons_other (by decide), Scan.opens_behind, List.takeWhile_append]
  simp only [type, name, false_or]
  split_ifs with whole
  · rw [List.takeWhile_cons_of_pos (by decide), List.takeWhile_nil,
      Scan.opens_append_other (by decide), (List.takeWhile_prefix _).eq_of_length whole]
  · rfl

/-- What is written for a suppressed line is not the macro. -/
theorem Valid.macroText_ne_render (valid : c.Valid) (suppression : Suppression) (level : Int)
    (x : Text) : (suppression.render level x).flatMap Chunk.text ≠ c.macroText := by
  obtain ⟨d, rest, start, notSlash⟩ : ∃ d rest, c.macroText = d :: rest ∧ d ≠ '/' := by
    unfold macroText
    cases indent : c.indent with
    | nil => exact ⟨'#', _, rfl, by decide⟩
    | cons d b =>
      refine ⟨d, _, rfl, ?_⟩
      rintro rfl
      have blank := List.all_eq_true.1 valid.indent '/' (by rw [indent]; exact List.mem_cons_self)
      exact absurd blank (by decide)
  rw [start]
  intro same
  cases suppression with
  | annotate | comment => exact notSlash (List.cons.inj same).1.symm
  | drop => cases same

end ConstantLine

namespace Conversion

variable {config : Config} {s : State} {c : ConstantLine}

/-- Outside all blocks and bodies, a line that defines a constant becomes the macro just if its value
holds no parenthesis that could open a signature. Else the line is suppressed. -/
theorem constant_defined_iff (valid : c.Valid) (fits : config.Fits c.text)
    (outside : s.mode.inComment = false) (noEnum : s.mode.enumBody = none)
    (noStruct : s.mode.structBody = none) (noClass : s.mode.classState = .none)
    (noFunction : s.mode.function = .outside) :
    ((∃ t, Leaves (processLine config c.text) s () t ∧ t.mode = s.mode ∧
      t.sink.text = s.sink.text ++ c.macroText) ↔ c.Callless) ∧
    (¬c.Callless → ∃ t level, Leaves (processLine config c.text) s () t ∧
      t.sink.text = s.sink.text ++
        (config.rules.suppression.render level c.text).flatMap Chunk.text) := by
  have words := valid.words
  have unclaimed := Line.unclaimed_of_first_word words (Line.not_externC words (by decide))
    (by decide) (by decide) s.mode
  have plain : (Line.cut c.text).Plain config s.mode :=
    ⟨unclaimed.full, outside, unclaimed.slashes, unclaimed.star,
      Line.edit?_of_not_define config unclaimed.define, unclaimed.loose⟩
  have arrives := arrives_plain noClass fits plain
  have watching : s.Watching := ⟨noEnum, noStruct⟩
  have suppressed (loud : ¬c.Callless) : ∃ t level, Leaves (processLine config c.text) s () t ∧
      t.sink.text = s.sink.text ++
        (config.rules.suppression.render level c.text).flatMap Chunk.text := by
    have suppress : (Scan.line (.cut c.text) .outside s.cursor).suppress = true :=
      Line.suppress_of_not_quiet fun quiet => loud ((valid.quiet_iff _).1 quiet)
    have written := Brings.putAll_closed
      (s := (s.arrive config c.text (.reached none (.cut c.text))).followOutside)
      (config.rules.suppression.render (Scan.line (.cut c.text) .outside s.cursor).function.level c.text)
      noClass
    exact ⟨_, _, leaves_outside watching noFunction arrives suppress, written.written⟩
  refine ⟨⟨?_, fun callless => ?_⟩, suppressed⟩
  · rintro ⟨t, leaves, -, text⟩
    by_contra loud
    obtain ⟨u, level, other, text'⟩ := suppressed loud
    have same := leaves.stateAfter_eq.symm.trans other.stateAfter_eq
    rw [same, text'] at text
    exact valid.macroText_ne_render _ _ _ (List.append_cancel_left text)
  · have scan := Line.scan_of_quiet ((valid.quiet_iff s.cursor.previous).2 callless)
    have idle : (trackFunctions config).run
        (s.arrive config c.text (.reached none (.cut c.text))) = .ok false _ :=
      run_trackFunctions_idle ⟨noEnum, noStruct⟩ noFunction
        (by show (Scan.line (.cut c.text) .outside s.cursor).suppress = false; rw [scan])
    have leaves := leaves_reached arrives
      (leaves_late_constant idle (Pattern.replace_constMember valid))
    refine ⟨_, leaves, ?_, text_put noClass⟩
    rw [State.mode_put]
    show { s.mode with function := (Scan.line (.cut c.text) .outside s.cursor).function } = s.mode
    rw [scan, ← noFunction]

theorem sizeofConstant_not_defined :
    let sum : ConstantLine :=
      ⟨"  ".toList, "int".toList, "kSum".toList, "(4 + 4)".toList, "\r\n".toList⟩
    let size : ConstantLine := ⟨[], "int".toList, "kSize".toList, "sizeof(int)".toList, "\n".toList⟩
    (∃ t, Leaves (processLine {} sum.text) {} () t ∧ t.mode = {} ∧
      t.sink.text = "  #define kSum ((4 + 4))\r\n".toList) ∧
    ¬∃ t, Leaves (processLine {} size.text) {} () t ∧ t.mode = {} ∧
      t.sink.text = "#define kSize (sizeof(int))\n".toList := by
  intro sum size
  have fits : ({} : Config).Fits sum.text ∧ ({} : Config).Fits size.text := by decide +kernel
  have defined := constant_defined_iff (s := {}) (by decide : sum.Valid) fits.1 rfl rfl rfl rfl rfl
  have lost := constant_defined_iff (s := {}) (by decide : size.Valid) fits.2 rfl rfl rfl rfl rfl
  exact ⟨defined.1.2 (by decide), fun found => absurd (lost.1.1 found) (by decide)⟩

end Conversion
end HeaderFlattening
