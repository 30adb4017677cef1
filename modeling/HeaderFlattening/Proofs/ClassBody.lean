import HeaderFlattening.Proofs.Calls
import HeaderFlattening.Proofs.Elision
import HeaderFlattening.Proofs.Shapes
import HeaderFlattening.Proofs.Words
import HeaderFlattening.Proofs.Yield

/-!
Lines in the body of a class: what each of them yields and which mode it leads to. The words of a line
decide, and these are the same with and without its indentation.
-/

set_option autoImplicit false
namespace HeaderFlattening

/-- A line of a class without the spaces that are taken from its start. -/
def Config.cutIndent (config : Config) (raw : Text) : Text :=
  raw.drop ((raw.take config.rules.unindentWidth).takeWhile (· = ' ')).length

/-- A line that is copied: a blank one or one that starts with `//`. -/
def Line.Passed (l : Line) : Prop := l.words = [] ∨ l.leads "//".toList = true

instance (l : Line) : Decidable l.Passed := inferInstanceAs (Decidable (_ ∨ _))

/-- A line that defines no macro and that no stage claims before functions are followed. -/
structure Line.Unclaimed (m : Mode) (l : Line) : Prop where
  full : l.words ≠ []
  slashes : l.leads "//".toList = false
  star : l.leads "/*".toList = false
  define : l.word? 0 ≠ some "#define".toList
  loose : l.Loose m

instance (m : Mode) (l : Line) : Decidable (l.Unclaimed m) :=
  decidable_of_iff
    (l.words ≠ [] ∧ l.leads "//".toList = false ∧ l.leads "/*".toList = false ∧
      l.word? 0 ≠ some "#define".toList ∧ l.Loose m)
    ⟨fun ⟨a, b, c, d, e⟩ => ⟨a, b, c, d, e⟩, fun ⟨a, b, c, d, e⟩ => ⟨a, b, c, d, e⟩⟩

/-- A mode in which every closing line closes something. -/
def Mode.strict : Mode := { inExternC := true, structBody := some ⟨[], false⟩ }

/-- Behind the opening line of a class, outside block comments and structs. -/
structure Mode.WithClass (m : Mode) : Prop where
  active : m.classState.isActive = true
  comment : m.inComment = false
  struct : m.structBody = none

/-- In the body of a class, outside block comments and structs. -/
structure Mode.InClass (m : Mode) (name : Text) : Prop where
  opened : m.classState = .opened name
  comment : m.inComment = false
  struct : m.structBody = none

theorem Mode.InClass.withClass {m : Mode} {name : Text} (h : m.InClass name) : m.WithClass := by
  refine ⟨?_, h.comment, h.struct⟩
  rw [h.opened]
  rfl

theorem Config.outdent_indent (config : Config) (raw : Text) :
    ∃ spaces, spaces.all Text.isBlank = true ∧ raw = spaces ++ config.cutIndent raw := by
  refine ⟨(raw.take config.rules.unindentWidth).takeWhile (· = ' '), ?_, ?_⟩
  · refine List.all_eq_true.2 fun c mem => ?_
    have space := List.mem_takeWhile_imp (p := fun c : Char => decide (c = ' ')) mem
    rw [of_decide_eq_true space]
    decide
  · have front : (raw.take config.rules.unindentWidth).takeWhile (· = ' ') <+: raw :=
      (List.takeWhile_prefix _).trans (List.take_prefix _ _)
    exact (List.prefix_iff_eq_append.1 front).symm

theorem words_cutIndent (config : Config) (raw : Text) :
    (Line.cut (config.cutIndent raw)).words = (Line.cut raw).words := by
  obtain ⟨spaces, blank, eq⟩ := config.outdent_indent raw
  have words := Token.wordsOf_blank_append blank (config.cutIndent raw)
  rw [← eq] at words
  exact words.symm

theorem outdent_active (config : Config) {m : Mode} (h : m.classState.isActive = true) (raw : Text) :
    (config.outdent m raw).2 = config.cutIndent raw := by
  unfold Config.outdent
  rw [if_pos h]
  rfl

theorem words_outdent (config : Config) (m : Mode) (raw : Text) :
    (Line.cut (config.outdent m raw).2).words = (Line.cut raw).words := by
  cases active : m.classState.isActive with
  | true =>
    rw [outdent_active config active]
    exact words_cutIndent config raw
  | false =>
    unfold Config.outdent
    rw [active]
    rfl

theorem Line.isEmpty_iff (l : Line) : l.isEmpty = true ↔ l.words = [] := by
  unfold Line.isEmpty Line.words
  rw [List.isEmpty_iff, List.map_eq_nil_iff]

theorem TypeDeclaration.words_of_ofWords? {keyword : Text} {words : List Text} {d : TypeDeclaration}
    (h : TypeDeclaration.ofWords? keyword words = some d) : ∃ rest, words = keyword :: rest := by
  cases words with
  | nil => cases h
  | cons w rest =>
    rw [TypeDeclaration.ofWords?] at h
    split_ifs at h with same
    exact ⟨rest, by rw [same]⟩

theorem TypeDeclaration.ofWords?_of_ne {keyword w : Text} {words rest : List Text}
    (starts : words = w :: rest) (h : w ≠ keyword) : TypeDeclaration.ofWords? keyword words = none := by
  rw [starts]
  exact if_neg h

namespace Line

variable {l l' : Line} {m : Mode}

theorem leads_congr (words : l'.words = l.words) (mark : Text) : l'.leads mark = l.leads mark := by
  unfold leads word?
  rw [words]

theorem Loose.congr (h : l.Loose m) (words : l'.words = l.words) : l'.Loose m := by
  obtain ⟨externC, noEnum, noStruct, noClass, notFlat, closer, brace⟩ := h
  unfold startsWith at externC
  unfold isTypeCloser at closer
  rw [← words] at externC noEnum noStruct noClass notFlat closer brace
  exact ⟨externC, noEnum, noStruct, noClass, notFlat, closer, brace⟩

theorem Unclaimed.congr (h : l.Unclaimed m) (words : l'.words = l.words) : l'.Unclaimed m := by
  obtain ⟨full, slashes, star, define, loose⟩ := h
  rw [← leads_congr words] at slashes star
  unfold word? at define
  rw [← words] at full define
  exact ⟨full, slashes, star, define, loose.congr words⟩

theorem Unclaimed.anywhere (h : l.Unclaimed .strict) (m : Mode) : l.Unclaimed m := by
  obtain ⟨full, slashes, star, define, loose⟩ := h
  refine ⟨full, slashes, star, define, loose.externC, loose.noEnum, loose.noStruct, loose.noClass,
    loose.notFlat, ?_, ?_⟩
  · intro closer
    exact absurd (loose.closer closer).2.1 (Option.some_ne_none _)
  · intro brace
    exact absurd (loose.brace brace) (by decide)

/-- A line of these words and no text. -/
def ofWords (ws : List Text) : Line := ⟨[], ws.map (Token.mk [])⟩

theorem words_ofWords (ws : List Text) : (ofWords ws).words = ws := by
  show (ws.map (Token.mk [])).map Token.text = ws
  rw [List.map_map]
  exact List.map_id ws

theorem not_externC {w : Text} {rest : List Text} (words : l.words = w :: rest)
    (h : w ≠ "extern".toList) :
    l.startsWith ["extern".toList, "\"C\"".toList, ['{']] = false := by
  unfold startsWith
  rw [words]
  refine Bool.eq_false_iff.2 fun starts => ?_
  obtain ⟨others, eq⟩ := List.isPrefixOf_iff_prefix.1 starts
  exact h (List.cons.inj eq).1.symm

theorem words_of_isTypeCloser (h : l.isTypeCloser = true) :
    ∃ rest, l.words = ['}'] :: rest := by
  unfold isTypeCloser at h
  split at h
  · rename_i brace next rest words
    rw [Bool.and_eq_true, decide_eq_true_eq] at h
    exact ⟨next :: rest, by rw [words, h.1]⟩
  · exact absurd h Bool.false_ne_true

/-- First words of the lines that the stages for types look at, but for `extern "C"`. -/
def typeWords : List Text :=
  ["enum".toList, "struct".toList, "class".toList, "typedef".toList, ['}']]

/-- First words that make a line something else than a part of a body. -/
def keywords : List Text := "#define".toList :: typeWords

theorem loose_of_first_word {w : Text} {ws : List Text} (words : l.words = w :: ws)
    (externC : l.startsWith ["extern".toList, "\"C\"".toList, ['{']] = false)
    (free : w ∉ typeWords) (m : Mode) : l.Loose m := by
  have ne {k : Text} (keyword : k ∈ typeWords) : w ≠ k := fun eq => free (eq ▸ keyword)
  have noClose : w ≠ ['}'] := ne (by decide)
  have noType {k : Text} (keyword : k ∈ typeWords) : TypeDeclaration.ofWords? k l.words = none :=
    TypeDeclaration.ofWords?_of_ne words (ne keyword)
  refine ⟨externC, noType (by decide), noType (by decide), noType (by decide), ?_, ?_, ?_⟩
  · rw [words]
    exact fun typedef => absurd (Option.some.inj typedef) (ne (by decide))
  · intro closer
    obtain ⟨rest, close⟩ := words_of_isTypeCloser closer
    exact absurd (List.cons.inj (words.symm.trans close)).1 noClose
  · intro close
    exact absurd (List.cons.inj (words.symm.trans close)).1 noClose

theorem unclaimed_of_first_word {w : Text} {ws : List Text} (words : l.words = w :: ws)
    (externC : l.startsWith ["extern".toList, "\"C\"".toList, ['{']] = false)
    (noSlash : w.head? ≠ some '/') (free : w ∉ keywords) (m : Mode) : l.Unclaimed m := by
  rw [keywords, List.mem_cons, not_or] at free
  have first : l.word? 0 = some w := by
    rw [word?, words]
    rfl
  have leads (mark : Text) : l.leads ('/' :: mark) = false := by
    rw [leads, first]
    refine Bool.eq_false_iff.2 fun leads => ?_
    obtain ⟨rest, eq⟩ := List.isPrefixOf_iff_prefix.1 leads
    exact noSlash (congrArg List.head? eq.symm)
  refine ⟨?_, leads _, leads _, ?_, loose_of_first_word words externC free.2 m⟩
  · rw [words]
    exact List.cons_ne_nil w ws
  · rw [first]
    exact fun define => free.1 (Option.some.inj define)

theorem edit?_of_not_define (config : Config) (h : l.word? 0 ≠ some "#define".toList) :
    l.edit? config = none := if_neg h

end Line

/-- The text of the line with the name of the class before its first word, if that is an identifier. -/
def Line.prefixed? (l : Line) (className : Text) : Option Text :=
  match (l.word? 0).filter Text.isIdentifier, l.span? 0 with
  | some first, some span =>
    (l.text.splice (EnumLine.valueName className first) span.start span.length none).toOption
  | _, _ => none

/-- The line has no more words than the settings allow. -/
def Config.Fits (config : Config) (raw : Text) : Prop :=
  (Line.cut raw).words.length ≤ config.rules.maxTokens

instance (config : Config) (raw : Text) : Decidable (config.Fits raw) :=
  inferInstanceAs (Decidable (_ ≤ _))

theorem cut_outdent {config : Config} {raw : Text} (m : Mode) (fits : config.Fits raw) :
    (Line.ofText (config.outdent m raw).2).retokenize config.rules.maxTokens =
      .ok (.cut (config.outdent m raw).2) := by
  unfold Config.Fits at fits
  rw [← words_outdent config m raw, Line.words, List.length_map] at fits
  exact Line.retokenize_ofText fits

namespace Arrives

variable {config : Config} {m : Mode} {raw : Text}

theorem cut_withClass (h : m.WithClass) (fits : config.Fits raw) :
    (Line.ofText (config.outdent m raw).2).retokenize config.rules.maxTokens =
      .ok (.cut (config.cutIndent raw)) := by
  rw [← outdent_active config h.active]
  exact cut_outdent m fits

/-- Lines that no stage claims before functions are followed, whatever class is open. -/
theorem reached_outdent (outside : m.inComment = false) (fits : config.Fits raw)
    (unclaimed : (Line.cut raw).Unclaimed m) :
    Arrives config m raw (.reached none (.cut (config.outdent m raw).2)) := by
  obtain ⟨full, slashes, star, define, loose⟩ := unclaimed.congr (words_outdent config m raw)
  have ne := mt (Line.isEmpty_iff _).1 full
  exact .plain (cut_outdent m fits) (Bool.not_eq_true _ ▸ ne) outside slashes star
    (Line.edit?_of_not_define config define) loose

theorem copied_outdent (m : Mode) (fits : config.Fits raw) (passed : (Line.cut raw).Passed) :
    Arrives config m raw (.copied (.cut (config.outdent m raw).2)) := by
  have words := words_outdent config m raw
  rcases passed with empty | slashes
  · exact .blank (cut_outdent m fits) ((Line.isEmpty_iff _).2 (words.trans empty))
  · exact .comment (cut_outdent m fits) ((Line.leads_congr words _).trans slashes)

theorem of_passed (h : m.WithClass) (fits : config.Fits raw) (passed : (Line.cut raw).Passed) :
    Arrives config m raw (.copied (.cut (config.cutIndent raw))) := by
  rw [← outdent_active config h.active]
  exact copied_outdent m fits passed

theorem of_unclaimed (h : m.WithClass) (fits : config.Fits raw)
    (unclaimed : (Line.cut raw).Unclaimed m) :
    Arrives config m raw (.reached none (.cut (config.cutIndent raw))) := by
  rw [← outdent_active config h.active]
  exact reached_outdent h.comment fits unclaimed

end Arrives

theorem slashes_of_passed {t : Text} {first : Token} {ts : List Token} (passed : (Line.cut t).Passed)
    (tokens : (Token.scan t).1 = first :: ts) : ∃ after, first.text = '/' :: '/' :: after := by
  have slashes : "//".toList.isPrefixOf first.text = true := by
    rcases passed with empty | slashes
    · rw [Line.words, Line.cut, tokens] at empty
      cases empty
    · unfold Line.leads Line.word? Line.words Line.cut at slashes
      rw [tokens] at slashes
      exact slashes
  obtain ⟨after, eq⟩ := List.isPrefixOf_iff_prefix.1 slashes
  exact ⟨after, eq.symm⟩

theorem isBlankOrComment_of_passed {t : Text} (passed : (Line.cut t).Passed) :
    t.isBlankOrComment = true := by
  cases tokens : (Token.scan t).1 with
  | nil =>
    have blank := Token.blank_of_scan_nil tokens
    rw [← List.append_nil t]
    exact Text.isBlankOrComment_of_blank blank (.inl rfl)
  | cons first others =>
    obtain ⟨rest, start, -⟩ := Token.exists_first (Prod.ext tokens rfl)
    obtain ⟨after, eq⟩ := slashes_of_passed passed tokens
    rw [start.source, eq, List.append_assoc]
    exact Text.isBlankOrComment_of_blank start.blank (.inr ⟨after ++ rest, rfl⟩)

/-- A line as it is left when it is suppressed. -/
def Config.suppressed (config : Config) (level : Int) (raw : Text) : Text :=
  (config.rules.suppression.render level (config.cutIndent raw)).flatMap Chunk.text

theorem isBlankOrComment_of_mem_render {suppression : Suppression} {level : Int} {t : Text} {c : Chunk}
    (h : c ∈ suppression.render level t) : c.text.isBlankOrComment = true := by
  cases suppression with
  | annotate =>
    rw [List.mem_singleton.1 h]
    exact Text.isBlankOrComment_slashes _
  | comment =>
    rw [List.mem_singleton.1 h]
    exact Text.isBlankOrComment_slashes _
  | drop => cases h

theorem afterBodyLine_congr {l l' : Line} (words : l'.words = l.words) (depth : Int) :
    FunctionState.afterBodyLine depth l' = FunctionState.afterBodyLine depth l := by
  unfold FunctionState.afterBodyLine Line.hasBrace Line.braceBalance
  rw [words]

namespace Mode.InClass

variable {m : Mode} {name : Text}

theorem isOpen (h : m.InClass name) : m.classState.isOpen = true := by
  rw [h.opened]
  rfl

theorem inFunction (h : m.InClass name) (function : FunctionState) :
    ({ m with function } : Mode).InClass name := ⟨h.opened, h.comment, h.struct⟩

end Mode.InClass

namespace Conversion

variable {config : Config} {m : Mode} {name raw : Text} {s t : State}

theorem advances_passed (h : m.InClass name) (fits : config.Fits raw)
    (passed : (Line.cut raw).Passed) :
    Advances config [raw] m m { deferred := config.cutIndent raw, lines := 1 } := by
  refine advances_line fun s mode room ordered => ?_
  subst mode
  have arrives := Arrives.of_passed h.withClass fits passed
  have begun := ordered.arrive config raw (.copied (.cut (config.cutIndent raw)))
  have comment : (config.cutIndent raw).isBlankOrComment = true := by
    refine isBlankOrComment_of_passed ?_
    unfold Line.Passed
    rw [words_cutIndent, Line.leads_congr (words_cutIndent config raw)]
    exact passed
  refine ⟨_, leaves_copied arrives, State.mode_put _ _, ?_, begun.put fun _ => comment⟩
  exact (Brings.arrive s config raw rfl).trans (.put ⟨.copied, config.cutIndent raw⟩ h.isOpen begun)

theorem advances_bodyLine {depth : Int} (h : m.InClass name) (noEnum : m.enumBody = none)
    (function : m.function = .body depth) (fits : config.Fits raw)
    (unclaimed : (Line.cut raw).Unclaimed m) :
    Advances config [raw] m
      { m with function := FunctionState.afterBodyLine depth (.cut raw) }
      { deferred := config.suppressed (FunctionState.afterBodyLine depth (.cut raw)).level raw
        lines := 1 } := by
  refine advances_line fun s mode room ordered => ?_
  subst mode
  have arrives := Arrives.of_unclaimed h.withClass fits unclaimed
  have leaves := leaves_body ⟨noEnum, h.struct⟩ function arrives
  have same := afterBodyLine_congr (words_cutIndent config raw) depth
  rw [same] at leaves
  have followed : ((s.arrive config raw (.reached none (.cut (config.cutIndent raw)))).followBody
      depth).Ordered := ⟨ordered.comments, ordered.enum⟩
  refine ⟨_, leaves, ?_, ?_, followed.putAll fun _ _ => isBlankOrComment_of_mem_render⟩
  · rw [State.mode_putAll]
    exact congrArg (fun function => ({ s.mode with function } : Mode)) same
  · exact ((Brings.arrive s config raw rfl).trans (.followBody _ depth)).trans
      (.putAll _ h.isOpen followed)

/-- A prototype or the signature of a function is recorded and suppressed. -/
theorem advances_call {g : Call} (h : m.InClass name) (noEnum : m.enumBody = none)
    (function : m.function = .outside) (fits : config.Fits raw)
    (unclaimed : (Line.cut raw).Unclaimed m) (words : (Line.cut raw).words = g.words)
    (notInline : (Line.cut raw).word? 0 ≠ some "inline".toList) {after : FunctionState}
    (next : (if [';'] ∈ g.after then FunctionState.outside else .body 0) = after) :
    Advances config [raw] m { m with function := after }
      { deferred := config.suppressed after.level raw
        functions := [g.record]
        lines := 1 } := by
  refine advances_line fun s mode room ordered => ?_
  subst mode
  have arrives := Arrives.of_unclaimed h.withClass fits unclaimed
  have seen := words_cutIndent config raw
  have first : (Line.cut (config.cutIndent raw)).word? 0 ≠ some "inline".toList := by
    unfold Line.word? at notInline ⊢
    rw [seen]
    exact notInline
  obtain ⟨behind, suppress, functions⟩ := Scan.line_call (seen.trans words) s.cursor first
  rw [next] at behind
  have leaves := leaves_outside ⟨noEnum, h.struct⟩ function arrives suppress
  rw [behind] at leaves
  have followed : (s.arrive config raw
      (.reached none (.cut (config.cutIndent raw)))).followOutside.Ordered :=
    ⟨ordered.comments, ordered.enum⟩
  refine ⟨_, leaves, ?_, ?_, followed.putAll fun _ _ => isBlankOrComment_of_mem_render⟩
  · rw [State.mode_putAll]
    exact congrArg (fun function => ({ s.mode with function } : Mode)) behind
  · have recorded : Brings { functions := [g.record] }
        (s.arrive config raw (.reached none (.cut (config.cutIndent raw)))) _ := .followOutside functions
    exact ((Brings.arrive s config raw rfl).trans recorded).trans (.putAll _ h.isOpen followed)

theorem run_trackFunctions_idle (w : s.Watching) (function : s.mode.function = .outside)
    (idle : (Scan.line s.line .outside s.cursor).suppress = false) :
    (trackFunctions config).run s = .ok false s.followOutside := by
  have follow := run_followFunction_outside function
  rw [idle] at follow
  simp only [trackFunctions, EStateM.run_bind, EStateM.run_get, w.enum, w.struct, follow,
    Option.isSome_none, Bool.or_false, Bool.false_eq_true, if_false]
  rfl

theorem run_trackFunctions_inEnum (h : s.mode.enumBody.isSome = true) :
    (trackFunctions config).run s = .ok false s := by
  simp only [trackFunctions, EStateM.run_bind, EStateM.run_get, h, Bool.true_or, if_true]
  rfl

theorem run_defineConstants_unclaimed
    (h : Pattern.constMember.replace "#define $1 ($2)".toList s.line.text = none) :
    defineConstants.run s = .ok false s := by
  simp only [defineConstants, EStateM.run_bind, EStateM.run_get, h]
  rfl

/-- The value that a line starts with gets the name of the class in front and is recorded. -/
theorem run_recordEnumValue_prefixed {name text : Text} (inside : s.mode.enumBody.isSome = true)
    (active : s.mode.classState.name? = some name) (change : s.line.prefixed? name = some text) :
    (recordEnumValue config).run s =
      (replaceLine config text >>= fun _ => recordFirstWord).run s := by
  have body : s.mode.enumBody.isNone = false := by
    rw [Option.isNone_eq_false_iff]
    exact inside
  unfold Line.prefixed? at change
  cases word : (s.line.word? 0).filter Text.isIdentifier with
  | none => simp [word] at change
  | some first =>
    cases place : s.line.span? 0 with
    | none => simp [word, place] at change
    | some span =>
      simp only [word, place] at change
      cases spliced : s.line.text.splice (EnumLine.valueName name first) span.start span.length
        none with
      | error e =>
        rw [spliced] at change
        cases change
      | ok text' =>
        rw [spliced] at change
        cases change
        simp only [recordEnumValue, EStateM.run_bind, EStateM.run_get, body, word, active, place,
          spliced, Bool.false_eq_true, if_false]

theorem run_recordEnumValue_unclaimed (h : s.mode.enumBody = none) :
    (recordEnumValue config).run s = .ok false s := by
  simp only [recordEnumValue, EStateM.run_bind, EStateM.run_get, h, Option.isNone_none, if_true]
  rfl

theorem run_convertMethods_unclaimed (h : s.mode.structBody = none) :
    (convertMethods config).run s = .ok false s := by
  simp only [convertMethods, EStateM.run_bind, EStateM.run_get, h, Option.isNone_none, if_true]
  rfl

theorem noConstant_of_noSemicolon {x : Text} (h : [';'] ∉ (Line.cut x).words) :
    Pattern.constMember.replace "#define $1 ($2)".toList x = none :=
  Pattern.replace_of_absent Pattern.constMember_semicolon _ fun mem =>
    h (Token.mem_wordsOf_delimiter (by decide) mem)

/-- A line that has nothing to do with functions, constants, enums and structs is left to the last
stage. -/
theorem run_lateStages_idle (w : s.Watching) (function : s.mode.function = .outside)
    (idle : (Scan.line s.line .outside s.cursor).suppress = false)
    (noConstant : Pattern.constMember.replace "#define $1 ($2)".toList s.line.text = none) :
    (firstClaim [trackFunctions config, defineConstants, recordEnumValue config,
      convertMethods config, liftMembers]).run s = (firstClaim [liftMembers]).run s.followOutside := by
  have noValue : (recordEnumValue config).run s.followOutside = _ := run_recordEnumValue_unclaimed w.enum
  have noMethod : (convertMethods config).run s.followOutside = _ :=
    run_convertMethods_unclaimed w.struct
  have noDefine : defineConstants.run s.followOutside = _ := run_defineConstants_unclaimed noConstant
  rw [run_firstClaim_unclaimed _ (run_trackFunctions_idle w function idle),
    run_firstClaim_unclaimed _ noDefine, run_firstClaim_unclaimed _ noValue,
    run_firstClaim_unclaimed _ noMethod]

theorem leaves_late_idle (w : s.Watching) (function : s.mode.function = .outside)
    (idle : (Scan.line s.line .outside s.cursor).suppress = false)
    (noConstant : Pattern.constMember.replace "#define $1 ($2)".toList s.line.text = none)
    (h : Leaves liftMembers s.followOutside true t) : Leaves (late config) s () t := by
  refine Leaves.claim ?_ rfl
  unfold Leaves
  rw [run_lateStages_idle w function idle noConstant]
  exact leaves_firstClaim h []

theorem outdent_append (config : Config) (m : Mode) (raw : Text) :
    (config.outdent m raw).1 ++ (config.outdent m raw).2 = raw := by
  unfold Config.outdent
  split_ifs
  · have front : (raw.take config.rules.unindentWidth).takeWhile (· = ' ') <+: raw :=
      (List.takeWhile_prefix _).trans (List.take_prefix _ _)
    exact List.prefix_iff_eq_append.1 front
  · rfl

/-- A line that only the last stage can claim, by what that stage makes of it. -/
theorem advances_idle {m' : Mode} {z : Yield} (h : m.WithClass) (noEnum : m.enumBody = none)
    (function : m.function = .outside) (fits : config.Fits raw)
    (unclaimed : (Line.cut raw).Unclaimed m) (noParen : ['('] ∉ (Line.cut raw).words)
    (notInline : (Line.cut raw).word? 0 ≠ some "inline".toList)
    (noConstant : Pattern.constMember.replace "#define $1 ($2)".toList (config.cutIndent raw) = none)
    (lift : ∀ s, s.mode = m → s.line = .cut (config.cutIndent raw) → s.indent ++ s.line.text = raw →
      s.sink.room = none → s.Ordered →
      ∃ t, Leaves liftMembers s true t ∧ t.mode = m' ∧ Brings z s t ∧ t.Ordered) :
    Advances config [raw] m m' ({ lines := 1 } ++ z) := by
  refine advances_line fun s mode room ordered => ?_
  subst mode
  have arrives := Arrives.of_unclaimed h fits unclaimed
  have seen := words_cutIndent config raw
  have first : (Line.cut (config.cutIndent raw)).word? 0 ≠ some "inline".toList := by
    unfold Line.word? at notInline ⊢
    rw [seen]
    exact notInline
  rw [← seen] at noParen
  obtain ⟨cursor, scan⟩ := Scan.line_idle s.cursor first noParen
  have whole : (config.outdent s.mode raw).1 ++ config.cutIndent raw = raw := by
    rw [← outdent_active config h.active]
    exact outdent_append config s.mode raw
  generalize begun : s.arrive config raw (.reached none (.cut (config.cutIndent raw))) = u
  have line : u.line = .cut (config.cutIndent raw) := by
    rw [← begun]
    rfl
  have scanned : Scan.line u.line .outside u.cursor = { function := .outside, cursor } := by
    rw [← begun]
    exact scan
  have mode : u.followOutside.mode = s.mode := by
    have same : ({ s.mode with function := .outside } : Mode) = s.mode := by rw [← function]
    refine Eq.trans ?_ same
    rw [← begun]
    exact congrArg (fun scan : Scan => ({ s.mode with function := scan.function } : Mode)) scan
  obtain ⟨t, leaves, after, brings, ordered'⟩ := lift u.followOutside mode line
    (by rw [← begun]; exact whole) (by rw [← begun]; exact room)
    (by rw [← begun]; exact ⟨ordered.comments, ordered.enum⟩)
  refine ⟨t, leaves_reached arrives ?_, after, ?_, ordered'⟩
  · rw [begun]
    refine leaves_late_idle ?_ ?_ (by rw [scanned]) (by rw [line]; exact noConstant) leaves
    · rw [← begun]
      exact ⟨noEnum, h.struct⟩
    · rw [← begun]
      exact function
  · have started : Brings { lines := 1 } s u := by
      rw [← begun]
      exact .arrive s config raw rfl
    have followed : Brings {} u u.followOutside := .followOutside (by rw [scanned])
    exact (started.trans followed).trans brings

end Conversion

/-- `TYPE NAME;` with blanks around it, for a word that is no keyword as the type. -/
structure IsMember (indent type name trail : Text) : Prop where
  indent : indent.all Text.isBlank = true
  trail : trail.all Text.isBlank = true
  typed : type ≠ []
  typeWord : type.all (fun c => Text.isWord c || c = '*') = true
  named : name ≠ []
  nameWord : name.all Text.isWord = true
  notReturn : "return".toList.isSuffixOf type = false
  notKeyword : type ∉ ["enum".toList, "struct".toList, "class".toList, "typedef".toList,
    "inline".toList]

instance (indent type name trail : Text) : Decidable (IsMember indent type name trail) :=
  decidable_of_iff
    (indent.all Text.isBlank = true ∧ trail.all Text.isBlank = true ∧ type ≠ [] ∧
      type.all (fun c => Text.isWord c || c = '*') = true ∧ name ≠ [] ∧ name.all Text.isWord = true ∧
      "return".toList.isSuffixOf type = false ∧
      type ∉ ["enum".toList, "struct".toList, "class".toList, "typedef".toList, "inline".toList])
    ⟨fun ⟨a, b, c, d, e, f, g, h⟩ => ⟨a, b, c, d, e, f, g, h⟩,
      fun ⟨a, b, c, d, e, f, g, h⟩ => ⟨a, b, c, d, e, f, g, h⟩⟩

/-- The text of such a line. -/
def memberText (indent type name trail : Text) : Text :=
  indent ++ (type ++ ' ' :: (name ++ ';' :: trail))

namespace IsMember

variable {indent type name trail : Text}

theorem inner (h : IsMember indent type name trail) : type.all Token.isInner = true := by
  refine List.all_eq_true.2 fun c mem => ?_
  exact Token.inner_of_apart (fun c => Text.isWord c || c = '*') (List.all_eq_true.1 h.typeWord c mem)
    (by decide) (by decide)

theorem words (h : IsMember indent type name trail) :
    (Line.cut (memberText indent type name trail)).words = [type, name, [';']] := by
  show Token.wordsOf (memberText indent type name trail) = _
  have nameInner : name.all Token.isInner = true :=
    List.all_eq_true.2 fun c mem => Token.inner_of_isWord (List.all_eq_true.1 h.nameWord c mem)
  calc
    Token.wordsOf (memberText indent type name trail)
      = Token.wordsOf (type ++ ' ' :: (name ++ ';' :: trail)) := Token.wordsOf_blank_append h.indent _
    _ = type :: Token.wordsOf (' ' :: (name ++ ';' :: trail)) :=
      Token.wordsOf_inner h.typed h.inner (by decide : Token.isInner ' ' = false)
    _ = type :: Token.wordsOf (name ++ ';' :: trail) :=
      congrArg (type :: ·) (Token.wordsOf_cons_blank (by decide) _)
    _ = type :: name :: Token.wordsOf (';' :: trail) :=
      congrArg (type :: ·) (Token.wordsOf_inner h.named nameInner (by decide : Token.isInner ';' = false))
    _ = [type, name, [';']] := by
      rw [Token.wordsOf_delimiter (by decide), Token.wordsOf_blank h.trail]

theorem ne_of_char (h : IsMember indent type name trail) {w : Text} {c : Char} (mem : c ∈ w)
    (other : (Text.isWord c || decide (c = '*')) = false) : type ≠ w := by
  rintro rfl
  exact Bool.false_ne_true (other.symm.trans (List.all_eq_true.1 h.typeWord c mem))

theorem unclaimed (h : IsMember indent type name trail) (m : Mode) :
    (Line.cut (memberText indent type name trail)).Unclaimed m := by
  have keyword := h.notKeyword
  simp only [List.mem_cons, List.not_mem_nil, or_false, not_or] at keyword
  obtain ⟨enum, struct, class', typedef, -⟩ := keyword
  apply Line.unclaimed_of_first_word h.words
  · unfold Line.startsWith
    rw [h.words]
    refine Bool.eq_false_iff.2 fun starts => ?_
    obtain ⟨rest, eq⟩ := List.isPrefixOf_iff_prefix.1 starts
    simp at eq
  · intro slash
    exact h.ne_of_char (List.mem_of_mem_head? slash) (by decide) rfl
  · have define : type ≠ "#define".toList := h.ne_of_char (c := '#') (by decide) (by decide)
    have close : type ≠ ['}'] := h.ne_of_char List.mem_cons_self (by decide)
    simp only [Line.keywords, Line.typeWords, List.mem_cons, List.not_mem_nil, or_false, not_or]
    exact ⟨define, enum, struct, class', typedef, close⟩

theorem cutIndent (h : IsMember indent type name trail) (config : Config) :
    ∃ left, IsMember left type name trail ∧
      config.cutIndent (memberText indent type name trail) = memberText left type name trail := by
  obtain ⟨spaces, blank, eq⟩ := config.outdent_indent (memberText indent type name trail)
  obtain ⟨c, rest, first⟩ := List.exists_cons_of_ne_nil h.typed
  have inner : Token.isInner c = true := by
    refine List.all_eq_true.1 h.inner c ?_
    rw [first]
    exact List.mem_cons_self
  rcases List.append_eq_append_iff.1 eq with ⟨more, all, other⟩ | ⟨left, front, cut⟩
  · -- The spaces end where the type begins, or they would hold its first character.
    cases more with
    | nil =>
      refine ⟨[], ⟨List.all_nil, h.trail, h.typed, h.typeWord, h.named, h.nameWord, h.notReturn,
        h.notKeyword⟩, other.symm⟩
    | cons d more =>
      have same : d = c := by
        rw [first] at other
        exact (List.cons.inj other).1.symm
      rw [all, List.all_append, Bool.and_eq_true, List.all_cons, Bool.and_eq_true, same] at blank
      exact absurd (blank.2.1.symm.trans (Token.not_blank_of_isInner inner)) (by decide)
  · have blanks := h.indent
    rw [front, List.all_append, Bool.and_eq_true] at blanks
    exact ⟨left, ⟨blanks.2, h.trail, h.typed, h.typeWord, h.named, h.nameWord, h.notReturn,
      h.notKeyword⟩, cut⟩

theorem not_equals (h : IsMember indent type name trail) :
    '=' ∉ memberText indent type name trail := by
  have blank : Text.isBlank '=' = false := by decide
  have word : Text.isWord '=' = false := by decide
  unfold memberText
  simp only [List.mem_append, List.mem_cons, not_or]
  refine ⟨fun mem => ?_, fun mem => ?_, by decide, fun mem => ?_, by decide, fun mem => ?_⟩
  · exact Bool.false_ne_true (blank.symm.trans (List.all_eq_true.1 h.indent _ mem))
  · exact absurd (List.all_eq_true.1 h.typeWord _ mem) (by decide)
  · exact Bool.false_ne_true (word.symm.trans (List.all_eq_true.1 h.nameWord _ mem))
  · exact Bool.false_ne_true (blank.symm.trans (List.all_eq_true.1 h.trail _ mem))

theorem notInline (h : IsMember indent type name trail) :
    (Line.cut (memberText indent type name trail)).word? 0 ≠ some "inline".toList := by
  have keyword := h.notKeyword
  simp only [List.mem_cons, List.not_mem_nil, or_false, not_or] at keyword
  unfold Line.word?
  rw [h.words]
  exact fun first => keyword.2.2.2.2 (Option.some.inj first)

theorem noParen (h : IsMember indent type name trail) :
    ['('] ∉ (Line.cut (memberText indent type name trail)).words := by
  have type' := h.ne_of_char (w := ['(']) List.mem_cons_self (by decide)
  have name' : name ≠ ['('] := by
    rintro rfl
    exact absurd h.nameWord (by decide)
  rw [h.words]
  simp only [List.mem_cons, List.not_mem_nil, or_false, not_or]
  exact ⟨Ne.symm type', Ne.symm name', by decide⟩

theorem declaredName? (h : IsMember indent type name trail) :
    (memberText indent type name trail).declaredName? = some name :=
  Text.declaredName?_eq h.indent h.typed h.typeWord h.named h.nameWord h.notReturn

end IsMember

namespace Conversion

variable {config : Config} {m : Mode} {name raw : Text} {s t : State}

theorem mode_addMember (s : State) (name : Text) : (s.addMember name).mode = s.mode := by
  unfold State.addMember
  split_ifs <;> rfl

theorem pendingMembers_addMember (s : State) (name : Text) :
    (s.addMember name).pendingMembers = s.pendingMembers := by
  unfold State.addMember
  split_ifs <;> rfl

/-- The line is not the brace that a class waits for. -/
theorem brace_eq_none {l : Line} {c : ClassState} (h : l.words = [['{']] → c.awaited? = none) :
    (if l.words = [['{']] then c.awaited? else none) = none := by
  split_ifs with brace
  · exact h brace
  · rfl

theorem leaves_liftMembers (active : s.mode.classState.isActive = true) (full : s.line.words ≠ [])
    (awaited : s.line.words = [['{']] → s.mode.classState.awaited? = none)
    (access : s.line.words ∉ accessWords) (h : Leaves liftMember s true t) : Leaves liftMembers s true t := by
  have empty : s.line.isEmpty = false := Bool.eq_false_iff.2 (mt s.line.isEmpty_iff.1 full)
  have brace := brace_eq_none awaited
  have other : accessWords.contains s.line.words = false :=
    Bool.eq_false_iff.2 (mt List.contains_iff_mem.1 access)
  unfold liftMembers
  refine .after_run rfl ?_
  simp only [active, empty, brace, other, Bool.not_true, Bool.or_false, Bool.false_eq_true, if_false]
  exact h

theorem run_liftMembers_access (active : s.mode.classState.isActive = true)
    (access : s.line.words ∈ accessWords) : liftMembers.run s = .ok true s := by
  have full : s.line.words ≠ [] := by
    intro none
    rw [none] at access
    exact absurd access (by decide)
  have empty : s.line.isEmpty = false := Bool.eq_false_iff.2 (mt s.line.isEmpty_iff.1 full)
  have brace : (if s.line.words = [['{']] then s.mode.classState.awaited? else none) = none := by
    refine brace_eq_none fun brace => ?_
    rw [brace] at access
    exact absurd access (by decide)
  have known : accessWords.contains s.line.words = true := List.contains_iff_mem.2 access
  simp only [liftMembers, EStateM.run_bind, EStateM.run_get, active, empty, brace, known,
    Bool.not_true, Bool.or_false, Bool.false_eq_true, if_false, if_true]
  rfl

/-- A data member is written at once. -/
theorem advances_member {className indent type trail : Text} (h : m.InClass className)
    (noEnum : m.enumBody = none) (function : m.function = .outside)
    (member : IsMember indent type name trail)
    (fits : config.Fits (memberText indent type name trail)) :
    Advances config [memberText indent type name trail] m m
      { written := memberText indent type name trail, members := [name], lines := 1 } := by
  obtain ⟨left, cut, eq⟩ := member.cutIndent config
  refine advances_idle (z := { written := memberText indent type name trail, members := [name] })
    h.withClass noEnum function fits (member.unclaimed m) member.noParen member.notInline ?_ ?_
  · rw [eq]
    exact Pattern.replace_of_absent Pattern.constMember_equals _ cut.not_equals
  · intro s mode line whole room ordered
    have declared : s.line.text.declaredName? = some name := by
      rw [line, eq]
      exact cut.declaredName?
    refine ⟨(s.addMember name).putDirect ⟨.member, s.indent ++ s.line.text⟩, ?_, ?_, ?_, ?_⟩
    · have words : s.line.words = [type, name, [';']] := by
        rw [line, words_cutIndent]
        exact member.words
      have active : s.mode.classState.isActive = true := by
        rw [mode, h.opened]
        rfl
      have unbounded : Leaves liftMember s true _ := .of_run ((reaches_liftMember declared).run_eq room)
      refine leaves_liftMembers active (by rw [words]; simp) (fun _ => by rw [mode, h.opened]; rfl) ?_
        unbounded
      rw [words]
      intro access
      have alone : ∀ ws ∈ accessWords, ws.length = 1 := by decide
      have three := alone _ access
      simp at three
    · exact (mode_addMember s name).trans mode
    · rw [whole]
      exact (Brings.addMember s name).trans
        (.putDirect _ ⟨.member, memberText indent type name trail⟩)
    · exact ordered.congr (pendingMembers_addMember s name) (mode_addMember s name)

theorem unclaimed_access {l : Line} (h : l.words ∈ accessWords) (m : Mode) : l.Unclaimed m := by
  have all : ∀ ws ∈ accessWords, (Line.ofWords ws).Unclaimed .strict := by decide
  exact ((all _ h).anywhere m).congr (Line.words_ofWords _).symm

theorem advances_access (h : m.InClass name) (noEnum : m.enumBody = none)
    (function : m.function = .outside) (fits : config.Fits raw)
    (access : (Line.cut raw).words ∈ accessWords) :
    Advances config [raw] m m { lines := 1 } := by
  have short : ∀ ws ∈ accessWords, ['('] ∉ ws ∧ [';'] ∉ ws ∧ ws[0]? ≠ some "inline".toList := by decide
  obtain ⟨noParen, noSemicolon, notInline⟩ := short _ access
  refine advances_idle (z := {}) h.withClass noEnum function fits (unclaimed_access access m) noParen
    notInline ?_ ?_
  · refine noConstant_of_noSemicolon ?_
    rw [words_cutIndent]
    exact noSemicolon
  · intro s mode line whole room ordered
    refine ⟨s, .of_run (run_liftMembers_access ?_ ?_), mode, .refl s, ordered⟩
    · rw [mode, h.opened]
      rfl
    · rw [line, words_cutIndent]
      exact access

theorem leaves_liftMembers_brace (words : s.line.words = [['{']])
    (pending : s.mode.classState = .pending name) :
    Leaves liftMembers s true ((s.openBrace name).putDirect ⟨.copied, s.line.text⟩) := by
  have active : s.mode.classState.isActive = true := by
    rw [pending]
    rfl
  have full : s.line.isEmpty = false := isEmpty_eq_false_of_words words
  have awaited : (if s.line.words = [['{']] then s.mode.classState.awaited? else none) = some name := by
    rw [if_pos words, pending]
    rfl
  unfold liftMembers
  refine .after_run rfl ?_
  simp only [active, full, awaited, Bool.not_true, Bool.or_false, Bool.false_eq_true, if_false]
  refine .after_run rfl ?_
  exact (leaves_emitDirect .copied s.line.text (s.openBrace name)).then_pure fun _ => true

/-- The line of the brace of a class is written at once. -/
theorem advances_brace (fits : config.Fits raw) (brace : (Line.cut raw).words = [['{']]) :
    Advances config [raw] { classState := .pending name } { classState := .opened name }
      { written := config.cutIndent raw, lines := 1 } := by
  have plain : (Line.ofWords [['{']]).Unclaimed .strict := by decide
  have unclaimed : (Line.cut raw).Unclaimed { classState := .pending name } :=
    (plain.anywhere _).congr brace
  have noParen : ['('] ∉ (Line.cut raw).words := by
    rw [brace]
    decide
  have notInline : (Line.cut raw).word? 0 ≠ some "inline".toList := by
    unfold Line.word?
    rw [brace]
    decide
  refine advances_idle (z := { written := config.cutIndent raw }) ⟨rfl, rfl, rfl⟩ rfl rfl fits
    unclaimed noParen notInline ?_ ?_
  · refine noConstant_of_noSemicolon ?_
    rw [words_cutIndent, brace]
    decide
  · intro s mode line whole room ordered
    have words : s.line.words = [['{']] := by
      rw [line, words_cutIndent]
      exact brace
    have pending : s.mode.classState = .pending name := by rw [mode]
    have lifted := leaves_liftMembers_brace words pending
    rw [line] at lifted
    refine ⟨_, lifted, ?_, ?_, ordered.comments, ?_⟩
    · show ({ s.mode with classState := .opened name } : Mode) = _
      rw [mode]
    · have opened : Brings {} s (s.openBrace name) := .of_account rfl
      exact opened.trans (.putDirect _ ⟨.copied, config.cutIndent raw⟩)
    · exact ordered.enum

end Conversion
end HeaderFlattening
