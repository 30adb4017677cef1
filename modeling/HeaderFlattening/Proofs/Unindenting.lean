import HeaderFlattening.Proofs.Lockstep
import HeaderFlattening.Proofs.Respacing

/-!
The same lines converted with two widths of indentation. Every stage does the same in both conversions,
for none asks for the spaces that a line starts with; only data members have them, and they get back
what was taken from them. `unindentWidth_cosmetic` says it of whole texts.
-/

set_option autoImplicit false
namespace HeaderFlattening
namespace Conversion

variable {α β : Type}

/-- Two results of one kind. -/
inductive Twins (r w : State → State → Prop) :
    EStateM.Result ConvertError State α → EStateM.Result ConvertError State α → Prop
  | ok {a : α} {u v : State} (next : r u v) : Twins r w (.ok a u) (.ok a v)
  | error {e : ConvertError} {u v : State} (next : w u v) : Twins r w (.error e u) (.error e v)

theorem Twins.imp {r r' : State → State → Prop} {p q : EStateM.Result ConvertError State α}
    (h : Twins r r p q) (weaker : ∀ {u v}, r u v → r' u v) : Twins r' r' p q := by
  cases h with
  | ok next => exact .ok (weaker next)
  | error next => exact .error (weaker next)

section

variable (config : Config) (lead : Nat) (base : List Chunk)

/-- The two steps do the same to lines that are the same but for their spaces. -/
def Twin (x y : Conversion α) (s t : State) : Prop :=
  Aligned config lead base s t →
    Twins (Aligned config lead base) (Matched config lead base) (x.run s) (y.run t)

end

variable {config : Config} {lead : Nat} {base : List Chunk} {s t : State}

theorem twin_of_run {x y : Conversion α} {a : α} {u v : State} (left : x.run s = .ok a u)
    (right : Aligned config lead base s t → y.run t = .ok a v)
    (next : Aligned config lead base s t → Aligned config lead base u v) :
    Twin config lead base x y s t := by
  intro h
  rw [left, right h]
  exact .ok (next h)

theorem twin_of_reaches {x y : Conversion α} {a : α} {u v : State} (left : Reaches x s a u)
    (right : Reaches y t a v)
    (next : Aligned config lead base s t → Aligned config lead base u v) :
    Twin config lead base x y s t := by
  intro h
  rw [left.run_eq h.free, right.run_eq h.free']
  exact .ok (next h)

theorem twins_bind {r w r' : State → State → Prop} {x y : Conversion α} {f g : α → Conversion β}
    (h : Twins r w (x.run s) (y.run t))
    (k : ∀ a u v, r u v → Twins r' w ((f a).run u) ((g a).run v)) :
    Twins r' w ((x >>= f).run s) ((y >>= g).run t) := by
  rw [EStateM.run_bind, EStateM.run_bind]
  generalize x.run s = p at h
  generalize y.run t = q at h
  cases h with
  | ok next => exact k _ _ _ next
  | error next => exact .error next

theorem twin_bind {x y : Conversion α} {f g : α → Conversion β} (h : Twin config lead base x y s t)
    (k : ∀ a u v, Twin config lead base (f a) (g a) u v) :
    Twin config lead base (x >>= f) (y >>= g) s t := fun aligned => twins_bind (h aligned) k

theorem twin_get {f g : State → Conversion β}
    (h : Aligned config lead base s t → Twin config lead base (f s) (g t) s t) :
    Twin config lead base (get >>= f) (get >>= g) s t := fun aligned => h aligned aligned

theorem twin_pure (a : α) (s t : State) :
    Twin config lead base (pure a : Conversion α) (pure a) s t := fun h => .ok h

theorem twin_claim {x y : Conversion Unit} (h : Twin config lead base x y s t) :
    Twin config lead base (x >>= fun _ => pure true) (y >>= fun _ => pure true) s t :=
  twin_bind h fun _ => twin_pure true

theorem twin_mode (g : Mode → Mode) (s t : State) :
    Twin config lead base (modifyMode g) (modifyMode g) s t :=
  twin_of_run rfl (fun _ => rfl) fun h => h.keep (h.toMatched.withMode g) rfl rfl rfl rfl

theorem twin_emit {o : Origin} {x y : Text} (related : Chunk.Respaced config ⟨o, x⟩ ⟨o, y⟩)
    (line : o ≠ .member) (s t : State) : Twin config lead base (emit o x) (emit o y) s t :=
  twin_of_reaches (reaches_emit o x s) (reaches_emit o y t) fun h => h.put related line

theorem twin_made (x : Text) (s t : State) : Twin config lead base (emit .made x) (emit .made x) s t :=
  twin_emit (o := .made) (.same _) nofun s t

theorem twin_emitLine (s t : State) : Twin config lead base emitLine emitLine s t := by
  refine twin_get fun h => ?_
  obtain ⟨a, b, y, text, text'⟩ := h.exists_text
  rw [text, text']
  exact twin_emit (.spaced (o := .copied) nofun 0 a b y) nofun s t

theorem twin_takeEnumComments (s t : State) :
    Twin config lead base takeEnumComments takeEnumComments s t :=
  twin_of_run rfl (fun _ => rfl) fun h => h.keep h.toMatched.gather rfl rfl rfl rfl

theorem twin_addEnumValue (name : Text) (s t : State) :
    Twin config lead base (addEnumValue name) (addEnumValue name) s t :=
  twin_of_run (run_addEnumValue name s) (fun _ => run_addEnumValue name t) fun h => h.addValue name

theorem twin_mode_if {c : Prop} [Decidable c] {f g : Unit → Conversion Bool} {m : Mode → Mode}
    (k : ∀ s t, Twin config lead base (f ()) (g ()) s t) (s t : State) :
    Twin config lead base (if c then modifyMode m >>= f else f ())
      (if c then modifyMode m >>= g else g ()) s t := by
  split_ifs
  · exact twin_bind (twin_mode m s t) fun _ => k
  · exact k s t

theorem twin_passComments (s t : State) : Twin config lead base passComments passComments s t := by
  unfold passComments
  refine twin_get fun h => ?_
  rw [h.word?]
  by_cases slashes : "//".toList.isPrefixOf ((s.line.word? 0).getD []) = true
  · simp only [if_pos slashes]
    exact twin_claim (twin_emitLine s t)
  · simp only [if_neg slashes]
    refine twin_mode_if (fun s t => ?_) s t
    refine twin_get fun h => ?_
    rw [h.mode, Line.lastWord?, Line.lastWord?, h.words]
    by_cases inside : s.mode.inComment = true
    · rw [if_pos inside]
      exact twin_mode_if (fun s t => twin_claim (twin_emitLine s t)) s t
    · rw [if_neg inside]
      exact twin_pure false s t

theorem twin_openExternC (s t : State) : Twin config lead base openExternC openExternC s t := by
  unfold openExternC
  refine twin_get fun h => ?_
  rw [Line.startsWith, Line.startsWith, h.words]
  split_ifs
  · exact twin_claim (twin_mode _ s t)
  · exact twin_pure false s t

theorem twin_emitOpener (keyword : Text) (d : TypeDeclaration) (s t : State) :
    Twin config lead base (emitOpener keyword d) (emitOpener keyword d) s t := by
  refine twin_bind (twin_made _ s t) fun _ s t => ?_
  split_ifs
  · exact twin_made _ s t
  · exact twin_pure () s t

/-- The comments in front of an enum are taken along if it is in a class. -/
theorem twin_gathered {f g : Unit → Conversion α} (k : ∀ s t, Twin config lead base (f ()) (g ()) s t)
    (s t : State) :
    Twin config lead base
      (get >>= fun s => if s.mode.classState.isOpen then takeEnumComments >>= f else f ())
      (get >>= fun s => if s.mode.classState.isOpen then takeEnumComments >>= g else g ()) s t := by
  refine twin_get fun h => ?_
  rw [h.mode]
  split_ifs
  · exact twin_bind (twin_takeEnumComments s t) fun _ => k
  · exact k s t

theorem twin_openEnumBody (d : TypeDeclaration) (s t : State) :
    Twin config lead base (openEnumBody d) (openEnumBody d) s t :=
  twin_bind (twin_mode _ s t) fun _ => twin_gathered fun s t => twin_emitOpener _ d s t

theorem twin_addEnumValues (names : List Text) (s t : State) :
    Twin config lead base (names.forM addEnumValue) (names.forM addEnumValue) s t := by
  induction names generalizing s t with
  | nil => exact twin_pure () s t
  | cons name names ih => exact twin_bind (twin_addEnumValue name s t) fun _ => ih

theorem twin_emitEnumLine (name : Text) (e : EnumLine) (s t : State) :
    Twin config lead base (emitEnumLine name e) (emitEnumLine name e) s t := by
  unfold emitEnumLine
  refine twin_get fun h => ?_
  rw [h.mode]
  refine twin_bind (twin_addEnumValues _ s t) fun _ => twin_gathered fun s t => ?_
  refine twin_bind (twin_mode _ s t) fun _ s t => ?_
  exact twin_bind (twin_made _ s t) fun _ => twin_mode _

theorem twin_openEnum (s t : State) : Twin config lead base openEnum openEnum s t := by
  unfold openEnum
  refine twin_get fun h => ?_
  simp only [h.words]
  cases opener : TypeDeclaration.ofWords? "enum".toList s.line.words with
  | none => exact twin_pure false s t
  | some d =>
    obtain ⟨rest, words⟩ := TypeDeclaration.words_of_ofWords? opener
    have tokens := h.ofTokens? words (by decide)
    simp only [tokens]
    split
    · exact twin_claim (twin_emitLine s t)
    · split
      · exact twin_claim (twin_emitEnumLine _ _ s t)
      · exact twin_claim (twin_openEnumBody _ s t)
    · exact twin_claim (twin_openEnumBody _ s t)

theorem twin_openStruct (s t : State) : Twin config lead base openStruct openStruct s t := by
  unfold openStruct
  refine twin_get fun h => ?_
  rw [h.words]
  split
  · exact twin_pure false s t
  · split_ifs
    · exact twin_claim (twin_emitLine s t)
    · refine twin_bind (twin_emitOpener _ _ s t) fun _ s t => ?_
      exact twin_claim (twin_mode _ s t)

theorem twin_enterClass (c : ClassState) (s t : State) :
    Twin config lead base (enterClass c) (enterClass c) s t :=
  twin_of_run rfl (fun _ => rfl) fun h => h.keep (h.toMatched.enterClass c) rfl rfl rfl rfl

theorem twin_openClass (s t : State) : Twin config lead base openClass openClass s t := by
  unfold openClass
  refine twin_get fun h => ?_
  rw [h.words]
  split
  · exact twin_pure false s t
  · split
    · exact twin_claim (twin_made _ s t)
    · exact twin_bind (twin_made _ s t) fun _ s t => twin_claim (twin_enterClass _ s t)
    · exact twin_bind (twin_made _ s t) fun _ s t => twin_claim (twin_enterClass _ s t)

theorem twin_openFlatType (s t : State) : Twin config lead base openFlatType openFlatType s t := by
  unfold openFlatType
  refine twin_get fun h => ?_
  simp only [h.words]
  split_ifs
  · exact twin_pure false s t
  · refine twin_bind (twin_mode _ s t) fun _ => twin_gathered fun s t => ?_
    exact twin_claim (twin_emitLine s t)
  · refine twin_bind (twin_mode _ s t) fun _ s t => ?_
    exact twin_claim (twin_emitLine s t)
  · exact twin_pure false s t

theorem twin_emitCloser (body : TypeBody) (s t : State) :
    Twin config lead base (emitCloser body) (emitCloser body) s t := by
  unfold emitCloser
  split_ifs
  · exact twin_emitLine s t
  · exact twin_made _ s t

theorem twin_closeClass (name : Text) (s t : State) :
    Twin config lead base (closeClass name) (closeClass name) s t :=
  twin_of_reaches (reaches_closeClass name s) (reaches_closeClass name t) fun h =>
    h.keep (h.toMatched.exitClass name) rfl rfl rfl rfl

theorem twin_closeType (s t : State) : Twin config lead base closeType closeType s t := by
  unfold closeType
  refine twin_get fun h => ?_
  have closer : t.line.isTypeCloser = s.line.isTypeCloser := by
    unfold Line.isTypeCloser
    rw [h.words]
  rw [closer, h.mode]
  split_ifs
  · exact twin_pure false s t
  split
  · refine twin_bind (twin_emitCloser _ s t) fun _ s t => ?_
    exact twin_claim (twin_mode _ s t)
  split
  · refine twin_bind (twin_mode _ s t) fun _ s t => ?_
    exact twin_claim (twin_emitCloser _ s t)
  split
  · exact twin_claim (twin_closeClass _ s t)
  · exact twin_pure false s t

theorem twin_closeExternC (s t : State) : Twin config lead base closeExternC closeExternC s t := by
  unfold closeExternC
  refine twin_get fun h => ?_
  rw [h.words, h.mode]
  split_ifs
  · exact twin_claim (twin_mode _ s t)
  · exact twin_pure false s t

theorem twin_firstClaim {stages : List (Conversion Bool)}
    (h : ∀ stage ∈ stages, ∀ s t, Twin config lead base stage stage s t) (s t : State) :
    Twin config lead base (firstClaim stages) (firstClaim stages) s t := by
  induction stages generalizing s t with
  | nil => exact twin_pure false s t
  | cons stage stages ih =>
    refine twin_bind (h stage List.mem_cons_self s t) fun claimed s t => ?_
    cases claimed with
    | true => exact twin_pure true s t
    | false => exact ih (fun stage mem => h stage (List.mem_cons_of_mem _ mem)) s t

theorem twin_trackTypes (s t : State) : Twin config lead base trackTypes trackTypes s t := by
  refine twin_firstClaim (fun stage mem => ?_) s t
  simp only [List.mem_cons, List.not_mem_nil, or_false] at mem
  rcases mem with rfl | rfl | rfl | rfl | rfl | rfl | rfl
  · exact twin_openExternC
  · exact twin_openEnum
  · exact twin_openStruct
  · exact twin_openClass
  · exact twin_openFlatType
  · exact twin_closeType
  · exact twin_closeExternC

theorem twin_followFunction (s t : State) :
    Twin config lead base followFunction followFunction s t := by
  cases function : s.mode.function with
  | body depth =>
    exact twin_of_run (run_followFunction_body function)
      (fun h => run_followFunction_body (by rw [h.mode, function])) fun h => h.followBody depth
  | outside | signature =>
    refine twin_of_run (run_followFunction_scan (by rw [function]; simp)) (fun h => ?_)
      fun h => h.followScan
    rw [run_followFunction_scan (by rw [h.mode, function]; simp), h.mode, h.cursor, h.scan]

theorem twin_emitSuppressed (s t : State) :
    Twin config lead base (emitSuppressed config) (emitSuppressed config) s t := by
  unfold emitSuppressed
  refine twin_get fun h => ?_
  obtain ⟨a, b, y, text, text'⟩ := h.exists_text
  have related := @Chunk.Respaced.spaced config .suppressed nofun s.mode.function.level
    a b y
  rw [h.mode, text, text']
  cases form : config.rules.suppression with
  | annotate =>
    rw [Config.mark, form, if_pos rfl] at related
    exact twin_emit related nofun s t
  | comment =>
    rw [Config.mark, form, if_neg nofun] at related
    exact twin_emit related nofun s t
  | drop => exact twin_pure () s t

theorem twin_trackFunctions (s t : State) :
    Twin config lead base (trackFunctions config) (trackFunctions config) s t := by
  unfold trackFunctions
  refine twin_get fun h => ?_
  rw [h.mode]
  split_ifs
  · exact twin_pure false s t
  · refine twin_bind (twin_followFunction s t) fun claimed s t => ?_
    split_ifs
    · exact twin_claim (twin_emitSuppressed s t)
    · exact twin_pure false s t

/-- What a shape makes of the line. -/
theorem twin_replaced {p : Pattern} (solid : p.Solid) (template : Text)
    (h : Aligned config lead base s t) :
    Twin config lead base
      (match p.replace template s.line.text with
        | some text => emit .made text >>= fun _ => pure true
        | none => pure false)
      (match p.replace template t.line.text with
        | some text => emit .made text >>= fun _ => pure true
        | none => pure false) s t := by
  obtain ⟨a, b, y, text, text'⟩ := h.exists_text
  rw [text, text', solid.replace_spaces, solid.replace_spaces]
  cases p.replace template y with
  | none => exact twin_pure false s t
  | some x => exact twin_claim (twin_emit (.spaced (o := .made) nofun 0 a b x) nofun s t)

theorem twin_defineConstants (s t : State) :
    Twin config lead base defineConstants defineConstants s t :=
  twin_get fun h => twin_replaced Pattern.solid_constMember _ h

theorem twin_convertMethods (s t : State) :
    Twin config lead base (convertMethods config) (convertMethods config) s t := by
  unfold convertMethods
  refine twin_get fun h => ?_
  rw [h.mode]
  split_ifs
  · exact twin_pure false s t
  · exact twin_replaced Pattern.solid_virtualMethod _ h

theorem twins_retokenize {i j a b : Nat} {y : Text} (h : Matched config lead base s t)
    (left : i + a = lead) (right : j + b = lead) (indent : s.indent = Text.spaces i)
    (indent' : t.indent = Text.spaces j) (line : s.line = .ofText (Text.spaces a ++ y))
    (line' : t.line = .ofText (Text.spaces b ++ y)) :
    Twins (Aligned config lead base) (Matched config lead base) ((retokenize config).run s)
      ((retokenize config).run t) := by
  rcases Line.retokenize_spaces config.rules.maxTokens y with cut | crowded
  · rw [run_retokenize (by rw [line, cut]), run_retokenize (by rw [line', cut])]
    exact .ok ⟨{ h with }, i, j, a, b, y, left, right, indent, indent', rfl, rfl⟩
  · rw [run_retokenize_overflow (by rw [line, crowded]),
      run_retokenize_overflow (by rw [line', crowded]), h.lineNumber]
    exact .error h

/-- Another text behind the spaces that are left of the line. -/
theorem twins_replaceLine {i j a b : Nat} (x : Text) (h : Matched config lead base s t)
    (left : i + a = lead) (right : j + b = lead) (indent : s.indent = Text.spaces i)
    (indent' : t.indent = Text.spaces j) :
    Twins (Aligned config lead base) (Matched config lead base)
      ((replaceLine config (Text.spaces a ++ x)).run s)
      ((replaceLine config (Text.spaces b ++ x)).run t) :=
  twins_retokenize (s := { s with line := .ofText (Text.spaces a ++ x) })
    (t := { t with line := .ofText (Text.spaces b ++ x) }) { h with } left right indent indent' rfl rfl

theorem twin_editMacro (solid : ∀ e ∈ config.edits, e.search.head? ≠ some ' ') (s t : State) :
    Twin config lead base (editMacro config) (editMacro config) s t := by
  intro h
  obtain ⟨i, j, a, b, y, left, right, indent, indent', line, line'⟩ := h.lines
  have edits (n : Nat) := Line.edit?_spaces solid n y
  cases edited : (Line.cut y).edit? config with
  | none =>
    have unedited (n : Nat) : (Line.cut (Text.spaces n ++ y)).edit? config = none := by
      rw [edits, edited]
      rfl
    rw [run_editMacro_unedited (by rw [line, unedited]),
      run_editMacro_unedited (by rw [line', unedited])]
    exact .ok h
  | some change =>
    obtain ⟨edit, x⟩ := change
    have changes (n : Nat) : (Line.cut (Text.spaces n ++ y)).edit? config =
        some (edit, Text.spaces n ++ x) := by
      rw [edits, edited]
      rfl
    have change : s.line.edit? config = some (edit, Text.spaces a ++ x) := by rw [line, changes]
    have change' : t.line.edit? config = some (edit, Text.spaces b ++ x) := by rw [line', changes]
    rcases Line.retokenize_spaces config.rules.maxTokens x with cut | crowded
    · rw [run_editMacro_edited change (cut a), run_editMacro_edited change' (cut b)]
      let rewrote : Diagnostic := ⟨.info, "rewrote macro ".toList ++ edit.name, none, none⟩
      have diagnostics (d : Diagnostic) : t.diagnostics ++ [{ d with line := some t.lineNumber }] =
          s.diagnostics ++ [{ d with line := some s.lineNumber }] := by rw [h.diagnostics, h.lineNumber]
      refine .ok ⟨{ h.toMatched with diagnostics := diagnostics rewrote }, ?_⟩
      exact ⟨i, j, a, b, x, left, right, indent, indent', rfl, rfl⟩
    · have number := congrArg (ConvertError.tooManyTokens · config.rules.maxTokens) h.lineNumber
      rw [run_editMacro_overflow change (crowded a), run_editMacro_overflow change' (crowded b),
        number]
      exact .error { h.toMatched with }

theorem twin_recordFirstWord (s t : State) :
    Twin config lead base recordFirstWord recordFirstWord s t := by
  unfold recordFirstWord
  refine twin_get fun h => ?_
  rw [h.word?]
  split
  · exact twin_bind (twin_addEnumValue _ s t) fun _ => twin_pure false
  · exact twin_pure false s t

theorem twin_recordEnumValue (s t : State) :
    Twin config lead base (recordEnumValue config) (recordEnumValue config) s t := by
  unfold recordEnumValue
  refine twin_get fun h => ?_
  rw [h.mode, h.word?]
  split_ifs
  · exact twin_pure false s t
  split
  · exact twin_pure false s t
  rename_i first found
  split
  · rename_i className active
    obtain ⟨i, j, a, b, y, left, right, indent, indent', line, line'⟩ := h.lines
    have word : (Line.cut y).word? 0 = some first := by
      have kept := (Option.filter_eq_some_iff.1 found).1
      rw [line, Line.word?, Line.words_spaces] at kept
      exact kept
    obtain ⟨x, spliced⟩ := Line.exists_spliced word (EnumLine.valueName className first)
    obtain ⟨span, place, eq⟩ := spliced a
    obtain ⟨span', place', eq'⟩ := spliced b
    have same : (Line.cut (Text.spaces a ++ y)).text = Text.spaces a ++ y := rfl
    have same' : (Line.cut (Text.spaces b ++ y)).text = Text.spaces b ++ y := rfl
    simp only [line, line', place, place', same, same', eq, eq']
    refine twin_bind ?_ fun _ => twin_recordFirstWord
    exact fun h => twins_replaceLine x h.toMatched left right indent indent'
  · exact twin_recordFirstWord s t

theorem twin_liftMember (s t : State) : Twin config lead base liftMember liftMember s t := by
  intro h
  cases declared : s.line.text.declaredName? with
  | none =>
    rw [run_liftMember_none declared, run_liftMember_none (h.declaredName?.trans declared)]
    exact .ok h
  | some name =>
    obtain ⟨whole, front⟩ := h.exists_whole
    rw [run_liftMember declared, run_liftMember (h.declaredName?.trans declared), whole]
    refine twin_claim ?_ (h.addMember name)
    exact twin_of_reaches (reaches_emitDirect _ _ _) (reaches_emitDirect _ _ _) fun h =>
      h.putDirect (.same _) fun _ => front

theorem twin_liftMembers (s t : State) :
    Twin config lead base liftMembers liftMembers s t := by
  unfold liftMembers
  refine twin_get fun h => ?_
  rw [h.mode, h.isEmpty, h.words]
  by_cases idle : (!s.mode.classState.isActive || s.line.isEmpty) = true
  · rw [if_pos idle, if_pos idle]
    exact twin_pure false s t
  rw [if_neg idle, if_neg idle]
  split
  · obtain ⟨a, b, y, text, text'⟩ := h.exists_text
    rw [text, text']
    refine twin_bind (twin_mode _ s t) fun _ u v => twin_claim ?_
    refine twin_of_reaches (reaches_emitDirect _ _ u) (reaches_emitDirect _ _ v) fun h => ?_
    exact h.putDirect (.spaced (o := .copied) nofun 0 a b y) nofun
  · split_ifs
    · exact twin_pure true s t
    · exact twin_liftMember s t

section

variable (solid : ∀ e ∈ config.edits, e.search.head? ≠ some ' ')
include solid

theorem twin_stages (s t : State) :
    Twin config lead base (firstClaim (stages config)) (firstClaim (stages config)) s t := by
  refine twin_firstClaim (fun stage mem => ?_) s t
  simp only [stages, List.mem_cons, List.not_mem_nil, or_false] at mem
  rcases mem with rfl | rfl | rfl | rfl | rfl | rfl | rfl | rfl
  · exact twin_passComments
  · exact twin_editMacro solid
  · exact twin_trackTypes
  · exact twin_trackFunctions
  · exact twin_defineConstants
  · exact twin_recordEnumValue
  · exact twin_convertMethods
  · exact twin_liftMembers

theorem twin_classify (s t : State) :
    Twin config lead base (classify config) (classify config) s t := by
  unfold classify
  refine twin_get fun h => ?_
  rw [h.isEmpty]
  split_ifs
  · refine twin_bind (twin_stages solid s t) fun claimed s t => ?_
    split_ifs
    · exact twin_pure () s t
    · exact twin_emitLine s t
  · exact twin_emitLine s t

end

theorem twins_skipLine (raw : Text) (limit : Nat) (h : Matched config lead base s t) :
    Twins (Matched config lead base) (Matched config lead base) ((skipLine raw limit).run s)
      ((skipLine raw limit).run t) := by
  have skipped : Matched config lead base (skipState raw limit s) (skipState raw limit t) :=
    { h.remarked (skipWarning limit) with }
  have copied {u : State} (free : u.sink.room = none) := (reaches_emit .copied raw u).run_eq free
  rw [run_skipLine, run_skipLine]
  change Twins _ _ ((emit .copied raw).run _) ((emit .copied raw).run _)
  rw [copied skipped.free, copied skipped.free']
  exact .ok (skipped.put (.same _) nofun)

theorem twins_recover {x y : Conversion Unit} (raw : Text)
    (h : Twins (Aligned config lead base) (Matched config lead base) (x.run s) (y.run t)) :
    Twins (Matched config lead base) (Matched config lead base)
      ((tryCatch x (recover config raw)).run s) ((tryCatch y (recover config raw)).run t) := by
  rw [run_tryCatch, run_tryCatch]
  generalize x.run s = p at h
  generalize y.run t = q at h
  cases h with
  | ok next => exact .ok next.toMatched
  | @error e u v next =>
    cases e with
    | tooManyTokens line limit =>
      cases overflow : config.rules.overflow with
      | skip =>
        simp only [recover, overflow]
        exact twins_skipLine raw limit next
      | abort =>
        simp only [recover, overflow]
        exact .error next
    | _ => exact .error next

theorem twins_finish (h : Matched config lead base s t) :
    Twins (Matched config lead base) (Matched config lead base) (finish.run s) (finish.run t) := by
  have class' : t.mode.classState.name? = s.mode.classState.name? := by rw [h.mode]
  cases unclosed : s.mode.classState.name? with
  | none =>
    rw [run_finish_closed unclosed, run_finish_closed (class'.trans unclosed)]
    exact .ok h
  | some name =>
    have warned : Matched config lead base
        ((s.noted (.classUnclosed name)).remarked (unclosedWarning name))
        ((t.noted (.classUnclosed name)).remarked (unclosedWarning name)) :=
      { h.remarked (unclosedWarning name) with }
    rw [run_finish_open unclosed, run_finish_open (class'.trans unclosed),
      (reaches_flushPending _).run_eq warned.free, (reaches_flushPending _).run_eq warned.free']
    exact .ok warned.flushed

theorem stateAfter_twins {r : State → State → Prop} {x y : Conversion α}
    (h : Twins r r (x.run s) (y.run t)) : r (stateAfter x s) (stateAfter y t) := by
  unfold stateAfter
  generalize x.run s = p at h
  generalize y.run t = q at h
  cases h with
  | ok next | error next => exact next

section

variable (solid : ∀ e ∈ config.edits, e.search.head? ≠ some ' ') (width : Nat)
include solid

/-- Behind the line the two are where they were before it, and so they are on every line. -/
theorem twins_processLine (raw : Text) (h : Matched config lead base s t) :
    let next := Matched config (raw.takeWhile (· = ' ')).length s.sink.offered
    Twins next next ((processLine config raw).run s)
      ((processLine (config.withUnindent width) raw).run t) := by
  intro next
  obtain ⟨i, a, left, cut⟩ := config.exists_outdent s.mode raw
  obtain ⟨j, b, right, cut'⟩ := (config.withUnindent width).exists_outdent t.mode raw
  have start : next (s.begin config raw) (t.begin (config.withUnindent width) raw) :=
    { h.rebase _ with lineNumber := congrArg (· + 1) h.lineNumber }
  rw [run_processLine, run_processLine]
  -- The width is used up: none of the steps to come asks for it.
  change Twins next next _ ((tryCatch (retokenize config >>= fun _ => classify config)
    (recover config raw)).run _)
  refine twins_recover raw (twins_bind ?_ fun _ u v => twin_classify solid u v)
  exact twins_retokenize start left right (congrArg Prod.fst cut) (congrArg Prod.fst cut')
    (congrArg (fun x : Text × Text => Line.ofText x.2) cut)
    (congrArg (fun x : Text × Text => Line.ofText x.2) cut')

theorem matched_runLines (lines : List Text) (h : Matched config 0 [] s t) :
    Matched config 0 [] (runLines config lines s)
      (runLines (config.withUnindent width) lines t) := by
  induction lines generalizing s t with
  | nil => exact h
  | cons raw lines ih => exact ih (stateAfter_twins (twins_processLine solid width raw h)).forget

theorem twins_processAll (lines : List (Except StreamFault Text)) (h : Matched config 0 [] s t) :
    Twins (Matched config 0 []) (Matched config 0 []) ((processAll config lines).run s)
      ((processAll (config.withUnindent width) lines).run t) := by
  induction lines generalizing s t with
  | nil => exact twins_finish h
  | cons line lines ih =>
    cases line with
    | error fault => exact .error h
    | ok raw =>
      have first := (twins_processLine solid width raw h).imp Matched.forget
      exact twins_bind first fun _ _ _ => ih

/-- The width of the indentation is cosmetic. Two conversions of a text that differ in it fail with the
same error or give the same report, and they write as many texts, each of which is the same in both but
for the spaces that its line starts with. Behind every line they are in the same mode and know the same
enum values and class members. The text of a data member is the same in both, with all spaces that its
line starts with. -/
theorem unindentWidth_cosmetic (t : Text) :
    let written (c : Config) := (stateAfter (processAll c (t.lines.map .ok)) {}).sink.offered
    (convertText (config.withUnindent width) t).map Converted.report =
      (convertText config t).map Converted.report ∧
    List.Forall₂ (Chunk.Respaced config) (written config) (written (config.withUnindent width)) ∧
    (written (config.withUnindent width)).filter (·.origin = .member) =
      (written config).filter (·.origin = .member) ∧
    ∀ n,
      let u := runLines config (t.lines.take n) {}
      let v := runLines (config.withUnindent width) (t.lines.take n) {}
      v.mode = u.mode ∧ v.enumValues = u.enumValues ∧ v.memberNames = u.memberNames ∧
      List.Forall₂ (Chunk.Respaced config) u.sink.offered v.sink.offered ∧
      ∀ raw ∈ t.lines[n]?, ∃ new,
        (stateAfter (processLine config raw) u).sink.offered = u.sink.offered ++ new ∧
        ∀ c ∈ new, c.origin = .member → raw.takeWhile (· = ' ') <+: c.text := by
  intro written
  have start : Matched config 0 [] {} {} := matched_start config
  have all := twins_processAll solid width (t.lines.map .ok) start
  have respaced : List.Forall₂ (Chunk.Respaced config) (written config)
      (written (config.withUnindent width)) := (stateAfter_twins all).offered
  refine ⟨?_, respaced, Chunk.members_of_respaced respaced, ?_⟩
  · unfold convertText convertLines
    generalize (processAll config (t.lines.map .ok)).run {} = p at all
    generalize (processAll (config.withUnindent width) (t.lines.map .ok)).run {} = q at all
    cases all with
    | ok next => exact congrArg Except.ok next.report
    | error next => rfl
  · intro n u v
    have before : Matched config 0 [] u v := matched_runLines solid width (t.lines.take n) start
    refine ⟨before.mode, before.enumValues, before.memberNames, before.offered, fun raw _ => ?_⟩
    have behind := stateAfter_twins (twins_processLine solid width raw before)
    rw [Text.takeWhile_space]
    exact behind.carried

end

/-- A class with a comment, a data member and a method, all of them indented. -/
def indentedClass : Text :=
  "class Pen\n\x7b\n    // in pixels\n      int width;\n    void draw();\n\x7d;\n".toList

theorem indentedClass_cosmetic :
    (∀ e ∈ ({} : Config).edits, e.search.head? ≠ some ' ') ∧
    (convertText (({} : Config).withUnindent 0) indentedClass).map Converted.report =
      (convertText {} indentedClass).map Converted.report ∧
    (convertText {} indentedClass).map Converted.text = .ok
      ("typedef struct _Pen\n\x7b\n      int width;\n\x7d Pen;\n".toList ++
        "// in pixels\n//(0) void draw();\n".toList) ∧
    (convertText (({} : Config).withUnindent 0) indentedClass).map Converted.text = .ok
      ("typedef struct _Pen\n\x7b\n      int width;\n\x7d Pen;\n".toList ++
        "    // in pixels\n//(0)     void draw();\n".toList) := by
  have solid : ∀ e ∈ ({} : Config).edits, e.search.head? ≠ some ' ' := by decide
  exact ⟨solid, (unindentWidth_cosmetic solid 0 indentedClass).1, by decide +kernel,
    by decide +kernel⟩

end Conversion
end HeaderFlattening
