import HeaderFlattening.Proofs.Kept
import HeaderFlattening.Proofs.Lockstep

/-!
Bodies in bodies. The conversion has one place for an open enum, one for an open struct and one for an
open class, and a closing line ends them in this order. So the closing lines of nested bodies end the
bodies that they belong to just if a body never stands in one of its own kind or of a kind that is
closed before it; `closes_iff_ordered` says so of all nestings.
-/

set_option autoImplicit false
namespace HeaderFlattening

/-- What the openers and closers of blocks and types change in a mode. -/
def Mode.blocks (m : Mode) :
    Bool × Bool × Option TypeBody × Option TypeBody × Option Text :=
  (m.inComment, m.inExternC, m.enumBody, m.structBody, m.classState.name?)

namespace Conversion

variable {α β : Type} {config : Config} {raw : Text} {s t : State}

/-- The step opens and closes nothing, whether it succeeds or fails. -/
def SameBlocks (x : Conversion α) : Prop := ∀ s, (stateAfter x s).mode.blocks = s.mode.blocks

theorem sameBlocks_bind {x : Conversion α} {f : α → Conversion β} (h : SameBlocks x)
    (k : ∀ a, SameBlocks (f a)) : SameBlocks (x >>= f) := by
  intro s
  have first := h s
  unfold stateAfter at first ⊢
  rw [EStateM.run_bind]
  cases run : x.run s with
  | error e t =>
    rw [run] at first
    exact first
  | ok a t =>
    rw [run] at first
    exact (k a t).trans first

theorem sameBlocks_get {f : State → Conversion α} (h : ∀ s, SameBlocks (f s)) :
    SameBlocks (get >>= f) := fun s => h s s

theorem sameBlocks_pure (a : α) : SameBlocks (pure a) := fun _ => rfl

theorem sameBlocks_emit (o : Origin) (x : Text) : SameBlocks (emit o x) := by
  intro s
  rw [(leaves_emit o x s).stateAfter_eq, State.mode_put]

theorem sameBlocks_emitLine : SameBlocks emitLine :=
  sameBlocks_get fun s => sameBlocks_emit .copied s.line.text

theorem sameBlocks_emitDirect (o : Origin) (x : Text) : SameBlocks (emitDirect o x) := by
  intro s
  unfold stateAfter
  rw [run_emitDirect]
  split_ifs <;> rfl

theorem sameBlocks_claim {x : Conversion Unit} (h : SameBlocks x) (b : Bool) :
    SameBlocks (x >>= fun _ => pure b) := sameBlocks_bind h fun _ => sameBlocks_pure b

theorem sameBlocks_retokenize (config : Config) : SameBlocks (retokenize config) := by
  intro s
  unfold stateAfter
  simp only [retokenize, EStateM.run_bind, EStateM.run_get]
  cases s.line.retokenize config.rules.maxTokens <;> rfl

theorem sameBlocks_replaceLine (config : Config) (text : Text) :
    SameBlocks (replaceLine config text) :=
  sameBlocks_bind (fun _ => rfl) fun _ => sameBlocks_retokenize config

theorem sameBlocks_addEnumValue (name : Text) : SameBlocks (addEnumValue name) := by
  intro s
  rw [stateAfter_of_run (run_addEnumValue name s), State.mode_addValue]

theorem sameBlocks_followFunction : SameBlocks followFunction := by
  intro s
  cases function : s.mode.function with
  | body depth => rw [stateAfter_of_run (run_followFunction_body function)]; rfl
  | outside | signature =>
    rw [stateAfter_of_run (run_followFunction_scan (by rw [function]; simp))]
    rfl

theorem sameBlocks_emitSuppressed (config : Config) : SameBlocks (emitSuppressed config) := by
  refine sameBlocks_get fun s => ?_
  split
  · exact sameBlocks_emit _ _
  · exact sameBlocks_emit _ _
  · exact sameBlocks_pure ()

theorem sameBlocks_trackFunctions (config : Config) : SameBlocks (trackFunctions config) := by
  refine sameBlocks_get fun s => ?_
  split_ifs
  · exact sameBlocks_pure false
  · refine sameBlocks_bind sameBlocks_followFunction fun claimed => ?_
    split_ifs
    · exact sameBlocks_claim (sameBlocks_emitSuppressed config) true
    · exact sameBlocks_pure false

theorem sameBlocks_defineConstants : SameBlocks defineConstants := by
  refine sameBlocks_get fun s => ?_
  split
  · exact sameBlocks_claim (sameBlocks_emit _ _) true
  · exact sameBlocks_pure false

theorem sameBlocks_recordFirstWord : SameBlocks recordFirstWord := by
  refine sameBlocks_get fun s => ?_
  split
  · exact sameBlocks_claim (sameBlocks_addEnumValue _) false
  · exact sameBlocks_pure false

theorem sameBlocks_recordEnumValue (config : Config) : SameBlocks (recordEnumValue config) := by
  refine sameBlocks_get fun s => ?_
  split_ifs
  · exact sameBlocks_pure false
  split
  · exact sameBlocks_pure false
  split
  · split
    · split
      · exact fun _ => rfl
      · exact sameBlocks_bind (sameBlocks_replaceLine config _) fun _ => sameBlocks_recordFirstWord
    · exact sameBlocks_recordFirstWord
  · exact sameBlocks_recordFirstWord

theorem sameBlocks_convertMethods (config : Config) : SameBlocks (convertMethods config) := by
  refine sameBlocks_get fun s => ?_
  split_ifs
  · exact sameBlocks_pure false
  split
  · exact sameBlocks_claim (sameBlocks_emit _ _) true
  · exact sameBlocks_pure false

theorem sameBlocks_liftMember : SameBlocks liftMember := by
  intro s
  cases declared : s.line.text.declaredName? with
  | none => rw [stateAfter_of_run (run_liftMember_none declared)]
  | some name =>
    have lifted := sameBlocks_claim (sameBlocks_emitDirect .member (s.indent ++ s.line.text)) true
      (s.addMember name)
    rw [mode_addMember] at lifted
    unfold stateAfter at lifted ⊢
    rw [run_liftMember declared]
    exact lifted

/-- The brace of a class is seen, and the class was there before. -/
theorem sameBlocks_liftMembers : SameBlocks liftMembers := by
  intro s
  unfold liftMembers
  show (stateAfter (ite _ _ _) s).mode.blocks = _
  by_cases idle : (!s.mode.classState.isActive || s.line.isEmpty) = true
  · rw [if_pos idle]
    rfl
  rw [if_neg idle]
  split
  · rename_i name found
    have named : s.mode.classState = .pending name := pending_of_awaited found
    have opened : (s.openBrace name).mode.blocks = s.mode.blocks := by
      unfold State.openBrace Mode.blocks
      rw [named]
      rfl
    exact (sameBlocks_claim (sameBlocks_emitDirect .copied s.line.text) true _).trans opened
  · split_ifs
    · rfl
    · exact sameBlocks_liftMember s

theorem sameBlocks_firstClaim {stages : List (Conversion Bool)}
    (h : ∀ stage ∈ stages, SameBlocks stage) : SameBlocks (firstClaim stages) := by
  induction stages with
  | nil => exact sameBlocks_pure false
  | cons stage stages ih =>
    refine sameBlocks_bind (h stage List.mem_cons_self) fun claimed => ?_
    split_ifs
    · exact sameBlocks_pure true
    · exact ih fun stage mem => h stage (List.mem_cons_of_mem _ mem)

theorem sameBlocks_late (config : Config) : SameBlocks (late config) := by
  refine sameBlocks_bind (sameBlocks_firstClaim fun stage mem => ?_) fun claimed => ?_
  · simp only [List.mem_cons, List.not_mem_nil, or_false] at mem
    rcases mem with rfl | rfl | rfl | rfl | rfl
    · exact sameBlocks_trackFunctions config
    · exact sameBlocks_defineConstants
    · exact sameBlocks_recordEnumValue config
    · exact sameBlocks_convertMethods config
    · exact sameBlocks_liftMembers
  · split_ifs
    · exact sameBlocks_pure ()
    · exact sameBlocks_emitLine

theorem sameBlocks_recover (config : Config) (raw : Text) (e : ConvertError) :
    SameBlocks (recover config raw e) := by
  cases e with
  | tooManyTokens line limit =>
    unfold recover
    cases config.rules.overflow with
    | abort => exact fun _ => rfl
    | skip =>
      intro s
      rw [stateAfter_eq_endOf, run_skipLine, ← stateAfter_eq_endOf]
      exact sameBlocks_emitLine (skipState raw limit s)
  | _ => exact fun _ => rfl

theorem sameBlocks_tryCatch {x : Conversion α} {f : ConvertError → Conversion α} (h : SameBlocks x)
    (k : ∀ e, SameBlocks (f e)) : SameBlocks (tryCatch x f) := by
  intro s
  have first := h s
  unfold stateAfter at first ⊢
  rw [run_tryCatch]
  cases run : x.run s with
  | ok a t =>
    rw [run] at first
    exact first
  | error e t =>
    rw [run] at first
    exact (k e t).trans first

/-- A line that gets to the stage that follows functions leaves all blocks and types as they are. -/
theorem blocks_reached {edit : Option MacroEdit} {l : Line}
    (h : Arrives config s.mode raw (.reached edit l)) :
    (stateAfter (processLine config raw) s).mode.blocks = s.mode.blocks := by
  obtain ⟨l', cut, run⟩ := exists_run_classify h
  have recut : (retokenize config).run (s.begin config raw) =
      .ok () (s.arrive config raw (.copied l')) := run_retokenize cut
  have same : (processLine config raw).run s =
      (tryCatch (late config) (recover config raw)).run (s.arrive config raw (.reached edit l)) := by
    rw [run_processLine, run_tryCatch, run_tryCatch, EStateM.run_bind, recut]
    simp only []
    rw [run]
  rw [stateAfter_eq_endOf, same, ← stateAfter_eq_endOf]
  exact sameBlocks_tryCatch (sameBlocks_late config) (sameBlocks_recover config raw) _

end Conversion

/-- The kinds of bodies, in the order in which a closing line looks for an open one. -/
inductive BodyKind where
  | ofEnum
  | ofStruct
  | ofClass
  deriving DecidableEq, Repr

namespace BodyKind

def keyword : BodyKind → Text
  | ofEnum => "enum".toList
  | ofStruct => "struct".toList
  | ofClass => "class".toList

/-- The keyword of the flat form. -/
def flatKeyword : BodyKind → Text
  | ofEnum => "enum".toList
  | ofStruct | ofClass => "struct".toList

def rank : BodyKind → Nat
  | ofEnum => 0
  | ofStruct => 1
  | ofClass => 2

theorem rank_injective {j k : BodyKind} (h : j.rank = k.rank) : j = k := by
  cases j <;> cases k <;> first | rfl | cases h

/-- The first lines of the flat form. -/
def opening (kind : BodyKind) (d : TypeDeclaration) : Text :=
  openerText kind.flatKeyword d.name ++ if d.brace = .sameLine then "\x7b\n".toList else []

/-- What an opening line emits. -/
def openers (kind : BodyKind) (d : TypeDeclaration) : List Chunk :=
  match kind with
  | ofEnum | ofStruct => Conversion.openerChunks kind.keyword d
  | ofClass =>
    [⟨.made, "typedef struct _".toList ++ d.name ++
      if d.brace = .sameLine then "\n\x7b\n".toList else "\n".toList⟩]

/-- What a closing line emits that ends a body of this kind. -/
def closers (kind : BodyKind) (b : TypeBody) (l : Line) : List Chunk :=
  match kind with
  | ofEnum | ofStruct => [closerChunk b l]
  | ofClass => [⟨.made, "\x7d ".toList ++ b.name ++ ";\n".toList⟩]

/-- An opening line that makes this text declares no class without a name. -/
theorem openers_eq_opening_iff (kind : BodyKind) (d : TypeDeclaration) :
    (kind.openers d).flatMap Chunk.text = kind.opening d ↔ (kind = ofClass → d.name ≠ []) := by
  cases kind with
  | ofEnum => exact iff_of_true (Conversion.text_openerChunks _ d) nofun
  | ofStruct => exact iff_of_true (Conversion.text_openerChunks _ d) nofun
  | ofClass =>
    unfold openers opening
    rw [List.flatMap_singleton]
    cases d.name with
    | nil =>
      refine iff_of_false (fun same => ?_) fun named => named rfl rfl
      have heads : some 't' = some 's' := congrArg List.head? same
      exact absurd heads (by decide)
    | cons c rest =>
      refine iff_of_true ?_ fun _ => List.cons_ne_nil c rest
      by_cases brace : d.brace = .sameLine
      · rw [if_pos brace, if_pos brace]
        exact (List.append_assoc ("typedef struct _".toList ++ c :: rest) ['\n'] "\x7b\n".toList).symm
      · rw [if_neg brace, if_neg brace, List.append_nil]
        rfl

/-- So for a closing line. -/
theorem closers_eq_closer_iff (kind : BodyKind) {b : TypeBody} (l : Line) (made : b.flat = false) :
    (kind.closers b l).flatMap Chunk.text = closerText b.name ↔ (kind = ofClass → b.name ≠ []) := by
  have closed : [closerChunk b l].flatMap Chunk.text = closerText b.name := by
    rw [List.flatMap_singleton, closerChunk, made]
    rfl
  cases kind with
  | ofEnum => exact iff_of_true closed nofun
  | ofStruct => exact iff_of_true closed nofun
  | ofClass =>
    unfold closers closerText
    cases name : b.name with
    | nil => simp
    | cons c rest => simp

/-- The mode behind the opening line of a body. -/
def enter (kind : BodyKind) (d : TypeDeclaration) (m : Mode) : Mode :=
  match kind with
  | ofEnum => { m with enumBody := some ⟨d.name, false⟩ }
  | ofStruct => { m with structBody := some ⟨d.name, false⟩ }
  | ofClass =>
    { m with classState := if d.brace = .sameLine then .opened d.name else .pending d.name }

/-- The mode with no body of this kind open. -/
def leave (kind : BodyKind) (m : Mode) : Mode :=
  match kind with
  | ofEnum => { m with enumBody := none }
  | ofStruct => { m with structBody := none }
  | ofClass => { m with classState := .none }

end BodyKind

/-- The open body of each kind. -/
def Mode.body? (m : Mode) : BodyKind → Option TypeBody
  | .ofEnum => m.enumBody
  | .ofStruct => m.structBody
  | .ofClass => m.classState.name?.map (⟨·, false⟩)

theorem Mode.body?_congr {m m' : Mode} (h : m'.blocks = m.blocks) : m'.body? = m.body? := by
  unfold blocks at h
  simp only [Prod.mk.injEq] at h
  obtain ⟨-, -, enum, struct, name⟩ := h
  funext kind
  cases kind with
  | ofEnum => exact enum
  | ofStruct => exact struct
  | ofClass =>
    unfold body?
    simp only [name]

theorem Mode.body?_enter (kind : BodyKind) (d : TypeDeclaration) (m : Mode) :
    (kind.enter d m).body? = Function.update m.body? kind (some ⟨d.name, false⟩) := by
  funext k
  cases kind <;> cases k <;> simp [BodyKind.enter, body?, Function.update]
  split_ifs <;> rfl

theorem Mode.body?_leave (kind : BodyKind) (m : Mode) :
    (kind.leave m).body? = Function.update m.body? kind none := by
  funext k
  cases kind <;> cases k <;> simp [BodyKind.leave, body?, Function.update, ClassState.name?]

/-- Outside block comments and `extern "C"`, with room for all output. -/
structure State.Settled (s : State) : Prop where
  outside : s.mode.inComment = false
  noExternC : s.mode.inExternC = false
  room : s.sink.room = none

/-- Bodies one after the other and in each other, with other lines between them. The line of a brace
by itself is one of these. -/
inductive Nest where
  | nil
  | content (raw : Text) (rest : Nest)
  | body (kind : BodyKind) (d : TypeDeclaration) (opener : Text) (inner : Nest) (closer : Text)
      (rest : Nest)
  deriving DecidableEq, Repr

namespace Line

/-- A line that is neither copied nor edited and that opens and closes nothing. -/
structure Inert (config : Config) (l : Line) : Prop where
  full : l.words ≠ []
  slashes : l.leads "//".toList = false
  star : l.leads "/*".toList = false
  noEdit : l.word? 0 = some "#define".toList → (l.word? 1).bind config.findEdit? = none
  loose : l.Loose { structBody := some ⟨[], false⟩ }

instance (config : Config) (l : Line) : Decidable (l.Inert config) :=
  decidable_of_iff
    (l.words ≠ [] ∧ l.leads "//".toList = false ∧ l.leads "/*".toList = false ∧
      (l.word? 0 = some "#define".toList → (l.word? 1).bind config.findEdit? = none) ∧
      l.Loose { structBody := some ⟨[], false⟩ })
    ⟨fun ⟨a, b, c, d, e⟩ => ⟨a, b, c, d, e⟩, fun ⟨a, b, c, d, e⟩ => ⟨a, b, c, d, e⟩⟩

/-- A line that may stand anywhere between opening and closing lines. -/
def IsContent (config : Config) (l : Line) : Prop := l.Passed ∨ l.Inert config

instance (config : Config) (l : Line) : Decidable (l.IsContent config) :=
  inferInstanceAs (Decidable (_ ∨ _))

theorem Inert.congr {config : Config} {l l' : Line} (h : l.Inert config) (words : l'.words = l.words) :
    l'.Inert config := by
  obtain ⟨full, slashes, star, noEdit, loose⟩ := h
  rw [← leads_congr words] at slashes star
  unfold word? at noEdit
  rw [← words] at full noEdit
  exact ⟨full, slashes, star, noEdit, loose.congr words⟩

theorem Inert.edit?_eq_none {config : Config} {l : Line} (h : l.Inert config) :
    l.edit? config = none := by
  unfold edit?
  split_ifs with define
  · rw [h.noEdit define]
  · rfl

end Line

namespace Nest

def lines : Nest → List Text
  | nil => []
  | content raw rest => raw :: rest.lines
  | body _ _ opener inner closer rest => opener :: (inner.lines ++ closer :: rest.lines)

/-- The opening and the closing line of each body are what they should be. -/
def Valid (config : Config) : Nest → Prop
  | nil => True
  | content raw rest => (Line.cut raw).IsContent config ∧ rest.Valid config
  | body kind d opener inner closer rest =>
    TypeDeclaration.ofWords? kind.keyword (Line.cut opener).words = some d ∧ d.brace ≠ .forward ∧
      (kind = .ofEnum → d.brace = .sameLine → EnumLine.ofTokens? (Line.cut opener).tokens = none) ∧
      (Line.cut closer).isTypeCloser = true ∧ inner.Valid config ∧ rest.Valid config

instance decidableValid (config : Config) : (nest : Nest) → Decidable (nest.Valid config)
  | nil => inferInstanceAs (Decidable True)
  | content _ rest =>
    have := decidableValid config rest
    inferInstanceAs (Decidable (_ ∧ _))
  | body _ _ _ inner _ rest =>
    have := decidableValid config inner
    have := decidableValid config rest
    inferInstanceAs (Decidable (_ ∧ _ ∧ _ ∧ _ ∧ _ ∧ _))

/-- No body stands in one that a closing line finds before it or in one of its own kind, and all
classes have names. -/
def Ordered (above : List BodyKind) : Nest → Prop
  | nil => True
  | content _ rest => rest.Ordered above
  | body kind d _ inner _ rest =>
    (∀ k ∈ above, kind.rank < k.rank) ∧ (kind = .ofClass → d.name ≠ []) ∧
      inner.Ordered (kind :: above) ∧ rest.Ordered above

instance decidableOrdered (above : List BodyKind) : (nest : Nest) → Decidable (nest.Ordered above)
  | nil => inferInstanceAs (Decidable True)
  | content _ rest => decidableOrdered above rest
  | body kind _ _ inner _ rest =>
    have := decidableOrdered (kind :: above) inner
    have := decidableOrdered above rest
    inferInstanceAs (Decidable (_ ∧ _ ∧ _ ∧ _))

end Nest

/-- The line is converted, and this is the text that is made of it. -/
def Conversion.Turns (config : Config) (raw text : Text) (s t : State) : Prop :=
  (processLine config raw).run s = .ok () t ∧
    ∃ cs, t.emitted = s.emitted ++ cs ∧ cs.flatMap Chunk.text = text

/-- Each opening line gives the first lines of the flat form, and the closing line of its body gives
the closer with the same name and leaves those bodies open that were so before the opening line. -/
def Nest.Closes (config : Config) : Nest → State → Prop
  | nil, _ => True
  | content raw rest, s => rest.Closes config (Conversion.stateAfter (Conversion.processLine config raw) s)
  | body kind d opener inner closer rest, s =>
    ∃ opened closed, Conversion.Turns config opener (kind.opening d) s opened ∧
      inner.Closes config opened ∧
      Conversion.Turns config closer (closerText d.name)
        (Conversion.runLines config inner.lines opened) closed ∧
      closed.mode.body? = s.mode.body? ∧ rest.Closes config closed

namespace Conversion

variable {config : Config} {raw : Text} {s t : State}

theorem ofTokens?_outdent (config : Config) (m : Mode) {w : Text} {rest : List Text}
    (words : (Line.cut raw).words = w :: rest) (ne : w ≠ ['{']) :
    EnumLine.ofTokens? (Line.cut (config.outdent m raw).2).tokens =
      EnumLine.ofTokens? (Line.cut raw).tokens := by
  cases active : m.classState.isActive with
  | true =>
    rw [outdent_active config active]
    exact ofTokens?_cutIndent config words ne
  | false =>
    unfold Config.outdent
    rw [active]
    rfl

theorem blocks_content (settled : s.Settled) (fits : config.Fits raw)
    (content : (Line.cut raw).IsContent config) :
    (stateAfter (processLine config raw) s).mode.blocks = s.mode.blocks := by
  have cut := cut_outdent s.mode fits
  have words := words_outdent config s.mode raw
  rcases content with (empty | slashes) | inert
  · have blank := (Line.isEmpty_iff _).2 (words.trans empty)
    rw [(leaves_copied (.blank cut blank)).stateAfter_eq, State.mode_put]
    rfl
  · have comment := (Line.leads_congr words _).trans slashes
    rw [(leaves_copied (.comment cut comment)).stateAfter_eq, State.mode_put]
    rfl
  · have seen := inert.congr words
    obtain ⟨externC, noEnum, noStruct, noClass, notFlat, closer, -⟩ := seen.loose
    refine blocks_reached (.plain cut (Bool.eq_false_iff.2 (mt (Line.isEmpty_iff _).1 seen.full))
      settled.outside seen.slashes seen.star seen.edit?_eq_none
      ⟨externC, noEnum, noStruct, noClass, notFlat, fun closes => ?_, fun _ => settled.noExternC⟩)
    exact absurd (closer closes).2.1 (Option.some_ne_none _)

theorem room_after (room : s.sink.room = none) :
    (stateAfter (processLine config raw) s).sink.room = none := by
  rw [stateAfter_eq_endOf]
  exact (grows_processLine config raw s).room.trans room

theorem settled_content (settled : s.Settled) (fits : config.Fits raw)
    (content : (Line.cut raw).IsContent config) :
    (stateAfter (processLine config raw) s).Settled := by
  have blocks := blocks_content settled fits content
  exact ⟨(congrArg (·.1) blocks).trans settled.outside,
    (congrArg (·.2.1) blocks).trans settled.noExternC, room_after settled.room⟩

/-- The state in which the stages for types see a line; what they leave of it is left of the line. -/
theorem exists_arrived {w : Text} {rest : List Text} (settled : s.Settled) (fits : config.Fits raw)
    (words : (Line.cut raw).words = w :: rest)
    (known : w ∈ ["enum".toList, "struct".toList, "class".toList, ['}']]) :
    ∃ u : State, u.line = .cut (config.outdent s.mode raw).2 ∧ u.mode = s.mode ∧
      u.emitted = s.emitted ∧ u.sink.room = none ∧
      ∀ t, Leaves trackTypes u true t → t.sink.room = none →
        (processLine config raw).run s = .ok () t := by
  have first : ∀ w ∈ ["enum".toList, "struct".toList, "class".toList, ['}']],
      "//".toList.isPrefixOf w = false ∧ "/*".toList.isPrefixOf w = false ∧
        w ≠ "#define".toList := by decide
  obtain ⟨slashes, star, define⟩ := first w known
  have seen := (words_outdent config s.mode raw).trans words
  exact ⟨s.arrive config raw (.copied (.cut (config.outdent s.mode raw).2)), rfl, rfl, rfl,
    settled.room, fun t claimed room =>
      (leaves_types (cut_outdent s.mode fits) seen settled.outside slashes star define claimed).run_eq
        room⟩

/-- What an opening line leaves. -/
theorem exists_opened_body {kind : BodyKind} {d : TypeDeclaration} (settled : s.Settled)
    (fits : config.Fits raw)
    (opener : TypeDeclaration.ofWords? kind.keyword (Line.cut raw).words = some d)
    (body : d.brace ≠ .forward)
    (open' : kind = .ofEnum → d.brace = .sameLine →
      EnumLine.ofTokens? (Line.cut raw).tokens = none) :
    ∃ t, (processLine config raw).run s = .ok () t ∧ t.mode = kind.enter d s.mode ∧
      t.emitted = s.emitted ++ kind.openers d := by
  obtain ⟨rest, words⟩ := TypeDeclaration.words_of_ofWords? opener
  have seen := words_outdent config s.mode raw
  obtain ⟨u, line, mode, emitted, room, run⟩ :=
    exists_arrived settled fits words (by cases kind <;> decide)
  have tokens (ne : kind.keyword ≠ ['{']) := ofTokens?_outdent config s.mode words ne
  rw [← seen, ← line] at opener
  rw [← mode, ← emitted]
  cases kind with
  | ofEnum =>
    rw [← tokens (by decide), ← line] at open'
    have opens := reaches_openEnumBody_line opener body (open' rfl)
    refine ⟨_, run _ (leaves_trackTypes_enum opener (.of_run (opens.run_eq room)))
      (opens.1.trans room), ?_, ?_⟩
    · rw [State.mode_putAll, State.mode_enterEnum]
      rfl
    · rw [State.emitted_putAll, State.emitted_enterEnum]
      rfl
  | ofStruct =>
    have opens := reaches_openStruct opener body
    refine ⟨_, run _ (leaves_trackTypes_struct opener (.of_run (opens.run_eq room)))
      (opens.1.trans room), ?_, ?_⟩
    · show BodyKind.ofStruct.enter d (u.putAll (openerChunks "struct".toList d)).mode = _
      rw [State.mode_putAll]
    · show (u.putAll _).emitted = _
      rw [State.emitted_putAll]
      rfl
  | ofClass =>
    have opens := leaves_openClass opener body room
    refine ⟨_, run _ (leaves_trackTypes_class opener opens) ((room_put _ _).trans room), ?_,
      State.emitted_put u _⟩
    show BodyKind.ofClass.enter d (u.put _).mode = _
    rw [State.mode_put]

/-- What a closing line leaves: it ends the first open body in the order of closing. -/
theorem exists_closed_body {kind : BodyKind} {b : TypeBody} (settled : s.Settled)
    (fits : config.Fits raw) (closer : (Line.cut raw).isTypeCloser = true)
    (first : ∀ k : BodyKind, k.rank < kind.rank → s.mode.body? k = none)
    (found : s.mode.body? kind = some b) :
    ∃ t l, (processLine config raw).run s = .ok () t ∧ t.mode = kind.leave s.mode ∧
      t.emitted = s.emitted ++ kind.closers b l := by
  obtain ⟨rest, words⟩ := Line.words_of_isTypeCloser closer
  have seen := words_outdent config s.mode raw
  obtain ⟨u, line, mode, emitted, room, run⟩ := exists_arrived settled fits words (by decide)
  have closes : u.line.isTypeCloser = true := by
    unfold Line.isTypeCloser at closer ⊢
    rw [line, seen]
    exact closer
  have done {t : State} (closed : Reaches closeType u true t) :
      (processLine config raw).run s = .ok () t :=
    run _ (leaves_trackTypes_closer closes (.of_run (closed.run_eq room))) (closed.1.trans room)
  rw [← mode] at first found
  rw [← mode, ← emitted]
  cases kind with
  | ofEnum =>
    refine ⟨_, u.line, done (reaches_closeType_enum closes found), ?_, State.emitted_put u _⟩
    show BodyKind.ofEnum.leave (u.put (closerChunk b u.line)).mode = _
    rw [State.mode_put]
  | ofStruct =>
    have noEnum : u.mode.enumBody = none := first .ofEnum (by decide)
    refine ⟨_, u.line, done (reaches_closeType_struct closes noEnum found), ?_,
      State.emitted_put u.leaveStruct _⟩
    rw [State.mode_put]
    rfl
  | ofClass =>
    have noEnum : u.mode.enumBody = none := first .ofEnum (by decide)
    have noStruct : u.mode.structBody = none := first .ofStruct (by decide)
    obtain ⟨name, named, rfl⟩ := Option.map_eq_some_iff.1 found
    exact ⟨_, u.line, done (reaches_closeType_class closes noEnum noStruct named), rfl, rfl⟩

theorem settled_of_run (settled : s.Settled) (run : (processLine config raw).run s = .ok () t)
    (outside : t.mode.inComment = s.mode.inComment) (noExternC : t.mode.inExternC = s.mode.inExternC) :
    t.Settled := by
  have room : (stateAfter (processLine config raw) s).sink.room = none := room_after settled.room
  rw [stateAfter_of_run run] at room
  exact ⟨outside.trans settled.outside, noExternC.trans settled.noExternC, room⟩

end Conversion

theorem BodyKind.inComment_enter (kind : BodyKind) (d : TypeDeclaration) (m : Mode) :
    (kind.enter d m).inComment = m.inComment := by cases kind <;> rfl

theorem BodyKind.inExternC_enter (kind : BodyKind) (d : TypeDeclaration) (m : Mode) :
    (kind.enter d m).inExternC = m.inExternC := by cases kind <;> rfl

theorem BodyKind.inComment_leave (kind : BodyKind) (m : Mode) :
    (kind.leave m).inComment = m.inComment := by cases kind <;> rfl

theorem BodyKind.inExternC_leave (kind : BodyKind) (m : Mode) :
    (kind.leave m).inExternC = m.inExternC := by cases kind <;> rfl

theorem Mode.exists_first_body {m : Mode} {kind : BodyKind} (h : (m.body? kind).isSome = true) :
    ∃ k b, m.body? k = some b ∧ ∀ j : BodyKind, j.rank < k.rank → m.body? j = none := by
  by_cases lower : ∃ j : BodyKind, j.rank < kind.rank ∧ (m.body? j).isSome = true
  · obtain ⟨j, lt, found⟩ := lower
    exact exists_first_body found
  · obtain ⟨b, found⟩ := Option.isSome_iff_exists.1 h
    refine ⟨kind, b, found, fun j lt => ?_⟩
    exact Option.not_isSome_iff_eq_none.1 fun found => lower ⟨j, lt, found⟩
termination_by kind.rank

namespace Conversion

variable {config : Config} {raw : Text} {s t : State} {kind : BodyKind}

/-- What a closing line leaves while a body is open. -/
theorem exists_left (settled : s.Settled) (fits : config.Fits raw)
    (closer : (Line.cut raw).isTypeCloser = true) (open' : (s.mode.body? kind).isSome = true) :
    ∃ t k b l, (processLine config raw).run s = .ok () t ∧ t.Settled ∧
      s.mode.body? k = some b ∧ (∀ j : BodyKind, j.rank < k.rank → s.mode.body? j = none) ∧
      t.mode.body? = Function.update s.mode.body? k none ∧
      t.emitted = s.emitted ++ k.closers b l := by
  obtain ⟨k, b, found, first⟩ := Mode.exists_first_body open'
  obtain ⟨t, l, run, mode, emitted⟩ := exists_closed_body settled fits closer first found
  refine ⟨t, k, b, l, run, settled_of_run settled run ?_ ?_, found, first, ?_, emitted⟩
  · rw [mode, k.inComment_leave]
  · rw [mode, k.inExternC_leave]
  · rw [mode, Mode.body?_leave]

theorem settled_of_closer (settled : s.Settled) (fits : config.Fits raw)
    (closer : (Line.cut raw).isTypeCloser = true) (open' : (s.mode.body? kind).isSome = true)
    (run : (processLine config raw).run s = .ok () t) : t.Settled := by
  obtain ⟨u, -, -, -, left, after, -⟩ := exists_left settled fits closer open'
  cases run.symm.trans left
  exact after

theorem exists_entered {d : TypeDeclaration} (settled : s.Settled) (fits : config.Fits raw)
    (opener : TypeDeclaration.ofWords? kind.keyword (Line.cut raw).words = some d)
    (body : d.brace ≠ .forward)
    (open' : kind = .ofEnum → d.brace = .sameLine →
      EnumLine.ofTokens? (Line.cut raw).tokens = none) :
    ∃ t, (processLine config raw).run s = .ok () t ∧ t.Settled ∧
      t.mode.body? = Function.update s.mode.body? kind (some ⟨d.name, false⟩) ∧
      t.emitted = s.emitted ++ kind.openers d := by
  obtain ⟨t, run, mode, emitted⟩ := exists_opened_body settled fits opener body open'
  refine ⟨t, run, settled_of_run settled run ?_ ?_, ?_, emitted⟩
  · rw [mode, kind.inComment_enter]
  · rw [mode, kind.inExternC_enter]
  · rw [mode, Mode.body?_enter]

/-- Bodies that are closed as they should be leave those open that were so before them. -/
theorem settled_of_closes {nest : Nest} (valid : nest.Valid config)
    (fits : ∀ line ∈ nest.lines, config.Fits line) (settled : s.Settled)
    (closes : nest.Closes config s) :
    (runLines config nest.lines s).Settled ∧
      (runLines config nest.lines s).mode.body? = s.mode.body? := by
  induction nest generalizing s with
  | nil => exact ⟨settled, rfl⟩
  | content raw rest ih =>
    obtain ⟨content, valid⟩ := valid
    obtain ⟨fit, fits⟩ := List.forall_mem_cons.1 fits
    have next := settled_content settled fit content
    obtain ⟨after, same⟩ := ih valid fits next closes
    exact ⟨after, same.trans (Mode.body?_congr (blocks_content settled fit content))⟩
  | body kind d opener inner closer rest ihInner ihRest =>
    obtain ⟨opens, brace, line, closing, validInner, validRest⟩ := valid
    obtain ⟨fit, fits⟩ := List.forall_mem_cons.1 fits
    obtain ⟨fitsInner, fits⟩ := List.forall_mem_append.1 fits
    obtain ⟨fitCloser, fitsRest⟩ := List.forall_mem_cons.1 fits
    obtain ⟨opened, closed, ⟨run, -⟩, closesInner, ⟨run', -⟩, same, closesRest⟩ := closes
    obtain ⟨t, entered, settledOpened, inside, -⟩ := exists_entered settled fit opens brace line
    cases run.symm.trans entered
    obtain ⟨settledFilled, kept⟩ := ihInner validInner fitsInner settledOpened closesInner
    have open' : ((runLines config inner.lines opened).mode.body? kind).isSome = true := by
      rw [kept, inside, Function.update_self]
      rfl
    have settledClosed := settled_of_closer settledFilled fitCloser closing open' run'
    obtain ⟨after, same'⟩ := ihRest validRest fitsRest settledClosed closesRest
    have whole : runLines config (Nest.body kind d opener inner closer rest).lines s =
        runLines config rest.lines closed := by
      rw [Nest.lines, runLines, stateAfter_of_run run, runLines_append, runLines,
        stateAfter_of_run run']
    rw [whole]
    exact ⟨after, same'.trans same⟩

/-- A closing line gives the closer of the body that was opened last, and opens the way back to the
bodies before, just if all of these come after it in the order of closing. -/
theorem restored_iff {before : BodyKind → Option TypeBody} {name : Text} (settled : s.Settled)
    (fits : config.Fits raw) (closer : (Line.cut raw).isTypeCloser = true)
    (inside : s.mode.body? = Function.update before kind (some ⟨name, false⟩)) :
    (∃ t, Turns config raw (closerText name) s t ∧ t.mode.body? = before) ↔
      (∀ j, (before j).isSome = true → kind.rank < j.rank) ∧ (kind = .ofClass → name ≠ []) := by
  have own : s.mode.body? kind = some ⟨name, false⟩ := by rw [inside, Function.update_self]
  have others {k : BodyKind} (ne : k ≠ kind) : s.mode.body? k = before k := by
    rw [inside, Function.update_of_ne ne]
  have open' : (s.mode.body? kind).isSome = true := by
    rw [own]
    rfl
  obtain ⟨t, k, b, l, run, -, found, first, left, emitted⟩ := exists_left settled fits closer open'
  have gone : t.mode.body? k = none := by rw [left, Function.update_self]
  have text (same : k = kind) : (k.closers b l).flatMap Chunk.text = closerText name ↔
      (kind = .ofClass → name ≠ []) := by
    subst same
    cases own.symm.trans found
    exact k.closers_eq_closer_iff l rfl
  constructor
  · rintro ⟨u, ⟨run', cs, emitted', made⟩, restored⟩
    cases run.symm.trans run'
    cases List.append_cancel_left (emitted.symm.trans emitted')
    have here : k = kind := by
      by_contra ne
      rw [restored, ← others ne, found] at gone
      cases gone
    refine ⟨fun j held => ?_, (text here).1 made⟩
    subst here
    have ne : j ≠ k := by
      rintro rfl
      rw [← restored, gone] at held
      cases held
    have later : ¬j.rank < k.rank := fun lt => by
      rw [← others ne, first j lt] at held
      cases held
    have unlike : j.rank ≠ k.rank := fun same => ne (BodyKind.rank_injective same)
    omega
  · rintro ⟨below, named⟩
    have here : k = kind := by
      by_contra ne
      have lt : kind.rank < k.rank := below k (by rw [← others ne, found]; rfl)
      cases own.symm.trans (first kind lt)
    refine ⟨t, ⟨run, _, emitted, (text here).2 named⟩, ?_⟩
    subst here
    have free : before k = none := Option.not_isSome_iff_eq_none.1 fun held => by
      have lt := below k held
      omega
    rw [left, inside, Function.update_idem, Function.update_eq_self_iff]
    exact free.symm

theorem closes_iff {nest : Nest} {above : List BodyKind} (valid : nest.Valid config)
    (fits : ∀ line ∈ nest.lines, config.Fits line) (settled : s.Settled)
    (held : ∀ k, k ∈ above ↔ (s.mode.body? k).isSome = true) :
    nest.Closes config s ↔ nest.Ordered above := by
  induction nest generalizing s above with
  | nil => exact iff_of_true trivial trivial
  | content raw rest ih =>
    obtain ⟨content, valid⟩ := valid
    obtain ⟨fit, fits⟩ := List.forall_mem_cons.1 fits
    have same := Mode.body?_congr (blocks_content settled fit content)
    exact ih valid fits (settled_content settled fit content) fun k => by rw [held, same]
  | body kind d opener inner closer rest ihInner ihRest =>
    obtain ⟨opens, brace, line, closing, validInner, validRest⟩ := valid
    obtain ⟨fit, fits⟩ := List.forall_mem_cons.1 fits
    obtain ⟨fitsInner, fits⟩ := List.forall_mem_append.1 fits
    obtain ⟨fitCloser, fitsRest⟩ := List.forall_mem_cons.1 fits
    obtain ⟨opened, run, settledOpened, inside, emitted⟩ := exists_entered settled fit opens brace line
    have heldInside (k : BodyKind) : k ∈ kind :: above ↔ (opened.mode.body? k).isSome = true := by
      rw [inside, List.mem_cons, held]
      by_cases same : k = kind
      · subst same
        simp
      · rw [Function.update_of_ne same, or_iff_right same]
    have innerIff := ihInner validInner fitsInner settledOpened heldInside
    have opening : Turns config opener (kind.opening d) s opened ↔ (kind = .ofClass → d.name ≠ []) := by
      rw [← kind.openers_eq_opening_iff]
      refine ⟨fun ⟨_, cs, emitted', made⟩ => ?_, fun made => ⟨run, _, emitted, made⟩⟩
      cases List.append_cancel_left (emitted.symm.trans emitted')
      exact made
    have after {closed : State} (closesInner : inner.Closes config opened)
        (turns : Turns config closer (closerText d.name) (runLines config inner.lines opened) closed)
        (same : closed.mode.body? = s.mode.body?) :
        rest.Closes config closed ↔ rest.Ordered above := by
      obtain ⟨settledFilled, kept⟩ := settled_of_closes validInner fitsInner settledOpened closesInner
      have open' : ((runLines config inner.lines opened).mode.body? kind).isSome = true := by
        rw [kept, inside, Function.update_self]
        rfl
      exact ihRest validRest fitsRest (settled_of_closer settledFilled fitCloser closing open' turns.1)
        fun k => by rw [held, same]
    have restored (closesInner : inner.Closes config opened) :=
      have ⟨settledFilled, kept⟩ := settled_of_closes validInner fitsInner settledOpened closesInner
      restored_iff settledFilled fitCloser closing (kept.trans inside)
    constructor
    · rintro ⟨u, closed, turns, closesInner, turns', same, closesRest⟩
      cases run.symm.trans turns.1
      obtain ⟨below, -⟩ := (restored closesInner).1 ⟨closed, turns', same⟩
      exact ⟨fun k mem => below k ((held k).1 mem), opening.1 turns, innerIff.1 closesInner,
        (after closesInner turns' same).1 closesRest⟩
    · rintro ⟨below, named, orderedInner, orderedRest⟩
      have closesInner := innerIff.2 orderedInner
      obtain ⟨closed, turns, same⟩ := (restored closesInner).2
        ⟨fun k found => below k ((held k).2 found), named⟩
      exact ⟨opened, closed, opening.2 named, closesInner, turns, same,
        (after closesInner turns same).2 orderedRest⟩

/-- The closing lines of nested bodies give the closers of the bodies that they belong to, and leave
the bodies around them open, just if these come later in the order of closing: no enum has a body in
it, no struct has a struct or a class in it, and no class has a class in it or lacks a name. -/
theorem closes_iff_ordered (config : Config) (nest : Nest) (s : State) (valid : nest.Valid config)
    (fits : ∀ line ∈ nest.lines, config.Fits line) (settled : s.Settled)
    (start : ∀ kind, s.mode.body? kind = none) :
    nest.Closes config s ↔ nest.Ordered [] := by
  refine closes_iff valid fits settled fun k => ?_
  rw [start k]
  exact iff_of_false List.not_mem_nil Bool.false_ne_true

/-- A struct in another one. -/
def structInStruct : Nest :=
  .body .ofStruct ⟨['A'], .deferred⟩ "struct A\n".toList
    (.content "\x7b\n".toList
      (.body .ofStruct ⟨['B'], .deferred⟩ "struct B\n".toList
        (.content "\x7b\n".toList .nil) "\x7d;\n".toList .nil))
    "\x7d;\n".toList .nil

/-- An enum in a struct in a class. -/
def structInClass : Nest :=
  .body .ofClass ⟨['A'], .sameLine⟩ "class A \x7b\n".toList
    (.content "public:\n".toList
      (.body .ofStruct ⟨['B'], .sameLine⟩ "    struct B \x7b\n".toList
        (.body .ofEnum ⟨['E'], .deferred⟩ "    enum E\n".toList
          (.content "    \x7b\n".toList (.content "        One\n".toList .nil)) "    \x7d;\n".toList
          (.content "        E kind;\n".toList .nil))
        "    \x7d;\n".toList (.content "    int x;\n".toList .nil)))
    "\x7d;\n".toList .nil

theorem structInStruct_not_closes :
    ¬structInStruct.Closes {} {} ∧ structInClass.Closes {} {} := by
  have start : ∀ kind, ({} : State).mode.body? kind = none := fun kind => by cases kind <;> rfl
  have settled : ({} : State).Settled := ⟨rfl, rfl, rfl⟩
  have outer : structInStruct.Closes {} {} ↔ structInStruct.Ordered [] :=
    closes_iff_ordered {} structInStruct {} (by decide +kernel) (by decide +kernel) settled start
  have inner : structInClass.Closes {} {} ↔ structInClass.Ordered [] :=
    closes_iff_ordered {} structInClass {} (by decide +kernel) (by decide +kernel) settled start
  rw [outer, inner]
  decide

end Conversion
end HeaderFlattening
