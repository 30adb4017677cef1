import HeaderFlattening.Proofs.Lockstep
import HeaderFlattening.Proofs.Spans

/-!
What each stage leaves alone, and how it can fail. A stage that starts from tokens which are those of
the text ends with such tokens again, or it fails, and then because there are too many tokens or the
sink is full. What is known of the class at hand changes only in the stages that open or close a class
and in the one that looks for data members, and what is known of the function at hand only in the one
that follows functions.
-/

set_option autoImplicit false
namespace HeaderFlattening

/-- What is known of the class at hand, and the classes closed before. -/
structure ClassBooks where
  className : Option Text
  memberNames : NameList
  classes : List ClassRecord

/-- What is known of the function at hand, and the signatures read before. -/
structure FunctionBooks where
  function : FunctionState
  cursor : Cursor
  functions : List FunctionRecord

structure Books where
  ofClass : ClassBooks
  ofFunction : FunctionBooks

namespace State

def classBooks (s : State) : ClassBooks := ⟨s.mode.classState.name?, s.memberNames, s.classes⟩

def functionBooks (s : State) : FunctionBooks := ⟨s.mode.function, s.cursor, s.functions⟩

def books (s : State) : Books := ⟨s.classBooks, s.functionBooks⟩

variable (s : State)

theorem books_put (c : Chunk) : (s.put c).books = s.books := by
  unfold put
  split_ifs <;> rfl

theorem books_putAll (cs : List Chunk) : (s.putAll cs).books = s.books := by
  induction cs generalizing s with
  | nil => rfl
  | cons c cs ih => exact (ih (s.put c)).trans (s.books_put c)

theorem line_addValue (name : Text) : (s.addValue name).line = s.line := by
  unfold addValue
  split_ifs <;> rfl

theorem books_addValue (name : Text) : (s.addValue name).books = s.books := by
  unfold addValue
  split_ifs <;> rfl

theorem line_addMember (name : Text) : (s.addMember name).line = s.line := by
  unfold addMember
  split_ifs <;> rfl

theorem functionBooks_addMember (name : Text) :
    (s.addMember name).functionBooks = s.functionBooks := by
  unfold addMember
  split_ifs <;> rfl

end State

namespace Conversion

variable {α β γ δ : Type} {config : Config} {g : Books → γ} {s t : State}

/-- The ends that a step may come to from tokens which are those of the text. Of the books it keeps
what `g` reads. -/
inductive TameEnd (g : Books → γ) (config : Config) (s : State) :
    EStateM.Result ConvertError State α → Prop
  | ok {a : α} {t : State} (line : t.line = .cut t.line.text) (number : t.lineNumber = s.lineNumber)
      (books : g t.books = g s.books) : TameEnd g config s (.ok a t)
  | error {e : ConvertError} {t : State} (line : t.line.Current)
      (number : t.lineNumber = s.lineNumber) (books : g t.books = g s.books)
      (known : e = .stream .full ∨ e = .tooManyTokens s.lineNumber config.rules.maxTokens) :
      TameEnd g config s (.error e t)

theorem TameEnd.books_eq {r : EStateM.Result ConvertError State α} (h : TameEnd g config s r) :
    g (endOf r).books = g s.books := by
  cases h with
  | ok _ _ books => exact books
  | error _ _ books => exact books

theorem TameEnd.after {r : EStateM.Result ConvertError State α} (h : TameEnd g config t r)
    (number : t.lineNumber = s.lineNumber) (books : g t.books = g s.books) :
    TameEnd g config s r := by
  cases h with
  | ok line same kept => exact .ok line (same.trans number) (kept.trans books)
  | error line same kept known =>
    refine .error line (same.trans number) (kept.trans books) ?_
    rw [← number]
    exact known

def Tame (g : Books → γ) (config : Config) (x : Conversion α) (s : State) : Prop :=
  s.line = .cut s.line.text → TameEnd g config s (x.run s)

theorem TameEnd.map {r : EStateM.Result ConvertError State α} (h : TameEnd g config s r)
    (f : γ → δ) : TameEnd (fun b => f (g b)) config s r := by
  cases h with
  | ok line number books => exact .ok line number (congrArg f books)
  | error line number books known => exact .error line number (congrArg f books) known

theorem Tame.map {x : Conversion α} (h : Tame g config x s) (f : γ → δ) :
    Tame (fun b => f (g b)) config x s := fun found => (h found).map f

theorem TameEnd.bind {x : Conversion α} {f : α → Conversion β} (h : TameEnd g config s (x.run s))
    (k : ∀ a t, Tame g config (f a) t) : TameEnd g config s ((x >>= f).run s) := by
  rw [EStateM.run_bind]
  cases run : x.run s with
  | ok a t =>
    rw [run] at h
    cases h with
    | ok line number books => exact (k a t line).after number books
  | error e t =>
    rw [run] at h
    cases h with
    | error line number books known => exact .error line number books known

theorem Tame.bind {x : Conversion α} {f : α → Conversion β} (h : Tame g config x s)
    (k : ∀ a t, Tame g config (f a) t) : Tame g config (x >>= f) s :=
  fun found => (h found).bind k

/-- What comes behind a step does not change what `g` reads. -/
theorem Tame.books_bind {x : Conversion α} {f : α → Conversion β} (h : Tame (fun _ => ()) config x s)
    (found : s.line = .cut s.line.text) (k : ∀ a t, Tame g config (f a) t) :
    g (endOf ((x >>= f).run s)).books = g (endOf (x.run s)).books := by
  have first := h found
  rw [EStateM.run_bind]
  cases run : x.run s with
  | ok a t =>
    rw [run] at first
    cases first with
    | ok line => exact (k a t line).books_eq
  | error e t => rfl

theorem tame_get {f : State → Conversion α} (h : Tame g config (f s) s) :
    Tame g config (get >>= f) s := h

theorem tame_of_leaves {x : Conversion α} {a : α} (h : Leaves x s a t) (line : t.line = s.line)
    (number : t.lineNumber = s.lineNumber) (books : g t.books = g s.books) :
    Tame g config x s := by
  intro found
  rw [← line] at found
  rcases h with run | ⟨run, -⟩
  · rw [run]
    exact .ok found number books
  · rw [run]
    exact .error (.inr found) number books (.inl rfl)

theorem tame_of_run {x : Conversion α} {a : α} (h : x.run s = .ok a t) (line : t.line = s.line)
    (number : t.lineNumber = s.lineNumber) (books : g t.books = g s.books) :
    Tame g config x s := tame_of_leaves (.of_run h) line number books

theorem tame_pure (a : α) (s : State) : Tame g config (pure a) s := tame_of_run rfl rfl rfl rfl

theorem tame_claim {b : Bool} {x : Conversion Unit} (h : Tame g config x s) :
    Tame g config (x >>= fun _ => pure b) s := h.bind fun _ t => tame_pure b t

/-- Comments, enums, structs and `extern "C"` are not in the books. -/
theorem tame_mode {f : Mode → Mode} (classState : ∀ m, (f m).classState = m.classState)
    (function : ∀ m, (f m).function = m.function) : Tame g config (modifyMode f) s := by
  refine tame_of_run rfl rfl rfl (congrArg g ?_)
  unfold State.books State.classBooks State.functionBooks
  rw [classState, function]

theorem tame_mode_if {c : Prop} [Decidable c] {f : Unit → Conversion α} {m : Mode → Mode}
    (classState : ∀ n, (m n).classState = n.classState)
    (function : ∀ n, (m n).function = n.function) (k : ∀ s, Tame g config (f ()) s) :
    Tame g config (if c then modifyMode m >>= f else f ()) s := by
  split_ifs
  · exact (tame_mode classState function).bind fun _ => k
  · exact k s

theorem tame_note (e : Event) (s : State) : Tame g config (note e) s := tame_of_run rfl rfl rfl rfl

theorem tame_remark (d : Diagnostic) (s : State) : Tame g config (remark d) s :=
  tame_of_run rfl rfl rfl rfl

theorem tame_emit (o : Origin) (x : Text) (s : State) : Tame g config (emit o x) s :=
  tame_of_leaves (leaves_emit o x s) (s.line_put _) (s.grows_put _).lineNumber
    (congrArg g (s.books_put _))

theorem tame_emitLine (s : State) : Tame g config emitLine s := tame_emit .copied s.line.text s

theorem tame_write (c : Chunk) (s : State) : Tame g config (write c) s :=
  tame_of_leaves (leaves_write c s) rfl rfl rfl

theorem tame_emitDirect (o : Origin) (x : Text) (s : State) :
    Tame g config (emitDirect o x) s :=
  Tame.bind (tame_of_run rfl rfl rfl rfl) fun _ t => tame_write ⟨o, x⟩ t

theorem tame_writeAll (cs : List Chunk) (s : State) : Tame g config (writeAll cs) s := by
  induction cs generalizing s with
  | nil => exact tame_pure () s
  | cons c cs ih => exact (tame_write c s).bind fun _ t => ih t

theorem tame_flushPending (s : State) : Tame g config flushPending s :=
  tame_get (Tame.bind (tame_of_run rfl rfl rfl rfl) fun _ t => tame_writeAll _ t)

theorem tame_takeEnumComments (s : State) : Tame g config takeEnumComments s :=
  tame_of_run rfl rfl rfl rfl

theorem tame_addEnumValue (name : Text) (s : State) : Tame g config (addEnumValue name) s :=
  tame_of_run (run_addEnumValue name s) (s.line_addValue name) (s.grows_addValue name).lineNumber
    (congrArg g (s.books_addValue name))

theorem tame_addEnumValues (names : List Text) (s : State) :
    Tame g config (names.forM addEnumValue) s := by
  induction names generalizing s with
  | nil => exact tame_pure () s
  | cons name names ih => exact (tame_addEnumValue name s).bind fun _ t => ih t

/-- Tokens are looked for whatever they were before. -/
theorem ends_retokenize (g : Books → γ) (config : Config) (s : State) (h : s.line.Current) :
    TameEnd g config s ((retokenize config).run s) := by
  have cut := s.line.retokenize_eq config.rules.maxTokens
  split_ifs at cut
  · rw [run_retokenize_overflow cut]
    exact .error h rfl rfl (.inr rfl)
  · rw [run_retokenize cut]
    exact .ok rfl rfl rfl

theorem tame_replaceLine (text : Text) (s : State) : Tame g config (replaceLine config text) s :=
  fun _ => (ends_retokenize g config (s.withLine (.ofText text)) (Line.current_ofText text)).after
    rfl rfl

theorem tame_passComments (s : State) : Tame g config passComments s := by
  refine tame_get ?_
  by_cases slashes : "//".toList.isPrefixOf ((s.line.word? 0).getD []) = true
  · simp only [if_pos slashes]
    exact tame_claim (tame_emitLine s)
  · simp only [if_neg slashes]
    refine tame_mode_if (fun _ => rfl) (fun _ => rfl) fun s => tame_get ?_
    by_cases inside : s.mode.inComment = true
    · rw [if_pos inside]
      exact tame_mode_if (fun _ => rfl) (fun _ => rfl) fun s => tame_claim (tame_emitLine s)
    · rw [if_neg inside]
      exact tame_pure false s

theorem tame_editMacro (s : State) : Tame g config (editMacro config) s := by
  refine tame_get ?_
  split_ifs
  · split
    · rename_i edit _
      obtain ⟨r, replaced⟩ := replaceAll_unlimited s.line.text edit.search edit.replacement
      rw [replaced]
      cases r with
      | none => exact tame_pure false s
      | some text =>
        refine (tame_note _ s).bind fun _ t => (tame_replaceLine text t).bind fun _ u => ?_
        exact tame_claim (tame_remark _ u)
    · exact tame_pure false s
  · exact tame_pure false s

theorem tame_openExternC (s : State) : Tame g config openExternC s := by
  refine tame_get ?_
  split_ifs
  · exact tame_claim (tame_mode (fun _ => rfl) (fun _ => rfl))
  · exact tame_pure false s

theorem tame_emitOpener (keyword : Text) (d : TypeDeclaration) (s : State) :
    Tame g config (emitOpener keyword d) s := by
  refine (tame_emit _ _ s).bind fun _ t => ?_
  split_ifs
  · exact tame_emit _ _ t
  · exact tame_pure () t

theorem tame_openEnumBody (d : TypeDeclaration) (s : State) :
    Tame g config (openEnumBody d) s := by
  refine Tame.bind (tame_mode (fun _ => rfl) (fun _ => rfl)) fun _ t => tame_get ?_
  split_ifs
  · exact (tame_takeEnumComments t).bind fun _ => tame_emitOpener _ d
  · exact tame_emitOpener _ d t

theorem tame_emitEnumLine (name : Text) (e : EnumLine) (s : State) :
    Tame g config (emitEnumLine name e) s := by
  have body (text : Text) (s : State) : Tame g config (do
      modifyMode ({ · with enumBody := some ⟨name, true⟩ })
      emit .made text
      modifyMode ({ · with enumBody := none })) s := by
    refine Tame.bind (tame_mode (fun _ => rfl) (fun _ => rfl)) fun _ t => ?_
    exact (tame_emit _ _ t).bind fun _ u => tame_mode (fun _ => rfl) (fun _ => rfl)
  refine tame_get ((tame_addEnumValues _ s).bind fun _ t => tame_get ?_)
  split_ifs
  · exact (tame_takeEnumComments t).bind fun _ => body _
  · exact body _ t

theorem tame_openEnum (s : State) : Tame g config openEnum s := by
  refine tame_get ?_
  simp only []
  split
  · exact tame_pure false s
  · split
    · exact tame_claim (tame_emitLine s)
    · split
      · exact tame_claim (tame_emitEnumLine _ _ s)
      · exact tame_claim (tame_openEnumBody _ s)
    · exact tame_claim (tame_openEnumBody _ s)

theorem tame_openStruct (s : State) : Tame g config openStruct s := by
  refine tame_get ?_
  split
  · exact tame_pure false s
  · split_ifs
    · exact tame_claim (tame_emitLine s)
    · refine (tame_emitOpener _ _ s).bind fun _ t => ?_
      exact tame_claim (tame_mode (fun _ => rfl) (fun _ => rfl))

theorem tame_openClass (s : State) : Tame Books.ofFunction config openClass s := by
  have enter (c : ClassState) (t : State) :
      Tame Books.ofFunction config (enterClass c >>= fun _ => pure true) t :=
    tame_claim (tame_of_run (t := t.enterClass c) rfl rfl rfl rfl)
  refine tame_get ?_
  split
  · exact tame_pure false s
  · split
    · exact tame_claim (tame_emit _ _ s)
    · exact (tame_emit _ _ s).bind fun _ => enter _
    · exact (tame_emit _ _ s).bind fun _ => enter _

theorem tame_openFlatType (s : State) : Tame g config openFlatType s := by
  have copied (s : State) : Tame g config (emitLine >>= fun _ => pure true) s :=
    tame_claim (tame_emitLine s)
  refine tame_get ?_
  simp only []
  split_ifs
  · exact tame_pure false s
  · refine Tame.bind (tame_mode (fun _ => rfl) (fun _ => rfl)) fun _ t => tame_get ?_
    split_ifs
    · exact (tame_takeEnumComments t).bind fun _ => copied
    · exact copied t
  · exact Tame.bind (tame_mode (fun _ => rfl) (fun _ => rfl)) fun _ => copied
  · exact tame_pure false s

theorem tame_emitCloser (body : TypeBody) (s : State) : Tame g config (emitCloser body) s := by
  unfold emitCloser
  split_ifs
  · exact tame_emitLine s
  · exact tame_emit _ _ s

theorem tame_closeClass (name : Text) (s : State) :
    Tame Books.ofFunction config (closeClass name) s := by
  refine Tame.bind (tame_of_run rfl rfl rfl rfl) fun _ t => ?_
  refine (tame_emitDirect _ _ t).bind fun _ t => (tame_flushPending t).bind fun _ t => tame_get ?_
  exact (tame_note _ t).bind fun _ t => tame_of_run rfl rfl rfl rfl

theorem tame_closeType (s : State) : Tame Books.ofFunction config closeType s := by
  refine tame_get ?_
  split_ifs
  · exact tame_pure false s
  split
  · refine (tame_emitCloser _ s).bind fun _ t => ?_
    exact tame_claim (tame_mode (fun _ => rfl) (fun _ => rfl))
  split
  · refine Tame.bind (tame_mode (fun _ => rfl) (fun _ => rfl)) fun _ t => ?_
    exact tame_claim (tame_emitCloser _ t)
  split
  · exact tame_claim (tame_closeClass _ s)
  · exact tame_pure false s

theorem tame_closeExternC (s : State) : Tame g config closeExternC s := by
  refine tame_get ?_
  split_ifs
  · exact tame_claim (tame_mode (fun _ => rfl) (fun _ => rfl))
  · exact tame_pure false s

theorem tame_firstClaim {stages : List (Conversion Bool)}
    (h : ∀ stage ∈ stages, ∀ s, Tame g config stage s) (s : State) :
    Tame g config (firstClaim stages) s := by
  induction stages generalizing s with
  | nil => exact tame_pure false s
  | cons stage stages ih =>
    refine (h stage List.mem_cons_self s).bind fun claimed t => ?_
    split_ifs
    · exact tame_pure true t
    · exact ih (fun stage mem => h stage (List.mem_cons_of_mem _ mem)) t

theorem firstClaim_append (xs ys : List (Conversion Bool)) :
    firstClaim (xs ++ ys) =
      (firstClaim xs >>= fun claimed => if claimed then pure true else firstClaim ys) := by
  induction xs with
  | nil => rfl
  | cons x xs ih =>
    rw [List.cons_append, firstClaim, firstClaim, bind_assoc]
    congr 1
    funext claimed
    cases claimed with
    | true => rfl
    | false => exact ih

theorem tame_trackTypes (s : State) : Tame Books.ofFunction config trackTypes s := by
  refine tame_firstClaim (fun stage mem => ?_) s
  simp only [List.mem_cons, List.not_mem_nil, or_false] at mem
  rcases mem with rfl | rfl | rfl | rfl | rfl | rfl | rfl
  · exact tame_openExternC
  · exact tame_openEnum
  · exact tame_openStruct
  · exact tame_openClass
  · exact tame_openFlatType
  · exact tame_closeType
  · exact tame_closeExternC

theorem tame_emitSuppressed (s : State) : Tame g config (emitSuppressed config) s := by
  refine tame_get ?_
  split
  · exact tame_emit _ _ s
  · exact tame_emit _ _ s
  · exact tame_pure () s

theorem tame_followFunction (s : State) : Tame Books.ofClass config followFunction s := by
  cases function : s.mode.function with
  | body depth => exact tame_of_run (run_followFunction_body function) rfl rfl rfl
  | outside | signature =>
    exact tame_of_run (run_followFunction_scan (by rw [function]; simp)) rfl rfl rfl

theorem tame_trackFunctions (s : State) :
    Tame Books.ofClass config (trackFunctions config) s := by
  refine tame_get ?_
  split_ifs
  · exact tame_pure false s
  · refine (tame_followFunction s).bind fun claimed t => ?_
    split_ifs
    · exact tame_claim (tame_emitSuppressed t)
    · exact tame_pure false t

theorem tame_defineConstants (s : State) : Tame g config defineConstants s := by
  refine tame_get ?_
  split
  · exact tame_claim (tame_emit _ _ s)
  · exact tame_pure false s

theorem tame_recordFirstWord (s : State) : Tame g config recordFirstWord s := by
  refine tame_get ?_
  split
  · exact tame_claim (tame_addEnumValue _ s)
  · exact tame_pure false s

/-- The span of the first token lies in the text, since the tokens are those of the text. -/
theorem tame_recordEnumValue (s : State) : Tame g config (recordEnumValue config) s := by
  intro found
  refine tame_get ?_ found
  split_ifs
  · exact tame_pure false s
  split
  · exact tame_pure false s
  · rename_i first _
    split
    · rename_i className _
      rcases (Line.Current.sound (.inr found)) 0 with ⟨-, none⟩ | ⟨w, span, -, place, covers⟩
      · rw [none]
        exact tame_recordFirstWord s
      · obtain ⟨before, after, -, spliced⟩ := covers.exists_splice
        rw [place]
        simp only [spliced]
        exact (tame_replaceLine _ s).bind fun _ => tame_recordFirstWord
    · exact tame_recordFirstWord s

theorem tame_convertMethods (s : State) : Tame g config (convertMethods config) s := by
  refine tame_get ?_
  split_ifs
  · exact tame_pure false s
  split
  · exact tame_claim (tame_emit _ _ s)
  · exact tame_pure false s

theorem tame_liftMember (s : State) : Tame Books.ofFunction config liftMember s := by
  cases declared : s.line.text.declaredName? with
  | none => exact tame_of_run (run_liftMember_none declared) rfl rfl rfl
  | some name =>
    intro found
    rw [run_liftMember declared]
    have lifted : Tame Books.ofFunction config
        (emitDirect .member (s.indent ++ s.line.text) >>= fun _ => pure true) (s.addMember name) :=
      tame_claim (tame_emitDirect _ _ _)
    exact (lifted (by rw [s.line_addMember, ← found])).after (s.grows_addMember name).lineNumber
      (s.functionBooks_addMember name)

theorem tame_liftMembers (s : State) : Tame Books.ofFunction config liftMembers s := by
  refine tame_get ?_
  by_cases idle : (!s.mode.classState.isActive || s.line.isEmpty) = true
  · rw [if_pos idle]
    exact tame_pure false s
  rw [if_neg idle]
  split
  · refine Tame.bind (tame_of_run rfl rfl rfl rfl) fun _ t => ?_
    exact tame_claim (tame_emitDirect _ _ t)
  · split_ifs
    · exact tame_pure true s
    · exact tame_liftMember s

/-- Nothing of the books is asked for. -/
theorem tame_stage {stage : Conversion Bool} (mem : stage ∈ stages config) (s : State) :
    Tame (fun _ => ()) config stage s := by
  simp only [stages, List.mem_cons, List.not_mem_nil, or_false] at mem
  rcases mem with rfl | rfl | rfl | rfl | rfl | rfl | rfl | rfl
  · exact tame_passComments s
  · exact tame_editMacro s
  · exact (tame_trackTypes s).map fun _ => ()
  · exact (tame_trackFunctions s).map fun _ => ()
  · exact tame_defineConstants s
  · exact tame_recordEnumValue s
  · exact tame_convertMethods s
  · exact (tame_liftMembers s).map fun _ => ()

/-- A line that is copied in place of a failure has nothing to do with the books. -/
theorem books_recover (config : Config) (raw : Text) (e : ConvertError) (s : State) :
    (endOf ((recover config raw e).run s)).books = s.books := by
  cases e with
  | tooManyTokens line limit =>
    unfold recover
    cases config.rules.overflow with
    | abort => rfl
    | skip =>
      simp only [run_skipLine]
      rw [← stateAfter_eq_endOf, (leaves_emitLine _).stateAfter_eq, State.books_put]
      rfl
  | _ => rfl

/-- The books behind a line are those behind the stages. -/
theorem books_processLine (config : Config) (raw : Text) (s : State) :
    (endOf ((processLine config raw).run s)).books =
      (endOf ((retokenize config >>= fun _ => classify config).run (s.begin config raw))).books := by
  rw [run_processLine, run_tryCatch]
  cases (retokenize config >>= fun _ => classify config).run (s.begin config raw) with
  | ok _ t => rfl
  | error e t => exact books_recover config raw e t

end Conversion
end HeaderFlattening
