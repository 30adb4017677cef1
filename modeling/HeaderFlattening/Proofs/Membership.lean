import HeaderFlattening.Proofs.Faults
import Mathlib.Data.List.Induction

/-!
Where the records of classes come from. A line opens a class, declares a member of the class at hand,
closes the class, or has nothing to do with classes. So each record belongs to a line that opens a class
of its name and a later one that closes it, with no line between them that opens or closes a class, and
each of its members is declared by one of the lines between.
-/

set_option autoImplicit false
namespace HeaderFlattening.Conversion

variable {config : Config} {raw : Text} {s t : State}

/-- What a line can do to the class at hand. -/
inductive ClassEffect where
  | idle
  | opened (name : Text)
  /-- A data member with this name. -/
  | declared (name : Text)
  | closed
  /-- The class is closed, but its text could not be written, and it is not recorded. -/
  | dropped

/-- The class at hand stays open. -/
def ClassEffect.Stays : ClassEffect → Prop
  | .idle | .declared _ => True
  | _ => False

/-- What the line does to the class at hand, and why. -/
inductive Affects (config : Config) (raw : Text) (s : State) : ClassEffect → Prop
  | idle (books : (stateAfter (processLine config raw) s).classBooks = s.classBooks) :
      Affects config raw s .idle
  | opened {u : State} {d : TypeDeclaration} (enters : Enters config raw s trackTypes u)
      (declares : TypeDeclaration.ofWords? "class".toList u.line.words = some d)
      (body : d.brace ≠ .forward)
      (books : (stateAfter (processLine config raw) s).classBooks = ⟨some d.name, {}, s.classes⟩) :
      Affects config raw s (.opened d.name)
  | declared {u : State} {name : Text} (enters : Enters config raw s liftMembers u)
      (declares : u.line.text.declaredName? = some name)
      (inside : s.mode.classState.name?.isSome = true)
      (books : (stateAfter (processLine config raw) s).classBooks =
        { s.classBooks with memberNames := s.memberNames.insert name }) :
      Affects config raw s (.declared name)
  | closed {u : State} {name : Text} (enters : Enters config raw s trackTypes u)
      (closer : u.line.isTypeCloser = true) (inside : s.mode.classState.name? = some name)
      (books : (stateAfter (processLine config raw) s).classBooks =
        ⟨none, {}, s.classes ++ [⟨name, s.memberNames.toList⟩]⟩) : Affects config raw s .closed
  | dropped {u : State} {name : Text} (enters : Enters config raw s trackTypes u)
      (closer : u.line.isTypeCloser = true) (inside : s.mode.classState.name? = some name)
      (books : (stateAfter (processLine config raw) s).classBooks = ⟨none, s.memberNames, s.classes⟩) :
      Affects config raw s .dropped

theorem classBooks_closeClass (config : Config) (name : Text) (found : s.line = .cut s.line.text) :
    (endOf ((closeClass name).run s)).classBooks =
        ⟨none, {}, s.classes ++ [⟨name, s.memberNames.toList⟩]⟩ ∨
      (endOf ((closeClass name).run s)).classBooks = ⟨none, s.memberNames, s.classes⟩ := by
  let left := s.withMode ({ · with classState := .none })
  have writes : Tame Books.ofClass config (do
      emitDirect .made ("\x7d ".toList ++ name ++ ";\n".toList)
      flushPending) left :=
    (tame_emitDirect _ _ _).bind fun _ => tame_flushPending
  have parts : (closeClass name).run s = ((do
      emitDirect .made ("\x7d ".toList ++ name ++ ";\n".toList)
      flushPending) >>= fun _ => (do
        let s ← get
        note (.classClosed name s.memberNames)
        modify fun s =>
          { s with
            classes := s.classes ++ [⟨name, s.memberNames.toList⟩]
            memberNames := {} } : Conversion Unit)).run left := by
    rw [bind_assoc]
    rfl
  have ended := writes found
  rw [parts, EStateM.run_bind]
  cases run : (do
      emitDirect .made ("\x7d ".toList ++ name ++ ";\n".toList)
      flushPending : Conversion Unit).run left with
  | error e t =>
    rw [run] at ended
    exact .inr ended.books_eq
  | ok _ t =>
    rw [run] at ended
    have same : t.classBooks = ⟨none, s.memberNames, s.classes⟩ := ended.books_eq
    unfold State.classBooks at same
    obtain ⟨none, members, classes⟩ := by simpa only [ClassBooks.mk.injEq] using same
    refine .inl ?_
    show (⟨t.mode.classState.name?, {}, t.classes ++ [⟨name, t.memberNames.toList⟩]⟩ : ClassBooks) = _
    rw [none, members, classes]

/-- What the stage for types can do to the class at hand. -/
inductive TypeEffect (s : State) : ClassBooks → Prop
  | idle : TypeEffect s s.classBooks
  | opened {d : TypeDeclaration}
      (declares : TypeDeclaration.ofWords? "class".toList s.line.words = some d)
      (body : d.brace ≠ .forward) : TypeEffect s ⟨some d.name, {}, s.classes⟩
  | closed {name : Text} (closer : s.line.isTypeCloser = true)
      (inside : s.mode.classState.name? = some name) :
      TypeEffect s ⟨none, {}, s.classes ++ [⟨name, s.memberNames.toList⟩]⟩
  | dropped {name : Text} (closer : s.line.isTypeCloser = true)
      (inside : s.mode.classState.name? = some name) : TypeEffect s ⟨none, s.memberNames, s.classes⟩

theorem TypeEffect.of_tame (config : Config) {x : Conversion Bool} (h : Tame Books.ofClass config x s)
    (found : s.line = .cut s.line.text) : TypeEffect s (endOf (x.run s)).classBooks := by
  rw [show (endOf (x.run s)).classBooks = s.classBooks from (h found).books_eq]
  exact .idle

theorem typeEffect_openClass (found : s.line = .cut s.line.text) :
    TypeEffect s (endOf (openClass.run s)).classBooks := by
  unfold openClass
  rw [EStateM.run_bind, EStateM.run_get]
  simp only []
  cases declares : TypeDeclaration.ofWords? "class".toList s.line.words with
  | none => exact .idle
  | some d =>
    have enter (x : Text) (c : ClassState) (named : c.name? = some d.name)
        (body : d.brace ≠ .forward) : TypeEffect s
          (endOf ((emit .made x >>= fun _ => enterClass c >>= fun _ => pure true).run s)).classBooks := by
      have same : (s.put ⟨.made, x⟩).classBooks = s.classBooks :=
        congrArg Books.ofClass (s.books_put _)
      have classes : (s.put ⟨.made, x⟩).classes = s.classes := congrArg ClassBooks.classes same
      rw [EStateM.run_bind]
      rcases leaves_emit .made x s with run | ⟨run, -⟩
      · rw [run]
        show TypeEffect s ⟨c.name?, {}, (s.put ⟨.made, x⟩).classes⟩
        rw [named, classes]
        exact .opened declares body
      · rw [run]
        show TypeEffect s (s.put ⟨.made, x⟩).classBooks
        rw [same]
        exact .idle
    cases brace : d.brace with
    | forward =>
      have quiet : Tame Books.ofClass {} (emit .made ("struct _".toList ++ d.name ++ ";\n".toList) >>=
          fun _ => pure true) s := tame_claim (tame_emit _ _ s)
      simpa only [brace] using TypeEffect.of_tame {} quiet found
    | sameLine => simpa only [brace] using enter _ (.opened d.name) rfl (by rw [brace]; simp)
    | deferred => simpa only [brace] using enter _ (.pending d.name) rfl (by rw [brace]; simp)

theorem typeEffect_closeType (config : Config) (found : s.line = .cut s.line.text) :
    TypeEffect s (endOf (closeType.run s)).classBooks := by
  unfold closeType
  rw [EStateM.run_bind, EStateM.run_get]
  simp only []
  cases closer : s.line.isTypeCloser with
  | false => exact .idle
  | true =>
    rw [if_neg (by simp)]
    cases s.mode.enumBody with
    | some body =>
      have quiet : Tame Books.ofClass config (emitCloser body >>= fun _ =>
          modifyMode ({ · with enumBody := none }) >>= fun _ => pure true) s :=
        (tame_emitCloser body s).bind fun _ t => tame_claim (tame_mode (fun _ => rfl) (fun _ => rfl))
      exact .of_tame config quiet found
    | none =>
      cases s.mode.structBody with
      | some body =>
        have quiet : Tame Books.ofClass config (modifyMode ({ · with structBody := none }) >>= fun _ =>
            emitCloser body >>= fun _ => pure true) s :=
          Tame.bind (tame_mode (fun _ => rfl) (fun _ => rfl)) fun _ t => tame_claim (tame_emitCloser body t)
        exact .of_tame config quiet found
      | none =>
        cases inside : s.mode.classState.name? with
        | none => exact .idle
        | some name =>
          have ends : (endOf ((closeClass name >>= fun _ => pure true).run s)).classBooks =
              (endOf ((closeClass name).run s)).classBooks := by
            rw [EStateM.run_bind]
            cases (closeClass name).run s <;> rfl
          show TypeEffect s (endOf ((closeClass name >>= fun _ => pure true).run s)).classBooks
          rw [ends]
          rcases classBooks_closeClass config name found with recorded | lost
          · rw [recorded]
            exact .closed closer inside
          · rw [lost]
            exact .dropped closer inside

/-- Of stages in a row the first that does not leave the line as it was decides. -/
theorem typeEffect_firstClaim {stages : List (Conversion Bool)}
    (h : ∀ stage ∈ stages, PassesOn stage s ∧ TypeEffect s (endOf (stage.run s)).classBooks) :
    TypeEffect s (endOf ((firstClaim stages).run s)).classBooks ∧
      ∀ t, (firstClaim stages).run s = .ok false t → t = s := by
  induction stages with
  | nil =>
    refine ⟨.idle, fun t run => ?_⟩
    cases run
    rfl
  | cons stage stages ih =>
    obtain ⟨passes, effect⟩ := h stage List.mem_cons_self
    rw [firstClaim, EStateM.run_bind]
    cases run : stage.run s with
    | error e t =>
      rw [run] at effect
      exact ⟨effect, fun _ failed => by cases failed⟩
    | ok claimed t =>
      cases claimed with
      | true =>
        rw [run] at effect
        exact ⟨effect, fun _ failed => by cases failed⟩
      | false =>
        rw [passes t run]
        exact ih fun stage mem => h stage (List.mem_cons_of_mem _ mem)

theorem typeEffect_trackTypes (config : Config) (found : s.line = .cut s.line.text) :
    TypeEffect s (endOf (trackTypes.run s)).classBooks ∧
      ∀ t, trackTypes.run s = .ok false t → t = s := by
  refine typeEffect_firstClaim fun stage mem => ?_
  simp only [List.mem_cons, List.not_mem_nil, or_false] at mem
  rcases mem with rfl | rfl | rfl | rfl | rfl | rfl | rfl
  · exact ⟨passesOn_openExternC s, .of_tame config (tame_openExternC s) found⟩
  · exact ⟨passesOn_openEnum s, .of_tame config (tame_openEnum s) found⟩
  · exact ⟨passesOn_openStruct s, .of_tame config (tame_openStruct s) found⟩
  · exact ⟨passesOn_openClass s, typeEffect_openClass found⟩
  · exact ⟨passesOn_openFlatType s, .of_tame config (tame_openFlatType s) found⟩
  · exact ⟨passesOn_closeType s, typeEffect_closeType config found⟩
  · exact ⟨passesOn_closeExternC s, .of_tame config (tame_closeExternC s) found⟩

/-- The stage for data members declares one, or it leaves the class as it was. -/
theorem classBooks_liftMembers (config : Config) (found : s.line = .cut s.line.text) :
    (endOf (liftMembers.run s)).classBooks = s.classBooks ∨
      ∃ name, s.line.text.declaredName? = some name ∧ s.mode.classState.name?.isSome = true ∧
        (endOf (liftMembers.run s)).classBooks =
          { s.classBooks with memberNames := s.memberNames.insert name } := by
  unfold liftMembers
  rw [EStateM.run_bind, EStateM.run_get]
  simp only []
  by_cases idle : (!s.mode.classState.isActive || s.line.isEmpty) = true
  · rw [if_pos idle]
    exact .inl rfl
  rw [if_neg idle]
  have written (o : Origin) (x : Text) {t : State} (line : t.line = s.line) :
      (endOf ((emitDirect o x >>= fun _ => pure true).run t)).classBooks = t.classBooks := by
    have quiet : Tame Books.ofClass config (emitDirect o x >>= fun _ => pure true) t :=
      tame_claim (tame_emitDirect o x t)
    exact (quiet (by rw [line, ← found])).books_eq
  split
  · rename_i name awaited
    have pending := pending_of_awaited awaited
    refine .inl ((written .copied s.line.text (t := s.openBrace name) rfl).trans ?_)
    show (⟨some name, s.memberNames, s.classes⟩ : ClassBooks) = s.classBooks
    unfold State.classBooks
    rw [pending]
    rfl
  · split_ifs
    · exact .inl rfl
    · cases declares : s.line.text.declaredName? with
      | none =>
        rw [run_liftMember_none declares]
        exact .inl rfl
      | some name =>
        have active : s.mode.classState.name?.isSome = true := by
          cases h : s.mode.classState with
          | none => exact absurd (by rw [h]; rfl) idle
          | pending name | opened name => rfl
        refine .inr ⟨name, rfl, active, ?_⟩
        rw [run_liftMember declares, written _ _ (s.line_addMember name)]
        unfold State.addMember State.classBooks NameList.insert
        split_ifs <;> rfl

/-- The stages between the one for types and the one for data members. -/
def betweenTypesAndMembers (config : Config) : List (Conversion Bool) :=
  [trackFunctions config, defineConstants, recordEnumValue config, convertMethods config]

theorem tame_betweenTypesAndMembers (config : Config) (s : State) :
    Tame Books.ofClass config (firstClaim (betweenTypesAndMembers config)) s := by
  refine tame_firstClaim (fun stage mem => ?_) s
  simp only [betweenTypesAndMembers, List.mem_cons, List.not_mem_nil, or_false] at mem
  rcases mem with rfl | rfl | rfl | rfl
  · exact tame_trackFunctions
  · exact tame_defineConstants
  · exact tame_recordEnumValue
  · exact tame_convertMethods

/-- What is left to do with the line once the stages have been asked. -/
def copyUnclaimed (claimed : Bool) : Conversion Unit := if claimed then pure () else emitLine

theorem tame_copyUnclaimed (claimed : Bool) (s : State) :
    Tame Books.ofClass config (copyUnclaimed claimed) s := by
  unfold copyUnclaimed
  split_ifs
  · exact tame_pure () s
  · exact tame_emitLine s

/-- Behind the stage for types a line can only declare a member. -/
theorem classBooks_behindTypes (config : Config) (found : s.line = .cut s.line.text) :
    (endOf ((firstClaim (betweenTypesAndMembers config ++ [liftMembers]) >>= copyUnclaimed).run
        s)).classBooks = s.classBooks ∨
      ∃ t name, (firstClaim (betweenTypesAndMembers config)).run s = .ok false t ∧
        t.line.text.declaredName? = some name ∧ s.mode.classState.name?.isSome = true ∧
        (endOf ((firstClaim (betweenTypesAndMembers config ++ [liftMembers]) >>= copyUnclaimed).run
          s)).classBooks = { s.classBooks with memberNames := s.memberNames.insert name } := by
  have first := tame_betweenTypesAndMembers config s found
  rw [firstClaim_append, bind_assoc, EStateM.run_bind]
  cases run : (firstClaim (betweenTypesAndMembers config)).run s with
  | error e t =>
    rw [run] at first
    exact .inl first.books_eq
  | ok claimed t =>
    rw [run] at first
    have same : t.classBooks = s.classBooks := first.books_eq
    cases claimed with
    | true => exact .inl same
    | false =>
      cases first with
      | ok line =>
        have quiet : Tame (fun _ => ()) config liftMembers t := (tame_liftMembers t).map fun _ => ()
        have behind (claimed : Bool) (u : State) : Tame Books.ofClass config
            ((if claimed = true then pure true else firstClaim []) >>= copyUnclaimed) u := by
          refine Tame.bind ?_ tame_copyUnclaimed
          split_ifs
          · exact tame_pure true u
          · exact tame_pure false u
        have ends := quiet.books_bind line behind
        rw [← bind_assoc] at ends
        change (endOf ((firstClaim [liftMembers] >>= copyUnclaimed).run t)).classBooks =
          (endOf (liftMembers.run t)).classBooks at ends
        have members : t.memberNames = s.memberNames := congrArg ClassBooks.memberNames same
        have named : t.mode.classState.name? = s.mode.classState.name? :=
          congrArg ClassBooks.className same
        rcases classBooks_liftMembers config line with idle | ⟨name, declares, inside, lifted⟩
        · exact .inl ((ends.trans idle).trans same)
        · rw [same, members] at lifted
          exact .inr ⟨t, name, rfl, declares, named ▸ inside, ends.trans lifted⟩

theorem tame_beforeTypes (config : Config) (s : State) :
    Tame Books.ofClass config (firstClaim [passComments, editMacro config]) s := by
  refine tame_firstClaim (fun stage mem => ?_) s
  simp only [List.mem_cons, List.not_mem_nil, or_false] at mem
  rcases mem with rfl | rfl
  · exact tame_passComments
  · exact tame_editMacro

/-- The line gets to the stage for types, or it has nothing to do with classes. -/
theorem enters_types_or_idle (config : Config) (raw : Text) (s : State) :
    (stateAfter (processLine config raw) s).classBooks = s.classBooks ∨
      ∃ u t, (beginLine config raw >>= fun _ => retokenize config).run s = .ok () u ∧
        u.line.isEmpty = false ∧ (firstClaim [passComments, editMacro config]).run u = .ok false t ∧
        t.classBooks = s.classBooks ∧ (stateAfter (processLine config raw) s).classBooks =
          (endOf ((firstClaim (trackTypes :: (betweenTypesAndMembers config ++ [liftMembers])) >>=
            copyUnclaimed).run t)).classBooks := by
  have behind := congrArg Books.ofClass (books_processLine config raw s)
  rw [← stateAfter_eq_endOf, EStateM.run_bind] at behind
  change (stateAfter (processLine config raw) s).classBooks = _ at behind
  have first := ends_retokenize Books.ofClass config (s.begin config raw) (Line.current_ofText _)
  cases run : (retokenize config).run (s.begin config raw) with
  | error e u =>
    rw [run] at first behind
    exact .inl (behind.trans first.books_eq)
  | ok _ u =>
    rw [run] at first behind
    have found := (run_beginLine_retokenize config raw s).trans run
    have same : u.classBooks = s.classBooks := first.books_eq
    have line := line_retokenized found
    cases empty : u.line.isEmpty with
    | true =>
      have copied : Tame Books.ofClass config emitLine u := tame_emitLine u
      simp only [run_classify_empty empty] at behind
      exact .inl (behind.trans ((copied line).books_eq.trans same))
    | false =>
      have parts : (classify config).run u = (firstClaim ([passComments, editMacro config] ++
          trackTypes :: (betweenTypesAndMembers config ++ [liftMembers])) >>= copyUnclaimed).run u :=
        run_classify_full empty
      have early := tame_beforeTypes config u line
      simp only [parts] at behind
      rw [firstClaim_append, bind_assoc, EStateM.run_bind] at behind
      cases run' : (firstClaim [passComments, editMacro config]).run u with
      | error e t =>
        rw [run'] at early behind
        exact .inl (behind.trans (early.books_eq.trans same))
      | ok claimed t =>
        rw [run'] at early behind
        have same' : t.classBooks = s.classBooks := early.books_eq.trans same
        cases claimed with
        | true => exact .inl (behind.trans same')
        | false => exact .inr ⟨u, t, found, empty, run', same', behind⟩

/-- Whatever line is read, it has one of these effects. -/
theorem exists_affects (config : Config) (raw : Text) (s : State) :
    ∃ e, Affects config raw s e := by
  rcases enters_types_or_idle config raw s with idle | ⟨u, t, cut, full, early, same, behind⟩
  · exact ⟨_, .idle idle⟩
  have enters : Enters config raw s trackTypes t := .intro rfl cut full early
  have named : t.mode.classState.name? = s.mode.classState.name? := congrArg ClassBooks.className same
  have members : t.memberNames = s.memberNames := congrArg ClassBooks.memberNames same
  have classes : t.classes = s.classes := congrArg ClassBooks.classes same
  obtain ⟨effect, passes⟩ := typeEffect_trackTypes config enters.line_eq
  rw [firstClaim, bind_assoc, EStateM.run_bind] at behind
  -- Unless the stage for types passes the line on, no later stage gets it.
  have decided (b : ClassBooks) (h : TypeEffect t b)
      (eq : (stateAfter (processLine config raw) s).classBooks = b) :
      ∃ e, Affects config raw s e := by
    cases h with
    | idle => exact ⟨_, .idle (eq.trans same)⟩
    | opened declares body =>
      rw [classes] at eq
      exact ⟨_, .opened enters declares body eq⟩
    | closed closer inside =>
      rw [classes, members] at eq
      exact ⟨_, .closed enters closer (named ▸ inside) eq⟩
    | dropped closer inside =>
      rw [classes, members] at eq
      exact ⟨_, .dropped enters closer (named ▸ inside) eq⟩
  cases run : trackTypes.run t with
  | error e v =>
    rw [run] at effect behind
    exact decided _ effect behind
  | ok claimed v =>
    cases claimed with
    | true =>
      rw [run] at effect behind
      exact decided _ effect behind
    | false =>
      obtain rfl := passes v run
      rw [run] at behind
      rcases classBooks_behindTypes config enters.line_eq with
        idle | ⟨w, name, reached, declares, inside, lifted⟩
      · exact ⟨_, .idle (behind.trans (idle.trans same))⟩
      · have before : (firstClaim ([passComments, editMacro config] ++ trackTypes ::
            betweenTypesAndMembers config)).run u = .ok false w := by
          rw [run_firstClaim_append _ _ early, run_firstClaim_unclaimed _ run]
          exact reached
        rw [same, members] at lifted
        exact ⟨_, .declared (.intro rfl cut full before) declares (named ▸ inside)
          (behind.trans lifted)⟩

/-- A line that opens a class, and lines behind it that neither close the class nor open another. -/
structure OpenClass (config : Config) (start : State) (front : List Text) (opener : Text)
    (body : List Text) (name : Text) : Prop where
  opened : Affects config opener (runLines config front start) (.opened name)
  inside : ∀ x raw y, body = x ++ raw :: y →
    ∃ e, Affects config raw (runLines config (front ++ opener :: x) start) e ∧ e.Stays

/-- One of the lines in the class declares the member. -/
def DeclaredIn (config : Config) (start : State) (front : List Text) (opener : Text)
    (body : List Text) (member : Text) : Prop :=
  ∃ x raw y, body = x ++ raw :: y ∧
    Affects config raw (runLines config (front ++ opener :: x) start) (.declared member)

/-- The record belongs to a class that one of the lines opens and a later one closes, with lines between
them that declare its members. -/
def FromLines (config : Config) (start : State) (ls : List Text) (r : ClassRecord) : Prop :=
  ∃ front opener body closer rest, ls = front ++ opener :: (body ++ closer :: rest) ∧
    OpenClass config start front opener body r.name ∧
    Affects config closer (runLines config (front ++ opener :: body) start) .closed ∧
    (runLines config (front ++ opener :: (body ++ [closer])) start).classes =
      (runLines config (front ++ opener :: body) start).classes ++ [r] ∧
    ∀ m ∈ r.members, DeclaredIn config start front opener body m

variable {start : State} {front body : List Text} {opener name member : Text}

theorem OpenClass.append (h : OpenClass config start front opener body name) {e : ClassEffect}
    (affects : Affects config raw (runLines config (front ++ opener :: body) start) e)
    (stays : e.Stays) : OpenClass config start front opener (body ++ [raw]) name := by
  refine ⟨h.opened, fun x raw' y split => ?_⟩
  rcases List.eq_nil_or_concat y with rfl | ⟨z, last, rfl⟩
  · obtain ⟨rfl, same⟩ := List.append_inj' split rfl
    cases same
    exact ⟨e, affects, stays⟩
  · rw [List.concat_eq_append, ← List.cons_append, ← List.append_assoc] at split
    obtain ⟨split, -⟩ := List.append_inj' split rfl
    exact h.inside x raw' z split

theorem DeclaredIn.append (h : DeclaredIn config start front opener body member) (raw : Text) :
    DeclaredIn config start front opener (body ++ [raw]) member := by
  obtain ⟨x, raw', y, rfl, affects⟩ := h
  exact ⟨x, raw', y ++ [raw], by simp, affects⟩

theorem FromLines.append {ls : List Text} {r : ClassRecord} (h : FromLines config start ls r)
    (raw : Text) : FromLines config start (ls ++ [raw]) r := by
  obtain ⟨front, opener, body, closer, rest, rfl, opened, closed, recorded, members⟩ := h
  exact ⟨front, opener, body, closer, rest ++ [raw], by simp, opened, closed, recorded, members⟩

/-- The records belong to classes of the lines read so far, and the members gathered for the class at
hand were declared since it was opened. -/
structure Belongs (config : Config) (start : State) (ls : List Text) : Prop where
  records : ∀ r ∈ (runLines config ls start).classes, FromLines config start ls r
  current : ∀ name, (runLines config ls start).mode.classState.name? = some name →
    ∃ front opener body, ls = front ++ opener :: body ∧
      OpenClass config start front opener body name ∧
      ∀ m ∈ (runLines config ls start).memberNames.toList,
        DeclaredIn config start front opener body m

theorem mem_insert {l : NameList} {m name : Text} (h : m ∈ (l.insert name).toList) :
    m ∈ l.toList ∨ m = name := by
  unfold NameList.insert at h
  split_ifs at h
  · exact .inl h
  · rcases List.mem_append.1 h with old | last
    · exact .inl old
    · exact .inr (List.mem_singleton.1 last)

theorem Belongs.of_books {ls : List Text} {b : ClassBooks}
    (books : (runLines config ls start).classBooks = b)
    (records : ∀ r ∈ b.classes, FromLines config start ls r)
    (current : ∀ name, b.className = some name → ∃ front opener body, ls = front ++ opener :: body ∧
      OpenClass config start front opener body name ∧
      ∀ m ∈ b.memberNames.toList, DeclaredIn config start front opener body m) :
    Belongs config start ls := by
  subst books
  exact ⟨records, current⟩

/-- A line that stays in the class at hand belongs to it, and what was declared before stays declared. -/
theorem Belongs.stay {ls : List Text} {e : ClassEffect} (h : Belongs config start ls)
    (affects : Affects config raw (runLines config ls start) e) (stays : e.Stays)
    (inside : (runLines config ls start).mode.classState.name? = some name) :
    ∃ front opener body, ls = front ++ opener :: body ∧
      OpenClass config start front opener (body ++ [raw]) name ∧
      ∀ m ∈ (runLines config ls start).memberNames.toList,
        DeclaredIn config start front opener (body ++ [raw]) m := by
  obtain ⟨front, opener, body, rfl, opened, declared⟩ := h.current name inside
  exact ⟨front, opener, body, rfl, opened.append affects stays, fun m mem => (declared m mem).append raw⟩

/-- One more line. -/
theorem Belongs.append {ls : List Text} (h : Belongs config start ls) (raw : Text) :
    Belongs config start (ls ++ [raw]) := by
  have next : runLines config (ls ++ [raw]) start =
      stateAfter (processLine config raw) (runLines config ls start) := runLines_append config ls [raw] start
  have kept : ∀ r ∈ (runLines config ls start).classes, FromLines config start (ls ++ [raw]) r :=
    fun r mem => (h.records r mem).append raw
  obtain ⟨e, affects⟩ := exists_affects config raw (runLines config ls start)
  have effect := affects
  cases effect with
  | idle books =>
    refine .of_books ((congrArg _ next).trans books) kept fun name inside => ?_
    obtain ⟨front, opener, body, rfl, opened, declared⟩ := h.stay affects trivial inside
    exact ⟨front, opener, body ++ [raw], by simp, opened, declared⟩
  | @opened u d _ _ _ books =>
    refine .of_books ((congrArg _ next).trans books) kept fun name inside => ?_
    obtain rfl : d.name = name := Option.some.inj inside
    refine ⟨ls, raw, [], rfl, ⟨affects, fun x _ y split => ?_⟩, fun m mem => ?_⟩
    · exact absurd split (by simp)
    · exact absurd mem List.not_mem_nil
  | @declared u declared _ _ _ books =>
    refine .of_books ((congrArg _ next).trans books) kept fun name inside => ?_
    obtain ⟨front, opener, body, rfl, opened, earlier⟩ := h.stay affects trivial inside
    refine ⟨front, opener, body ++ [raw], by simp, opened, fun m mem => ?_⟩
    rcases mem_insert mem with old | rfl
    · exact earlier m old
    · exact ⟨body, raw, [], rfl, affects⟩
  | @closed u name _ _ inside books =>
    refine .of_books ((congrArg _ next).trans books) (fun r mem => ?_) fun name inside => by cases inside
    rcases List.mem_append.1 mem with old | last
    · exact kept r old
    · obtain rfl := List.mem_singleton.1 last
      obtain ⟨front, opener, body, rfl, opened, declared⟩ := h.current name inside
      refine ⟨front, opener, body, raw, [], by simp, opened, affects, ?_, declared⟩
      rw [← List.cons_append, ← List.append_assoc, next]
      exact congrArg ClassBooks.classes books
  | dropped _ _ _ books =>
    exact .of_books ((congrArg _ next).trans books) kept fun name inside => by cases inside

theorem belongs_runLines (config : Config) (room : Option Nat) (ls : List Text) :
    Belongs config { sink := { room } } ls := by
  induction ls using List.reverseRecOn with
  | nil => exact ⟨fun _ mem => absurd mem List.not_mem_nil, nofun⟩
  | append_singleton ls raw ih => exact ih.append raw

end HeaderFlattening.Conversion
