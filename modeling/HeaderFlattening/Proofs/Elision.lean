import HeaderFlattening.Proofs.Braces
import HeaderFlattening.Proofs.Functions

/-!
Functions over several lines. The lines of a function are suppressed until it ends, and its end is
found by counting braces. Braces on lines of the body are counted; those on the line of the signature
are not. Hence a body that starts on that line is counted one short, and a body that also ends there
is not seen to end unless a semicolon in it ends the function.
-/

set_option autoImplicit false
namespace HeaderFlattening

namespace Seen

/-- What a line of a function leaves in the output. -/
def written (config : Config) (level : Int) : Seen → List Chunk
  | .copied l => [⟨.copied, l.text⟩]
  | .reached _ l => config.rules.suppression.render level l.text

/-- The number of braces that the line opens, less those that it closes. Braces in comments do not
count. -/
def balance : Seen → Int
  | .copied _ => 0
  | .reached _ l => l.braceBalance

def hasBrace : Seen → Bool
  | .copied _ => false
  | .reached _ l => l.hasBrace

/-- The function state behind the line when it belongs to a body. -/
def after (depth : Int) : Seen → FunctionState
  | .copied _ => .body depth
  | .reached _ l => FunctionState.afterBodyLine depth l

theorem after_of_hasBrace {x : Seen} (h : x.hasBrace = true) (depth : Int) :
    x.after depth = if depth + x.balance ≤ 0 then .outside else .body (depth + x.balance) := by
  cases x with
  | copied l => exact absurd h Bool.false_ne_true
  | reached edit l => exact if_pos h

theorem after_of_not_hasBrace {x : Seen} (h : x.hasBrace = false) (depth : Int) :
    x.after depth = .body depth := by
  cases x with
  | copied l => rfl
  | reached edit l => exact if_neg (by rw [show l.hasBrace = false from h]; exact Bool.false_ne_true)

theorem balance_of_not_hasBrace {x : Seen} (h : x.hasBrace = false) : x.balance = 0 := by
  cases x with
  | copied l => rfl
  | reached edit l =>
    refine braceBalance_of_braceCount (not_not.1 fun some => ?_)
    exact Bool.false_ne_true (h.symm.trans (l.hasBrace_iff.2 some))

/-- A line that closes the last open brace holds a brace, and so does one that opens it. -/
theorem hasBrace_of_closed {x : Seen} {depth : Int} (h : depth + x.balance = 0)
    (start : 0 < depth ∨ x.hasBrace = true) : x.hasBrace = true := by
  cases brace : x.hasBrace with
  | true => rfl
  | false =>
    rw [balance_of_not_hasBrace brace] at h
    rcases start with pos | some
    · omega
    · exact brace.symm.trans some

end Seen

/-- The braces of the lines, with `depth` open before, stay open until the last line closes them. -/
def Encloses : Int → List Seen → Prop
  | _, [] => False
  | depth, [x] => depth + x.balance = 0
  | depth, x :: y :: rest => 0 < depth + x.balance ∧ Encloses (depth + x.balance) (y :: rest)

/-- Each line with braces but the last leaves at least this many open. -/
def Keeps (least : Int) : Int → List Seen → Prop
  | _, [] => True
  | _, [_] => True
  | depth, x :: y :: rest =>
    (x.hasBrace = true → least ≤ depth + x.balance) ∧ Keeps least (depth + x.balance) (y :: rest)

instance decidableEncloses : (depth : Int) → (lines : List Seen) → Decidable (Encloses depth lines)
  | _, [] => isFalse id
  | depth, [x] => inferInstanceAs (Decidable (depth + x.balance = 0))
  | depth, x :: y :: rest =>
    have := decidableEncloses (depth + x.balance) (y :: rest)
    inferInstanceAs (Decidable (0 < depth + x.balance ∧ Encloses (depth + x.balance) (y :: rest)))

instance decidableKeeps (least : Int) :
    (depth : Int) → (lines : List Seen) → Decidable (Keeps least depth lines)
  | _, [] => isTrue trivial
  | _, [_] => isTrue trivial
  | depth, x :: y :: rest =>
    have := decidableKeeps least (depth + x.balance) (y :: rest)
    inferInstanceAs (Decidable ((x.hasBrace = true → least ≤ depth + x.balance) ∧
      Keeps least (depth + x.balance) (y :: rest)))

theorem keeps_of_encloses {depth : Int} {lines : List Seen} (h : Encloses depth lines) :
    Keeps 1 depth lines := by
  induction lines generalizing depth with
  | nil => trivial
  | cons x rest ih =>
    cases rest with
    | nil => trivial
    | cons y rest => exact ⟨fun _ => h.1, ih h.2⟩

theorem Arrives.inFunction {config : Config} {m : Mode} {raw : Text} {x : Seen}
    (h : Arrives config m raw x) (function : FunctionState) :
    Arrives config { m with function } raw x := by
  cases h with
  | blank cut empty => exact .blank cut empty
  | comment cut slashes => exact .comment cut slashes
  | plain cut full outside slashes star noEdit loose =>
    exact .plain cut full outside slashes star noEdit
      ⟨loose.externC, loose.noEnum, loose.noStruct, loose.noClass, loose.notFlat, loose.closer,
        loose.brace⟩
  | edited cut full outside slashes star change recut loose =>
    exact .edited cut full outside slashes star change recut
      ⟨loose.externC, loose.noEnum, loose.noStruct, loose.noClass, loose.notFlat, loose.closer,
        loose.brace⟩

theorem State.Watching.inFunction {s t : State} (w : s.Watching) {function : FunctionState}
    (h : t.mode = { s.mode with function }) : t.Watching := by
  constructor
  · rw [h]
    exact w.enum
  · rw [h]
    exact w.struct

namespace Conversion

variable {config : Config} {raw : Text} {s t : State}

/-- All lines are suppressed, blank lines and comments apart; a function is open behind each of them
but the last, and none behind the last. -/
def Elided (config : Config) : State → List (Text × Seen) → Prop
  | _, [] => True
  | s, (raw, x) :: rest =>
    let t := stateAfter (processLine config raw) s
    t.emitted = s.emitted ++ x.written config t.mode.function.level ∧
    (t.mode.function = .outside ↔ rest = []) ∧
    Elided config t rest

theorem stateAfter_body {x : Seen} {depth : Int} (w : s.Watching) (h : s.mode.function = .body depth)
    (arrives : Arrives config s.mode raw x) :
    (stateAfter (processLine config raw) s).mode = { s.mode with function := x.after depth } ∧
    (stateAfter (processLine config raw) s).emitted =
      s.emitted ++ x.written config (x.after depth).level := by
  cases x with
  | copied l =>
    rw [(leaves_copied arrives).stateAfter_eq, State.mode_put, State.emitted_put]
    refine ⟨?_, rfl⟩
    show s.mode = _
    rw [Seen.after, ← h]
  | reached edit l =>
    rw [(leaves_body w h arrives).stateAfter_eq, State.mode_putAll, State.emitted_putAll]
    exact ⟨rfl, rfl⟩

theorem elided_cons_outside {x : Seen} {rest : List (Text × Seen)}
    (written : (stateAfter (processLine config raw) s).emitted = s.emitted ++ x.written config
      (stateAfter (processLine config raw) s).mode.function.level)
    (h : (stateAfter (processLine config raw) s).mode.function = .outside) :
    Elided config s ((raw, x) :: rest) ↔ rest = [] := by
  refine ⟨fun elided => elided.2.1.1 h, fun last => ?_⟩
  subst last
  exact ⟨written, iff_of_true h rfl, trivial⟩

theorem elided_cons_inside {x : Seen} {p : Text × Seen} {rest : List (Text × Seen)}
    (written : (stateAfter (processLine config raw) s).emitted = s.emitted ++ x.written config
      (stateAfter (processLine config raw) s).mode.function.level)
    (h : (stateAfter (processLine config raw) s).mode.function ≠ .outside) :
    Elided config s ((raw, x) :: p :: rest) ↔
      Elided config (stateAfter (processLine config raw) s) (p :: rest) :=
  ⟨fun elided => elided.2.2, fun elided => ⟨written, iff_of_false h (List.cons_ne_nil p rest), elided⟩⟩

/-- With `k` open braces that were not counted, the lines of a body are elided just if each line with
braces but the last leaves more than `k` open. -/
theorem elided_iff_keeps (k : Int) (notNeg : 0 ≤ k) (lines : List (Text × Seen)) {depth : Int}
    (w : s.Watching) (h : s.mode.function = .body (depth - k))
    (arrives : ∀ p ∈ lines, Arrives config s.mode p.1 p.2)
    (encloses : Encloses depth (lines.map Prod.snd))
    (start : 0 < depth ∨ (lines.map Prod.snd).head?.any Seen.hasBrace = true) :
    Elided config s lines ↔ Keeps (k + 1) depth (lines.map Prod.snd) := by
  induction lines generalizing s depth with
  | nil => exact encloses.elim
  | cons p rest ih =>
    obtain ⟨raw, x⟩ := p
    obtain ⟨mode, emitted⟩ := stateAfter_body w h (arrives (raw, x) List.mem_cons_self)
    have function : (stateAfter (processLine config raw) s).mode.function = x.after (depth - k) := by
      rw [mode]
    rw [← function] at emitted
    cases rest with
    | nil =>
      -- The last line holds the closing brace.
      have closes : depth + x.balance = 0 := encloses
      have left : (stateAfter (processLine config raw) s).mode.function = .outside := by
        rw [function, Seen.after_of_hasBrace (Seen.hasBrace_of_closed closes start), if_pos (by omega)]
      rw [elided_cons_outside emitted left]
      exact iff_of_true rfl trivial
    | cons q rest =>
      obtain ⟨stays, encloses⟩ := encloses
      have arrives' : ∀ p ∈ q :: rest,
          Arrives config (stateAfter (processLine config raw) s).mode p.1 p.2 := by
        intro p mem
        rw [mode]
        exact (arrives p (List.mem_cons_of_mem _ mem)).inFunction _
      have next (open' : x.after (depth - k) = .body (depth + x.balance - k)) :
          Elided config s ((raw, x) :: q :: rest) ↔
            Keeps (k + 1) (depth + x.balance) ((q :: rest).map Prod.snd) := by
        have inside := function.trans open'
        rw [elided_cons_inside emitted (by rw [inside]; exact FunctionState.noConfusion)]
        exact ih (w.inFunction mode) inside arrives' encloses (.inl stays)
      cases brace : x.hasBrace with
      | false =>
        have after := Seen.after_of_not_hasBrace brace (depth - k)
        have flat := Seen.balance_of_not_hasBrace brace
        rw [next (by rw [after, flat, Int.add_zero])]
        exact ⟨fun keeps => ⟨fun some => absurd (brace.symm.trans some) Bool.false_ne_true, keeps⟩,
          fun keeps => keeps.2⟩
      | true =>
        have after := Seen.after_of_hasBrace brace (depth - k)
        by_cases ended : depth - k + x.balance ≤ 0
        · rw [if_pos ended] at after
          rw [elided_cons_outside emitted (function.trans after)]
          refine iff_of_false (List.cons_ne_nil q rest) fun keeps => ?_
          have least : k + 1 ≤ depth + x.balance := keeps.1 brace
          omega
        · rw [if_neg ended] at after
          have same : depth - k + x.balance = depth + x.balance - k := by omega
          have least : k + 1 ≤ depth + x.balance := by omega
          rw [next (by rw [after, same])]
          exact ⟨fun keeps => ⟨fun _ => least, keeps⟩, fun keeps => keeps.2⟩

/-- Lines behind one that opens `k` braces and leaves them uncounted. -/
theorem elided_cons_iff_keeps {x : Seen} {k : Int} (notNeg : 0 ≤ k) {body : List (Text × Seen)}
    (written : (stateAfter (processLine config raw) s).emitted = s.emitted ++ x.written config
      (stateAfter (processLine config raw) s).mode.function.level)
    (w : (stateAfter (processLine config raw) s).Watching)
    (h : (stateAfter (processLine config raw) s).mode.function = .body 0)
    (arrives : ∀ p ∈ body, Arrives config (stateAfter (processLine config raw) s).mode p.1 p.2)
    (encloses : Encloses k (body.map Prod.snd))
    (start : 0 < k ∨ (body.map Prod.snd).head?.any Seen.hasBrace = true) :
    Elided config s ((raw, x) :: body) ↔ Keeps (k + 1) k (body.map Prod.snd) := by
  have inside : (stateAfter (processLine config raw) s).mode.function = .body (k - k) := by
    rw [h, Int.sub_self]
  rw [← elided_iff_keeps k notNeg body w inside arrives encloses start]
  cases body with
  | nil => exact encloses.elim
  | cons p rest => exact elided_cons_inside written (by rw [h]; exact FunctionState.noConfusion)

theorem stateAfter_signature {edit : Option MacroEdit} {l : Line} (w : s.Watching)
    (h : s.mode.function = .outside) (arrives : Arrives config s.mode raw (.reached edit l))
    (suppress : (Scan.line l .outside s.cursor).suppress = true) :
    (stateAfter (processLine config raw) s).mode =
      { s.mode with function := (Scan.line l .outside s.cursor).function } ∧
    (stateAfter (processLine config raw) s).emitted = s.emitted ++
      (Seen.reached edit l).written config (Scan.line l .outside s.cursor).function.level := by
  rw [(leaves_outside w h arrives suppress).stateAfter_eq, State.mode_putAll, State.emitted_putAll]
  exact ⟨rfl, rfl⟩

end Conversion

/-- Where the body of a function is in relation to the line of its signature. -/
inductive BodyPlacement where
  /-- Its brace starts the next line. -/
  | nextLine
  /-- Its brace ends the line of the signature. -/
  | lineEnd
  /-- All of it is on that line. -/
  | oneLine

/-- The words behind the signature and the lines after it make up the rest of a definition with
its body in this place. -/
def BodyPlacement.Fits (after : List Text) (body : List Seen) : BodyPlacement → Prop
  | .nextLine =>
    [';'] ∉ after ∧ Encloses 0 body ∧
      ∃ edit l rest, body = .reached edit l :: rest ∧ l.word? 0 = some ['{']
  | .lineEnd =>
    [';'] ∉ after ∧ Encloses 1 body ∧
      ∃ front, after = front ++ [['{']] ∧ front.count ['{'] = front.count ['}']
  | .oneLine =>
    body = [] ∧ ∃ front inner back, after = front ++ ['{'] :: inner ++ ['}'] :: back ∧
      [';'] ∉ front ∧ inner.count ['{'] = inner.count ['}']

/-- When the end of a definition is found where it is: always behind a brace on the next line; behind
a brace at the end of the line only if no inner line with braces leaves the body at its first level;
on one line only if semicolons end all that looks like a call. With `inline` in front only the line
itself is recognised. -/
def BodyPlacement.Followed (l : Line) (g : Signature) (body : List Seen) : BodyPlacement → Prop
  | .nextLine => l.word? 0 ≠ some "inline".toList
  | .lineEnd => l.word? 0 ≠ some "inline".toList ∧ Keeps 2 1 body
  | .oneLine =>
    l.word? 0 = some "inline".toList ∨
      Settled g.last [')'] (g.after.takeWhile fun w => !stopsScan w)

namespace Conversion

variable {config : Config} {raw : Text} {s : State}

theorem hasBrace_of_first {l : Line} (h : l.word? 0 = some ['{']) : l.hasBrace = true := by
  unfold Line.word? at h
  unfold Line.hasBrace
  exact List.any_eq_true.2 ⟨['{'], List.mem_of_getElem? h, by decide⟩

/-- Functions are elided exactly when `Followed` says so. The depth in a body is a plain integer here; it
is the depth of 32 bits as long as fewer than 2^31 - 1 braces are counted, which is the bound of
`function_depth_wellFormed`. -/
theorem elided_iff_followed (w : s.Watching) (h : s.mode.function = .outside)
    {edit : Option MacroEdit} {l : Line} (first : Arrives config s.mode raw (.reached edit l))
    {g : Signature} (words : l.words = g.words) {body : List (Text × Seen)}
    (rest : ∀ p ∈ body, Arrives config s.mode p.1 p.2) {place : BodyPlacement}
    (fits : place.Fits g.after (body.map Prod.snd)) :
    Elided config s ((raw, .reached edit l) :: body) ↔
      place.Followed l g (body.map Prod.snd) := by
  have suppress : (Scan.line l .outside s.cursor).suppress = true := by
    by_cases startsInline : l.word? 0 = some "inline".toList
    · exact (Scan.line_inline s.cursor startsInline).2
    · exact Scan.suppress_line_signature words s.cursor startsInline
  obtain ⟨mode, emitted⟩ := stateAfter_signature w h first suppress
  have function : (stateAfter (processLine config raw) s).mode.function =
      (Scan.line l .outside s.cursor).function := by rw [mode]
  rw [← function] at emitted
  by_cases startsInline : l.word? 0 = some "inline".toList
  · rw [elided_cons_outside emitted (function.trans (Scan.line_inline s.cursor startsInline).1)]
    cases place with
    | nextLine =>
      obtain ⟨-, -, edit', l', rest', eq, -⟩ := fits
      refine iff_of_false ?_ (not_not_intro startsInline)
      rintro rfl
      cases eq
    | lineEnd =>
      refine iff_of_false ?_ fun followed => followed.1 startsInline
      rintro rfl
      exact fits.2.1
    | oneLine => exact iff_of_true (List.map_eq_nil_iff.1 fits.1) (.inl startsInline)
  · have arrives : ∀ p ∈ body, Arrives config (stateAfter (processLine config raw) s).mode p.1 p.2 := by
      intro p mem
      rw [mode]
      exact (rest p mem).inFunction _
    have inside (noEnd : [';'] ∉ g.after) :
        (stateAfter (processLine config raw) s).mode.function = .body 0 :=
      function.trans (Scan.function_line_signature words s.cursor startsInline noEnd)
    cases place with
    | nextLine =>
      obtain ⟨noEnd, encloses, edit', l', rest', eq, brace⟩ := fits
      have start : (body.map Prod.snd).head?.any Seen.hasBrace = true := by
        rw [eq]
        exact hasBrace_of_first brace
      rw [elided_cons_iff_keeps (Int.le_refl 0) emitted (w.inFunction mode) (inside noEnd) arrives
        encloses (.inr start)]
      exact iff_of_true (keeps_of_encloses encloses) startsInline
    | lineEnd =>
      obtain ⟨noEnd, encloses, -⟩ := fits
      rw [elided_cons_iff_keeps (by omega) emitted (w.inFunction mode) (inside noEnd) arrives encloses
        (.inl (by omega))]
      exact ⟨fun keeps => ⟨startsInline, keeps⟩, fun followed => followed.2⟩
    | oneLine =>
      obtain ⟨none, -⟩ := fits
      have last : body = [] := List.map_eq_nil_iff.1 none
      subst last
      have left := Scan.line_outside_iff words s.cursor startsInline
      rw [← function] at left
      constructor
      · exact fun elided => .inr (left.1 (elided.2.1.2 rfl))
      · rintro (starts | settled)
        · exact absurd starts startsInline
        · exact ⟨emitted, iff_of_true (left.2 settled) rfl, trivial⟩

/-- A function whose brace ends the line of its signature, with a block in its body. -/
def blockInBody : List Text := ["if (a) \x7b\n".toList, "\x7d\n".toList, "\x7d\n".toList]

/-- The end of such a function is found too early. -/
theorem blockInBody_not_elided :
    ¬Elided {} {} (("void f() \x7b\n".toList, .reached none (.cut "void f() \x7b\n".toList)) ::
      blockInBody.map fun raw => (raw, .reached none (.cut raw))) := by
  have first : Arrives {} {} "void f() \x7b\n".toList
      (.reached none (.cut "void f() \x7b\n".toList)) :=
    .plain rfl (by decide) rfl (by decide) (by decide) (by decide) (by decide)
  have rest : ∀ p ∈ blockInBody.map fun raw => (raw, Seen.reached none (.cut raw)),
      Arrives {} {} p.1 p.2 := by
    intro p mem
    simp only [blockInBody, List.map_cons, List.map_nil, List.mem_cons, List.not_mem_nil,
      or_false] at mem
    rcases mem with rfl | rfl | rfl
    all_goals exact .plain rfl (by decide) rfl (by decide) (by decide) (by decide) (by decide)
  have fits : BodyPlacement.lineEnd.Fits [['{']]
      ((blockInBody.map fun raw => (raw, Seen.reached none (.cut raw))).map Prod.snd) :=
    ⟨by decide, by decide, [], rfl, rfl⟩
  rw [elided_iff_followed ⟨rfl, rfl⟩ rfl first (g := ⟨["void".toList], ['f'], [], [['{']],
    by decide, by decide, by decide, by decide⟩) rfl rest fits]
  exact fun followed => absurd followed.2 (by decide)

end Conversion
end HeaderFlattening
