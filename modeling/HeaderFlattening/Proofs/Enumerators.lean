import HeaderFlattening.Proofs.EnumBody
import Mathlib.Data.List.Chain

/-!
Enumerators in a text, and the two ways in which they get the name of their class in front: all of
them between two braces, or the one at the start of a line. The first way goes by the commas and
takes those inside an initializer for the ends of enumerators; both need a name that does not run
into the sign of its initializer.
-/

set_option autoImplicit false
namespace HeaderFlattening

theorem not_mem_of_isIdentifier {w : Text} (h : w.isIdentifier = true) {c : Char}
    (other : Text.isNameChar c = false) : c ∉ w := by
  rw [Text.isIdentifier, Bool.and_eq_true] at h
  exact Text.notMem_of_all h.2 other

/-- The same number of separators in front of one of them. -/
theorem append_cons_inj_of_count {c : Char} {a a' b b' : Text} (h : a.count c = a'.count c)
    (eq : a ++ c :: b = a' ++ c :: b') : a = a' ∧ b = b' := by
  induction a generalizing a' with
  | nil =>
    cases a' with
    | nil => exact ⟨rfl, (List.cons.inj eq).2⟩
    | cons d a' =>
      rw [← (List.cons.inj eq).1, List.count_cons_self] at h
      cases h
  | cons d a ih =>
    cases a' with
    | nil =>
      rw [(List.cons.inj eq).1, List.count_cons_self] at h
      cases h
    | cons e a' =>
      obtain ⟨first, rest⟩ := List.cons.inj eq
      subst first
      rw [List.count_cons, List.count_cons, Nat.add_right_cancel_iff] at h
      obtain ⟨same, others⟩ := ih h rest
      exact ⟨by rw [same], others⟩

/-- No identifier stands directly behind a brace or a comma. -/
def Quiet (words : List Text) : Prop :=
  words.IsChain fun v w : Text => v = ['{'] ∨ v = [','] → w.isIdentifier = false

instance (words : List Text) : Decidable (Quiet words) :=
  inferInstanceAs (Decidable (List.IsChain _ _))

namespace EnumLine

variable {className : Text}

/-- A name that a comma or a brace precedes is found, and only such a name. -/
theorem names_eq_nil_iff (c : Option Text) (separated : Bool) (ts : List Token) :
    (rename c separated ts).2 = [] ↔
      (separated = true → (ts.map Token.text).head?.any Text.isIdentifier = false) ∧
        Quiet (ts.map Token.text) := by
  induction ts generalizing separated with
  | nil => exact iff_of_true rfl ⟨fun _ => rfl, .nil⟩
  | cons t ts ih =>
    have behind : ((t.text = ['{'] || t.text = [',']) = true →
        (ts.map Token.text).head?.any Text.isIdentifier = false) ∧ Quiet (ts.map Token.text) ↔
        Quiet ((t :: ts).map Token.text) := by
      rw [Bool.or_eq_true, decide_eq_true_eq, decide_eq_true_eq]
      cases ts with
      | nil => exact iff_of_true ⟨fun _ => rfl, .nil⟩ (.singleton _)
      | cons u us =>
        simp only [Quiet, List.map_cons, List.isChain_cons_cons]
        rfl
    rw [← behind, ← ih, rename]
    cases separated with
    | false =>
      simp only [Bool.false_and, Bool.false_eq_true, if_false, false_implies, true_and]
    | true =>
      simp only [Bool.true_and, List.map_cons, List.head?_cons, Option.any_some, true_implies]
      cases t.text.isIdentifier with
      | false => simp only [Bool.false_eq_true, if_false, true_and]
      | true => simp only [if_true, List.cons_ne_nil, Bool.true_eq_false, false_and]

theorem rename_of_no_names {c : Option Text} {separated : Bool} {ts : List Token}
    (h : (rename c separated ts).2 = []) : (rename c separated ts).1 = ts.flatMap Token.source := by
  induction ts generalizing separated with
  | nil => rfl
  | cons t ts ih =>
    rw [rename] at h ⊢
    split_ifs at h ⊢
    exact congrArg (t.source ++ ·) (ih h)

theorem length_rename (className : Text) (separated : Bool) (ts : List Token) :
    (rename (some className) separated ts).1.length = (ts.flatMap Token.source).length +
      (className.length + 1) * (rename (some className) separated ts).2.length := by
  induction ts generalizing separated with
  | nil => rfl
  | cons t ts ih =>
    rw [rename, List.flatMap_cons, List.length_append]
    split_ifs
    · have name : (valueName (some className) t.text).length =
          className.length + 1 + t.text.length := by
        rw [valueName, List.length_append, List.length_append]
        rfl
      rw [List.length_cons, Nat.mul_succ]
      simp only [List.length_append, name, ih, Token.source]
      omega
    · simp only [List.length_append, ih, Token.source]
      omega

theorem rename_eq_source_iff (className : Text) (separated : Bool) (ts : List Token) :
    (rename (some className) separated ts).1 = ts.flatMap Token.source ↔
      (rename (some className) separated ts).2 = [] := by
  refine ⟨fun same => ?_, rename_of_no_names⟩
  have length := length_rename className separated ts
  rw [same] at length
  have none : (className.length + 1) * (rename (some className) separated ts).2.length = 0 := by omega
  rcases Nat.mul_eq_zero.1 none with zero | zero
  · omega
  · exact List.eq_nil_of_length_eq_zero zero

/-- Tokens found in a text stay as they are just if no name is found among them. -/
theorem rename_scan_eq_iff (className : Text) (separated : Bool) (t : Text) :
    (rename (some className) separated (Token.scan t).1).1 ++ (Token.scan t).2 = t ↔
      (rename (some className) separated (Token.scan t).1).2 = [] := by
  have source := Token.append_tail t
  rw [← rename_eq_source_iff]
  constructor
  · intro same
    exact List.append_cancel_right (same.trans source.symm)
  · intro same
    rw [same]
    exact source

theorem count_rename {c : Char} (h : c ∉ className) (underscore : c ≠ '_') (separated : Bool)
    (ts : List Token) :
    (rename (some className) separated ts).1.count c = (ts.flatMap Token.source).count c := by
  induction ts generalizing separated with
  | nil => rfl
  | cons t ts ih =>
    rw [rename, List.flatMap_cons, List.count_append]
    split_ifs
    · have name : (valueName (some className) t.text).count c = t.text.count c := by
        have front : (className ++ "_".toList).count c = 0 := by
          apply List.count_eq_zero.2
          simp [h, underscore]
        rw [valueName, List.count_append, front, Nat.zero_add]
      simp only [List.count_append, name, ih, Token.source]
    · rw [List.count_append, ih]

theorem rename_identifier (c : Option Text) {t : Token} (h : t.text.isIdentifier = true)
    (ts : List Token) :
    rename c true (t :: ts) = (t.gap ++ valueName c t.text ++ (rename c false ts).1,
      valueName c t.text :: (rename c false ts).2) := by
  have stops : (t.text = ['{'] || t.text = [',']) = false := by
    rw [Bool.or_eq_false_iff, decide_eq_false_iff_not, decide_eq_false_iff_not]
    constructor
    all_goals
      intro eq
      rw [eq] at h
      exact absurd h (by decide)
  rw [rename, h, stops]
  rfl

theorem rename_other (c : Option Text) (separated : Bool) {t : Token}
    (h : t.text.isIdentifier = false) (ts : List Token) :
    rename c separated (t :: ts) =
      (t.source ++ (rename c (t.text = ['{'] || t.text = [',']) ts).1,
        (rename c (t.text = ['{'] || t.text = [',']) ts).2) := by
  rw [rename, h, Bool.and_false, if_neg Bool.false_ne_true]

theorem rename_append_separator (c : Option Text) (separated : Bool) (ts us : List Token) {t : Token}
    (h : t.text = ['{'] ∨ t.text = [',']) :
    rename c separated (ts ++ t :: us) =
      ((rename c separated ts).1 ++ (t.source ++ (rename c true us).1),
        (rename c separated ts).2 ++ (rename c true us).2) := by
  induction ts generalizing separated with
  | nil =>
    have other : t.text.isIdentifier = false := by
      rcases h with brace | comma
      · rw [brace]
        decide
      · rw [comma]
        decide
    have goesOn : (t.text = ['{'] || t.text = [',']) = true := by
      rw [Bool.or_eq_true, decide_eq_true_eq, decide_eq_true_eq]
      exact h
    have untouched := rename_other c separated other us
    rw [goesOn] at untouched
    exact untouched
  | cons u ts ih =>
    rw [List.cons_append, rename, rename, ih]
    split_ifs
    · simp only [List.append_assoc, List.cons_append]
    · simp only [List.append_assoc]

/-- A text between braces with its names renamed. -/
def hoist (className t : Text) : Text :=
  (rename (some className) true (Token.scan t).1).1 ++ (Token.scan t).2

/-- The names that are found in such a text. -/
def hoistNames (className t : Text) : List Text :=
  (rename (some className) true (Token.scan t).1).2

theorem hoist_comma (className a b : Text) :
    hoist className (a ++ ',' :: b) = hoist className a ++ ',' :: hoist className b := by
  unfold hoist
  rw [Token.scan_append_delimiter (by decide), rename_append_separator _ _ _ _ (.inr rfl)]
  simp only [Token.source, List.append_assoc, List.cons_append, List.nil_append]

theorem hoistNames_comma (className a b : Text) :
    hoistNames className (a ++ ',' :: b) = hoistNames className a ++ hoistNames className b := by
  unfold hoistNames
  rw [Token.scan_append_delimiter (by decide), rename_append_separator _ _ _ _ (.inr rfl)]

theorem hoist_blank {b : Text} (h : b.all Text.isBlank = true) (className : Text) :
    hoist className b = b ∧ hoistNames className b = [] := by
  unfold hoist hoistNames
  rw [Token.scan_blank h]
  exact ⟨rfl, rfl⟩

theorem count_hoist {c : Char} (h : c ∉ className) (underscore : c ≠ '_') (t : Text) :
    (hoist className t).count c = t.count c := by
  rw [hoist, List.count_append, count_rename h underscore, ← List.count_append, Token.append_tail]

end EnumLine

/-- A line that starts with something else than a value stays as it is. -/
theorem valueText_of_word {className t w : Text} {ws : List Text} (words : Token.wordsOf t = w :: ws)
    (other : w.isIdentifier = false) : valueText className t = t := by
  have noValue : (Token.wordsOf t)[0]?.filter Text.isIdentifier = none := by
    rw [words, List.getElem?_cons_zero, Option.filter_some, if_neg (ne_true_of_eq_false other)]
  exact (valueText_of_no_value noValue className).1

/-- An enumerator: blanks, a name, and what stands behind it, which is an initializer or blanks. -/
structure Enumerator where
  lead : Text
  name : Text
  init : Text
  deriving DecidableEq, Repr

namespace Enumerator

/-- Words at the start of a line that begin something else than a value. -/
def reserved : List Text :=
  ["enum".toList, "struct".toList, "class".toList, "typedef".toList, "extern".toList]

structure Valid (e : Enumerator) : Prop where
  lead : e.lead.all Text.isBlank = true
  name : e.name.isIdentifier = true
  free : e.name ∉ reserved
  sign : (e.init.find? (!Text.isBlank ·)).all (· = '=') = true
  plain : ∀ c ∈ e.init, c ≠ ';' ∧ c ≠ '{' ∧ c ≠ '}'

instance (e : Enumerator) : Decidable e.Valid :=
  decidable_of_iff
    (e.lead.all Text.isBlank = true ∧ e.name.isIdentifier = true ∧
      reserved.contains e.name = false ∧
      (e.init.find? (!Text.isBlank ·)).all (· = '=') = true ∧
      e.init.all (fun c => c ≠ ';' ∧ c ≠ '{' ∧ c ≠ '}') = true) <| by
    rw [← Bool.not_eq_true (reserved.contains _), List.contains_iff_mem,
      List.all_eq_true (l := e.init)]
    simp only [decide_eq_true_eq]
    exact ⟨fun ⟨a, b, c, d, f⟩ => ⟨a, b, c, d, f⟩, fun ⟨a, b, c, d, f⟩ => ⟨a, b, c, d, f⟩⟩

def text (e : Enumerator) : Text := e.lead ++ (e.name ++ e.init)

/-- The name under which the value is recorded in a class. -/
def value (className : Text) (e : Enumerator) : Text := EnumLine.valueName (some className) e.name

/-- The enumerator with this name, and its initializer as it was. -/
def hoisted (className : Text) (e : Enumerator) : Text := e.lead ++ (e.value className ++ e.init)

/-- The name does not run into the sign of the initializer. -/
def Apart (e : Enumerator) : Prop := e.init.head? ≠ some '='

instance (e : Enumerator) : Decidable e.Apart := inferInstanceAs (Decidable (_ ≠ _))

/-- Between braces the name is found, and no part of the initializer is taken for a name. -/
structure Found (e : Enumerator) : Prop where
  apart : e.Apart
  quiet : Quiet (Token.wordsOf e.init)

variable {e : Enumerator} {className b t : Text}

theorem Valid.inner (h : e.Valid) : e.name ≠ [] ∧ e.name.all Token.isInner = true :=
  inner_of_isIdentifier h.name

theorem Valid.head_blank (h : e.Valid) (apart : e.Apart) {c : Char} (first : e.init.head? = some c) :
    Text.isBlank c = true := by
  have sign := h.sign
  cases init : e.init with
  | nil =>
    rw [init] at first
    cases first
  | cons d rest =>
    rw [init, List.head?_cons, Option.some.injEq] at first
    rw [first] at init
    cases blank : Text.isBlank c with
    | true => rfl
    | false =>
      rw [init, List.find?_cons_of_pos (by rw [blank]; rfl), Option.all_some,
        decide_eq_true_eq] at sign
      rw [sign] at init
      exact absurd (congrArg List.head? init) apart

/-- A name that stands apart is the first token. -/
theorem scan_apart (h : e.Valid) (blank : b.all Text.isBlank = true) (apart : e.Apart)
    (stops : t.head?.any Token.isInner = false) :
    Token.scan (b ++ (e.name ++ (e.init ++ t))) =
      (⟨b, e.name⟩ :: (Token.scan (e.init ++ t)).1, (Token.scan (e.init ++ t)).2) := by
  have ends : (e.init ++ t).head?.any Token.isInner = false := by
    cases first : e.init.head? with
    | none =>
      rw [List.head?_eq_none_iff.1 first]
      exact stops
    | some c =>
      rw [List.head?_append, first]
      exact Token.not_inner_of_isBlank (h.head_blank apart first)
  have scanned := Token.scan_blank_append blank (Token.scan_inner h.inner.1 h.inner.2 ends)
  rw [List.append_nil] at scanned
  exact scanned

/-- A name that runs into the sign of its initializer is part of a longer token. -/
theorem scan_joined (h : e.Valid) (blank : b.all Text.isBlank = true) (joined : ¬e.Apart) (t : Text) :
    ∃ w rest, e.init ++ t = '=' :: (w ++ rest) ∧
      Token.scan (b ++ (e.name ++ (e.init ++ t))) =
        (⟨b, e.name ++ '=' :: w⟩ :: (Token.scan rest).1, (Token.scan rest).2) := by
  obtain ⟨init, eq⟩ : ∃ init, e.init = '=' :: init := List.head?_eq_some_iff.1 (not_not.1 joined)
  rw [eq, List.cons_append]
  have inner : Token.isInner '=' = true := by decide
  refine ⟨(init ++ t).takeWhile Token.isInner, (init ++ t).dropWhile Token.isInner, ?_, ?_⟩
  · rw [List.takeWhile_append_dropWhile]
  · rw [Token.scan_first blank h.inner.1 h.inner.2, List.takeWhile_cons_of_pos inner,
      List.dropWhile_cons_of_pos inner]

theorem not_identifier_of_joined (name w : Text) : (name ++ '=' :: w).isIdentifier = false := by
  rw [Text.isIdentifier, List.all_append, List.all_cons, show Text.isNameChar '=' = false by decide,
    Bool.false_and, Bool.and_false, Bool.and_false]

theorem length_value (className : Text) (e : Enumerator) :
    (e.value className).length = className.length + 1 + e.name.length := by
  rw [value, EnumLine.valueName, List.length_append, List.length_append]
  rfl

/-- All enumerators between two braces are renamed in one go, and this one as it should be just if its
name is found and nothing else. -/
theorem hoist_eq_iff (h : e.Valid) (named : className.isIdentifier = true) :
    EnumLine.hoist className e.text = e.hoisted className ↔ e.Found := by
  by_cases apart : e.Apart
  · have scanned := scan_apart h h.lead apart (t := []) rfl
    rw [List.append_nil] at scanned
    have renamed : EnumLine.hoist className e.text = e.lead ++ (e.value className ++
        ((EnumLine.rename (some className) false (Token.scan e.init).1).1 ++ (Token.scan e.init).2)) := by
      rw [EnumLine.hoist, text, scanned, EnumLine.rename_identifier _ h.name]
      simp only [List.append_assoc]
      rfl
    rw [renamed, hoisted, List.append_cancel_left_eq, List.append_cancel_left_eq,
      EnumLine.rename_scan_eq_iff, EnumLine.names_eq_nil_iff]
    constructor
    · intro quiet
      exact ⟨apart, quiet.2⟩
    · intro found
      exact ⟨fun no => absurd no Bool.false_ne_true, found.quiet⟩
  · -- The token goes on behind the name, and stays as it is.
    obtain ⟨w, rest, init, scanned⟩ := scan_joined h h.lead apart []
    rw [List.append_nil] at init scanned
    refine iff_of_false (fun same => ?_) fun found => apart found.apart
    have value := valueName_isIdentifier named h.name
    rw [EnumLine.hoist, text, scanned, EnumLine.rename_other _ _ (not_identifier_of_joined e.name w),
      hoisted, Token.source, List.append_assoc, List.append_assoc, List.append_assoc,
      List.append_cancel_left_eq, init, List.cons_append] at same
    have noSign {v : Text} (identifier : v.isIdentifier = true) : v.count '=' = 0 :=
      List.count_eq_zero.2 (not_mem_of_isIdentifier identifier (by decide))
    have signs : e.name.count '=' = (e.value className).count '=' :=
      (noSign h.name).trans (noSign value).symm
    have longer := length_value className e
    rw [← (append_cons_inj_of_count signs same).1] at longer
    omega

/-- The value is recorded under the name of its class, and nothing else is. -/
theorem hoistNames_eq (h : e.Valid) (found : e.Found) (className : Text) :
    EnumLine.hoistNames className e.text = [e.value className] := by
  have scanned := scan_apart h h.lead found.apart (t := []) rfl
  rw [List.append_nil] at scanned
  have quiet := EnumLine.names_eq_nil_iff (some className) false (Token.scan e.init).1
  rw [EnumLine.hoistNames, text, scanned, EnumLine.rename_identifier _ h.name,
    quiet.2 ⟨fun no => absurd no Bool.false_ne_true, found.quiet⟩]
  rfl

theorem Valid.count_hoisted (h : e.Valid) (named : className.isIdentifier = true) :
    (e.hoisted className).count ',' = e.text.count ',' := by
  have noComma {w : Text} (identifier : w.isIdentifier = true) : w.count ',' = 0 :=
    List.count_eq_zero.2 (not_mem_of_isIdentifier identifier (by decide))
  have value : (e.value className).count ',' = 0 := noComma (valueName_isIdentifier named h.name)
  simp only [hoisted, text, List.count_append, value, noComma h.name]

end Enumerator

/-- Enumerators one behind the other, with commas between them. There may be another comma before the
first one, behind blanks, and behind the last one, before blanks. -/
structure EnumRow where
  start : Option Text := none
  first : Enumerator
  others : List Enumerator := []
  trail : Option Text := none
  deriving DecidableEq, Repr

namespace EnumRow

def values (r : EnumRow) : List Enumerator := r.first :: r.others

structure Valid (r : EnumRow) : Prop where
  start : ∀ b, r.start = some b → b.all Text.isBlank = true
  values : ∀ e ∈ r.values, e.Valid
  trail : ∀ b, r.trail = some b → b.all Text.isBlank = true

def withStart (start : Option Text) (t : Text) : Text := start.elim t (· ++ ',' :: t)

/-- The enumerators in this form, with the commas between and behind them. -/
def joined (f : Enumerator → Text) (trail : Option Text) : Enumerator → List Enumerator → Text
  | e, [] => f e ++ trail.elim [] (',' :: ·)
  | e, e' :: es => f e ++ ',' :: joined f trail e' es

def text (r : EnumRow) : Text := withStart r.start (joined Enumerator.text r.trail r.first r.others)

/-- The row with all its values under the name of the class. -/
def hoisted (className : Text) (r : EnumRow) : Text :=
  withStart r.start (joined (Enumerator.hoisted className) r.trail r.first r.others)

/-- A name is found at the start of the line, and it is the only one there. -/
structure Alone (r : EnumRow) : Prop where
  start : r.start = none
  others : r.others = []
  apart : r.first.Apart

variable {r : EnumRow} {className : Text} {start trail : Option Text}

theorem withStart_inj {t u : Text} : withStart start t = withStart start u ↔ t = u := by
  cases start with
  | none => exact Iff.rfl
  | some b =>
    refine ⟨fun same => ?_, fun same => by rw [same]⟩
    exact (List.cons.inj (List.append_cancel_left same)).2

theorem hoist_start (blank : ∀ b, start = some b → b.all Text.isBlank = true) (className t : Text) :
    EnumLine.hoist className (withStart start t) = withStart start (EnumLine.hoist className t) ∧
    EnumLine.hoistNames className (withStart start t) = EnumLine.hoistNames className t := by
  cases start with
  | none => exact ⟨rfl, rfl⟩
  | some b =>
    obtain ⟨same, none⟩ := EnumLine.hoist_blank (blank b rfl) className
    constructor
    · show EnumLine.hoist className (b ++ ',' :: t) = _
      rw [EnumLine.hoist_comma, same]
      rfl
    · show EnumLine.hoistNames className (b ++ ',' :: t) = _
      rw [EnumLine.hoistNames_comma, none, List.nil_append]

theorem hoist_trail (blank : ∀ b, trail = some b → b.all Text.isBlank = true) (className a : Text) :
    EnumLine.hoist className (a ++ trail.elim [] (',' :: ·)) =
      EnumLine.hoist className a ++ trail.elim [] (',' :: ·) ∧
    EnumLine.hoistNames className (a ++ trail.elim [] (',' :: ·)) =
      EnumLine.hoistNames className a := by
  cases trail with
  | none => exact ⟨by simp, by simp⟩
  | some b =>
    obtain ⟨same, none⟩ := EnumLine.hoist_blank (blank b rfl) className
    constructor
    · show EnumLine.hoist className (a ++ ',' :: b) = _
      rw [EnumLine.hoist_comma, same]
      rfl
    · show EnumLine.hoistNames className (a ++ ',' :: b) = _
      rw [EnumLine.hoistNames_comma, none, List.append_nil]

theorem hoist_joined_iff (named : className.isIdentifier = true)
    (blank : ∀ b, trail = some b → b.all Text.isBlank = true) {e : Enumerator}
    {es : List Enumerator} (h : ∀ x ∈ e :: es, x.Valid) :
    EnumLine.hoist className (joined Enumerator.text trail e es) =
        joined (Enumerator.hoisted className) trail e es ↔ ∀ x ∈ e :: es, x.Found := by
  have first := Enumerator.hoist_eq_iff (h e List.mem_cons_self) named
  induction es generalizing e with
  | nil =>
    rw [joined, joined, (hoist_trail blank className e.text).1, List.append_cancel_right_eq, first,
      List.forall_mem_singleton]
  | cons e' es ih =>
    have others (x : Enumerator) (mem : x ∈ e' :: es) : x.Valid := h x (List.mem_cons_of_mem e mem)
    have rest := ih others (Enumerator.hoist_eq_iff (others e' List.mem_cons_self) named)
    have noComma : ',' ∉ className := not_mem_of_isIdentifier named (by decide)
    have commas : (EnumLine.hoist className e.text).count ',' = (e.hoisted className).count ',' := by
      rw [EnumLine.count_hoist noComma (by decide), (h e List.mem_cons_self).count_hoisted named]
    rw [joined, joined, EnumLine.hoist_comma, List.forall_mem_cons, ← first]
    constructor
    · intro same
      obtain ⟨one, behind⟩ := append_cons_inj_of_count commas same
      exact ⟨one, rest.1 behind⟩
    · rintro ⟨one, behind⟩
      rw [one, rest.2 behind]

theorem hoistNames_joined (blank : ∀ b, trail = some b → b.all Text.isBlank = true) {e : Enumerator}
    {es : List Enumerator} (h : ∀ x ∈ e :: es, x.Valid) (found : ∀ x ∈ e :: es, x.Found)
    (className : Text) :
    EnumLine.hoistNames className (joined Enumerator.text trail e es) =
      (e :: es).map (Enumerator.value className) := by
  induction es generalizing e with
  | nil =>
    have first := Enumerator.hoistNames_eq (h e List.mem_cons_self) (found e List.mem_cons_self)
    rw [joined, (hoist_trail blank className e.text).2, first]
    rfl
  | cons e' es ih =>
    have first := Enumerator.hoistNames_eq (h e List.mem_cons_self) (found e List.mem_cons_self)
    have others (x : Enumerator) (mem : x ∈ e' :: es) := List.mem_cons_of_mem e mem
    rw [joined, EnumLine.hoistNames_comma, first, ih (fun x mem => h x (others x mem))
      (fun x mem => found x (others x mem))]
    rfl

/-- Between braces a row is renamed as it should be just if all its names are found. -/
theorem Valid.hoist_eq_iff (h : r.Valid) (named : className.isIdentifier = true) :
    EnumLine.hoist className r.text = r.hoisted className ↔ ∀ e ∈ r.values, e.Found := by
  rw [text, hoisted, (hoist_start h.start _ _).1, withStart_inj]
  exact hoist_joined_iff named h.trail h.values

theorem Valid.hoistNames_eq (h : r.Valid) (found : ∀ e ∈ r.values, e.Found) (className : Text) :
    EnumLine.hoistNames className r.text = r.values.map (Enumerator.value className) := by
  rw [text, (hoist_start h.start _ _).2]
  exact hoistNames_joined h.trail h.values found className

/-- What stands behind the first enumerator. -/
def rest (f : Enumerator → Text) (r : EnumRow) : Text :=
  match r.others with
  | [] => r.trail.elim [] (',' :: ·)
  | e :: es => ',' :: joined f r.trail e es

theorem joined_eq (f : Enumerator → Text) (r : EnumRow) :
    joined f r.trail r.first r.others = f r.first ++ r.rest f := by
  unfold rest
  cases r.others <;> rfl

theorem joined_text_eq (r : EnumRow) :
    joined Enumerator.text r.trail r.first r.others =
      r.first.lead ++ (r.first.name ++ (r.first.init ++ r.rest Enumerator.text)) := by
  rw [joined_eq, Enumerator.text, List.append_assoc, List.append_assoc]

theorem joined_hoisted_eq (className : Text) (r : EnumRow) :
    joined (Enumerator.hoisted className) r.trail r.first r.others = r.first.lead ++
      (r.first.value className ++ (r.first.init ++ r.rest (Enumerator.hoisted className))) := by
  rw [joined_eq, Enumerator.hoisted, List.append_assoc, List.append_assoc]

theorem rest_not_inner (f : Enumerator → Text) (r : EnumRow) :
    (r.rest f).head?.any Token.isInner = false := by
  have comma : Token.isInner ',' = false := by decide
  unfold rest
  cases r.others with
  | nil =>
    cases r.trail with
    | none => rfl
    | some b => exact comma
  | cons e es => exact comma

theorem length_joined_lt (className : Text) (trail : Option Text) (e : Enumerator)
    (es : List Enumerator) : (joined Enumerator.text trail e es).length <
      (joined (Enumerator.hoisted className) trail e es).length := by
  have longer (x : Enumerator) : x.text.length < (x.hoisted className).length := by
    have value := x.length_value className
    simp only [Enumerator.text, Enumerator.hoisted, List.length_append, value]
    omega
  have one := longer e
  induction es generalizing e with
  | nil =>
    simp only [joined, List.length_append]
    omega
  | cons e' es ih =>
    have behind := ih e' (longer e')
    simp only [joined, List.length_append, List.length_cons]
    omega

theorem length_rest_le (className : Text) (r : EnumRow) :
    (r.rest Enumerator.text).length ≤ (r.rest (Enumerator.hoisted className)).length := by
  unfold rest
  cases r.others with
  | nil => exact Nat.le_refl _
  | cons e es => exact Nat.succ_le_succ (length_joined_lt className r.trail e es).le

theorem rest_eq_iff (className : Text) (r : EnumRow) :
    r.rest Enumerator.text = r.rest (Enumerator.hoisted className) ↔ r.others = [] := by
  unfold rest
  cases r.others with
  | nil => exact iff_of_true rfl rfl
  | cons e es =>
    refine iff_of_false (fun same => ?_) (List.cons_ne_nil e es)
    have shorter := length_joined_lt className r.trail e es
    rw [(List.cons.inj same).2] at shorter
    exact Nat.lt_irrefl _ shorter

end EnumRow

/-- The indentation that is cut off ends before the first character that is no space. -/
theorem Config.cutIndent_append (config : Config) (b : Text) {x : Text} (h : x.head? ≠ some ' ') :
    config.cutIndent (b ++ x) = config.cutIndent b ++ x := by
  have stops : x.takeWhile (· = ' ') = [] := by
    cases x with
    | nil => rfl
    | cons c x =>
      apply List.takeWhile_cons_of_neg
      intro space
      rw [of_decide_eq_true space] at h
      exact h rfl
  have same : (b ++ x).takeWhile (· = ' ') = b.takeWhile (· = ' ') := by
    rw [List.takeWhile_append, stops, List.append_nil]
    split_ifs with all
    · exact (List.takeWhile_prefix _).eq_of_length all |>.symm
    · rfl
  have short : ((b.takeWhile (· = ' ')).take config.rules.unindentWidth).length ≤ b.length :=
    (List.length_take_le' _ _).trans (List.takeWhile_prefix _).length_le
  unfold cutIndent
  rw [← List.take_takeWhile, ← List.take_takeWhile, same, List.drop_append_of_le_length short]

namespace EnumRow

variable {r : EnumRow} {className : Text} (config : Config)

theorem cutIndent_name {w : Text} (h : w.isIdentifier = true) (b t : Text) :
    config.cutIndent (b ++ (w ++ t)) = config.cutIndent b ++ (w ++ t) := by
  apply config.cutIndent_append b
  obtain ⟨ne, inner⟩ := inner_of_isIdentifier h
  obtain ⟨c, v, eq⟩ := List.exists_cons_of_ne_nil ne
  rw [eq, List.all_cons, Bool.and_eq_true] at inner
  rw [eq]
  intro space
  rw [Option.some.inj space] at inner
  exact absurd inner.1 (by decide)

theorem all_blank_cutIndent {b : Text} (h : b.all Text.isBlank = true) :
    (config.cutIndent b).all Text.isBlank = true :=
  List.all_eq_true.2 fun c mem => List.all_eq_true.1 h c (List.mem_of_mem_drop mem)

theorem wordsOf_start {b : Text} (blank : b.all Text.isBlank = true) (t : Text) :
    Token.wordsOf (b ++ ',' :: t) = [','] :: Token.wordsOf t := by
  rw [Token.wordsOf_blank_append blank, Token.wordsOf_delimiter (by decide)]

/-- A line of a body is renamed as it should be just if a name is found at its start and stands
alone. -/
theorem Valid.valueText_eq_iff (h : r.Valid) (named : className.isIdentifier = true) :
    valueText className (config.cutIndent r.text) = config.cutIndent (r.hoisted className) ↔
      r.Alone := by
  have first : r.first.Valid := h.values r.first List.mem_cons_self
  have value := valueName_isIdentifier named first.name
  have blank := all_blank_cutIndent config first.lead
  cases start : r.start with
  | some b =>
    -- The comma is the first word.
    have comma (t : Text) : config.cutIndent (b ++ ',' :: t) = config.cutIndent b ++ ',' :: t :=
      config.cutIndent_append b (by simp)
    refine iff_of_false (fun same => ?_) fun alone => ?_
    · rw [text, hoisted, start] at same
      change valueText className (config.cutIndent (b ++ ',' :: _)) =
        config.cutIndent (b ++ ',' :: _) at same
      have word := wordsOf_start (all_blank_cutIndent config (h.start b start))
      rw [comma, comma, valueText_of_word (word _) (by decide)] at same
      have shorter := length_joined_lt className r.trail r.first r.others
      rw [(List.cons.inj (List.append_cancel_left same)).2] at shorter
      exact Nat.lt_irrefl _ shorter
    · rw [alone.start] at start
      cases start
  | none =>
    rw [text, hoisted, start]
    change valueText className (config.cutIndent (joined ..)) = config.cutIndent (joined ..) ↔ _
    rw [joined_text_eq, joined_hoisted_eq, Enumerator.value, cutIndent_name config first.name,
      cutIndent_name config value]
    by_cases apart : r.first.Apart
    · have scanned := Enumerator.scan_apart first blank apart (r.rest_not_inner Enumerator.text)
      obtain ⟨behind, source, renamed, -⟩ := scan_valueText named first.name scanned
      have same := List.append_cancel_left (List.append_cancel_left source)
      rw [renamed, ← same, List.append_assoc, List.append_cancel_left_eq, List.append_cancel_left_eq,
        List.append_cancel_left_eq, rest_eq_iff]
      exact ⟨fun none => ⟨start, none, apart⟩, fun alone => alone.others⟩
    · -- The line stays as it is, and would have got longer.
      obtain ⟨w, behind, -, scanned⟩ :=
        Enumerator.scan_joined first blank apart (r.rest Enumerator.text)
      refine iff_of_false (fun same => ?_) fun alone => apart alone.apart
      have longer := r.first.length_value className
      have rest := length_rest_le className r
      rw [valueText_of_word (words_cut_cons (congrArg Prod.fst scanned))
        (Enumerator.not_identifier_of_joined r.first.name w)] at same
      have length := congrArg List.length same
      simp only [List.length_append] at length
      rw [Enumerator.value] at longer
      omega

theorem Valid.valueNames_eq (h : r.Valid) (alone : r.Alone) (className : Text) :
    valueNames className (Token.wordsOf r.text) = [r.first.value className] := by
  have first : r.first.Valid := h.values r.first List.mem_cons_self
  have scanned :=
    Enumerator.scan_apart first first.lead alone.apart (r.rest_not_inner Enumerator.text)
  rw [text, alone.start]
  change valueNames className (Token.wordsOf (joined ..)) = _
  rw [joined_text_eq, Token.wordsOf, scanned]
  exact if_pos first.name

/-- A row can start with this word: a comma, the first name, or this name and the sign behind it. -/
def Starts (r : EnumRow) (w : Text) : Prop :=
  w = [','] ∨ w = r.first.name ∨ ∃ v, w = r.first.name ++ '=' :: v

/-- No row starts with this word. -/
def isForeign (k : Text) : Bool :=
  !k.contains '=' && k != [','] && (!k.isIdentifier || Enumerator.reserved.contains k)

theorem Starts.ne {w k : Text} (starts : r.Starts w) (first : r.first.Valid)
    (foreign : isForeign k = true) : w ≠ k := by
  simp only [isForeign, Bool.and_eq_true, Bool.or_eq_true, Bool.not_eq_true', bne_iff_ne,
    List.contains_eq_mem, decide_eq_false_iff_not, decide_eq_true_eq] at foreign
  obtain ⟨⟨noSign, noComma⟩, other⟩ := foreign
  rintro rfl
  rcases starts with comma | name | ⟨v, joined⟩
  · exact noComma comma
  · rw [name] at other
    rcases other with notIdentifier | reserved
    · exact Bool.false_ne_true (notIdentifier.symm.trans first.name)
    · exact first.free reserved
  · rw [joined] at noSign
    exact noSign (by simp)

theorem Starts.head_ne {w : Text} {c : Char} (starts : r.Starts w) (first : r.first.Valid)
    (noComma : c ≠ ',') (other : Text.isNameChar c = false) : w.head? ≠ some c := by
  obtain ⟨d, n, name⟩ := List.exists_cons_of_ne_nil first.inner.1
  have differs := not_mem_of_isIdentifier first.name other
  rw [name, List.mem_cons, not_or] at differs
  unfold Starts at starts
  rw [name] at starts
  intro head
  rcases starts with rfl | rfl | ⟨v, rfl⟩
  · exact noComma (Option.some.inj head).symm
  · exact differs.1 (Option.some.inj head).symm
  · exact differs.1 (Option.some.inj head).symm

theorem Valid.exists_start (h : r.Valid) :
    ∃ w ws, Token.wordsOf r.text = w :: ws ∧ r.Starts w := by
  have first : r.first.Valid := h.values r.first List.mem_cons_self
  rw [text]
  cases start : r.start with
  | some b => exact ⟨_, _, wordsOf_start (h.start b start) _, .inl rfl⟩
  | none =>
    change ∃ w ws, Token.wordsOf (joined ..) = _ ∧ _
    rw [joined_text_eq, Token.wordsOf]
    by_cases apart : r.first.Apart
    · rw [Enumerator.scan_apart first first.lead apart (r.rest_not_inner Enumerator.text)]
      exact ⟨_, _, rfl, .inr (.inl rfl)⟩
    · obtain ⟨v, behind, -, scanned⟩ :=
        Enumerator.scan_joined first first.lead apart (r.rest Enumerator.text)
      rw [scanned]
      exact ⟨_, _, rfl, .inr (.inr ⟨v, rfl⟩)⟩

theorem not_mem_joined {f : Enumerator → Text} {c : Char} {trail : Option Text} {e : Enumerator}
    {es : List Enumerator} (comma : c ≠ ',') (blank : ∀ b, trail = some b → c ∉ b)
    (h : ∀ x ∈ e :: es, c ∉ f x) : c ∉ joined f trail e es := by
  have first := h e List.mem_cons_self
  induction es generalizing e with
  | nil =>
    rw [joined, List.mem_append, not_or]
    refine ⟨first, ?_⟩
    cases trail with
    | none => exact List.not_mem_nil
    | some b => exact mt List.mem_cons.1 (not_or.2 ⟨comma, blank b rfl⟩)
  | cons e' es ih =>
    have others (x : Enumerator) (mem : x ∈ e' :: es) : c ∉ f x := h x (List.mem_cons_of_mem e mem)
    rw [joined, List.mem_append, List.mem_cons, not_or, not_or]
    exact ⟨first, comma, ih others (others e' List.mem_cons_self)⟩

theorem Valid.not_mem_text (h : r.Valid) {c : Char} (other : c = ';' ∨ c = '{' ∨ c = '}') :
    c ∉ r.text := by
  have apart : c ≠ ',' ∧ Text.isBlank c = false ∧ Text.isNameChar c = false := by
    rcases other with rfl | rfl | rfl <;> decide
  have notBlank {b : Text} (blank : b.all Text.isBlank = true) : c ∉ b :=
    Text.notMem_of_all blank apart.2.1
  have inside : c ∉ joined Enumerator.text r.trail r.first r.others := by
    refine not_mem_joined apart.1 (fun b some => notBlank (h.trail b some)) fun e mem => ?_
    have valid := h.values e mem
    rw [Enumerator.text, List.mem_append, List.mem_append, not_or, not_or]
    refine ⟨notBlank valid.lead, not_mem_of_isIdentifier valid.name apart.2.2, fun mem => ?_⟩
    have plain := valid.plain c mem
    rcases other with rfl | rfl | rfl
    · exact plain.1 rfl
    · exact plain.2.1 rfl
    · exact plain.2.2 rfl
  rw [text]
  cases start : r.start with
  | none => exact inside
  | some b =>
    show c ∉ b ++ ',' :: _
    rw [List.mem_append, List.mem_cons, not_or, not_or]
    exact ⟨notBlank (h.start b start), apart.1, inside⟩

/-- No stage but the one that records values has a use for a row. -/
theorem Valid.isValues (h : r.Valid) (m : Mode) : (Line.cut r.text).IsValues m := by
  obtain ⟨w, ws, cut, starts⟩ := h.exists_start
  have words : (Line.cut r.text).words = w :: ws := cut
  have first : r.first.Valid := h.values r.first List.mem_cons_self
  refine ⟨?_, ?_, ?_⟩
  · apply Line.unclaimed_of_first_word words
    · exact Line.not_externC words (starts.ne first (by decide))
    · exact starts.head_ne first (by decide) (by decide)
    · have foreign : ∀ k ∈ Line.keywords, isForeign k = true := by decide
      exact fun keyword => starts.ne first (foreign w keyword) rfl
  · intro mem
    exact h.not_mem_text (.inl rfl) (Token.mem_of_mem_wordsOf mem List.mem_cons_self)
  · have foreign : ∀ ks ∈ Conversion.accessWords, ks.head?.any isForeign = true := by decide
    rw [words]
    exact fun access => starts.ne first (foreign _ access) rfl

end EnumRow
end HeaderFlattening
