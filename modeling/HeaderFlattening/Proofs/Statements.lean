import HeaderFlattening.Config.Toml
import HeaderFlattening.Proofs.Decimals
import HeaderFlattening.Proofs.Quoting
import Mathlib.Data.List.Forall2

/-!
The lines of a document that is written. Each line is read on its own, whatever stands below it: a key
with its value, a header, or nothing. Lines that follow one another say what each of them says, and
a document of sections with a blank line between each two says these sections.
-/

set_option autoImplicit false
namespace HeaderFlattening.Toml

open Reader

variable {k s t u rest : Text} {v : Value} {st : Statement} {sts more : List Statement}

/-! Keys -/

/-- A key that can stand without quotes. -/
def IsBareKey (k : Text) : Prop := k ≠ [] ∧ k.all isBareKeyChar = true

instance (k : Text) : Decidable (IsBareKey k) := inferInstanceAs (Decidable (_ ∧ _))

theorem IsBareKey.exists_cons (h : IsBareKey k) : ∃ c s, k = c :: s ∧ isInlineBlank c = false ∧
    c ≠ '"' ∧ c ≠ '\x27' ∧ c ≠ '[' ∧ c ≠ '#' ∧ c ≠ '\n' ∧ c ≠ '\r' := by
  obtain ⟨c, s, rfl⟩ := List.exists_cons_of_ne_nil h.1
  have first := List.all_eq_true.1 h.2 c List.mem_cons_self
  refine ⟨c, s, rfl, ?_, ?_, ?_, ?_, ?_, ?_, ?_⟩
  · rw [Bool.eq_false_iff]
    intro blank
    rcases Bool.or_eq_true_iff.1 blank with space | tab
    · rw [of_decide_eq_true space] at first
      exact absurd first (by decide)
    · rw [of_decide_eq_true tab] at first
      exact absurd first (by decide)
  all_goals
    rintro rfl
    exact absurd first (by decide)

theorem skipBlanks_of_ne {c : Char} (h : isInlineBlank c = false) (s : Text) :
    skipBlanks (c :: s) = c :: s :=
  List.dropWhile_cons_of_neg (by rw [h]; exact Bool.false_ne_true)

theorem IsBareKey.skipBlanks (h : IsBareKey k) (s : Text) : Reader.skipBlanks (k ++ s) = k ++ s := by
  obtain ⟨c, k, rfl, blank, -⟩ := h.exists_cons
  exact skipBlanks_of_ne blank _

theorem IsBareKey.bareKey (h : IsBareKey k) (ends : ∀ c ∈ s.head?, isBareKeyChar c = false) :
    Toml.bareKey (k ++ s) = some (k, s) := by
  have taken : (k ++ s).takeWhile isBareKeyChar = k := by
    rw [List.takeWhile_append_of_pos (List.all_eq_true.1 h.2)]
    cases s with
    | nil => exact List.append_nil k
    | cons c s =>
      rw [List.takeWhile_cons_of_neg (by rw [ends c rfl]; exact Bool.false_ne_true), List.append_nil]
  have left : (k ++ s).dropWhile isBareKeyChar = s := by
    rw [List.dropWhile_append_of_pos (List.all_eq_true.1 h.2)]
    cases s with
    | nil => rfl
    | cons c s => exact List.dropWhile_cons_of_neg (by rw [ends c rfl]; exact Bool.false_ne_true)
  unfold Toml.bareKey
  rw [taken, left, if_neg]
  exact fun empty => h.1 (List.isEmpty_iff.1 empty)

theorem IsBareKey.keyPart (h : IsBareKey k) (ends : ∀ c ∈ s.head?, isBareKeyChar c = false) :
    Toml.keyPart (k ++ s) = some (k, Reader.skipBlanks s) := by
  have unquoted : lineString (k ++ s) = none := by
    obtain ⟨c, k, rfl, -, double, single, -⟩ := h.exists_cons
    unfold lineString
    split
    · rename_i eq
      exact absurd (List.cons.inj eq).1 double
    · rename_i eq
      exact absurd (List.cons.inj eq).1 single
    · rfl
  unfold Toml.keyPart Reader.orElse
  rw [h.skipBlanks, unquoted, h.bareKey ends]
  rfl

theorem IsBareKey.key (h : IsBareKey k) (ends : ∀ c ∈ s.head?, isBareKeyChar c = false)
    (dot : (Reader.skipBlanks s).head? ≠ some '.') :
    Toml.key (k ++ s) = some ([k], Reader.skipBlanks s) := by
  have single : char '.' (Reader.skipBlanks s) = none := by
    cases behind : Reader.skipBlanks s with
    | nil => rfl
    | cons c rest =>
      rw [behind] at dot
      exact if_neg fun eq => dot (congrArg some eq)
  have alone : many (fun s => (char '.' s).bind fun r => Toml.keyPart r.2) (Reader.skipBlanks s) =
      ([], Reader.skipBlanks s) := by
    rw [many, single]
    rfl
  unfold Toml.key separated
  rw [h.keyPart ends]
  simp only [Option.bind_eq_bind, Option.bind_some]
  rw [alone]
  rfl

/-! Values -/

/-- Before the end of a line, the text is read as the value. -/
structure Denotes (t : Text) (v : Value) : Prop where
  solid : ∀ rest, skipBlanks (t ++ '\n' :: rest) = t ++ '\n' :: rest
  read : ∀ rest, value (depthLimit - 1) (t ++ '\n' :: rest) = some (v, '\n' :: rest)

theorem exists_writeString (t : Text) : ∃ q s, writeString t = q :: s ∧ (q = '"' ∨ q = '\x27') := by
  unfold writeString
  cases Form.of t with
  | basic | basicLines => exact ⟨'"', _, rfl, .inl rfl⟩
  | literal | literalLines => exact ⟨'\x27', _, rfl, .inr rfl⟩

theorem denotes_writeString (t : Text) : Denotes (writeString t) (.string t) := by
  obtain ⟨q, s, eq, quote⟩ := exists_writeString t
  refine ⟨fun rest => ?_, fun rest => ?_⟩
  · rw [eq]
    refine skipBlanks_of_ne ?_ _
    rcases quote with rfl | rfl <;> decide
  · have read : string (writeString t ++ '\n' :: rest) = some (t, '\n' :: rest) :=
      string_writeString (by rw [List.head?_cons]; decide) (by rw [List.head?_cons]; decide) t
    rw [eq, List.cons_append] at read ⊢
    rw [value.eq_def]
    dsimp only
    rw [if_pos (by simpa using quote), read]
    rfl

theorem denotes_ofNat {n : Nat} (h : n < integerBound) : Denotes (Text.ofNat n) (.integer n) := by
  refine ⟨fun rest => ?_, value_ofNat h (depthLimit - 1)⟩
  obtain ⟨d, ds, eq, digit, -⟩ := exists_ofNat n
  rw [eq]
  refine skipBlanks_of_ne ?_ _
  rw [Bool.eq_false_iff]
  intro blank
  rcases Bool.or_eq_true_iff.1 blank with space | tab
  · rw [of_decide_eq_true space] at digit
    exact absurd digit (by decide)
  · rw [of_decide_eq_true tab] at digit
    exact absurd digit (by decide)

theorem number_of_not_digit {c : Char} (h : c.isDigit = false) (n : Nat) (s : Text) :
    Moment.number (n + 1) (c :: s) = none := by
  simp [Moment.number, h]

theorem value_bracket (depth : Nat) (rest : Text) : value depth (']' :: rest) = none := by
  have noMoment : moment (']' :: rest) = none := by
    have four := number_of_not_digit (c := ']') rfl 3 rest
    have two := number_of_not_digit (c := ']') rfl 1 rest
    unfold moment Reader.orElse Moment.dateAndTime Moment.date Moment.time Moment.between
    rw [four, two]
    rfl
  rw [value.eq_def]
  unfold Reader.orElse
  dsimp only
  rw [noMoment]
  rfl

theorem separated_eq_none {α : Type} {p : Reader α} (h : p s = none) (separator : Char) :
    separated separator p s = none := by
  unfold separated
  rw [h]
  rfl

theorem denotes_brackets : Denotes ['[', ']'] (.array []) := by
  refine ⟨fun rest => rfl, fun rest => ?_⟩
  have gaps : skipGaps (']' :: '\n' :: rest) = ']' :: '\n' :: rest := by
    unfold skipGaps
    rw [many]
    rfl
  change arrayRest (value (depthLimit - 2)) (']' :: '\n' :: rest) = _
  unfold arrayRest
  dsimp only
  rw [separated_eq_none, gaps]
  · rfl
  · rw [gaps, value_bracket]
    rfl

/-! Lines -/

/-- The line is read as the statement, whatever stands below it. -/
def IsLine (t : Text) (st : Statement) : Prop :=
  t ≠ [] ∧ ∀ rest, statement (t ++ rest) = some (st, rest)

theorem isLine_of_content (solid : ∀ rest, skipBlanks (t ++ '\n' :: rest) = t ++ '\n' :: rest)
    (read : ∀ rest, content (t ++ '\n' :: rest) = some (st, '\n' :: rest)) :
    IsLine (t ++ ['\n']) st := by
  refine ⟨by simp, fun rest => ?_⟩
  unfold statement
  rw [List.append_assoc, List.singleton_append, solid, read]
  rfl

theorem isLine_blank : IsLine ['\n'] .blank := isLine_of_content (t := []) (fun _ => rfl) fun _ => rfl

theorem content_assignment {c : Char} {a : Assignment} (bracket : c ≠ '[')
    (others : c ≠ '#' ∧ c ≠ '\n' ∧ c ≠ '\r')
    (read : assignment (value (depthLimit - 1)) (c :: s) = some (a, rest)) :
    content (c :: s) = some (.assignment a, rest) := by
  rw [content, if_neg bracket, if_neg (by simp [others]), read]
  rfl

theorem isLine_tomlLine (key : IsBareKey k) (h : Denotes t v) :
    IsLine (Config.tomlLine k t) (.assignment ⟨[k], v⟩) := by
  have source : Config.tomlLine k t = (k ++ ' ' :: '=' :: ' ' :: t) ++ ['\n'] := by
    simp [Config.tomlLine]
  rw [source]
  refine isLine_of_content (fun rest => ?_) fun rest => ?_
  · rw [List.append_assoc, key.skipBlanks]
  · have path : Toml.key (k ++ ' ' :: '=' :: ' ' :: (t ++ '\n' :: rest)) =
        some ([k], '=' :: ' ' :: (t ++ '\n' :: rest)) :=
      key.key (by rintro c ⟨⟩; rfl) fun eq => absurd (Option.some.inj eq) (by decide)
    have behind : skipBlanks (' ' :: (t ++ '\n' :: rest)) = t ++ '\n' :: rest := h.solid rest
    have assigned : assignment (value (depthLimit - 1)) (k ++ ' ' :: '=' :: ' ' :: (t ++ '\n' :: rest)) =
        some (⟨[k], v⟩, '\n' :: rest) := by
      unfold assignment
      rw [path]
      change (value (depthLimit - 1) (skipBlanks (' ' :: (t ++ '\n' :: rest)))).bind _ = _
      rw [behind, h.read]
      rfl
    rw [List.append_assoc]
    obtain ⟨c, k, rfl, -, -, -, bracket, others⟩ := key.exists_cons
    exact content_assignment bracket others assigned

/-- The line with a header of one part. -/
def headerLine (repeated : Bool) (k : Text) : Text :=
  if repeated then '[' :: '[' :: (k ++ [']', ']', '\n']) else '[' :: (k ++ [']', '\n'])

theorem key_header (key : IsBareKey k) (rest : Text) :
    Toml.key (k ++ ']' :: rest) = some ([k], ']' :: rest) :=
  key.key (by rintro c ⟨⟩; rfl) fun eq => absurd (Option.some.inj eq) (by decide)

theorem isLine_headerLine (key : IsBareKey k) (repeated : Bool) :
    IsLine (headerLine repeated k) (.header repeated [k]) := by
  cases repeated with
  | true =>
    have source : headerLine true k = '[' :: '[' :: (k ++ [']', ']']) ++ ['\n'] := by
      simp [headerLine]
    rw [source]
    refine isLine_of_content (fun rest => rfl) fun rest => ?_
    rw [List.cons_append, List.cons_append, List.append_assoc, content, if_pos rfl, header]
    rw [List.cons_append, key_header key]
    rfl
  | false =>
    have source : headerLine false k = '[' :: (k ++ [']']) ++ ['\n'] := by
      simp [headerLine]
    rw [source]
    refine isLine_of_content (fun rest => rfl) fun rest => ?_
    have read := key_header key ('\n' :: rest)
    obtain ⟨c, k, rfl, -, -, -, bracket, -⟩ := key.exists_cons
    rw [List.cons_append, List.append_assoc, content, if_pos rfl]
    rw [List.cons_append] at read
    rw [List.cons_append, header]
    · change (Toml.key (c :: (k ++ ']' :: '\n' :: rest))).bind _ = _
      rw [read]
      rfl
    · exact fun _ eq => bracket (List.cons.inj eq).1

/-! Documents -/

/-- The lines are read as these statements, whatever stands below them. -/
def Tells (t : Text) (sts : List Statement) : Prop :=
  ∀ rest, many statement (t ++ rest) = (sts ++ (many statement rest).1, (many statement rest).2)

theorem tells_nil : Tells [] [] := fun _ => rfl

theorem Tells.append (h : Tells t sts) (k : Tells u more) : Tells (t ++ u) (sts ++ more) := by
  intro rest
  rw [List.append_assoc, h, k, List.append_assoc]

theorem IsLine.tells (h : IsLine t st) : Tells t [st] := by
  intro rest
  have shorter : rest.length < (t ++ rest).length := by
    have := List.length_pos_iff.2 h.1
    rw [List.length_append]
    omega
  rw [many, h.2]
  exact dif_pos shorter

theorem Tells.tomlLine (h : Tells t sts) (key : IsBareKey k) (value : Denotes u v) :
    Tells (t ++ Config.tomlLine k u) (sts ++ [.assignment ⟨[k], v⟩]) :=
  h.append (isLine_tomlLine key value).tells

/-- What a section of a document says. -/
def Section.statements (s : Section) : List Statement :=
  .header s.repeated s.path :: s.body.map .assignment

/-- What sections say with a blank line between each two. -/
def spaced : List Section → List Statement
  | [] => []
  | [s] => s.statements
  | s :: more => s.statements ++ .blank :: spaced more

theorem tells_join {texts : List Text} {parts : List Section}
    (h : List.Forall₂ (fun t s => Tells t s.statements) texts parts) :
    Tells (Text.join ['\n'] texts) (spaced parts) := by
  induction h with
  | nil => exact tells_nil
  | @cons t s texts parts first others ih =>
    cases others with
    | nil => exact first
    | @cons u r texts parts _ _ =>
      have all := first.append (isLine_blank.tells.append ih)
      rw [← List.append_assoc] at all
      exact all

theorem sections_map_assignment (body : List Assignment) (more : List Statement) :
    sections (body.map .assignment ++ more) = (body ++ (sections more).1, (sections more).2) := by
  induction body with
  | nil => rfl
  | cons a body ih =>
    rw [List.map_cons, List.cons_append, sections, ih]
    rfl

/-- A document of sections has these sections. -/
theorem sections_spaced (parts : List Section) : sections (spaced parts) = ([], parts) := by
  induction parts with
  | nil => rfl
  | cons s parts ih =>
    have body := sections_map_assignment s.body
    cases parts with
    | nil =>
      have alone := body []
      rw [List.append_nil] at alone
      change sections (s.statements) = _
      rw [Section.statements, sections, alone]
      simp [sections]
    | cons next parts =>
      rw [spaced, Section.statements, List.cons_append, sections, body, sections, ih]
      · simp
      · exact List.cons_ne_nil next parts

theorem parse?_of_tells (h : Tells t sts) (mark : t.head? ≠ some '\ufeff') :
    parse? t = Entries.ofSections (sections sts).1 (sections sts).2 := by
  have read : many statement t = (sts, []) := by
    have all := h []
    have done : many statement [] = ([], []) := by
      rw [many]
      rfl
    rw [List.append_nil, done, List.append_nil] at all
    exact all
  have kept : skipByteOrderMark t = t := by
    unfold skipByteOrderMark
    split
    · exact absurd rfl mark
    · rfl
  unfold parse?
  rw [kept, read]

end HeaderFlattening.Toml
