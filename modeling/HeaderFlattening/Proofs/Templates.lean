import Mathlib.Data.List.Induction
import HeaderFlattening.Pattern.Template
import HeaderFlattening.Proofs.Splicing

/-!
Templates read from left to right. A reading cuts a template into references and single characters, and
there is just one for each template. The pass over the bytes gives what the parts of the reading stand
for, behind what was put out before it. A byte of a character beyond ASCII is never taken for a part of
a reference, so that each slice of the template lies between characters.
-/

set_option autoImplicit false
namespace HeaderFlattening

namespace Text

theorem bytes_cons (c : Char) (t : Text) : bytes (c :: t) = String.utf8EncodeChar c ++ t.bytes :=
  List.flatMap_cons

/-- A character of ASCII is one byte, and none of the bytes of another character is of ASCII. -/
theorem encoded (c : Char) :
    (∃ b, String.utf8EncodeChar c = [b] ∧ Char.ofUInt8 b = c) ∨
      128 ≤ c.toNat ∧ ∀ b ∈ String.utf8EncodeChar c, 128 ≤ (Char.ofUInt8 b).toNat := by
  have size (n : Nat) : (Char.ofUInt8 (UInt8.ofNat n)).toNat = n % 256 := UInt8.toNat_ofNat'
  rcases Nat.lt_or_ge c.toNat 128 with ascii | beyond
  · left
    refine ⟨UInt8.ofNat c.toNat, if_pos (Nat.le_of_lt_succ ascii), ?_⟩
    rw [← Char.toNat_inj, size]
    omega
  · right
    refine ⟨beyond, fun b mem => ?_⟩
    simp only [String.utf8EncodeChar, Char.toNat_val, if_neg (show ¬ c.toNat ≤ 127 by omega)] at mem
    split_ifs at mem
    all_goals
      simp only [List.mem_cons, List.not_mem_nil, or_false] at mem
      rcases mem with rfl | rfl | rfl | rfl <;> rw [size] <;> omega

/-- The dollar sign is not a part of another character. -/
theorem ne_dollar_of_mem {c : Char} (plain : c ≠ '$') {b : UInt8}
    (mem : b ∈ String.utf8EncodeChar c) : Char.ofUInt8 b ≠ '$' := by
  rcases encoded c with ⟨d, single, rfl⟩ | ⟨-, high⟩
  · rw [single, List.mem_singleton] at mem
    rwa [mem]
  · intro dollar
    have beyond := high b mem
    rw [dollar] at beyond
    exact absurd beyond (by decide)

end Text

namespace Pattern

variable {groups : Nat} {h : Hit}

theorem groupRef?_eq_some_iff {d : Char} {i : Nat} :
    groupRef? groups d = some i ↔ i ≤ 9 ∧ i ≤ groups ∧ d = Nat.digitChar i := by
  have zero : '0'.toNat = 48 := rfl
  have nine : '9'.toNat = 57 := rfl
  unfold groupRef?
  rw [Option.ite_none_right_eq_some, Bool.and_eq_true, Char.isDigit_iff_toNat, decide_eq_true_eq,
    Option.some.injEq]
  constructor
  · rintro ⟨⟨range, known⟩, rfl⟩
    have low : d.toNat - '0'.toNat < 10 := by omega
    refine ⟨Nat.le_of_lt_succ low, known, Char.toNat_inj.1 ?_⟩
    rw [Nat.toNat_digitChar_of_lt_ten low]
    omega
  · rintro ⟨low, known, rfl⟩
    rw [Nat.toNat_digitChar_of_lt_ten (Nat.lt_succ_of_le low)]
    omega

theorem reference?_eq_none_iff {d : Char} : reference? groups h d = none ↔
    d ≠ '$' ∧ ∀ i, i ≤ 9 → i ≤ groups → d ≠ Nat.digitChar i := by
  unfold reference?
  split_ifs with dollar
  · simp [dollar]
  · rw [Option.map_eq_none_iff, Option.eq_none_iff_forall_not_mem]
    simp [dollar, groupRef?_eq_some_iff]

/-- Only characters of ASCII make references. -/
theorem reference?_eq_none {d : Char} (beyond : 128 ≤ d.toNat) : reference? groups h d = none := by
  refine reference?_eq_none_iff.2 ⟨?_, fun i digit _ => ?_⟩
  · rintro rfl
    exact absurd beyond (by decide)
  · rintro rfl
    rw [Nat.toNat_digitChar_of_lt_ten (Nat.lt_succ_of_le digit)] at beyond
    omega

theorem utf8Size_of_reference? {d : Char} {part : Text} (found : reference? groups h d = some part) :
    d.utf8Size = 1 := by
  rcases Text.encoded d with ⟨b, single, -⟩ | ⟨beyond, -⟩
  · rw [← String.length_utf8EncodeChar, single]
    rfl
  · simp [reference?_eq_none beyond] at found

/-- A dollar sign and the character behind it. -/
theorem expand_dollar (d : Char) (t : Text) :
    expand groups h ('$' :: d :: t) =
      match reference? groups h d with
      | some part => part ++ expand groups h t
      | none => '$' :: expand groups h (d :: t) := by
  rw [expand, if_pos rfl, reference?]
  split_ifs with dollar
  · rfl
  · cases groupRef? groups d <;> rfl

theorem expand_plain {c : Char} (plain : c ≠ '$') (t : Text) :
    expand groups h (c :: t) = c :: expand groups h t := by
  cases t with
  | nil => rfl
  | cons d t => rw [expand, if_neg plain]

variable (template out : Text) (start i : Nat)

/-- A byte that cannot start a reference is passed over. -/
theorem expandFrom_cons {b : UInt8} (plain : Char.ofUInt8 b ≠ '$') (bytes : List UInt8) :
    expandFrom groups h template start i out (b :: bytes) =
      expandFrom groups h template start (i + 1) out bytes := by
  cases bytes with
  | nil => rfl
  | cons d bytes => rw [expandFrom, if_neg plain]

/-- A character other than the dollar sign is passed over, with all its bytes. -/
theorem expandFrom_plain {c : Char} (plain : c ≠ '$') (t : Text) :
    expandFrom groups h template start i out (Text.bytes (c :: t)) =
      expandFrom groups h template start (i + c.utf8Size) out t.bytes := by
  have other : ∀ b ∈ String.utf8EncodeChar c, Char.ofUInt8 b ≠ '$' :=
    fun b mem => Text.ne_dollar_of_mem plain mem
  rw [← String.length_utf8EncodeChar, Text.bytes_cons]
  generalize String.utf8EncodeChar c = bs at other
  induction bs generalizing i with
  | nil => rfl
  | cons b bs ih =>
    rw [List.forall_mem_cons] at other
    rw [List.cons_append, expandFrom_cons _ _ _ _ other.1, ih _ other.2, List.length_cons,
      Nat.add_assoc, Nat.add_comm 1]

/-- A reference ends a slice; else the dollar sign is passed over. -/
theorem expandFrom_dollar (d : Char) (t : Text) :
    expandFrom groups h template start i out (Text.bytes ('$' :: d :: t)) =
      match reference? groups h d with
      | some part => do
        let literal ← Text.slice? template start i
        expandFrom groups h template (i + 2) (i + 2) (out ++ literal ++ part) t.bytes
      | none => expandFrom groups h template start (i + 1) out (Text.bytes (d :: t)) := by
  have sign : String.utf8EncodeChar '$' = ['$'.toUInt8] := rfl
  have same : Char.ofUInt8 '$'.toUInt8 = '$' := rfl
  rcases Text.encoded d with ⟨b, single, ascii⟩ | ⟨beyond, high⟩
  · rw [Text.bytes_cons, Text.bytes_cons, sign, single, List.singleton_append, List.singleton_append]
    cases found : reference? groups h d with
    | none => rw [expandFrom, if_pos same, ascii, found]
    | some part => rw [expandFrom, if_pos same, ascii, found]
  · cases bytes : String.utf8EncodeChar d with
    | nil => exact absurd bytes (String.utf8EncodeChar_ne_nil)
    | cons b bs =>
      rw [Text.bytes_cons, Text.bytes_cons, sign, bytes, List.singleton_append, List.cons_append,
        expandFrom, if_pos same, reference?_eq_none beyond,
        reference?_eq_none (high b (by rw [bytes]; exact List.mem_cons_self))]

theorem expandFrom_nil (seen pending : Text) :
    expandFrom groups h (seen ++ pending) seen.byteLength i out [] = some (out ++ pending) := by
  rw [expandFrom, Text.slice?_right]
  · rfl
  · simp

/-- The pass from any place of a template on, with `pending` not copied yet. -/
theorem expandFrom_eq (seen pending rest : Text) :
    expandFrom groups h (seen ++ (pending ++ rest)) seen.byteLength
        (Text.byteLength (seen ++ pending)) out rest.bytes =
      some (out ++ (pending ++ expand groups h rest)) := by
  induction rest using List.twoStepInduction generalizing seen pending out with
  | nil => simpa [expand, Text.bytes] using expandFrom_nil out _ seen pending
  | singleton c =>
    -- The last character is copied with what is pending, whatever it is.
    have ends := @expandFrom_nil groups h out
    rw [show expand groups h [c] = [c] from rfl]
    by_cases sign : c = '$'
    · rw [sign]
      exact ends 0 seen (pending ++ ['$'])
    · rw [expandFrom_plain _ _ _ _ sign]
      exact ends _ seen (pending ++ [c])
  | cons_cons c d t ih ihd =>
    have pass : expandFrom groups h (seen ++ (pending ++ c :: d :: t)) seen.byteLength
        (Text.byteLength (seen ++ pending) + c.utf8Size) out (Text.bytes (d :: t)) =
        some (out ++ (pending ++ c :: expand groups h (d :: t))) := by
      have step := ihd d out seen (pending ++ [c])
      simpa [Text.byteLength, Nat.add_assoc] using step
    by_cases sign : c = '$'
    · subst sign
      rw [expandFrom_dollar, expand_dollar]
      cases found : reference? groups h d with
      | none => exact pass
      | some part =>
        have size := utf8Size_of_reference? found
        have step := ih (out ++ pending ++ part) (seen ++ (pending ++ ['$', d])) []
        have next : Text.byteLength (seen ++ (pending ++ ['$', d])) =
            Text.byteLength (seen ++ pending) + 2 := by
          simp only [Text.byteLength_append, Text.byteLength, size, Nat.add_assoc]
          rfl
        simp only [Text.slice?_append, Option.bind_eq_bind, Option.bind_some, ← next]
        simpa using step
    · rw [expandFrom_plain _ _ _ _ sign, expand_plain sign]
      exact pass

theorem expandBehind?_eq (groups : Nat) (h : Hit) (template out : Text) :
    expandBehind? groups h template out = some (out ++ expand groups h template) :=
  expandFrom_eq out [] [] template

/-- A part of a template: a character that stands for itself or a reference to a group. -/
inductive Part where
  | char (c : Char)
  | group (i : Nat)

/-- What a part stands for where the template is filled from a match. A group that took nothing stands
for nothing. -/
def Part.value (h : Hit) : Part → Text
  | .char c => [c]
  | .group i => (h.group? i).getD []

/-- The parts of a template, read from left to right. Two dollar signs are one, which starts nothing;
one before the digit of a group is a reference; one before anything else, or at the end, is a character
like all others. -/
inductive Reads (groups : Nat) : Text → List Part → Prop
  | done : Reads groups [] []
  | dollars {t : Text} {ps : List Part} (rest : Reads groups t ps) :
      Reads groups ('$' :: '$' :: t) (.char '$' :: ps)
  | group {d : Char} {t : Text} {ps : List Part} {i : Nat} (digit : i ≤ 9) (known : i ≤ groups)
      (named : d = Nat.digitChar i) (rest : Reads groups t ps) :
      Reads groups ('$' :: d :: t) (.group i :: ps)
  | lone {t : Text} {ps : List Part}
      (apart : ∀ d ∈ t.head?, d ≠ '$' ∧ ∀ i, i ≤ 9 → i ≤ groups → d ≠ Nat.digitChar i)
      (rest : Reads groups t ps) : Reads groups ('$' :: t) (.char '$' :: ps)
  | other {c : Char} {t : Text} {ps : List Part} (plain : c ≠ '$') (rest : Reads groups t ps) :
      Reads groups (c :: t) (.char c :: ps)

theorem digitChar_ne_dollar {i : Nat} (digit : i ≤ 9) : Nat.digitChar i ≠ '$' := by
  intro same
  have value := Nat.toNat_digitChar_of_lt_ten (Nat.lt_succ_of_le digit)
  rw [same] at value
  have sign : '$'.toNat = 36 := rfl
  omega

theorem digitChar_inj {i j : Nat} (hi : i ≤ 9) (hj : j ≤ 9) (h : Nat.digitChar i = Nat.digitChar j) :
    i = j := by
  have left := Nat.toNat_digitChar_of_lt_ten (Nat.lt_succ_of_le hi)
  have right := Nat.toNat_digitChar_of_lt_ten (Nat.lt_succ_of_le hj)
  rw [h] at left
  omega

/-- Each template is read, and its parts stand for the filled template. -/
theorem exists_reads (groups : Nat) (h : Hit) (template : Text) :
    ∃ ps, Reads groups template ps ∧ ps.flatMap (Part.value h) = expand groups h template := by
  induction template using List.twoStepInduction with
  | nil => exact ⟨[], .done, rfl⟩
  | singleton c =>
    refine ⟨[.char c], ?_, rfl⟩
    by_cases sign : c = '$'
    · rw [sign]
      exact .lone (by simp) .done
    · exact .other sign .done
  | cons_cons c d t ih ihd =>
    by_cases sign : c = '$'
    · subst sign
      rw [expand_dollar]
      cases found : reference? groups h d with
      | none =>
        obtain ⟨ps, reads, value⟩ := ihd d
        refine ⟨.char '$' :: ps, .lone (fun e mem => ?_) reads, by rw [List.flatMap_cons, value]; rfl⟩
        obtain rfl := Option.some.inj mem
        exact reference?_eq_none_iff.1 found
      | some part =>
        obtain ⟨ps, reads, value⟩ := ih
        unfold reference? at found
        split_ifs at found with dollar
        · obtain rfl := Option.some.inj found
          exact ⟨.char '$' :: ps, dollar ▸ .dollars reads, by rw [List.flatMap_cons, value]; rfl⟩
        · obtain ⟨i, group, rfl⟩ := Option.map_eq_some_iff.1 found
          obtain ⟨digit, known, named⟩ := groupRef?_eq_some_iff.1 group
          exact ⟨.group i :: ps, .group digit known named reads, by rw [List.flatMap_cons, value]; rfl⟩
    · obtain ⟨ps, reads, value⟩ := ihd d
      refine ⟨.char c :: ps, .other sign reads, ?_⟩
      rw [List.flatMap_cons, value, expand_plain sign]
      rfl

/-- A template is read in one way only. -/
theorem Reads.unique {t : Text} {ps qs : List Part} (hp : Reads groups t ps) (hq : Reads groups t qs) :
    ps = qs := by
  induction hp generalizing qs with
  | done =>
    cases hq
    rfl
  | dollars rest ih =>
    cases hq with
    | dollars more => rw [ih more]
    | group digit known named => exact absurd named.symm (digitChar_ne_dollar digit)
    | lone apart => exact absurd rfl (apart '$' rfl).1
    | other plain => exact absurd rfl plain
  | group digit known named rest ih =>
    cases hq with
    | dollars => exact absurd named.symm (digitChar_ne_dollar digit)
    | group digit' known' named' more =>
      rw [digitChar_inj digit digit' (named.symm.trans named'), ih more]
    | lone apart => exact absurd named ((apart _ rfl).2 _ digit known)
    | other plain => exact absurd rfl plain
  | lone apart rest ih =>
    cases hq with
    | dollars => exact absurd rfl (apart '$' rfl).1
    | group digit known named => exact absurd named ((apart _ rfl).2 _ digit known)
    | lone apart' more => rw [ih more]
    | other plain => exact absurd rfl plain
  | other plain rest ih =>
    cases hq with
    | dollars | group | lone => exact absurd rfl plain
    | other plain' more => rw [ih more]

/-- A template has one reading. The pass over its bytes always comes to an end with a result: what was
put out before it, and then what the parts of the reading stand for, in their order. -/
theorem expandBehind?_reads (groups : Nat) (h : Hit) (template out : Text) :
    ∃ ps : List Part,
      (∀ qs, Reads groups template qs ↔ qs = ps) ∧
      expandBehind? groups h template out = some (out ++ ps.flatMap (Part.value h)) ∧
      expand groups h template = ps.flatMap (Part.value h) := by
  obtain ⟨ps, reads, value⟩ := exists_reads groups h template
  refine ⟨ps, fun qs => ⟨fun other => other.unique reads, fun same => same ▸ reads⟩, ?_, value.symm⟩
  rw [expandBehind?_eq, value]

example : expandBehind? 2 ⟨"a=é".toList, fun i => if i = 2 then some "é".toList else none⟩
    "ü$$2$2$1$7$".toList ">".toList = some ">ü$2é$7$".toList := by cbv

/-- The template that stands for a text, whatever the match. -/
def escaped (u : Text) : Text := u.flatMap fun c => if c = '$' then ['$', '$'] else [c]

theorem expand_escaped (groups : Nat) (h : Hit) (u : Text) : expand groups h (escaped u) = u := by
  induction u with
  | nil => rfl
  | cons c u ih =>
    unfold escaped at ih ⊢
    rw [List.flatMap_cons]
    split_ifs with sign
    · rw [sign, List.cons_append, List.singleton_append, expand_dollar, reference?, if_pos rfl]
      exact congrArg ('$' :: ·) ih
    · rw [List.singleton_append, expand_plain sign, ih]

/-- The reference to group 0 stands for the whole match. -/
theorem expand_whole (groups : Nat) (h : Hit) : expand groups h "$0".toList = h.taken := by
  have whole : reference? groups h '0' = some h.taken := rfl
  exact (expand_dollar '0' []).trans (by rw [whole]; exact List.append_nil _)

end Pattern
end HeaderFlattening
