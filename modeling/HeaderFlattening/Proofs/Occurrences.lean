import Mathlib.Data.List.Infix
import HeaderFlattening.Proofs.Splicing

/-!
Replacing all occurrences of a text. The occurrences are told by where they start: each is the first
one that does not start within the one before it. The parts between them are what the replacement is
put between, and their lengths give the length of the result before it is built. That length is worked
out in 64 bits, which hold it unless the result is too long for any memory.
-/

set_option autoImplicit false
namespace HeaderFlattening.Text

/-- A stretch of a text, between two numbers of characters, and what is put in its place. -/
structure Patch where
  start : Nat
  stop : Nat
  text : Text

/-- The text from character `n` on with other text in the place of some stretches. -/
def patched (t : Text) (n : Nat) : List Patch → Text
  | [] => t.drop n
  | p :: ps => (t.drop n).take (p.start - n) ++ p.text ++ patched t p.stop ps

/-- A stretch that starts at the place where the text is taken up. -/
theorem patched_here (before s : Text) (stop : Nat) (text : Text) (ps : List Patch) :
    patched (before ++ s) before.length (⟨before.length, stop, text⟩ :: ps) =
      text ++ patched (before ++ s) stop ps := by
  simp [patched]

/-- A character in front of the first stretch stays. -/
theorem patched_cons (before : Text) (c : Char) (s : Text) {ps : List Patch}
    (later : ∀ p ∈ ps.head?, before.length < p.start) :
    patched (before ++ c :: s) before.length ps =
      c :: patched (before ++ c :: s) (before.length + 1) ps := by
  have here : (before ++ c :: s).drop before.length = c :: s := List.drop_left
  have next : (before ++ c :: s).drop (before.length + 1) = s := by
    rw [← List.drop_drop, here]
    rfl
  cases ps with
  | nil => rw [patched, patched, here, next]
  | cons p ps =>
    have behind := later p rfl
    obtain ⟨n, start⟩ : ∃ n, p.start - before.length = n + 1 :=
      ⟨p.start - before.length - 1, by omega⟩
    have less : p.start - (before.length + 1) = n := by omega
    rw [patched, patched, here, next, start, less]
    rfl

/-- Where `search` occurs in the text from character `n` on, each time at the first place behind the
last occurrence. -/
inductive Occurrences (search t : Text) : Nat → List Nat → Prop
  | none {n : Nat} (absent : ∀ k, n ≤ k → ¬ search <+: t.drop k) : Occurrences search t n []
  | next {n k : Nat} {ks : List Nat} (le : n ≤ k) (here : search <+: t.drop k)
      (first : ∀ j, n ≤ j → search <+: t.drop j → k ≤ j)
      (more : Occurrences search t (k + search.length) ks) : Occurrences search t n (k :: ks)

namespace Occurrences

variable {search t : Text} {n : Nat} {ks ls : List Nat}

theorem unique (h : Occurrences search t n ks) (h' : Occurrences search t n ls) : ks = ls := by
  induction h generalizing ls with
  | none absent =>
    cases h' with
    | none => rfl
    | next le here => exact absurd here (absent _ le)
  | next le here first more ih =>
    cases h' with
    | none absent => exact absurd here (absent _ le)
    | next le' here' first' more' =>
      obtain rfl := Nat.le_antisymm (first _ le' here') (first' _ le here)
      rw [ih more']

/-- The empty text occurs everywhere, so that its occurrences never end. -/
theorem ne_nil (h : Occurrences search t n ks) : search ≠ [] := by
  rintro rfl
  induction h with
  | none absent => exact absent _ (Nat.le_refl _) List.nil_prefix
  | next le here first more ih => exact ih

/-- A place where nothing occurs can be left out of the search. -/
theorem of_succ (h : Occurrences search t (n + 1) ks) (absent : ¬ search <+: t.drop n) :
    Occurrences search t n ks := by
  have later {k : Nat} (le : n ≤ k) (here : search <+: t.drop k) : n + 1 ≤ k := by
    rcases Nat.eq_or_lt_of_le le with rfl | lt
    · exact absurd here absent
    · exact lt
  cases h with
  | none none => exact .none fun k le here => none k (later le here) here
  | next le here first more =>
    exact .next (by omega) here (fun j le here => first j (later le here) here) more

theorem le_head (h : Occurrences search t n ks) : ∀ k ∈ ks.head?, n ≤ k := by
  cases h with
  | none => simp
  | next le => simpa using le

/-- There is an occurrence just if the text holds the one that is looked for. -/
theorem eq_nil_iff (h : Occurrences search t 0 ks) : ks = [] ↔ ¬ search <:+: t := by
  constructor
  · rintro rfl ⟨a, b, rfl⟩
    cases h with
    | none absent =>
      refine absent a.length (Nat.zero_le _) ?_
      rw [List.append_assoc, List.drop_left]
      exact List.prefix_append search b
  · intro absent
    cases h with
    | none => rfl
    | next le here => exact absurd (here.isInfix.trans (List.drop_suffix _ t).isInfix) absent

end Occurrences

theorem exists_split (search t : Text) : ∃ part parts, split search t = part :: parts := by
  fun_induction split search t with
  | case1 | case2 | case3 | case4 => exact ⟨_, _, rfl⟩

/-- The empty text cuts nothing. -/
theorem split_nil (t : Text) : split [] t = [t] := by
  induction t with
  | nil => rw [split]
  | cons c t ih =>
    rw [split, dif_neg (fun found => found.1 rfl), ih]

theorem join_append (delimiter front part : Text) (parts : List Text) :
    join delimiter ((front ++ part) :: parts) = front ++ join delimiter (part :: parts) := by
  cases parts with
  | nil => rfl
  | cons next parts => simp only [join, List.append_assoc]

/-- The text is put together again by what was looked for in it. -/
theorem join_split (search t : Text) : join search (split search t) = t := by
  fun_induction split search t with
  | case1 => rfl
  | case2 c t found ih =>
    obtain ⟨rest, source⟩ := List.isPrefixOf_iff_prefix.1 found.2
    obtain ⟨part, parts, cut⟩ := exists_split search ((c :: t).drop search.length)
    rw [cut] at ih ⊢
    calc
      join search ([] :: part :: parts) = search ++ join search (part :: parts) := rfl
      _ = c :: t := by rw [ih, ← source, List.drop_left]
  | case3 c t found none ih =>
    obtain ⟨part, parts, cut⟩ := exists_split search t
    simp [none] at cut
  | case4 c t found part parts cut ih =>
    rw [cut] at ih
    calc
      join search ((c :: part) :: parts) = [c] ++ join search (part :: parts) :=
        join_append search [c] part parts
      _ = c :: t := by rw [ih]; rfl

theorem byteLength_join (delimiter part : Text) (parts : List Text) :
    (join delimiter (part :: parts)).byteLength =
      byteLength (part :: parts).flatten + parts.length * delimiter.byteLength := by
  induction parts generalizing part with
  | nil => simp [join]
  | cons next parts ih =>
    simp only [join, byteLength_append, ih, List.flatten_cons, List.length_cons, Nat.succ_mul]
    omega

/-- A result is what stands between the occurrences with the replacement in their place. -/
theorem of_replaceAll {subject search replacement result : Text}
    (h : subject.replaceAll search replacement none = .ok (some result)) :
    1 < (split search subject).length ∧ result = join replacement (split search subject) := by
  unfold replaceAll at h
  split_ifs at h
  · cases h
  · simp only [] at h
    split_ifs at h with found
    · cases h
    · cases h
      exact ⟨by omega, rfl⟩

/-- The length of the result, worked out from the number of occurrences alone. -/
theorem byteLength_join_split (search replacement t : Text) :
    ((split search t).length - 1) * search.byteLength ≤ t.byteLength ∧
      t.byteLength - ((split search t).length - 1) * search.byteLength +
          ((split search t).length - 1) * replacement.byteLength =
        (join replacement (split search t)).byteLength := by
  obtain ⟨part, parts, cut⟩ := exists_split search t
  -- The lengths of the parts are common to the text and the result.
  have before := byteLength_join search part parts
  have after := byteLength_join replacement part parts
  rw [← cut, join_split] at before
  rw [← cut] at after
  rw [after, cut, List.length_cons, Nat.add_sub_cancel]
  rw [cut] at before
  omega

/-- The parts between the occurrences, joined by the replacement, are the text with the occurrences
replaced. -/
theorem exists_occurrences {search : Text} (ne : search ≠ []) (replacement before t : Text) :
    ∃ ks, Occurrences search (before ++ t) before.length ks ∧
      (split search t).length = ks.length + 1 ∧
      join replacement (split search t) = patched (before ++ t) before.length
        (ks.map fun k => ⟨k, k + search.length, replacement⟩) := by
  fun_induction split search t generalizing before with
  | case1 =>
    refine ⟨[], .none fun k le here => ?_, rfl, by simp [join, patched]⟩
    rw [List.append_nil, List.drop_eq_nil_of_le le] at here
    exact ne (List.prefix_nil.1 here)
  | case2 c t found ih =>
    obtain ⟨rest, source⟩ := List.isPrefixOf_iff_prefix.1 found.2
    rw [← source, List.drop_left] at ih ⊢
    obtain ⟨ks, occurrences, length, joined⟩ := ih (before ++ search)
    rw [List.append_assoc, List.length_append] at occurrences joined
    have here : search <+: (before ++ (search ++ rest)).drop before.length := by
      rw [List.drop_left]
      exact List.prefix_append search rest
    refine ⟨before.length :: ks, .next (Nat.le_refl _) here (fun j le _ => le) occurrences, ?_, ?_⟩
    · simp [length]
    · obtain ⟨part, parts, cut⟩ := exists_split search rest
      rw [List.map_cons, patched_here, ← joined, cut]
      rfl
  | case3 c t found none ih =>
    obtain ⟨part, parts, cut⟩ := exists_split search t
    simp [none] at cut
  | case4 c t found part parts cut ih =>
    obtain ⟨ks, occurrences, length, joined⟩ := ih (before ++ [c])
    rw [List.append_assoc, List.singleton_append, List.length_append, List.length_singleton]
      at occurrences joined
    have absent : ¬ search <+: (before ++ c :: t).drop before.length := by
      rw [List.drop_left]
      exact fun here => found ⟨ne, List.isPrefixOf_iff_prefix.2 here⟩
    refine ⟨ks, occurrences.of_succ absent, by rw [← length, cut]; rfl, ?_⟩
    rw [patched_cons, ← joined, cut]
    · exact join_append replacement [c] part parts
    · intro p mem
      rw [List.head?_map] at mem
      obtain ⟨k, head, rfl⟩ := Option.map_eq_some_iff.1 mem
      exact occurrences.le_head k head

/-- For every text that is looked for there is one list of occurrences, which is empty for the empty
text, and the parts joined by the replacement are the text with these replaced. -/
theorem exists_settled (search replacement t : Text) :
    ∃ ks, (∀ ls, Occurrences search t 0 ls ↔ search ≠ [] ∧ ls = ks) ∧
      (split search t).length - 1 = ks.length ∧
      join replacement (split search t) =
        patched t 0 (ks.map fun k => ⟨k, k + search.length, replacement⟩) := by
  by_cases empty : search = []
  · subst empty
    rw [split_nil]
    exact ⟨[], fun ls => iff_of_false (fun h => h.ne_nil rfl) fun h => h.1 rfl, rfl, rfl⟩
  · obtain ⟨ks, occurrences, length, joined⟩ := exists_occurrences empty replacement [] t
    refine ⟨ks, fun ls => ⟨fun h => ⟨empty, h.unique occurrences⟩, fun h => h.2 ▸ occurrences⟩, ?_,
      joined⟩
    rw [length, Nat.add_sub_cancel]

/-- The number, if a machine word holds it. -/
def word? (n : Nat) : Option Nat := if n < UInt64.size then some n else none

/-- The length of a result as it is worked out by a program that stops at the first step which does not
give a machine word; the length of the subject comes first. -/
def resultSize? (subject search replacement count : Nat) : Option Nat := do
  let whole ← word? subject
  let taken ← word? (count * search)
  guard (taken ≤ whole)
  let put ← word? (count * replacement)
  word? (whole - taken + put)

section

variable {subject search count : Nat}

/-- What the steps cut off does not change the lowest bits of the length. -/
theorem toNat_resultSize (le : count * search ≤ subject) (replacement : Nat) :
    (resultSize (.ofNat subject) (.ofNat search) (.ofNat replacement) (.ofNat count)).toNat =
      (subject - count * search + count * replacement) % UInt64.size := by
  rw [resultSize, ← UInt64.ofNat_mul, ← UInt64.ofNat_mul, ← UInt64.ofNat_sub le, ← UInt64.ofNat_add]
  exact UInt64.toNat_ofNat'

/-- No step stops the program that works out the length of a result, unless the length itself is no
machine word: what is taken is part of the subject, and what is put in is part of the result. -/
theorem resultSize?_eq (le : count * search ≤ subject) (replacement : Nat) :
    resultSize? subject search replacement count =
      if subject < UInt64.size ∧ subject - count * search + count * replacement < UInt64.size then
        some (subject - count * search + count * replacement)
      else none := by
  unfold resultSize? word?
  by_cases whole : subject < UInt64.size
  · have taken : count * search < UInt64.size := le.trans_lt whole
    have kept : guard (count * search ≤ subject) = some () := if_pos le
    rw [if_pos whole, if_pos taken, Option.bind_eq_bind, Option.bind_some, Option.bind_some, kept]
    by_cases put : count * replacement < UInt64.size
    · simp only [whole, put, true_and, if_true, Option.bind_eq_bind, Option.bind_some]
    · have long : ¬ subject - count * search + count * replacement < UInt64.size := by omega
      rw [if_neg put, if_neg (not_and_of_not_right _ long)]
      rfl
  · rw [if_neg whole, if_neg (not_and_of_not_left _ whole)]
    rfl

example : resultSize? 4294967296 1 4294967296 4294967296 = none ∧
    resultSize 4294967296 1 4294967296 4294967296 = 0 := by decide

end

example : replaceAll "aaaaa".toList "aa".toList "bcd".toList (some 6) = .error (.tooLong 7 6) := by
  cbv

end HeaderFlattening.Text
