import HeaderFlattening.Proofs.Spans

/-!
Splicing told in bytes. A span lies in a text if it does not go past the end and both of its ends fall
between characters; then the result is what stands before it, the replacement and what stands behind
it, and the piece that was taken out can be put back.
-/

set_option autoImplicit false
namespace HeaderFlattening.Text

/-- The byte offset falls between two characters of the text or at one of its ends. -/
def IsBoundary (t : Text) (n : Nat) : Prop := ∃ a b, t = a ++ b ∧ byteLength a = n

theorem bytes_append (s t : Text) : (s ++ t).bytes = s.bytes ++ t.bytes := List.flatMap_append

theorem length_bytes (t : Text) : t.bytes.length = t.byteLength := by
  induction t with
  | nil => rfl
  | cons c t ih =>
    have head : bytes (c :: t) = String.utf8EncodeChar c ++ bytes t := List.flatMap_cons
    rw [head, List.length_append, String.length_utf8EncodeChar, ih, byteLength]

theorem isBoundary_iff (t : Text) (n : Nat) : t.IsBoundary n ↔ (t.splitAt? n).isSome = true := by
  constructor
  · rintro ⟨a, b, rfl, rfl⟩
    rw [splitAt?_append, Option.isSome_some]
  · intro h
    obtain ⟨⟨a, b⟩, split⟩ := Option.isSome_iff_exists.1 h
    obtain ⟨whole, size⟩ := append_of_splitAt? split
    exact ⟨a, b, whole.symm, size⟩

instance (t : Text) (n : Nat) : Decidable (t.IsBoundary n) :=
  decidable_of_iff _ (isBoundary_iff t n).symm

/-- Two boundaries cut a text into three parts. -/
theorem exists_parts {t : Text} {start length : Nat} (opening : t.IsBoundary start)
    (closing : t.IsBoundary (start + length)) :
    ∃ before removed after, t = before ++ (removed ++ after) ∧ before.byteLength = start ∧
      removed.byteLength = length := by
  obtain ⟨before, rest, rfl, rfl⟩ := opening
  obtain ⟨front, after, same, size⟩ := closing
  rcases List.append_eq_append_iff.1 same with ⟨removed, rfl, rfl⟩ | ⟨m, rfl, rfl⟩
  · refine ⟨before, removed, after, rfl, rfl, ?_⟩
    rw [byteLength_append] at size
    omega
  · -- The second boundary is not in front of the first one, so nothing stands between them.
    have empty : byteLength m = 0 ∧ length = 0 := by
      rw [byteLength_append] at size
      omega
    refine ⟨front ++ m, [], rest, rfl, rfl, empty.2.symm⟩

/-- The text, if it fits. -/
def fitted (capacity : Option Nat) (u : Text) : Except TextError Text :=
  match capacity with
  | none => .ok u
  | some c => if c < u.byteLength then .error (.tooLong u.byteLength c) else .ok u

theorem checkCapacity_map {α : Type} (capacity : Option Nat) (u : Text) (f : Text → α) :
    (do checkCapacity u.byteLength capacity; return f u) = (fitted capacity u).map f := by
  cases capacity with
  | none => rfl
  | some c =>
    rw [checkCapacity, fitted]
    split_ifs <;> rfl

/-- A span that lies in the text is replaced. -/
theorem splice_parts (before removed after replacement : Text) (capacity : Option Nat) :
    splice (before ++ (removed ++ after)) replacement before.byteLength removed.byteLength capacity =
      fitted capacity (before ++ replacement ++ after) := by
  have needed : byteLength (before ++ (removed ++ after)) - removed.byteLength +
      replacement.byteLength = byteLength (before ++ replacement ++ after) := by
    simp only [byteLength_append]
    omega
  unfold splice
  rw [splitAt?_append]
  simp only [splitAt?_append, needed]
  exact (checkCapacity_map capacity (before ++ replacement ++ after) id).trans
    (congrFun Except.map_id _)

/-- A span is outside if one of its ends is no boundary. -/
theorem splice_outside {t : Text} {start length : Nat}
    (outside : ¬(t.IsBoundary start ∧ t.IsBoundary (start + length))) (replacement : Text)
    (capacity : Option Nat) :
    t.splice replacement start length capacity = .error (.outside start length t.byteLength) := by
  unfold splice
  cases first : t.splitAt? start with
  | none => rfl
  | some parts =>
    obtain ⟨before, rest⟩ := parts
    obtain ⟨rfl, rfl⟩ := append_of_splitAt? first
    cases second : rest.splitAt? length with
    | none => simp only [second]
    | some more =>
      obtain ⟨removed, after⟩ := more
      obtain ⟨rfl, rfl⟩ := append_of_splitAt? second
      refine absurd ⟨⟨before, removed ++ after, rfl, rfl⟩, before ++ removed, after, ?_, ?_⟩ outside
      · rw [List.append_assoc]
      · rw [byteLength_append]

/-- Splicing fails as outside just for the spans that go past the end of the text or do not start and
stop at boundaries. For all others the result has the bytes in front of the span, those of the
replacement and those behind the span; it is as long as foretold, and given if the capacity allows for
it. The piece that it lacks, put in the place of the replacement, gives the text again. -/
theorem splice_bytes (t replacement : Text) (start length : Nat) (capacity : Option Nat) :
    if start + length ≤ t.byteLength ∧ t.IsBoundary start ∧ t.IsBoundary (start + length) then
      ∃ u removed : Text,
        u.bytes = t.bytes.take start ++ replacement.bytes ++ t.bytes.drop (start + length) ∧
        removed.bytes = (t.bytes.drop start).take length ∧
        u.byteLength = t.byteLength - length + replacement.byteLength ∧
        t.splice replacement start length capacity = fitted capacity u ∧
        ∀ room : Option Nat, (∀ c ∈ room, t.byteLength ≤ c) →
          u.splice removed start replacement.byteLength room = .ok t
    else t.splice replacement start length capacity = .error (.outside start length t.byteLength) := by
  split_ifs with inside
  · obtain ⟨before, removed, after, rfl, rfl, rfl⟩ := exists_parts inside.2.1 inside.2.2
    refine ⟨before ++ replacement ++ after, removed, ?_, ?_, ?_, splice_parts .., ?_⟩
    · have behind : (before ++ (removed ++ after)).bytes = (before ++ removed).bytes ++ after.bytes := by
        simp only [bytes_append, List.append_assoc]
      rw [← byteLength_append, ← length_bytes (before ++ removed), behind, List.drop_left]
      simp only [bytes_append, ← length_bytes, List.append_assoc, List.take_left]
    · simp only [bytes_append, ← length_bytes, List.drop_left, List.take_left]
    · simp only [byteLength_append]
      omega
    · intro room fits
      rw [List.append_assoc, splice_parts, List.append_assoc]
      cases room with
      | none => rfl
      | some c => exact if_neg (Nat.not_lt.2 (fits c rfl))
  · refine splice_outside (fun ⟨opening, closing⟩ => inside ⟨?_, opening, closing⟩) replacement capacity
    obtain ⟨a, b, rfl, size⟩ := closing
    rw [byteLength_append]
    omega

example : splice "aé".toList "x".toList 2 1 none = .error (.outside 2 1 3) ∧
    splice "aé".toList "x".toList 1 2 (some 2) = .ok "ax".toList := by decide

end HeaderFlattening.Text
