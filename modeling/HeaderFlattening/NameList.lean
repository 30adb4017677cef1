import HeaderFlattening.Text.Basic

/-!
Names in the order in which they were first seen, each once. The empty text is no name.
-/

set_option autoImplicit false
namespace HeaderFlattening

structure NameList where
  toList : List Text := []
  deriving DecidableEq, Repr, Inhabited

namespace NameList

/-- Whether `insert` would leave the list as it is. -/
def has (l : NameList) (name : Text) : Bool := name.isEmpty || l.toList.contains name

/-- Puts a new name at the end. -/
def insert (l : NameList) (name : Text) : NameList :=
  if l.has name then l else ⟨l.toList ++ [name]⟩

def join (l : NameList) (delimiter : Text) : Text := Text.join delimiter l.toList

/-- No name twice and none empty. -/
def Valid (l : NameList) : Prop := l.toList.Nodup ∧ [] ∉ l.toList

theorem valid_empty : Valid {} := ⟨List.nodup_nil, List.not_mem_nil⟩

theorem Valid.insert {l : NameList} (h : l.Valid) (name : Text) : (l.insert name).Valid := by
  unfold NameList.insert
  split
  · exact h
  · rename_i new
    simp only [has, Bool.or_eq_true, List.isEmpty_iff, List.contains_iff_mem, not_or] at new
    refine ⟨?_, ?_⟩
    · rw [List.nodup_append]
      refine ⟨h.1, by simp, ?_⟩
      intro a ha b hb e
      obtain rfl := List.mem_singleton.1 hb
      exact new.2 (e ▸ ha)
    · simp [h.2, Ne.symm new.1]

end NameList
end HeaderFlattening
