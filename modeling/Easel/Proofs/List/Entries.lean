import Mathlib.Data.List.Basic

/-! Entries of a list by their place. Around a place a list is split into the entries at smaller
places and those at greater ones. -/

namespace Easel

variable {β : Type} {l l₁ l₂ : List β} {a : β}

theorem getElem?_eq_some_iff_split {i : Nat} :
    l[i]? = some a ↔ ∃ l₁ l₂, l = l₁ ++ a :: l₂ ∧ l₁.length = i := by
  constructor
  · intro h
    obtain ⟨hi, rfl⟩ := List.getElem?_eq_some_iff.mp h
    refine ⟨l.take i, l.drop (i + 1), ?_, List.length_take_of_le (Nat.le_of_lt hi)⟩
    rw [List.getElem_cons_drop, List.take_append_drop]
  · rintro ⟨l₁, l₂, rfl, rfl⟩
    simp

/-- The entries before a split are those at smaller places. -/
theorem forall_before_split {Q : β → Prop} (h : l = l₁ ++ a :: l₂) :
    (∀ j b, j < l₁.length → l[j]? = some b → Q b) ↔ ∀ b ∈ l₁, Q b := by
  subst h
  constructor
  · intro hQ b hb
    obtain ⟨j, hj⟩ := List.mem_iff_getElem?.mp hb
    have hlt : j < l₁.length := (List.getElem?_eq_some_iff.mp hj).1
    exact hQ j b hlt ((List.getElem?_append_left hlt).trans hj)
  · intro hQ j b hj hb
    rw [List.getElem?_append_left hj] at hb
    exact hQ b (List.mem_of_getElem? hb)

/-- The entries behind a split are those at greater places. -/
theorem forall_after_split {Q : β → Prop} (h : l = l₁ ++ a :: l₂) :
    (∀ j b, l₁.length < j → l[j]? = some b → Q b) ↔ ∀ b ∈ l₂, Q b := by
  subst h
  have hplace : ∀ k, (l₁ ++ a :: l₂)[l₁.length + 1 + k]? = l₂[k]? := by
    intro k
    rw [List.getElem?_append_right (by omega),
      show l₁.length + 1 + k - l₁.length = k + 1 by omega, List.getElem?_cons_succ]
  constructor
  · intro hQ b hb
    obtain ⟨k, hk⟩ := List.mem_iff_getElem?.mp hb
    exact hQ (l₁.length + 1 + k) b (by omega) ((hplace k).trans hk)
  · intro hQ j b hj hb
    obtain ⟨k, rfl⟩ := Nat.exists_eq_add_of_lt hj
    rw [show l₁.length + k + 1 = l₁.length + 1 + k by omega, hplace] at hb
    exact hQ b (List.mem_of_getElem? hb)

end Easel
