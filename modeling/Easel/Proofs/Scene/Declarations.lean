import Easel.Scene.Declarations

/-! Declared names. The entries and the index of a table are kept side by side, and a name is found
through the index, so what the table says about a name rests on the two agreeing. -/

namespace Easel.Declarations

variable {β : Type} {t : Declarations β} {name : String} {value : β} {position : Position}

/-- The index leads from a name to the place of its entry, and from other names nowhere. -/
def Agrees (t : Declarations β) : Prop :=
  ∀ name i, t.index.lookup name = some i ↔ ∃ e, t.entries[i]? = some e ∧ e.name = name

theorem agrees_empty : (empty : Declarations β).Agrees := by
  intro name i
  simp [empty]

theorem Agrees.find?_eq_some_iff (h : t.Agrees) {e : Declaration β} :
    t.find? name = some e ↔ e ∈ t.entries ∧ e.name = name := by
  rw [find?, Option.bind_eq_some_iff]
  constructor
  · rintro ⟨i, hlookup, hentry⟩
    obtain ⟨e', hentry', hname⟩ := (h name i).mp hlookup
    obtain rfl := Option.some.inj (hentry.symm.trans hentry')
    exact ⟨Array.mem_of_getElem? hentry, hname⟩
  · rintro ⟨hmem, hname⟩
    obtain ⟨i, hentry⟩ := Array.getElem?_of_mem hmem
    exact ⟨i, (h name i).mpr ⟨e, hentry, hname⟩, hentry⟩

theorem Agrees.find?_eq_none_iff (h : t.Agrees) :
    t.find? name = none ↔ ∀ e ∈ t.entries, e.name ≠ name := by
  rw [Option.eq_none_iff_forall_ne_some]
  constructor
  · intro hnone e hmem hname
    exact hnone e (h.find?_eq_some_iff.mpr ⟨hmem, hname⟩)
  · intro hall e hfound
    obtain ⟨hmem, hname⟩ := h.find?_eq_some_iff.mp hfound
    exact hall e hmem hname

/-- No two entries have one name. -/
theorem Agrees.distinct (h : t.Agrees) {i j : Nat} {d e : Declaration β}
    (hi : t.entries[i]? = some d) (hj : t.entries[j]? = some e) (hname : d.name = e.name) :
    i = j := by
  have hleft := (h e.name i).mpr ⟨d, hi, hname⟩
  have hright := (h e.name j).mpr ⟨e, hj, rfl⟩
  exact Option.some.inj (hleft.symm.trans hright)

theorem Agrees.names_nodup (h : t.Agrees) : t.names.Nodup := by
  rw [names, List.Nodup, List.pairwise_iff_getElem]
  intro i j hi hj hlt hname
  simp only [List.length_map, Array.length_toList] at hi hj
  simp only [List.getElem_map, Array.getElem_toList] at hname
  have hsame :=
    h.distinct (Array.getElem?_eq_getElem hi) (Array.getElem?_eq_getElem hj) hname
  omega

theorem declare_of_fresh (h : t.find? name = none) :
    t.declare name value position = .ok (t.add name value position) := by
  rw [declare, h]

theorem declare_of_taken {e : Declaration β} (h : t.find? name = some e) :
    t.declare name value position = .error e.position := by
  rw [declare, h]

theorem names_add : (t.add name value position).names = t.names ++ [name] := by
  rw [names, Declarations.add, Array.toList_push, List.map_append, List.map_singleton, names]

/-- A new name leads to the new entry, and all other names lead where they did. -/
theorem Agrees.add (h : t.Agrees) (hfresh : t.find? name = none) :
    (t.add name value position).Agrees := by
  have hnone := h.find?_eq_none_iff.mp hfresh
  intro other i
  simp only [Declarations.add, size, Array.getElem?_push]
  rcases Decidable.em (other = name) with rfl | hother
  · rw [List.lookup_cons_self]
    constructor
    · intro hi
      rw [← Option.some.inj hi, if_pos rfl]
      exact ⟨_, rfl, rfl⟩
    · rintro ⟨e, hentry, hname⟩
      split at hentry
      · next hi => rw [hi]
      · exact absurd hname (hnone e (Array.mem_of_getElem? hentry))
  · rw [List.lookup_cons, beq_false_of_ne hother]
    refine (h other i).trans ?_
    rcases Decidable.em (i = t.entries.size) with rfl | hi
    · rw [if_pos rfl, Array.getElem?_size]
      constructor
      · rintro ⟨e, hentry, -⟩
        cases hentry
      · rintro ⟨e, hentry, hname⟩
        cases hentry
        exact absurd hname.symm hother
    · rw [if_neg hi]

/-- A new name leads to its declaration, and all other names lead where they did. -/
theorem Agrees.find?_add (h : t.Agrees) (name : String) (value : β) (position : Position)
    (other : String) : (t.add name value position).find? other =
      if other = name then some ⟨name, value, position⟩ else t.find? other := by
  rcases Decidable.em (other = name) with rfl | hother
  · simp [find?, Declarations.add, size]
  · rw [if_neg hother, find?, find?, Declarations.add, List.lookup_cons, beq_false_of_ne hother]
    cases hlookup : t.index.lookup other with
    | none => rfl
    | some i =>
      obtain ⟨e, hentry, -⟩ := (h other i).mp hlookup
      have hne : i ≠ t.entries.size := by
        rintro rfl
        simp at hentry
      simp [Array.getElem?_push, hne]

/-- A new name stands for its value, and all other names for what they stood for. -/
theorem Agrees.get?_add (h : t.Agrees) (name : String) (value : β) (position : Position)
    (other : String) :
    (t.add name value position).get? other = if other = name then some value else t.get? other := by
  rw [get?, get?, h.find?_add]
  split <;> rfl

end Easel.Declarations
