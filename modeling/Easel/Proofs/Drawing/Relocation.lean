import Easel.Proofs.Drawing.Consult
import Easel.Proofs.Drawing.Union

/-! The places of shapes in a drawing are names for them and nothing more. A drawing that has the
shapes of another one at other places, with the references led along, answers all questions of
geometry about them in the same way. -/

namespace Easel

variable {α ι β : Type}

namespace Form

/-- The form that is made from the shapes at other places. -/
def relocate (place : Nat → Nat) : Form α → Form α
  | shifted offset target => shifted offset (place target)
  | rotated degrees pivot target => rotated degrees pivot (place target)
  | union members => union (members.map place)
  | difference base subtrahend => difference (place base) (place subtrahend)
  | form => form

variable {place : Nat → Nat} {form : Form α}

@[simp] theorem references_relocate :
    (form.relocate place).references = form.references.map place := by
  cases form <;> rfl

theorem relocate_congr {place' : Nat → Nat} (h : ∀ r ∈ form.references, place r = place' r) :
    form.relocate place = form.relocate place' := by
  cases form with
  | circle | ellipse | rectangle | triangle => rfl
  | shifted offset target | rotated degrees pivot target =>
    rw [relocate, relocate, h target (by simp [references])]
  | union members =>
    have hmap : members.map place = members.map place' := List.map_congr_left h
    rw [relocate, relocate, hmap]
  | difference base subtrahend =>
    rw [relocate, relocate, h base (by simp [references]), h subtrahend (by simp [references])]

@[simp] theorem relocate_id : form.relocate id = form := by
  cases form <;> simp [relocate]

end Form

/-- A rule that looks at nothing but the form of a shape, and at places only to ask about the shapes
that are there. -/
def Rule.Relocatable (rule : Rule α ι β) : Prop :=
  ∀ (place : Nat → Nat) (shape shape' : Shape α) (input : ι) (ask ask' : Nat → ι → Id β),
    shape'.form = shape.form.relocate place →
    (∀ r ∈ shape.form.references, ∀ i, ask' (place r) i = ask r i) →
      rule.answer shape' input ask' = rule.answer shape input ask

namespace Drawing

/-- The forms of a drawing are in another one as well, at the given places. -/
def Embeds (place : Nat → Nat) (d d' : Drawing α) : Prop :=
  ∀ id form, d.form? id = some form → d'.form? (place id) = some (form.relocate place)

variable {d d' : Drawing α} {place : Nat → Nat} {id : Nat} {form : Form α}

theorem form?_eq_some_iff :
    d.form? id = some form ↔ ∃ shape, d.shapes[id]? = some shape ∧ shape.form = form :=
  Option.map_eq_some_iff

theorem exists_form (h : id < d.size) : ∃ form, d.form? id = some form :=
  ⟨d.shapes[id].form, form?_eq_some_iff.mpr ⟨_, Array.getElem?_eq_getElem h, rfl⟩⟩

theorem lt_of_form? (h : d.form? id = some form) : id < d.size := by
  obtain ⟨shape, hshape, -⟩ := form?_eq_some_iff.mp h
  exact (Array.getElem?_eq_some_iff.mp hshape).1

theorem Layered.lt (hd : d.Layered) (h : d.form? id = some form) {r : Nat}
    (hr : r ∈ form.references) : r < id := by
  obtain ⟨shape, hshape, rfl⟩ := form?_eq_some_iff.mp h
  exact hd id shape hshape r hr

/-- What a shape answers does not change with its place. -/
theorem Embeds.consult_eq (h : d.Embeds place d') (hd : d.Layered) (hd' : d'.Layered)
    {rule : Rule α ι β} (hrule : rule.Relocatable) (nothing : β) (hid : id < d.size) (input : ι) :
    d'.consult rule nothing (place id) input = d.consult rule nothing id input := by
  induction id using Nat.strongRecOn generalizing input with
  | ind id ih =>
  obtain ⟨form, hform⟩ := exists_form hid
  obtain ⟨shape, hshape, rfl⟩ := form?_eq_some_iff.mp hform
  have hform' := h id _ hform
  obtain ⟨shape', hshape', hsame⟩ := form?_eq_some_iff.mp hform'
  rw [consult, consult, hshape, hshape']
  refine congrArg Id.run (hrule place shape shape' input _ _ hsame fun r hr i => ?_)
  have hlt : r < id := hd.lt hform hr
  have hlt' : place r < place id := hd'.lt hform' (by simpa using ⟨r, hr, rfl⟩)
  rw [if_pos hlt, if_pos hlt', ih r hlt (Nat.lt_trans hlt hid) i]

/-- In a layered drawing a shape answers from the answers of the shapes that it is made from. -/
theorem Layered.consult_eq (hd : d.Layered) {rule : Rule α ι β} (hrule : rule.Relocatable)
    (nothing : β) {shape : Shape α} (hshape : d.shapes[id]? = some shape) (input : ι) :
    d.consult rule nothing id input =
      (rule.answer shape input fun r i => pure (d.consult rule nothing r i) : Id β).run := by
  rw [consult, hshape]
  exact congrArg Id.run (hrule (fun r => r) shape shape input _ _ Form.relocate_id.symm
    fun r hr i => congrArg pure (if_pos (hd id shape hshape r hr)))

end Drawing

/-! ### The rules -/

section

variable [Scalar α]

theorem Rule.contains_relocatable : (Rule.contains : Rule α (Point α) Bool).Relocatable := by
  rintro place ⟨name, form, fill⟩ ⟨name', form', fill'⟩ p ask ask' hform h
  obtain rfl : form' = form.relocate place := hform
  cases form with
  | circle | ellipse | rectangle | triangle => rfl
  | shifted offset target | rotated degrees pivot target =>
    exact h target (by simp [Form.references]) _
  | union members =>
    have hmembers : ∀ r ∈ members, ask' (place r) p = ask r p := fun r hr => h r hr p
    have hany : (members.map place).any (fun r => ask' r p) = members.any fun r => ask r p := by
      rw [List.any_map, Bool.eq_iff_iff, List.any_eq_true, List.any_eq_true]
      exact exists_congr fun r => and_congr_right fun hr => by
        rw [Function.comp_apply, hmembers r hr]
    exact (Rule.contains_union rfl p ask').trans (hany.trans (Rule.contains_union rfl p ask).symm)
  | difference base subtrahend =>
    simp only [Rule.contains, Form.relocate]
    rw [h base (by simp [Form.references]), h subtrahend (by simp [Form.references])]

theorem Rule.bounds_relocatable : (Rule.bounds : Rule α Unit (Box α)).Relocatable := by
  rintro place ⟨name, form, fill⟩ ⟨name', form', fill'⟩ input ask ask' hform h
  obtain rfl : form' = form.relocate place := hform
  cases form with
  | circle | ellipse | rectangle | triangle => rfl
  | shifted offset target | rotated degrees pivot target =>
    simp only [Rule.bounds, Form.relocate]
    rw [h target (by simp [Form.references])]
  | union members =>
    have hmembers : ∀ r ∈ members, ask' (place r) () = ask r () := fun r hr => h r hr ()
    have hmap : (members.map place).map (fun r => ask' r ()) = members.map fun r => ask r () := by
      rw [List.map_map]
      exact List.map_congr_left hmembers
    have hboxes : Box.hull ((members.map place).map fun r => ask' r ()) =
        Box.hull (members.map fun r => ask r ()) := congrArg Box.hull hmap
    exact (Rule.bounds_union rfl fun r => ask' r ()).trans
      (hboxes.trans (Rule.bounds_union rfl fun r => ask r ()).symm)
  | difference base subtrahend => exact h base (by simp [Form.references]) _

theorem Rule.landmark?_relocatable :
    (Rule.landmark? : Rule α String (Option (Point α))).Relocatable := by
  rintro place ⟨name, form, fill⟩ ⟨name', form', fill'⟩ input ask ask' hform h
  obtain rfl : form' = form.relocate place := hform
  cases form with
  | circle | ellipse | rectangle | triangle => rfl
  | shifted offset target | rotated degrees pivot target =>
    simp only [Rule.landmark?, Form.relocate]
    rw [h target (by simp [Form.references])]
  | union members =>
    cases members with
    | nil => rfl
    | cons first rest => exact h first (by simp [Form.references]) _
  | difference base subtrahend => exact h base (by simp [Form.references]) _

end

theorem Rule.landmarkNames_relocatable :
    (Rule.landmarkNames : Rule α Unit (List String)).Relocatable := by
  rintro place ⟨name, form, fill⟩ ⟨name', form', fill'⟩ input ask ask' hform h
  obtain rfl : form' = form.relocate place := hform
  cases form with
  | circle | ellipse | rectangle | triangle => rfl
  | shifted offset target | rotated degrees pivot target =>
    exact h target (by simp [Form.references]) _
  | union members =>
    cases members with
    | nil => rfl
    | cons first rest => exact h first (by simp [Form.references]) _
  | difference base subtrahend => exact h base (by simp [Form.references]) _

namespace Drawing

variable [Scalar α] {d d' : Drawing α} {place : Nat → Nat} {id : Nat}

theorem Embeds.contains_eq (h : d.Embeds place d') (hd : d.Layered) (hd' : d'.Layered)
    (hid : id < d.size) (p : Point α) : d'.contains (place id) p = d.contains id p :=
  h.consult_eq hd hd' Rule.contains_relocatable _ hid p

theorem Embeds.bounds_eq (h : d.Embeds place d') (hd : d.Layered) (hd' : d'.Layered)
    (hid : id < d.size) : d'.bounds (place id) = d.bounds id :=
  h.consult_eq hd hd' Rule.bounds_relocatable _ hid ()

theorem Embeds.landmark?_eq (h : d.Embeds place d') (hd : d.Layered) (hd' : d'.Layered)
    (hid : id < d.size) (name : String) : d'.landmark? (place id) name = d.landmark? id name :=
  h.consult_eq hd hd' Rule.landmark?_relocatable _ hid name

end Drawing

end Easel
