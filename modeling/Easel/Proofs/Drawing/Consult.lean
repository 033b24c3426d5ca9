import Easel.Drawing.Geometry
import Easel.Drawing.Landmark
import Easel.Scene.Outline

/-! Questions about the shapes of a drawing end. `Drawing.consult?` follows the references of the
shapes wherever they lead, and has no answer when one leads out of the drawing or when it has gone
too deep. In a drawing where shapes refer to earlier ones only, neither happens. -/

namespace Easel

variable {α ι β : Type}

/-- The answer by a rule that follows all references, if it comes to an end at the given depth and
every place on the way is in the drawing. -/
def Drawing.consult? (d : Drawing α) (rule : Rule α ι β) : (depth id : Nat) → ι → Option β
  | 0, _, _ => none
  | depth + 1, id, input => do rule.answer (← d.shapes[id]?) input (d.consult? rule depth)

/-- Each shape of the drawing is made from earlier ones. -/
def Drawing.Layered (d : Drawing α) : Prop :=
  ∀ (id : Nat) (shape : Shape α), d.shapes[id]? = some shape → ∀ r ∈ shape.form.references, r < id

theorem Drawing.layered_iff {d : Drawing α} :
    d.Layered ↔ ∀ i : Fin d.shapes.size, ∀ r ∈ d.shapes[i].form.references, r < i := by
  constructor
  · intro h i
    exact h i _ (Array.getElem?_eq_getElem i.isLt)
  · intro h id shape hshape
    obtain ⟨hid, rfl⟩ := Array.getElem?_eq_some_iff.mp hshape
    exact h ⟨id, hid⟩

instance (d : Drawing α) : Decidable d.Layered := decidable_of_iff' _ Drawing.layered_iff

/-- A rule asks no more than the shapes that a shape is made from. -/
def Rule.Local (rule : Rule α ι β) : Prop :=
  ∀ (shape : Shape α) (input : ι) (ask : Nat → ι → Option β) (known : Nat → ι → β),
    (∀ r ∈ shape.form.references, ∀ i, ask r i = some (known r i)) →
      rule.answer shape input ask =
        some (rule.answer shape input fun r i => pure (known r i) : Id β).run

theorem Drawing.consult?_eq_some {d : Drawing α} {rule : Rule α ι β} (hd : d.Layered)
    (hrule : rule.Local) (nothing : β) {depth id : Nat} (hid : id < d.size) (hdepth : id < depth)
    (input : ι) : d.consult? rule depth id input = some (d.consult rule nothing id input) := by
  induction depth generalizing id input with
  | zero => exact absurd hdepth (Nat.not_lt_zero _)
  | succ depth ih =>
    have hshape : d.shapes[id]? = some d.shapes[id] := Array.getElem?_eq_getElem hid
    rw [consult?, consult, hshape]
    apply hrule
    intro r hr i
    have hlt : r < id := hd id _ hshape r hr
    rw [if_pos hlt]
    exact ih (Nat.lt_trans hlt hid) (by omega) i

/-! ### The rules -/

theorem anyM_eq_some {ask : Nat → Option Bool} {known : Nat → Bool} {ids : List Nat}
    (h : ∀ r ∈ ids, ask r = some (known r)) : ids.anyM ask = some (ids.any known) := by
  induction ids with
  | nil => rfl
  | cons r rest ih =>
    rw [List.anyM, h r List.mem_cons_self, List.any_cons]
    cases known r with
    | true => rfl
    | false => exact ih fun r' hr' => h r' (List.mem_cons_of_mem _ hr')

theorem mapM_eq_some {ask : Nat → Option β} {known : Nat → β} {ids : List Nat}
    (h : ∀ r ∈ ids, ask r = some (known r)) : ids.mapM ask = some (ids.map known) := by
  induction ids with
  | nil => rfl
  | cons r rest ih =>
    rw [List.mapM_cons, h r List.mem_cons_self, ih fun r' hr' => h r' (List.mem_cons_of_mem _ hr')]
    rfl

theorem Rule.contains_local [Scalar α] : (Rule.contains : Rule α (Point α) Bool).Local := by
  rintro ⟨name, form, fill⟩ p ask known h
  cases form with
  | circle | ellipse | rectangle | triangle => rfl
  | shifted offset target | rotated degrees pivot target =>
    exact h target (by simp [Form.references]) _
  | union members =>
    have hask : ∀ r ∈ members, ask r p = some (known r p) := fun r hr => h r hr p
    simp only [Rule.contains]
    rw [anyM_eq_some hask]
    simp
  | difference base subtrahend =>
    simp only [Rule.contains]
    rw [h base (by simp [Form.references]), h subtrahend (by simp [Form.references])]
    cases known base p <;> simp

theorem Rule.bounds_local [Scalar α] : (Rule.bounds : Rule α Unit (Box α)).Local := by
  rintro ⟨name, form, fill⟩ input ask known h
  cases form with
  | circle | ellipse | rectangle | triangle => rfl
  | shifted offset target | rotated degrees pivot target =>
    simp only [Rule.bounds]
    rw [h target (by simp [Form.references])]
    rfl
  | union members =>
    have hask : ∀ r ∈ members, ask r () = some (known r ()) := fun r hr => h r hr ()
    simp only [Rule.bounds]
    rw [mapM_eq_some hask]
    cases members with
    | nil => rfl
    | cons first rest => simp
  | difference base subtrahend => exact h base (by simp [Form.references]) _

theorem Rule.landmark?_local [Scalar α] :
    (Rule.landmark? : Rule α String (Option (Point α))).Local := by
  rintro ⟨name, form, fill⟩ input ask known h
  cases form with
  | circle | ellipse | rectangle | triangle => rfl
  | shifted offset target | rotated degrees pivot target =>
    simp only [Rule.landmark?]
    rw [h target (by simp [Form.references])]
    rfl
  | union members =>
    cases members with
    | nil => rfl
    | cons first rest => exact h first (by simp [Form.references]) _
  | difference base subtrahend => exact h base (by simp [Form.references]) _

theorem Rule.landmarkNames_local : (Rule.landmarkNames : Rule α Unit (List String)).Local := by
  rintro ⟨name, form, fill⟩ input ask known h
  cases form with
  | circle | ellipse | rectangle | triangle => rfl
  | shifted offset target | rotated degrees pivot target =>
    exact h target (by simp [Form.references]) _
  | union members =>
    cases members with
    | nil => rfl
    | cons first rest => exact h first (by simp [Form.references]) _
  | difference base subtrahend => exact h base (by simp [Form.references]) _

theorem Rule.outline_local : Rule.outline.Local := by
  rintro shape input ask known h
  simp only [Rule.outline]
  rw [mapM_eq_some fun r hr => h r hr ()]
  simp

/-- At the given depth all questions about the shape at a place have come to an end, with the
answers that are given otherwise. -/
structure Drawing.Answers (d : Drawing Float) (depth id : Nat) : Prop where
  contains : ∀ p, d.consult? .contains depth id p = some (d.contains id p)
  bounds : d.consult? .bounds depth id () = some (d.bounds id)
  landmark : ∀ name, d.consult? .landmark? depth id name = some (d.landmark? id name)
  landmarkNames : d.consult? .landmarkNames depth id () = some (d.landmarkNames id)
  outline : d.consult? .outline depth id () = some (d.outline id)

end Easel
