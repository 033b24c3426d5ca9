import Mathlib.Logic.Relation
import Easel.Proofs.Drawing.Relocation
import Easel.Proofs.Plane.Extremes

/-! Unions in unions. A member of a union that is itself a union of something may give way to the
members of that union: the points that a shape contains and its landmarks stay what they are, and so
does its box, as long as it makes no difference how the least and the greatest of some numbers are
grouped. It makes none for doubles. -/

namespace Easel

variable {α ι β : Type}

/-! ### Boxes around boxes -/

namespace Box

variable [Scalar α]

variable [Std.Associative (Scalar.min : α → α → α)] [Std.Associative (Scalar.max : α → α → α)]

instance : Std.Associative (union : Box α → Box α → Box α) where
  assoc a b c := by
    have hmin (x y z : α) : Scalar.min (Scalar.min x y) z = Scalar.min x (Scalar.min y z) :=
      Std.Associative.assoc x y z
    have hmax (x y z : α) : Scalar.max (Scalar.max x y) z = Scalar.max x (Scalar.max y z) :=
      Std.Associative.assoc x y z
    simp only [union, hmin, hmax]

/-- The box around some of the boxes may stand for them. -/
theorem hull_append_hull {inner : List (Box α)} (hinner : inner ≠ [])
    (before after : List (Box α)) :
    hull (before ++ inner ++ after) = hull (before ++ hull inner :: after) := by
  cases inner with
  | nil => exact absurd rfl hinner
  | cons first more =>
    cases before with
    | nil => exact List.foldl_append
    | cons b before =>
      simp only [List.cons_append, hull, List.foldl_append, List.foldl_cons]
      rw [List.foldl_assoc]

end Box

namespace Drawing

/-! ### The answers of a union -/

variable {d d' : Drawing α} {id : Nat} {form : Form α} {members : List Nat}

theorem Layered.contains_union [Scalar α] (hd : d.Layered)
    (h : d.form? id = some (.union members)) (p : Point α) :
    d.contains id p = members.any fun r => d.contains r p := by
  obtain ⟨shape, hshape, hform⟩ := form?_eq_some_iff.mp h
  exact (hd.consult_eq Rule.contains_relocatable _ hshape p).trans (Rule.contains_union hform p _)

theorem Layered.bounds_union [Scalar α] (hd : d.Layered) (h : d.form? id = some (.union members)) :
    d.bounds id = Box.hull (members.map d.bounds) := by
  obtain ⟨shape, hshape, hform⟩ := form?_eq_some_iff.mp h
  exact (hd.consult_eq Rule.bounds_relocatable _ hshape ()).trans (Rule.bounds_union hform _)

theorem Layered.landmark?_union [Scalar α] (hd : d.Layered)
    (h : d.form? id = some (.union members)) (name : String) :
    d.landmark? id name = members.head?.bind fun r => d.landmark? r name := by
  obtain ⟨shape, hshape, hform⟩ := form?_eq_some_iff.mp h
  exact (hd.consult_eq Rule.landmark?_relocatable _ hshape name).trans
    (Rule.landmark?_union hform name _)

theorem Layered.landmarkNames_union (hd : d.Layered) (h : d.form? id = some (.union members)) :
    d.landmarkNames id = (members.head?.map d.landmarkNames).getD [] := by
  obtain ⟨shape, hshape, hform⟩ := form?_eq_some_iff.mp h
  exact (hd.consult_eq Rule.landmarkNames_relocatable _ hshape ()).trans
    (Rule.landmarkNames_union hform _)

/-! ### Another form -/

/-- The drawing where the shape at a place has another form. -/
def setForm (d : Drawing α) (id : Nat) (form : Form α) : Drawing α :=
  ⟨d.shapes.modify id fun shape => { shape with form }⟩

theorem getElem?_setForm (d : Drawing α) (id : Nat) (form : Form α) (k : Nat) :
    (d.setForm id form).shapes[k]? = d.shapes[k]?.map fun shape =>
      if k = id then { shape with form } else shape := by
  rw [setForm, Array.getElem?_modify]
  rcases Decidable.em (k = id) with rfl | hk
  · simp only [if_true]
  · simp only [if_neg hk, if_neg (Ne.symm hk), Option.map_id']

theorem Layered.setForm (hd : d.Layered) (h : ∀ r ∈ form.references, r < id) :
    (d.setForm id form).Layered := by
  intro k shape hshape
  rw [getElem?_setForm, Option.map_eq_some_iff] at hshape
  obtain ⟨before, hbefore, rfl⟩ := hshape
  split
  · next hk => exact hk ▸ h
  · exact hd k before hbefore

/-- If a shape answers in another form what it answered before, then all shapes do. -/
theorem Layered.consult_setForm (hd : d.Layered) (hform : ∀ r ∈ form.references, r < id)
    {rule : Rule α ι β} (hrule : rule.Relocatable) (nothing : β)
    (hsame : ∀ (shape : Shape α) (input : ι),
      (rule.answer { shape with form } input fun r i => pure (d.consult rule nothing r i) :
        Id β).run = d.consult rule nothing id input) (k : Nat) (input : ι) :
    (d.setForm id form).consult rule nothing k input = d.consult rule nothing k input := by
  have hd' : (d.setForm id form).Layered := hd.setForm hform
  induction k using Nat.strongRecOn generalizing input with
  | ind k ih =>
  have hget := d.getElem?_setForm id form k
  cases hshape : d.shapes[k]? with
  | none =>
    rw [hshape] at hget
    rw [consult, consult, hget, hshape]
    rfl
  | some shape =>
    rw [hshape, Option.map_some] at hget
    have hask := hrule (fun r => r) _ _ input
      (fun r i => pure (d.consult rule nothing r i))
      (fun r i => pure ((d.setForm id form).consult rule nothing r i)) Form.relocate_id.symm
      fun r hr i => congrArg pure (ih r (hd' k _ hget r hr) i)
    rw [hd'.consult_eq hrule nothing hget, hask]
    rcases Decidable.em (k = id) with rfl | hk
    · rw [if_pos rfl]
      exact hsame shape input
    · rw [if_neg hk]
      exact (hd.consult_eq hrule nothing hshape input).symm

/-! ### Flattening -/

/-- A union has a member that is a union of something, and the members of that union take the place
of this member. -/
inductive FlattensOnce (d : Drawing α) : Drawing α → Prop
  | splice {id member : Nat} {before inner after : List Nat}
      (hunion : d.form? id = some (.union (before ++ member :: after)))
      (hmember : d.form? member = some (.union inner)) (hinner : inner ≠ []) :
      FlattensOnce d (d.setForm id (.union (before ++ inner ++ after)))

/-- Members of unions give way to their own members, one after the other, in any of the unions and
as often as there are such members. -/
def Flattens : Drawing α → Drawing α → Prop := Relation.ReflTransGen FlattensOnce

/-- The places of the new members are earlier ones. -/
theorem Layered.splice_lt {member : Nat} {before inner after : List Nat} (hd : d.Layered)
    (hunion : d.form? id = some (.union (before ++ member :: after)))
    (hmember : d.form? member = some (.union inner)) :
    ∀ r ∈ (Form.union (before ++ inner ++ after) : Form α).references, r < id := by
  intro r hr
  have hlt : ∀ r ∈ before ++ member :: after, r < id := fun r hr => hd.lt hunion hr
  have hmember_lt : member < id := hlt member (by simp)
  have hr : r ∈ before ++ inner ++ after := hr
  rw [List.mem_append, List.mem_append] at hr
  rcases hr with (hr | hr) | hr
  · exact hlt r (by simp [hr])
  · exact Nat.lt_trans (hd.lt hmember hr) hmember_lt
  · exact hlt r (by simp [hr])

theorem FlattensOnce.layered (h : d.FlattensOnce d') (hd : d.Layered) : d'.Layered := by
  cases h with
  | splice hunion hmember hinner => exact hd.setForm (hd.splice_lt hunion hmember)

theorem Flattens.layered (h : d.Flattens d') (hd : d.Layered) : d'.Layered := by
  induction h with
  | refl => exact hd
  | tail _ hstep ih => exact hstep.layered ih

theorem FlattensOnce.landmarkNames_eq (h : d.FlattensOnce d') (hd : d.Layered) (id : Nat) :
    d'.landmarkNames id = d.landmarkNames id := by
  cases h with
  | @splice _ member before inner after hunion hmember hinner =>
    refine hd.consult_setForm (hd.splice_lt hunion hmember) Rule.landmarkNames_relocatable _
      (fun shape _ => ?_) id ()
    have hall := hd.landmarkNames_union hunion
    have hnested := hd.landmarkNames_union hmember
    refine (Rule.landmarkNames_union rfl d.landmarkNames).trans (Eq.trans ?_ hall.symm)
    cases before with
    | cons => rfl
    | nil =>
      cases inner with
      | nil => exact absurd rfl hinner
      | cons => exact hnested.symm

section

variable [Scalar α]

theorem FlattensOnce.contains_eq (h : d.FlattensOnce d') (hd : d.Layered) (id : Nat)
    (p : Point α) : d'.contains id p = d.contains id p := by
  cases h with
  | splice hunion hmember hinner =>
    refine hd.consult_setForm (hd.splice_lt hunion hmember) Rule.contains_relocatable _
      (fun shape q => ?_) id p
    have hall := hd.contains_union hunion q
    rw [List.any_append, List.any_cons, hd.contains_union hmember] at hall
    refine (Rule.contains_union rfl q d.contains).trans ?_
    rw [List.any_append, List.any_append, Bool.or_assoc]
    exact hall.symm

theorem FlattensOnce.landmark?_eq (h : d.FlattensOnce d') (hd : d.Layered) (id : Nat)
    (name : String) : d'.landmark? id name = d.landmark? id name := by
  cases h with
  | @splice _ member before inner after hunion hmember hinner =>
    refine hd.consult_setForm (hd.splice_lt hunion hmember) Rule.landmark?_relocatable _
      (fun shape name => ?_) id name
    have hall := hd.landmark?_union hunion name
    have hnested := hd.landmark?_union hmember name
    refine (Rule.landmark?_union rfl name d.landmark?).trans (Eq.trans ?_ hall.symm)
    cases before with
    | cons => rfl
    | nil =>
      cases inner with
      | nil => exact absurd rfl hinner
      | cons => exact hnested.symm

theorem FlattensOnce.bounds_eq [Std.Associative (Scalar.min : α → α → α)]
    [Std.Associative (Scalar.max : α → α → α)] (h : d.FlattensOnce d') (hd : d.Layered) (id : Nat) :
    d'.bounds id = d.bounds id := by
  cases h with
  | splice hunion hmember hinner =>
    refine hd.consult_setForm (hd.splice_lt hunion hmember) Rule.bounds_relocatable _
      (fun shape _ => ?_) id ()
    have hall := hd.bounds_union hunion
    rw [List.map_append, List.map_cons, hd.bounds_union hmember] at hall
    refine (Rule.bounds_union rfl d.bounds).trans (Eq.trans ?_ hall.symm)
    rw [List.map_append, List.map_append]
    exact Box.hull_append_hull (by simpa using hinner) _ _

/-- The shapes at two places contain the same points and have the same landmarks. -/
structure AnswersAs (d : Drawing α) (id : Nat) (d' : Drawing α) (id' : Nat) : Prop where
  contains (p : Point α) : d.contains id p = d'.contains id' p
  landmark? (name : String) : d.landmark? id name = d'.landmark? id' name
  landmarkNames : d.landmarkNames id = d'.landmarkNames id'

theorem AnswersAs.trans {d₁ d₂ d₃ : Drawing α} {id₁ id₂ id₃ : Nat}
    (h : d₁.AnswersAs id₁ d₂ id₂) (h' : d₂.AnswersAs id₂ d₃ id₃) : d₁.AnswersAs id₁ d₃ id₃ where
  contains p := (h.contains p).trans (h'.contains p)
  landmark? name := (h.landmark? name).trans (h'.landmark? name)
  landmarkNames := h.landmarkNames.trans h'.landmarkNames

theorem FlattensOnce.answersAs (h : d.FlattensOnce d') (hd : d.Layered) (id : Nat) :
    d'.AnswersAs id d id :=
  ⟨h.contains_eq hd id, h.landmark?_eq hd id, h.landmarkNames_eq hd id⟩

theorem Flattens.answersAs (h : d.Flattens d') (hd : d.Layered) (id : Nat) :
    d'.AnswersAs id d id := by
  induction h with
  | refl => exact ⟨fun _ => rfl, fun _ => rfl, rfl⟩
  | tail hrun hstep ih => exact (hstep.answersAs (Flattens.layered hrun hd) id).trans ih

theorem Flattens.bounds_eq [Std.Associative (Scalar.min : α → α → α)]
    [Std.Associative (Scalar.max : α → α → α)] (h : d.Flattens d') (hd : d.Layered) (id : Nat) :
    d'.bounds id = d.bounds id := by
  induction h with
  | refl => rfl
  | tail hrun hstep ih => exact (hstep.bounds_eq (Flattens.layered hrun hd) id).trans ih

theorem Layered.answersAs_of_single {member : Nat} (hd : d.Layered)
    (h : d.form? id = some (.union [member])) : d.AnswersAs id d member where
  contains p := by rw [hd.contains_union h, List.any_cons, List.any_nil, Bool.or_false]
  landmark? name := hd.landmark?_union h name
  landmarkNames := hd.landmarkNames_union h

/-- After any flattening of unions all shapes of a drawing contain the same points and have the same
landmarks as before, and lie in the same boxes if numbers may be grouped at will under the least and
the greatest. A union of one shape does not differ from this shape. Only a union that gives way must
not be one of nothing. -/
theorem Layered.flattens_answersAs (hd : d.Layered) :
    (∀ d', d.Flattens d' → d'.Layered ∧ ∀ id, d'.AnswersAs id d id ∧
      (Std.Associative (Scalar.min : α → α → α) → Std.Associative (Scalar.max : α → α → α) →
        d'.bounds id = d.bounds id)) ∧
    ∀ id member, d.form? id = some (.union [member]) →
      d.AnswersAs id d member ∧ d.bounds id = d.bounds member :=
  ⟨fun _ h => ⟨h.layered hd, fun id => ⟨h.answersAs hd id, fun _ _ => h.bounds_eq hd id⟩⟩,
    fun _ _ h => ⟨hd.answersAs_of_single h, hd.bounds_union h⟩⟩

end

end Drawing

namespace Scene

/-- Two discs and a square, united in several steps and shifted. -/
def cluster : Drawing Float := ⟨#[
  ⟨"left", .circle ⟨0, 0⟩ 1, none⟩,
  ⟨"right", .circle ⟨4, 0⟩ 1, none⟩,
  ⟨"square", .rectangle ⟨2, 2⟩ 1 1, none⟩,
  ⟨"alone", .union [1], none⟩,
  ⟨"inner", .union [0, 3], none⟩,
  ⟨"outer", .union [4, 2, 3], none⟩,
  ⟨"away", .shifted ⟨1, 1⟩ 5, none⟩]⟩

theorem cluster_flattens : cluster.Layered ∧ ∃ flat, cluster.Flattens flat ∧
    flat.form? 5 = some (.union [0, 1, 2, 1]) ∧ flat.contains 6 ⟨5, 1⟩ = true ∧
    flat.landmark? 6 "e" = some ⟨2, 1⟩ ∧ flat.bounds 6 = ⟨⟨0, 0⟩, ⟨6, 3.5⟩⟩ ∧
    cluster.AnswersAs 3 cluster 1 := by
  have hd : cluster.Layered := by decide
  have hhead : cluster.FlattensOnce (cluster.setForm 5 (.union ([] ++ [0, 3] ++ [2, 3]))) :=
    .splice rfl rfl (List.cons_ne_nil _ _)
  let flat₁ := cluster.setForm 5 (.union [0, 3, 2, 3])
  have hmiddle : flat₁.FlattensOnce (flat₁.setForm 5 (.union ([0] ++ [1] ++ [2, 3]))) :=
    .splice rfl rfl (List.cons_ne_nil _ _)
  let flat₂ := flat₁.setForm 5 (.union [0, 1, 2, 3])
  have hlast : flat₂.FlattensOnce (flat₂.setForm 5 (.union ([0, 1, 2] ++ [1] ++ []))) :=
    .splice rfl rfl (List.cons_ne_nil _ _)
  obtain ⟨hflat, hsingle⟩ := hd.flattens_answersAs
  have hrun := ((Relation.ReflTransGen.single hhead).tail hmiddle).tail hlast
  obtain ⟨hsame, hbounds⟩ := (hflat _ hrun).2 6
  exact ⟨hd, _, hrun, rfl, (hsame.contains _).trans (by decide +kernel),
    (hsame.landmark? "e").trans (by decide +kernel),
    (hbounds inferInstance inferInstance).trans (by decide +kernel), (hsingle 3 1 rfl).1⟩

end Scene

end Easel
