import Easel.Proofs.Drawing.Relocation
import Easel.Proofs.Scene.Exact

/-! Chains of shifted and turned shapes. A transformed shape takes a point back to its target and
carries the landmarks of its target along, so over exact numbers both agree with the transform: a
chain contains what its first shape contains after all transforms, in their order, and has the
landmarks there. A chain that undoes its own transforms contains what its first shape does. -/

namespace Easel

variable {α : Type}

/-- A transform of the plane: a shift, or a turn around a pivot. -/
inductive Transform (α : Type) where
  | shift (offset : Point α)
  | turn (degrees : α) (pivot : Point α)

namespace Transform

/-- The form of a shape that a transform makes from another one. -/
def form (target : Nat) : Transform α → Form α
  | shift offset => .shifted offset target
  | turn degrees pivot => .rotated degrees pivot target

variable [Scalar α]

def apply (p : Point α) : Transform α → Point α
  | shift offset => p.shift offset
  | turn degrees pivot => p.rotate pivot degrees

/-- The transform by the opposite offset or angle. -/
def opposite : Transform α → Transform α
  | shift offset => shift (-offset)
  | turn degrees pivot => turn (-degrees) pivot

/-- Where a point is after some transforms, from the first one on. -/
def applyAll (ts : List (Transform α)) (p : Point α) : Point α := ts.foldl apply p

/-- The opposite transforms, from the last one on. -/
def undo (ts : List (Transform α)) : List (Transform α) := (ts.map opposite).reverse

/-- The opposite transform takes every point back. -/
def Cancels (t : Transform α) : Prop := ∀ p : Point α, apply (apply p t) t.opposite = p

theorem applyAll_append (ts us : List (Transform α)) (p : Point α) :
    applyAll (ts ++ us) p = applyAll us (applyAll ts p) := List.foldl_append

/-- Transforms that are undone leave every point where it is. -/
theorem applyAll_undo {ts : List (Transform α)} (h : ∀ t ∈ ts, t.Cancels) (p : Point α) :
    applyAll (ts ++ undo ts) p = p := by
  induction ts generalizing p with
  | nil => rfl
  | cons t ts ih =>
    obtain ⟨ht, hts⟩ := List.forall_mem_cons.mp h
    have hundo : undo (t :: ts) = undo ts ++ [t.opposite] := by simp [undo]
    calc applyAll (t :: ts ++ undo (t :: ts)) p
      _ = applyAll (ts ++ undo ts ++ [t.opposite]) (apply p t) := by
        rw [hundo, List.append_assoc]
        rfl
      _ = apply (applyAll (ts ++ undo ts) (apply p t)) t.opposite := applyAll_append _ _ _
      _ = p := by rw [ih hts, ht]

end Transform

namespace Drawing

/-- Transforms that lead from the shape at one place to that at another, one after the other. -/
inductive Chain (d : Drawing α) (base : Nat) : List (Transform α) → Nat → Prop
  | base : Chain d base [] base
  | further {ts : List (Transform α)} {t : Transform α} {target id : Nat}
      (hchain : Chain d base ts target) (hform : d.form? id = some (t.form target)) :
      Chain d base (ts ++ [t]) id

variable [Scalar α] {d : Drawing α} {base target id : Nat} {t : Transform α}
  {ts : List (Transform α)}

open Transform

theorem contains_of_form? (hd : d.Layered) (hform : d.form? id = some (t.form target))
    (p : Point α) : d.contains id p = d.contains target (apply p t.opposite) := by
  obtain ⟨⟨name, form, fill⟩, hshape, rfl⟩ := form?_eq_some_iff.mp hform
  rw [contains, hd.consult_eq Rule.contains_relocatable _ hshape]
  cases t <;> rfl

theorem landmark?_of_form? (hd : d.Layered) (hform : d.form? id = some (t.form target))
    (name : String) : d.landmark? id name = (d.landmark? target name).map fun p => apply p t := by
  obtain ⟨⟨label, form, fill⟩, hshape, rfl⟩ := form?_eq_some_iff.mp hform
  rw [landmark?, hd.consult_eq Rule.landmark?_relocatable _ hshape]
  cases t <;> rfl

/-- A chain contains a transformed point if its first shape contains the point. -/
theorem Chain.contains_applyAll (h : d.Chain base ts id) (hd : d.Layered)
    (hcancels : ∀ t ∈ ts, t.Cancels) (p : Point α) :
    d.contains id (applyAll ts p) = d.contains base p := by
  induction h with
  | base => rfl
  | @further ts t target id _ hform ih =>
    have hts : ∀ u ∈ ts, u.Cancels := fun u hu => hcancels u (by simp [hu])
    have ht : t.Cancels := hcancels t (by simp)
    calc d.contains id (applyAll (ts ++ [t]) p)
      _ = d.contains id (apply (applyAll ts p) t) := by rw [applyAll_append]; rfl
      _ = d.contains target (applyAll ts p) := by
        rw [contains_of_form? hd hform, ht]
      _ = d.contains base p := ih hts

/-- The landmarks of a chain are those of its first shape, transformed. -/
theorem Chain.landmark?_eq (h : d.Chain base ts id) (hd : d.Layered) (name : String) :
    d.landmark? id name = (d.landmark? base name).map (applyAll ts) := by
  induction h with
  | base => exact Option.map_id'.symm
  | @further ts t target id _ hform ih =>
    rw [landmark?_of_form? hd hform, ih, Option.map_map]
    congr 1
    funext p
    exact (applyAll_append ts [t] p).symm

end Drawing

/-! ### Exact numbers -/

variable {K : Type} [Field K] [LinearOrder K] [FloorRing K] (f : ExactFunctions K)

theorem Transform.cancels (t : Transform K) : @Cancels K f.scalar t := by
  intro p
  cases t with
  | shift offset =>
    show (⟨p.x + offset.x + -offset.x, p.y + offset.y + -offset.y⟩ : Point K) = p
    rw [add_neg_cancel_right, add_neg_cancel_right]
  | turn degrees pivot =>
    have hback := Box.rotate_rotate_neg (f := f) p pivot (-degrees)
    rwa [neg_neg] at hback

open Transform in
/-- A chain of transforms contains a point after all of them just when its first shape contains the
point, and has the landmarks of this shape after all of them. If the transforms undo each other in
the end, the chain contains what its first shape does. -/
theorem Drawing.chain_coherent {d : Drawing K} {base id : Nat} {ts : List (Transform K)}
    (hd : d.Layered) (h : d.Chain base ts id) :
    (∀ p, @contains K f.scalar d id (@applyAll K f.scalar ts p) = @contains K f.scalar d base p) ∧
    (∀ name, @landmark? K f.scalar d id name =
      (@landmark? K f.scalar d base name).map (@applyAll K f.scalar ts)) ∧
    ∀ us, ts = us ++ @undo K f.scalar us →
      ∀ p, @contains K f.scalar d id p = @contains K f.scalar d base p := by
  have hcontains : ∀ p, @contains K f.scalar d id (@applyAll K f.scalar ts p) =
      @contains K f.scalar d base p :=
    fun p => @Chain.contains_applyAll K f.scalar d base id ts h hd (fun t _ => t.cancels f) p
  refine ⟨hcontains, @Chain.landmark?_eq K f.scalar d base id ts h hd, fun us hundo p => ?_⟩
  have happly : @applyAll K f.scalar ts p = p := by
    rw [hundo]
    exact @applyAll_undo K f.scalar us (fun t _ => t.cancels f) p
  rw [← hcontains p, happly]

namespace Scene

/-- A disc around the origin, and the disc after a shift and a turn. -/
def orbiting : Drawing Rat := ⟨#[
  ⟨"sun", .circle ⟨0, 0⟩ 1, none⟩,
  ⟨"near", .shifted ⟨10, 0⟩ 0, none⟩,
  ⟨"far", .rotated 30 ⟨5, 0⟩ 1, none⟩]⟩

theorem orbiting_coherent : orbiting.Layered ∧
    orbiting.Chain 0 [.shift ⟨10, 0⟩, .turn 30 ⟨5, 0⟩] 2 ∧
    @Drawing.contains Rat rationalTurns.scalar orbiting 2 ⟨9, 3⟩ = true ∧
    @Drawing.landmark? Rat rationalTurns.scalar orbiting 2 "e" = some ⟨49 / 5, 18 / 5⟩ := by
  have hd : orbiting.Layered := by decide
  have hchain : orbiting.Chain 0 [.shift ⟨10, 0⟩, .turn 30 ⟨5, 0⟩] 2 :=
    .further (t := .turn 30 ⟨5, 0⟩) (.further (t := .shift ⟨10, 0⟩) .base rfl) rfl
  obtain ⟨hcontains, hlandmark, -⟩ := Drawing.chain_coherent rationalTurns hd hchain
  have hplace : @Transform.applyAll Rat rationalTurns.scalar
      [.shift ⟨10, 0⟩, .turn 30 ⟨5, 0⟩] ⟨0, 0⟩ = ⟨9, 3⟩ := by
    decide +kernel
  refine ⟨hd, hchain, ?_, (hlandmark "e").trans ?_⟩
  · rw [← hplace, hcontains]
    decide +kernel
  · decide +kernel

end Scene

end Easel
