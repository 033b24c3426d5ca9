import Easel.Drawing.Landmark

/-! The landmarks of a shape and the list of their names. Both are found by following the references
of shapes, one to a point and the other to a list, and they agree: the names in the list are those
that lead to a point. -/

namespace Easel

variable {α : Type} [Scalar α] {name : String}

/-! ### Shapes that stand for themselves -/

namespace Landmark

theorem compass?_isSome_iff {center : Point α} {dx dy diagonal : α} :
    (compass? center dx dy diagonal name).isSome ↔ name ∈ compassNames := by
  rw [compass?, Option.isSome_map]
  unfold direction?
  split <;> simp_all [compassNames]

theorem ellipse?_isSome_iff {center : Point α} {a b : α} :
    (ellipse? center a b name).isSome ↔ name ∈ ellipseNames := by
  rw [ellipseNames, List.mem_append]
  unfold ellipse?
  split
  · simp
  · simp
  · next h1 h2 =>
    have hfoci : name ∉ ["f1", "f2"] := by
      rw [List.mem_cons, List.mem_singleton, not_or]
      exact ⟨h1, h2⟩
    rw [compass?_isSome_iff, or_iff_left hfoci]

theorem triangle?_isSome_iff {v0 v1 v2 : Point α} :
    (triangle? v0 v1 v2 name).isSome ↔ name ∈ triangleNames := by
  unfold triangle?
  split <;> simp_all [triangleNames]

end Landmark

/-! ### Shapes of a drawing -/

/-- If a name leads to points of the shapes that a shape is made from just when it is in their
lists, then this holds of the shape itself. -/
theorem Rule.landmark?_isSome_iff {shape : Shape α} {ask : Nat → String → Option (Point α)}
    {names : Nat → List String} (h : ∀ r, (ask r name).isSome ↔ name ∈ names r) :
    (Rule.landmark?.answer shape name fun r i => pure (ask r i) :
        Id (Option (Point α))).run.isSome ↔
      name ∈ (Rule.landmarkNames.answer shape () fun r _ => pure (names r) :
        Id (List String)).run := by
  obtain ⟨label, form, fill⟩ := shape
  cases form with
  | circle center radius => exact Landmark.compass?_isSome_iff
  | ellipse center a b => exact Landmark.ellipse?_isSome_iff
  | rectangle center width height => exact Landmark.compass?_isSome_iff
  | triangle v0 v1 v2 => exact Landmark.triangle?_isSome_iff
  | shifted offset target =>
    refine Iff.trans ?_ (h target)
    exact Bool.eq_iff_iff.mp Option.isSome_map
  | rotated degrees pivot target =>
    refine Iff.trans ?_ (h target)
    exact Bool.eq_iff_iff.mp Option.isSome_map
  | union members =>
    cases members with
    | nil => exact iff_of_false Bool.false_ne_true List.not_mem_nil
    | cons first rest => exact h first
  | difference base subtrahend => exact h base

/-- A name leads to a landmark of a shape if and only if it is in the list of its landmarks. -/
theorem Drawing.landmark?_isSome_iff (d : Drawing α) (id : Nat) (name : String) :
    (d.landmark? id name).isSome ↔ name ∈ d.landmarkNames id := by
  induction id using Nat.strongRecOn with
  | ind id ih =>
  unfold landmark? landmarkNames
  rw [consult, consult]
  cases d.shapes[id]? with
  | none => exact iff_of_false Bool.false_ne_true List.not_mem_nil
  | some shape =>
    refine Rule.landmark?_isSome_iff fun r => ?_
    by_cases hlt : r < id
    · rw [if_pos hlt, if_pos hlt]
      exact ih r hlt
    · rw [if_neg hlt, if_neg hlt]
      exact iff_of_false Bool.false_ne_true List.not_mem_nil

/-! ### The lists -/

omit [Scalar α]

/-- The lists of landmarks that there are. Unions of no shapes have none. -/
def Landmark.lists : List (List String) := [[], compassNames, ellipseNames, triangleNames]

theorem Rule.landmarkNames_mem_lists {shape : Shape α} {names : Nat → List String}
    (h : ∀ r, names r ∈ Landmark.lists) :
    (Rule.landmarkNames.answer shape () fun r _ => pure (names r) : Id (List String)).run ∈
      Landmark.lists := by
  obtain ⟨label, form, fill⟩ := shape
  cases form with
  | circle | rectangle => exact .tail _ (.head _)
  | ellipse => exact .tail _ (.tail _ (.head _))
  | triangle => exact .tail _ (.tail _ (.tail _ (.head _)))
  | shifted offset target => exact h target
  | rotated degrees pivot target => exact h target
  | union members =>
    cases members with
    | nil => exact .head _
    | cons first rest => exact h first
  | difference base subtrahend => exact h base

theorem Drawing.landmarkNames_mem_lists (d : Drawing α) (id : Nat) :
    d.landmarkNames id ∈ Landmark.lists := by
  induction id using Nat.strongRecOn with
  | ind id ih =>
  unfold landmarkNames
  rw [consult]
  cases d.shapes[id]? with
  | none => exact .head _
  | some shape =>
    refine Rule.landmarkNames_mem_lists fun r => ?_
    by_cases hlt : r < id
    · rw [if_pos hlt]
      exact ih r hlt
    · rw [if_neg hlt]
      exact .head _

end Easel
