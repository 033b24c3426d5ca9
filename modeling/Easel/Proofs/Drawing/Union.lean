import Easel.Drawing.Geometry
import Easel.Drawing.Landmark

/-! What a union answers: it contains what any of its members contains, its box is the least one
around theirs, and its landmarks are those of the first of them. -/

namespace Easel

variable {α : Type}

/-- The least box around some boxes, or that of the origin if there is none. -/
def Box.hull [Scalar α] : List (Box α) → Box α
  | [] => single .origin
  | first :: more => more.foldl union first

namespace Rule

variable {shape : Shape α} {members : List Nat}

theorem contains_union [Scalar α] (h : shape.form = .union members) (p : Point α)
    (contains : Nat → Point α → Bool) :
    (Rule.contains.answer shape p fun r q => pure (contains r q) : Id Bool).run =
      members.any fun r => contains r p := by
  simp only [Rule.contains, h]
  exact congrArg Id.run (List.anyM_pure (m := Id))

theorem bounds_union [Scalar α] (h : shape.form = .union members) (bounds : Nat → Box α) :
    (Rule.bounds.answer shape () fun r _ => pure (bounds r) : Id (Box α)).run =
      Box.hull (members.map bounds) := by
  have hboxes : (members.mapM fun r => pure (bounds r) : Id (List (Box α))) =
      pure (members.map bounds) := List.mapM_pure
  simp only [Rule.bounds, h]
  rw [hboxes]
  cases members <;> rfl

theorem landmark?_union [Scalar α] (h : shape.form = .union members) (name : String)
    (landmark? : Nat → String → Option (Point α)) :
    (Rule.landmark?.answer shape name fun r i => pure (landmark? r i) : Id (Option (Point α))).run =
      members.head?.bind fun r => landmark? r name := by
  simp only [Rule.landmark?, h]
  cases members <;> rfl

theorem landmarkNames_union (h : shape.form = .union members) (names : Nat → List String) :
    (Rule.landmarkNames.answer shape () fun r _ => pure (names r) : Id (List String)).run =
      (members.head?.map names).getD [] := by
  simp only [Rule.landmarkNames, h]
  cases members <;> rfl

end Rule

end Easel
