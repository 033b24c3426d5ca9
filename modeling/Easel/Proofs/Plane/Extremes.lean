import Easel.Plane.Scalar
import Easel.Proofs.Number.Comparison

/-! The lesser and the greater of two doubles. Of several doubles the one that is found does not
hang on how they are grouped, even where some are equal or NaN: it is the last one of those that
come first in the order of the numbers among them, or NaN if there is none. -/

namespace Easel.Binary64

variable {x y z : Float}

theorem beq_iff : (x == y) = true ↔ x.toModel.unpack.compare y.toModel.unpack = some .eq := by
  have hbeq : (x == y) = (x.toModel.unpack.compare y.toModel.unpack == some .eq) := rfl
  rw [hbeq, beq_iff_eq]

theorem beq_self (hx : ¬x.isNaN) : (x == x) = true := by
  rw [beq_iff]
  have hswap := compare_swap x.toModel.unpack x.toModel.unpack
  have hordered := mt isNaN_or_isNaN_iff.mpr (not_or.mpr ⟨hx, hx⟩)
  cases hcompare : x.toModel.unpack.compare x.toModel.unpack with
  | none => exact absurd hcompare hordered
  | some o =>
    rw [hcompare] at hswap
    cases o with
    | eq => rfl
    | lt | gt => cases hswap

theorem beq_self_of_isNaN (hx : x.isNaN) : (x == x) = false := by
  rw [Bool.eq_false_iff, ne_eq, beq_iff, isNaN_or_isNaN_iff.mp (.inl hx)]
  exact nofun

/-- An order of the numbers among the doubles. NaN is neither before a double nor behind one. -/
structure Orders (before : Float → Float → Prop) : Prop where
  number : ∀ {x y}, before x y → ¬(x.isNaN ∨ y.isNaN)
  trans : ∀ {x y z}, before x y → before y z → before x z
  between : ∀ {x y z}, ¬y.isNaN → before x z → before x y ∨ before y z

theorem orders_lt : Orders fun x y => x < y := ⟨not_isNaN_of_lt, lt_of_lt_of_lt, lt_or_lt_of_lt⟩

theorem orders_gt : Orders fun x y => y < x where
  number h := mt Or.symm (not_isNaN_of_lt h)
  trans h h' := lt_of_lt_of_lt h' h
  between hy h := (lt_or_lt_of_lt hy h).symm

/-- The first of two doubles, if it is before the second one or this is NaN, and else the second. -/
def earlier (before : Float → Float → Prop) [DecidableRel before] (x y : Float) : Float :=
  if before x y then x else if y == y then y else x

section

variable {before : Float → Float → Prop} [DecidableRel before]

theorem Orders.earlier_of_isNaN (h : Orders before) (hy : y.isNaN) : earlier before x y = x := by
  rw [earlier, beq_self_of_isNaN hy, if_neg fun hxy => h.number hxy (.inr hy)]
  rfl

theorem earlier_eq (hy : ¬y.isNaN) : earlier before x y = if before x y then x else y := by
  rw [earlier, beq_self hy, if_pos rfl]

theorem Orders.not_isNaN_earlier (h : Orders before) (hy : ¬y.isNaN) :
    ¬(earlier before x y).isNaN := by
  rw [earlier_eq hy]
  split
  · next hxy => exact fun hx => h.number hxy (.inl hx)
  · exact hy

theorem Orders.earlier_assoc (h : Orders before) (x y z : Float) :
    earlier before (earlier before x y) z = earlier before x (earlier before y z) := by
  by_cases hz : z.isNaN
  · rw [h.earlier_of_isNaN hz, h.earlier_of_isNaN hz]
  by_cases hy : y.isNaN
  · have hyz : earlier before y z = z := by
      rw [earlier_eq hz, if_neg fun hyz => h.number hyz (.inl hy)]
    rw [h.earlier_of_isNaN hy, hyz]
  rw [earlier_eq hz, earlier_eq (h.not_isNaN_earlier hz), earlier_eq hy, earlier_eq hz]
  by_cases hxy : before x y
  · rw [if_pos hxy]
    by_cases hyz : before y z
    · rw [if_pos hyz, if_pos hxy, if_pos (h.trans hxy hyz)]
    · rw [if_neg hyz]
  · rw [if_neg hxy]
    by_cases hyz : before y z
    · rw [if_pos hyz, if_neg hxy]
    · rw [if_neg hyz, if_neg fun hxz => (h.between hy hxz).elim hxy hyz]

end

theorem not_isNaN_min (hy : ¬y.isNaN) : ¬(min x y).isNaN := orders_lt.not_isNaN_earlier hy

theorem not_isNaN_max (hy : ¬y.isNaN) : ¬(max x y).isNaN := orders_gt.not_isNaN_earlier hy

instance : Std.Associative (Scalar.min : Float → Float → Float) := ⟨orders_lt.earlier_assoc⟩

instance : Std.Associative (Scalar.max : Float → Float → Float) := ⟨orders_gt.earlier_assoc⟩

end Easel.Binary64
