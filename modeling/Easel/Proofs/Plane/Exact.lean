import Mathlib.Algebra.Order.Floor.Ring
import Mathlib.Tactic.Linarith
import Mathlib.Tactic.LinearCombination
import Mathlib.Tactic.Ring
import Easel.Plane.Box
import Easel.Proofs.Image.Canvas

/-! The plane over exact numbers: the elements of an ordered field with whole parts, such as the
rationals or the reals. A box encloses a point if it holds of all four sides, and what is done to a
box is done to the points that it encloses. -/

namespace Easel

/-- A point lies in a box or on one of its sides. -/
structure Box.Encloses {K : Type} [LE K] (b : Box K) (p : Point K) : Prop where
  left : b.lowerLeft.x ≤ p.x
  right : p.x ≤ b.upperRight.x
  lower : b.lowerLeft.y ≤ p.y
  upper : p.y ≤ b.upperRight.y

/-- The operations on scalars that a field with an order does not come with. Nothing is asked of
them. -/
structure FieldExtras (K : Type) where
  sqrt : K → K
  sin : K → K
  cos : K → K
  diagonal : K
  floor : K → K
  ceil : K → K
  isFinite : K → Bool
  toIndex : K → Nat

/-- The scalars of a field with an order. -/
@[reducible] def FieldExtras.scalar {K : Type} [Field K] [LinearOrder K] (e : FieldExtras K) :
    Scalar K where
  le a b := a ≤ b
  lt a b := a < b
  nat n := n
  min := min
  max := max
  abs a := |a|
  sqrt := e.sqrt
  sin := e.sin
  cos := e.cos
  diagonal := e.diagonal
  floor := e.floor
  ceil := e.ceil
  isFinite := e.isFinite
  toIndex := e.toIndex

variable {K : Type} [Field K]

/-- Functions of exact numbers. The cosine and the sine of an angle are a point of the unit circle,
and for the opposite angle they are the point across the first axis. -/
structure ExactFunctions (K : Type) [Field K] where
  sin : K → K
  cos : K → K
  sqrt : K → K
  diagonal : K
  onCircle : ∀ degrees, cos degrees * cos degrees + sin degrees * sin degrees = 1
  sin_neg : ∀ degrees, sin (-degrees) = -sin degrees
  cos_neg : ∀ degrees, cos (-degrees) = cos degrees

variable [LinearOrder K]

namespace Box.Encloses

variable [IsStrictOrderedRing K] {b : Box K} {p : Point K} {k l m : K}

/-- A bound of a linear function at the corners of a box is one at the points that it encloses. -/
theorem le_linear (h : b.Encloses p) {least : K}
    (h1 : least ≤ k * b.lowerLeft.x + l * b.upperRight.y + m)
    (h2 : least ≤ k * b.upperRight.x + l * b.lowerLeft.y + m)
    (h3 : least ≤ k * b.lowerLeft.x + l * b.lowerLeft.y + m)
    (h4 : least ≤ k * b.upperRight.x + l * b.upperRight.y + m) :
    least ≤ k * p.x + l * p.y + m := by
  rcases le_total 0 k with hk | hk
  · have hx := mul_le_mul_of_nonneg_left h.left hk
    rcases le_total 0 l with hl | hl
    · have hy := mul_le_mul_of_nonneg_left h.lower hl
      linarith
    · have hy := mul_le_mul_of_nonpos_left h.upper hl
      linarith
  · have hx := mul_le_mul_of_nonpos_left h.right hk
    rcases le_total 0 l with hl | hl
    · have hy := mul_le_mul_of_nonneg_left h.lower hl
      linarith
    · have hy := mul_le_mul_of_nonpos_left h.upper hl
      linarith

theorem linear_le (h : b.Encloses p) {greatest : K}
    (h1 : k * b.lowerLeft.x + l * b.upperRight.y + m ≤ greatest)
    (h2 : k * b.upperRight.x + l * b.lowerLeft.y + m ≤ greatest)
    (h3 : k * b.lowerLeft.x + l * b.lowerLeft.y + m ≤ greatest)
    (h4 : k * b.upperRight.x + l * b.upperRight.y + m ≤ greatest) :
    k * p.x + l * p.y + m ≤ greatest := by
  have hneg : -greatest ≤ -k * p.x + -l * p.y + -m := by
    apply h.le_linear <;> linarith
  linarith

end Box.Encloses

variable [FloorRing K]

/-- The operations of exact numbers, all of which are finite. -/
@[reducible] def ExactFunctions.scalar (f : ExactFunctions K) : Scalar K where
  le a b := a ≤ b
  lt a b := a < b
  nat n := n
  min := min
  max := max
  abs a := |a|
  sqrt := f.sqrt
  sin := f.sin
  cos := f.cos
  diagonal := f.diagonal
  floor a := ⌊a⌋
  ceil a := ⌈a⌉
  isFinite _ := true
  toIndex a := ⌊a⌋.toNat

/-- What the operations of exact numbers have beyond those of the field. -/
def ExactFunctions.extras (f : ExactFunctions K) : FieldExtras K where
  sqrt := f.sqrt
  sin := f.sin
  cos := f.cos
  diagonal := f.diagonal
  floor a := ⌊a⌋
  ceil a := ⌈a⌉
  isFinite _ := true
  toIndex a := ⌊a⌋.toNat

theorem ExactFunctions.scalar_eq (f : ExactFunctions K) : f.scalar = f.extras.scalar := rfl

namespace Box

variable {f : ExactFunctions K} {b c first : Box K} {p q pivot : Point K} {degrees : K}

/-! ### Unions and boxes around points -/

theorem Encloses.union_left (h : b.Encloses p) : (@union K f.scalar b c).Encloses p :=
  ⟨min_le_of_left_le h.left, le_max_of_le_left h.right, min_le_of_left_le h.lower,
    le_max_of_le_left h.upper⟩

theorem Encloses.union_right (h : c.Encloses p) : (@union K f.scalar b c).Encloses p :=
  ⟨min_le_of_right_le h.left, le_max_of_le_right h.right, min_le_of_right_le h.lower,
    le_max_of_le_right h.upper⟩

theorem encloses_foldl_union {more : List (Box K)} (hb : b ∈ first :: more) (h : b.Encloses p) :
    (more.foldl (@union K f.scalar) first).Encloses p := by
  induction more generalizing b first with
  | nil =>
    rw [List.mem_singleton] at hb
    exact hb ▸ h
  | cons c more ih =>
    rcases List.mem_cons.mp hb with rfl | hb
    · exact ih List.mem_cons_self h.union_left
    · rcases List.mem_cons.mp hb with rfl | hb
      · exact ih List.mem_cons_self h.union_right
      · exact ih (List.mem_cons_of_mem _ hb) h

theorem encloses_around {more : List (Point K)} (hp : p ∈ q :: more) :
    (@around K f.scalar q more).Encloses p := by
  have hfold : @around K f.scalar q more =
      (more.map single).foldl (@union K f.scalar) (single q) := by
    rw [List.foldl_map]
    rfl
  have hsingle : (single p).Encloses p := ⟨le_rfl, le_rfl, le_rfl, le_rfl⟩
  rw [hfold]
  refine encloses_foldl_union ?_ hsingle
  rw [← List.map_cons (f := single)]
  exact List.mem_map_of_mem hp

/-! ### Shifts and turns -/

/-- The coordinates of a turned point are linear functions of those of the point. -/
theorem rotate_eq (p pivot : Point K) (degrees : K) :
    @Point.rotate K f.scalar p pivot degrees =
      ⟨f.cos degrees * p.x + -f.sin degrees * p.y +
          (pivot.x - f.cos degrees * pivot.x + f.sin degrees * pivot.y),
        f.sin degrees * p.x + f.cos degrees * p.y +
          (pivot.y - f.sin degrees * pivot.x - f.cos degrees * pivot.y)⟩ := by
  have hrotate : @Point.rotate K f.scalar p pivot degrees =
      ⟨(p.x - pivot.x) * f.cos degrees - (p.y - pivot.y) * f.sin degrees + pivot.x,
        (p.x - pivot.x) * f.sin degrees + (p.y - pivot.y) * f.cos degrees + pivot.y⟩ := rfl
  rw [hrotate]
  congr 1 <;> ring

theorem rotate_rotate_neg (p pivot : Point K) (degrees : K) :
    @Point.rotate K f.scalar (@Point.rotate K f.scalar p pivot (-degrees)) pivot degrees = p := by
  have hcircle := f.onCircle degrees
  rw [rotate_eq, rotate_eq, f.sin_neg, f.cos_neg]
  obtain ⟨x, y⟩ := p
  congr 1
  · dsimp only
    linear_combination (x - pivot.x) * hcircle
  · dsimp only
    linear_combination (y - pivot.y) * hcircle

variable [IsStrictOrderedRing K]

theorem Encloses.shift {offset : Point K}
    (h : b.Encloses (@Point.shift K f.scalar p ⟨-offset.x, -offset.y⟩)) :
    (@Box.shift K f.scalar b offset).Encloses p := by
  have hleft : b.lowerLeft.x ≤ p.x + -offset.x := h.left
  have hright : p.x + -offset.x ≤ b.upperRight.x := h.right
  have hlower : b.lowerLeft.y ≤ p.y + -offset.y := h.lower
  have hupper : p.y + -offset.y ≤ b.upperRight.y := h.upper
  constructor
  · show b.lowerLeft.x + offset.x ≤ p.x
    linarith
  · show p.x ≤ b.upperRight.x + offset.x
    linarith
  · show b.lowerLeft.y + offset.y ≤ p.y
    linarith
  · show p.y ≤ b.upperRight.y + offset.y
    linarith

/-- A turned box encloses the points of the box, turned like its corners. -/
theorem Encloses.turn (h : b.Encloses p) :
    (@Box.rotate K f.scalar b pivot degrees).Encloses
      (@Point.rotate K f.scalar p pivot degrees) := by
  have hcorner : ∀ q ∈ b.corners, (@Box.rotate K f.scalar b pivot degrees).Encloses
      (@Point.rotate K f.scalar q pivot degrees) := by
    intro q hq
    exact encloses_around
      (List.mem_map_of_mem (f := fun q => @Point.rotate K f.scalar q pivot degrees) hq)
  simp only [rotate_eq, corners, List.forall_mem_cons] at hcorner
  obtain ⟨h1, h2, h3, h4, -⟩ := hcorner
  rw [rotate_eq]
  exact ⟨h.le_linear h1.left h2.left h3.left h4.left,
    h.linear_le h1.right h2.right h3.right h4.right,
    h.le_linear h1.lower h2.lower h3.lower h4.lower,
    h.linear_le h1.upper h2.upper h3.upper h4.upper⟩

theorem Encloses.rotate (h : b.Encloses (@Point.rotate K f.scalar p pivot (-degrees))) :
    (@Box.rotate K f.scalar b pivot degrees).Encloses p := by
  have hturn : (@Box.rotate K f.scalar b pivot degrees).Encloses (@Point.rotate K f.scalar
      (@Point.rotate K f.scalar p pivot (-degrees)) pivot degrees) := h.turn
  rwa [rotate_rotate_neg] at hturn

/-! ### Pixels -/

/-- The cells that a pair of bounds covers include every cell that has its middle between them. -/
theorem axisSpan?_covers {low high : K} {i length : Nat} (hi : i < length)
    (hlow : low ≤ i + @Scalar.half K f.scalar) (hhigh : i + @Scalar.half K f.scalar ≤ high) :
    ∃ span, @axisSpan? K f.scalar low high length = some span ∧ span.first ≤ i ∧ i ≤ span.last := by
  let before : Int := ⌈low - @Scalar.half K f.scalar - @slack K f.scalar⌉
  let behind : Int := ⌊high - @Scalar.half K f.scalar + @slack K f.scalar⌋
  let first : K := max before (0 : Nat)
  let last : K := min behind (length - 1 : Nat)
  have hslack : 0 ≤ @slack K f.scalar := div_nonneg (Nat.cast_nonneg _) (Nat.cast_nonneg _)
  have hfirst : first ≤ i := by
    have hbefore : before ≤ i := by
      rw [Int.ceil_le, Int.cast_natCast]
      linarith
    exact max_le (by exact_mod_cast hbefore) (Nat.cast_le.mpr (Nat.zero_le i))
  have hlast : i ≤ last := by
    have hbehind : i ≤ behind := by
      rw [Int.le_floor, Int.cast_natCast]
      linarith
    exact le_min (by exact_mod_cast hbehind) (Nat.cast_le.mpr (by omega))
  have hspan : @axisSpan? K f.scalar low high length = some ⟨⌊first⌋.toNat, ⌊last⌋.toNat⟩ := by
    have hcanvas : ¬(length = 0 ∨ (!true) = true ∨ (!true) = true) := by
      simp only [Bool.not_true, Bool.false_eq_true, or_false]
      omega
    have hordered : ¬decide (last < first) = true := by
      rw [decide_eq_true_iff]
      exact not_lt_of_ge (hfirst.trans hlast)
    exact (if_neg hcanvas).trans (if_neg hordered)
  refine ⟨_, hspan, ?_, ?_⟩
  · have hfloor := Int.floor_mono hfirst
    rw [Int.floor_natCast] at hfloor
    exact Int.toNat_le.mpr hfloor
  · have hfloor := Int.floor_mono hlast
    rw [Int.floor_natCast] at hfloor
    show i ≤ ⌊last⌋.toNat
    omega

/-- A box that encloses the centre of a pixel of a canvas covers the pixel. -/
theorem Encloses.covers {x y width height : Nat}
    (h : b.Encloses (@Point.pixelCenter K f.scalar x y)) (hx : x < width) (hy : y < height) :
    ∃ span, @pixelSpan? K f.scalar b width height = some span ∧ span.Covers x y := by
  obtain ⟨columns, hcolumns, hx⟩ := axisSpan?_covers hx h.left h.right
  obtain ⟨rows, hrows, hy⟩ := axisSpan?_covers hy h.lower h.upper
  refine ⟨⟨columns, rows⟩, ?_, hx, hy⟩
  unfold pixelSpan?
  rw [hcolumns, hrows]
  rfl

end Box

end Easel
