import Easel.Plane.Box
import Easel.Number.Word
import Easel.Proofs.Image.Canvas
import Easel.Proofs.Number.Rounding
import Easel.Proofs.Plane.Extremes

/-! The spans of pixels that a box covers. They are in order whatever the box and the canvas. They
end on the canvas as long as it has no more than `2 ^ 53` rows and columns: beyond that the number
of the last column need not be a double, and the double next to it may lie past the edge, though it
is less than twice as great. `Box.EndsOn` says which spans still end on the canvas. -/

namespace Easel

namespace Binary64

variable {x y : Float}

/-- The lesser of a double and a number is one that is not above the number. -/
theorem toIndex_min_le (hy : ¬y.isNaN) : toIndex (min x y) ≤ toIndex y := by
  unfold min
  split
  · next hlt => exact toIndex_mono (le_of_lt hlt)
  · exact Nat.le_of_eq (congrArg toIndex (if_pos (beq_self hy)))

end Binary64

namespace Box

open Binary64

/-- The last index whose cell has its middle below `high`, on an axis without an end. -/
def reach (high : Float) : Float := Scalar.floor (high - Scalar.half + slack)

/-- When a span with the upper bound `high` ends on an axis with `length` cells: the double of the
last index has an index on the axis, or the reach is less than that double and has one. -/
def EndsOn (high : Float) (length : Nat) : Prop :=
  toIndex (.ofNat (length - 1)) < length ∨
    (reach high < .ofNat (length - 1) ∧ toIndex (reach high) < length)

/-- A span starts at the greater of a double and zero, and ends at the lesser of its reach and the
number of the last index. -/
theorem axisSpan?_eq_some {low high : Float} {length : Nat} {span : Span}
    (h : axisSpan? low high length = some span) :
    0 < length ∧ ∃ x : Float,
      ¬Binary64.min (reach high) (.ofNat (length - 1)) < Binary64.max x (.ofNat 0) ∧
      span = ⟨toIndex (Binary64.max x (.ofNat 0)),
        toIndex (Binary64.min (reach high) (.ofNat (length - 1)))⟩ := by
  unfold axisSpan? at h
  split at h
  · cases h
  next hsome =>
  dsimp only at h
  split at h
  · cases h
  next hordered =>
  exact ⟨Nat.pos_of_ne_zero fun hzero => hsome (.inl hzero), _, hordered,
    (Option.some.inj h).symm⟩

theorem endsOn_of_le {length : Nat} (high : Float) (hpos : 0 < length) (hlength : length ≤ 2 ^ 53) :
    EndsOn high length := by
  have hlt : length - 1 < 2 ^ 53 := by omega
  rw [EndsOn, toIndex_ofNat hlt]
  exact .inl (Nat.sub_one_lt_of_lt hpos)

/-- The lesser of the reach and the number of the last index is on the axis just when the span
ends on it. -/
theorem toIndex_min_reach_lt_iff {high : Float} {length : Nat}
    (hlast : ¬(Float.ofNat (length - 1)).isNaN) :
    toIndex (Binary64.min (reach high) (.ofNat (length - 1))) < length ↔ EndsOn high length := by
  by_cases hreach : reach high < Float.ofNat (length - 1)
  · rw [Binary64.min, if_pos hreach]
    constructor
    · exact fun hlt => .inr ⟨hreach, hlt⟩
    · rintro (hlt | ⟨-, hlt⟩)
      · exact Nat.lt_of_le_of_lt (toIndex_mono (le_of_lt hreach)) hlt
      · exact hlt
  · rw [Binary64.min, if_neg hreach, if_pos (beq_self hlast)]
    exact ⟨.inl, Or.rec id fun h => absurd h.1 hreach⟩

/-- A span is in order, and it ends on the axis just when `EndsOn` says so. -/
theorem axisSpan?_bounds {low high : Float} {length : Nat} (hlength : length ≤ Word.size)
    {span : Span} (h : axisSpan? low high length = some span) :
    span.first ≤ span.last ∧ (span.last < length ↔ EndsOn high length) := by
  obtain ⟨hpos, x, hordered, rfl⟩ := axisSpan?_eq_some h
  have hstart : ¬(Float.ofNat 0).isNaN := not_isNaN_ofNat (by decide)
  have hlast : ¬(Float.ofNat (length - 1)).isNaN :=
    (toIndex_ofNat_le (Nat.lt_of_lt_of_le (Nat.sub_one_lt_of_lt hpos) hlength)).1
  constructor
  · exact toIndex_mono ((not_lt_iff_le (not_isNaN_min hlast) (not_isNaN_max hstart)).mp hordered)
  · exact toIndex_min_reach_lt_iff hlast

theorem axisSpan?_last_le {low high : Float} {length : Nat} (hlength : length ≤ Word.size)
    {span : Span} (h : axisSpan? low high length = some span) : span.last ≤ 2 * (length - 1) := by
  obtain ⟨hpos, x, -, rfl⟩ := axisSpan?_eq_some h
  have hlt : length - 1 < 2 ^ 64 := Nat.lt_of_lt_of_le (Nat.sub_one_lt_of_lt hpos) hlength
  obtain ⟨hnumber, hle⟩ := toIndex_ofNat_le hlt
  exact Nat.le_trans (toIndex_min_le hnumber) hle

variable {b : Box Float} {width height : Nat} {span : PixelSpan}

theorem pixelSpan?_eq_some (h : b.pixelSpan? width height = some span) :
    axisSpan? b.lowerLeft.x b.upperRight.x width = some span.columns ∧
      axisSpan? b.lowerLeft.y b.upperRight.y height = some span.rows := by
  obtain ⟨columns, hcolumns, h⟩ := Option.bind_eq_some_iff.mp h
  obtain ⟨rows, hrows, h⟩ := Option.bind_eq_some_iff.mp h
  obtain rfl := Option.some.inj h
  exact ⟨hcolumns, hrows⟩

theorem pixelSpan?_bounds (hwidth : width ≤ Word.size) (hheight : height ≤ Word.size)
    (h : b.pixelSpan? width height = some span) :
    (span.columns.first ≤ span.columns.last ∧ span.rows.first ≤ span.rows.last) ∧
      (span.columns.last < width ↔ EndsOn b.upperRight.x width) ∧
      (span.rows.last < height ↔ EndsOn b.upperRight.y height) := by
  obtain ⟨hcolumns, hrows⟩ := pixelSpan?_eq_some h
  obtain ⟨hordered, hends⟩ := axisSpan?_bounds hwidth hcolumns
  obtain ⟨hordered', hends'⟩ := axisSpan?_bounds hheight hrows
  exact ⟨⟨hordered, hordered'⟩, hends, hends'⟩

/-- No span leads over the edges of a canvas with at most `2 ^ 53` columns and rows. -/
theorem pixelSpan?_inside (hwidth : width ≤ 2 ^ 53) (hheight : height ≤ 2 ^ 53)
    (h : b.pixelSpan? width height = some span) : span.Inside width height := by
  obtain ⟨hcolumns, hrows⟩ := pixelSpan?_eq_some h
  have hsize : 2 ^ 53 ≤ Word.size := by decide
  obtain ⟨-, hends, hends'⟩ :=
    pixelSpan?_bounds (Nat.le_trans hwidth hsize) (Nat.le_trans hheight hsize) h
  exact ⟨hends.mpr (endsOn_of_le _ (axisSpan?_eq_some hcolumns).1 hwidth),
    hends'.mpr (endsOn_of_le _ (axisSpan?_eq_some hrows).1 hheight)⟩

/-- The place of a covered pixel in an image is less than twice the number of pixels. -/
theorem pixelSpan?_index_lt {x y : Nat} (hsize : width * height ≤ Word.size)
    (h : b.pixelSpan? width height = some span) (hcovers : span.Covers x y) :
    y * width + x < 2 * (width * height) := by
  obtain ⟨hcolumns, hrows⟩ := pixelSpan?_eq_some h
  have hwidth := (axisSpan?_eq_some hcolumns).1
  have hheight := (axisSpan?_eq_some hrows).1
  have hx : x ≤ 2 * (width - 1) := by
    have hle := Nat.le_trans (Nat.le_mul_of_pos_right width hheight) hsize
    exact Nat.le_trans hcovers.1.2 (axisSpan?_last_le hle hcolumns)
  have hy : y ≤ 2 * (height - 1) := by
    have hle := Nat.le_trans (Nat.le_mul_of_pos_left height hwidth) hsize
    exact Nat.le_trans hcovers.2.2 (axisSpan?_last_le hle hrows)
  calc y * width + x ≤ 2 * (height - 1) * width + 2 * (width - 1) :=
        Nat.add_le_add (Nat.mul_le_mul_right width hy) hx
    _ < 2 * (height - 1) * width + 2 * width := by omega
    _ = 2 * (height - 1 + 1) * width := by rw [Nat.mul_add, Nat.add_mul]
    _ = 2 * (width * height) := by
        rw [Nat.sub_add_cancel hheight, Nat.mul_assoc, Nat.mul_comm height]

end Box

end Easel
