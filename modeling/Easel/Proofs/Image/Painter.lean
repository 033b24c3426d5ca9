import Easel.Proofs.Image.Canvas
import Easel.Proofs.Plane.Span
import Easel.Proofs.List.Entries

/-! The painter's rule. Where filled shapes overlap, the topmost one that colours a pixel gives it
its colour, and the background is left where none does. The main statement says that a machine comes
to a picture if it can hold the pixels, and says so of every pixel of it, for both orders of the
fills. -/

namespace Easel

/-- Whether the entry at place `j` of the fills is above the one at place `i`. -/
def Precedence.Above : Precedence → Nat → Nat → Prop
  | first, j, i => j < i
  | last, j, i => i < j

/-- The first turn that gives an answer is the topmost entry of the fills with one. -/
theorem Precedence.findSome?_turns_eq_some_iff {β : Type} {order : Precedence} {fills : Array Nat}
    {f : Nat → Option β} {b : β} :
    (order.turns fills).findSome? f = some b ↔
      ∃ i id, fills[i]? = some id ∧ f id = some b ∧
        ∀ j other, order.Above j i → fills[j]? = some other → f other = none := by
  simp only [List.findSome?_eq_some_iff, ← Array.getElem?_toList]
  cases order with
  | first =>
    simp only [turns, Above]
    constructor
    · rintro ⟨l₁, id, l₂, hl, hid, hnone⟩
      exact ⟨l₁.length, id, getElem?_eq_some_iff_split.mpr ⟨l₁, l₂, hl, rfl⟩, hid,
        (forall_before_split hl).mpr hnone⟩
    · rintro ⟨i, id, hi, hid, hnone⟩
      obtain ⟨l₁, l₂, hl, rfl⟩ := getElem?_eq_some_iff_split.mp hi
      exact ⟨l₁, id, l₂, hl, hid, (forall_before_split hl).mp hnone⟩
  | last =>
    simp only [turns, Above]
    constructor
    · rintro ⟨l₁, id, l₂, hrev, hid, hnone⟩
      have hl : fills.toList = l₂.reverse ++ id :: l₁.reverse := by
        simpa using List.reverse_eq_append_iff.mp hrev
      exact ⟨l₂.reverse.length, id, getElem?_eq_some_iff_split.mpr ⟨_, _, hl, rfl⟩, hid,
        (forall_after_split hl).mpr fun b hb => hnone b (List.mem_reverse.mp hb)⟩
    · rintro ⟨i, id, hi, hid, hnone⟩
      obtain ⟨l₁, l₂, hl, rfl⟩ := getElem?_eq_some_iff_split.mp hi
      refine ⟨l₂.reverse, id, l₁.reverse, ?_, hid, fun b hb => ?_⟩
      · rw [hl]; simp
      · exact (forall_after_split hl).mp hnone b (List.mem_reverse.mp hb)

theorem Precedence.mem_turns {order : Precedence} {fills : Array Nat} {id : Nat} :
    id ∈ order.turns fills ↔ id ∈ fills := by
  cases order <;> simp [turns]

/-! ### The rule -/

namespace Scene

/-- Whether a shape colours the pixel in column `x` and row `y` when `span?` says which pixels it
may touch: it has the colour, it may touch the pixel, and it contains the centre. -/
def Colours (s : Scene) (span? : Nat → Option PixelSpan) (x y id : Nat) (color : Color) : Prop :=
  (∃ shape, s.drawing.shapes[id]? = some shape ∧ shape.fill = some color) ∧
    (∃ span, span? id = some span ∧ span.Covers x y) ∧
    s.drawing.contains id (Point.pixelCenter x y) = true

/-- Whether the entry at place `i` of the fills gives a pixel its colour: its shape colours the
pixel, and no shape of an entry above it does. -/
def Topmost (s : Scene) (span? : Nat → Option PixelSpan) (order : Precedence) (x y i : Nat)
    (color : Color) : Prop :=
  ∃ id, s.fills[i]? = some id ∧ s.Colours span? x y id color ∧
    ∀ j other, order.Above j i → s.fills[j]? = some other →
      ∀ otherColor, ¬s.Colours span? x y other otherColor

/-- Whether painting leaves a pixel with a colour: that of the topmost shape that colours it, or the
background if no filled shape does. -/
def Leaves (s : Scene) (span? : Nat → Option PixelSpan) (order : Precedence) (background : Color)
    (x y : Nat) (color : Color) : Prop :=
  (∃ i, s.Topmost span? order x y i color) ∨
    (color = background ∧ ∀ id ∈ s.fills, ∀ other, ¬s.Colours span? x y id other)

/-- What a machine can paint: it can hold the pixels, at three bytes each, and there is a shape for
each fill. -/
structure Holdable (s : Scene) : Prop where
  pixels : s.width * s.height * 3 ≤ Word.maxBytes
  listed : ∀ id ∈ s.fills, id < s.drawing.size

/-- No box around a filled shape leads to pixels beyond the edges of the canvas. -/
def SpansInside (s : Scene) : Prop :=
  ∀ id ∈ s.fills, ∀ span ∈ s.span? id, span.Inside s.width s.height

instance (s : Scene) : Decidable s.SpansInside :=
  inferInstanceAs (Decidable (∀ id ∈ s.fills, ∀ span ∈ s.span? id, span.Inside s.width s.height))

/-- Boxes lead beyond the edges of a canvas only if it has more than `2 ^ 53` columns or rows. -/
theorem spansInside_of_le {s : Scene} (hwidth : s.width ≤ 2 ^ 53) (hheight : s.height ≤ 2 ^ 53) :
    s.SpansInside := by
  intro id _ span hspan
  exact Box.pixelSpan?_inside hwidth hheight hspan

variable {s : Scene} {span? : Nat → Option PixelSpan} {order : Precedence} {x y id : Nat}
  {color : Color}

theorem coat?_eq_some_iff :
    Painting.coat? s span? x y id = some color ↔ s.Colours span? x y id color := by
  unfold Painting.coat? Painting.offer Colours
  cases hshape : s.drawing.shapes[id]? with
  | none => simp
  | some shape =>
    cases hfill : shape.fill with
    | none => simp [hfill]
    | some own =>
      cases hspan : span? id with
      | none => simp
      | some span =>
        by_cases hcovers : span.Covers x y <;>
          by_cases hin : s.drawing.contains id (Point.pixelCenter x y) = true <;>
          simp [hfill, hcovers, hin]

theorem coat?_eq_none_iff :
    Painting.coat? s span? x y id = none ↔ ∀ color, ¬s.Colours span? x y id color := by
  simp only [← coat?_eq_some_iff, Option.eq_none_iff_forall_ne_some, ne_eq]

theorem findSome?_coat?_eq_some_iff :
    (order.turns s.fills).findSome? (Painting.coat? s span? x y) = some color ↔
      ∃ i, s.Topmost span? order x y i color := by
  simp only [Precedence.findSome?_turns_eq_some_iff, coat?_eq_some_iff, coat?_eq_none_iff, Topmost]

theorem findSome?_coat?_eq_none_iff (order : Precedence) :
    (order.turns s.fills).findSome? (Painting.coat? s span? x y) = none ↔
      ∀ id ∈ s.fills, ∀ color, ¬s.Colours span? x y id color := by
  simp only [List.findSome?_eq_none_iff, Precedence.mem_turns, coat?_eq_none_iff]

theorem findSome?_coat?_getD_eq_iff {background : Color} :
    ((order.turns s.fills).findSome? (Painting.coat? s span? x y)).getD background = color ↔
      s.Leaves span? order background x y color := by
  rw [Leaves, ← findSome?_coat?_eq_some_iff, ← findSome?_coat?_eq_none_iff order]
  cases (order.turns s.fills).findSome? (Painting.coat? s span? x y) with
  | none => simp [eq_comm]
  | some top => simp

/-- The canvas after the turns of all fills shows the first offer at each pixel. -/
theorem shows_turns (span? : Nat → Option PixelSpan) (order : Precedence) (background : Color)
    (h : ∀ id ∈ s.fills, ∀ span ∈ span? id, span.Inside s.width s.height) :
    (Painting.run s span? (s.canvas background) (order.turns s.fills)).Shows s.width s.height
      background fun x y => (order.turns s.fills).findSome? (Painting.coat? s span? x y) := by
  have hturns : ∀ id ∈ order.turns s.fills, ∀ span ∈ span? id,
      span.Inside s.width s.height := fun id hid => h id (Precedence.mem_turns.mp hid)
  exact (Painting.shows_run s _ hturns Canvas.shows_blank).congr fun _ _ _ _ => Option.none_or

/-- The picture by a machine is the one without limits, whichever pixels `span?` lets it test. -/
theorem image_run?_turns (o : Overflow) (span? : Nat → Option PixelSpan) (order : Precedence)
    (background : Color) (hs : s.Holdable)
    (h : ∀ id ∈ s.fills, ∀ span ∈ span? id, span.Inside s.width s.height) :
    (s.canvas? o background).bind (fun canvas =>
        (Painting.run? o s span? canvas (order.turns s.fills)).bind fun c => some c.image) =
      some (Painting.run s span? (s.canvas background) (order.turns s.fills)).image := by
  have hmax := Word.maxBytes_lt
  have hfits := hs.pixels
  have hrun : Painting.run? o s span? (s.canvas background) (order.turns s.fills) =
      some (Painting.run s span? (s.canvas background) (order.turns s.fills)) :=
    Painting.run?_eq s (fun id hid => hs.listed id (Precedence.mem_turns.mp hid))
      (fun id hid => h id (Precedence.mem_turns.mp hid)) Canvas.shows_blank (by omega)
  have hblank : s.canvas? o background = some (s.canvas background) :=
    Canvas.blank?_eq hfits background
  rw [hblank, Option.bind_some, hrun, Option.bind_some]

theorem picture?_eq (o : Overflow) (order : Precedence) (background : Color) (hs : s.Holdable)
    (h : s.SpansInside) : s.picture? o order background = some (s.picture order background) := by
  rw [picture?]
  exact image_run?_turns o s.span? order background hs h

/-- A machine that can hold the pixels of a scene comes to its picture. It has one pixel for each
place of the canvas, and the topmost shape that colours a pixel gives it its colour. A pixel that no
shape colours has the background. -/
theorem picture?_pixel_iff (o : Overflow) (s : Scene) (order : Precedence) (background : Color)
    (hs : s.Holdable) (h : s.SpansInside) :
    ∃ image, s.picture? o order background = some image ∧ image.width = s.width ∧
      image.height = s.height ∧ image.pixels.size = s.width * s.height ∧
      ∀ x y, x < s.width → y < s.height → ∀ color,
        image.pixels[y * s.width + x]? = some color ↔
          s.Leaves s.span? order background x y color := by
  have hshows := shows_turns s.span? order background h
  refine ⟨_, picture?_eq o order background hs h, hshows.columns, hshows.rows, hshows.pixelCount,
    fun x y hx hy color => ?_⟩
  rw [picture, hshows.pixel x y hx hy, Option.some_inj, findSome?_coat?_getD_eq_iff]

/-- Two overlapping bars and a shape without a colour, where one bar is listed twice. -/
def overlapping : Scene :=
  { Scene.blank 4 1 with
    drawing := ⟨#[⟨"a", .rectangle ⟨1, 0.5⟩ 2 1, some ⟨255, 0, 0⟩⟩,
      ⟨"b", .rectangle ⟨2, 0.5⟩ 2 1, some ⟨0, 0, 255⟩⟩, ⟨"c", .circle ⟨2, 0.5⟩ 9, none⟩]⟩
    fills := #[0, 2, 1, 0, 2] }

theorem overlapping_topmost : overlapping.Holdable ∧ overlapping.SpansInside ∧
    ∃ i, overlapping.Topmost overlapping.span? .last 2 0 i ⟨0, 0, 255⟩ := by
  have hholdable : overlapping.Holdable := ⟨by decide, by decide +kernel⟩
  have hinside : overlapping.SpansInside := by decide +kernel
  refine ⟨hholdable, hinside, ?_⟩
  obtain ⟨image, himage, -, -, -, hpixel⟩ :=
    picture?_pixel_iff .stops overlapping .last .black hholdable hinside
  have hblue : (overlapping.picture? .stops .last .black).bind (·.pixels[2]?) =
      some ⟨0, 0, 255⟩ := by
    decide +kernel
  rw [himage, Option.bind_some] at hblue
  exact ((hpixel 2 0 (by decide) (by decide) _).mp hblue).resolve_right
    fun h => absurd h.1 (by decide)

end Scene

end Easel
