import Easel.Proofs.Image.Keeping
import Easel.Proofs.Plane.Span

/-! The marks that a machine looks up. A canvas keeps its measures while it is painted, so the place
of a pixel stays the same, and the mark at that place is the one of the pixel as long as the pixel
is on the canvas. The main statement says which boxes have all their pixels there. -/

namespace Easel

namespace Canvas

/-- A canvas of some width and height, with a mark for each pixel. -/
structure Measures (c : Canvas) (width height : Nat) : Prop where
  columns : c.image.width = width
  rows : c.image.height = height
  marks : c.painted.size = width * height

variable {o : Overflow} {c c' : Canvas} {width height : Nat}

theorem Measures.keep (h : c.Measures width height) (hkeeps : c.Keeps c') :
    c'.Measures width height :=
  ⟨hkeeps.columns.trans h.columns, hkeeps.rows.trans h.rows, hkeeps.marks.trans h.marks⟩

theorem blank?_eq_some {background : Color} (h : blank? o width height background = some c) :
    ∃ pixels count, o.count? (width * height : Nat) = some count ∧
      c = ⟨⟨width, height, pixels⟩, Array.replicate count false⟩ := by
  rw [blank?] at h
  obtain ⟨image, himage, hmarks⟩ := Option.bind_eq_some_iff.mp h
  obtain ⟨count, hcount, hblank⟩ := Option.bind_eq_some_iff.mp hmarks
  obtain ⟨-, hblank⟩ := Option.ite_none_right_eq_some.mp hblank
  rw [Image.filled?] at himage
  obtain ⟨_, -, hfilled⟩ := Option.bind_eq_some_iff.mp himage
  obtain ⟨-, hfilled⟩ := Option.ite_none_right_eq_some.mp hfilled
  obtain rfl := Option.some.inj hfilled
  exact ⟨_, count, hcount, (Option.some.inj hblank).symm⟩

/-- A new canvas has its measures, unless the number of its marks is one that the machine wraps. -/
theorem measures_blank? {background : Color} (hfits : o = .wraps → width * height < Word.size)
    (h : blank? o width height background = some c) :
    c.Measures width height ∧ width * height < Word.size := by
  obtain ⟨pixels, count, hcount, rfl⟩ := blank?_eq_some h
  have hlt : width * height < Word.size := by
    cases o with
    | stops => exact Overflow.lt_of_count?_stops hcount
    | wraps => exact hfits rfl
  rw [Overflow.count?_of_lt hlt] at hcount
  exact ⟨⟨rfl, rfl, Array.size_replicate.trans (Option.some.inj hcount).symm⟩, hlt⟩

/-- A machine finds the mark of a pixel on the canvas, and finds it for no other pixel. -/
structure OwnMark (o : Overflow) (c : Canvas) (cell : Nat × Nat) : Prop where
  inside : cell.1 < c.image.width ∧ cell.2 < c.image.height
  found : ∃ number < c.painted.size,
    o.count? (c.image.index cell.1 cell.2 : Nat) = some number ∧
      ∀ x y, x < c.image.width → y < c.image.height →
        o.count? (c.image.index x y : Nat) = some number → (x, y) = cell

theorem Measures.ownMark (h : c.Measures width height) (hfits : width * height < Word.size)
    {cell : Nat × Nat} (hx : cell.1 < width) (hy : cell.2 < height) : c.OwnMark o cell := by
  obtain ⟨rfl, rfl, hmarks⟩ := h
  have hcount {x y : Nat} (hx : x < c.image.width) (hy : y < c.image.height) :
      o.count? (c.image.index x y : Nat) = some (c.image.index x y) :=
    Overflow.count?_of_lt (Nat.lt_trans (index_lt hx hy) hfits)
  refine ⟨⟨hx, hy⟩, c.image.index cell.1 cell.2, ?_, hcount hx hy, fun x y hx' hy' heq => ?_⟩
  · rw [hmarks]
    exact index_lt hx hy
  · rw [hcount hx' hy'] at heq
    obtain ⟨rfl, rfl⟩ := index_injective hx' hx (Option.some.inj heq)
    rfl

end Canvas

namespace Painting

open Canvas

variable {o : Overflow} {s : Scene} {order : Precedence} {background : Color} {id : Nat}
  {c : Canvas} {cell : Nat × Nat}

/-- When a machine looks up the mark of the pixel `cell` on the canvas `c`: in the turn of the shape
at place `id`, after the turns of the fills above it and the visits to some of its pixels. -/
def LooksUp (o : Overflow) (s : Scene) (order : Precedence) (background : Color) (id : Nat)
    (c : Canvas) (cell : Nat × Nat) : Prop :=
  ∃ (above below : List Nat) (shape : Shape Float) (color : Color) (span : PixelSpan)
      (visited rest : List (Nat × Nat)) (blank started : Canvas),
    order.turns s.fills = above ++ id :: below ∧
    s.drawing.shapes[id]? = some shape ∧ shape.fill = some color ∧
    s.span? id = some span ∧
    span.cells = visited ++ cell :: rest ∧
    s.canvas? o background = some blank ∧
    run? o s s.span? blank above = some started ∧
    visited.foldlM (visit? o s.drawing id color) started = some c

/-- A mark is looked up on a canvas that still has its measures, for a pixel that the box covers. -/
theorem LooksUp.covers (hfits : o = .wraps → s.width * s.height < Word.size)
    (h : LooksUp o s order background id c cell) :
    c.Measures s.width s.height ∧ s.width * s.height < Word.size ∧
      ∃ span, s.span? id = some span ∧ span.Covers cell.1 cell.2 := by
  obtain ⟨above, -, -, color, span, visited, rest, blank, started, -, -, -, hspan, hcells, hblank,
    hrun, hvisited⟩ := h
  have hmem : cell ∈ span.cells := by
    rw [hcells]
    exact List.mem_append_right _ List.mem_cons_self
  obtain ⟨hmeasures, hlt⟩ := measures_blank? hfits hblank
  have hkept := (hmeasures.keep (keeps_run? hrun)).keep (keeps_foldlM_visit? hvisited)
  exact ⟨hkept, hlt, span, hspan, PixelSpan.mem_cells.mp hmem⟩

end Painting

namespace Scene

open Box

/-- Whatever the box, its span is in order, and it ends on the canvas just when `Box.EndsOn` says
so of the upper right corner, which it does for all corners if the canvas has no more than `2 ^ 53`
columns and rows. A machine that does not wrap the number of the marks looks up those of a canvas
with all of its marks, and if the box of the shape ends on the canvas, it only looks up the marks of
pixels of the shape's own. -/
theorem spans_endOnCanvas {s : Scene} (hwidth : s.width < Word.size)
    (hheight : s.height < Word.size) :
    (∀ (b : Box Float) (span : PixelSpan), b.pixelSpan? s.width s.height = some span →
      (span.columns.first ≤ span.columns.last ∧ span.rows.first ≤ span.rows.last) ∧
      (span.columns.last < s.width ↔ EndsOn b.upperRight.x s.width) ∧
      (span.rows.last < s.height ↔ EndsOn b.upperRight.y s.height) ∧
      (s.width ≤ 2 ^ 53 ∧ s.height ≤ 2 ^ 53 → span.Inside s.width s.height)) ∧
    ∀ o, (o = .wraps → s.width * s.height < Word.size) →
      ∀ order background id c cell, Painting.LooksUp o s order background id c cell →
        c.Measures s.width s.height ∧
        (EndsOn (s.drawing.bounds id).upperRight.x s.width →
          EndsOn (s.drawing.bounds id).upperRight.y s.height → c.OwnMark o cell) := by
  constructor
  · intro b span hspan
    obtain ⟨hordered, hcolumns, hrows⟩ :=
      pixelSpan?_bounds (Nat.le_of_lt hwidth) (Nat.le_of_lt hheight) hspan
    exact ⟨hordered, hcolumns, hrows, fun hsmall => pixelSpan?_inside hsmall.1 hsmall.2 hspan⟩
  · intro o hfits order background id c cell hlooks
    obtain ⟨hmeasures, hlt, span, hspan, hcovers⟩ := hlooks.covers hfits
    refine ⟨hmeasures, fun hcolumns hrows => ?_⟩
    obtain ⟨-, hcolumns', hrows'⟩ :=
      pixelSpan?_bounds (Nat.le_of_lt hwidth) (Nat.le_of_lt hheight) hspan
    obtain ⟨hx, hy⟩ := hcovers.lt ⟨hcolumns'.mpr hcolumns, hrows'.mpr hrows⟩
    exact hmeasures.ownMark hlt hx hy

/-- A bar at the left edge of a canvas with four columns more than `2 ^ 53`. -/
def vast : Scene :=
  { Scene.blank 9007199254740996 1 with
    drawing := ⟨#[⟨"a", .rectangle ⟨1, 0.5⟩ 2 1, some ⟨255, 0, 0⟩⟩]⟩
    fills := #[0] }

theorem vast_endsOnCanvas : vast.width < Word.size ∧ vast.height < Word.size ∧
    vast.width * vast.height < Word.size ∧
    vast.span? 0 = some ⟨⟨0, 1⟩, ⟨0, 0⟩⟩ ∧ EndsOn (vast.drawing.bounds 0).upperRight.x vast.width ∧
    ∃ c, Painting.LooksUp .wraps vast .first .black 0 c (0, 0) ∧ c.OwnMark .wraps (0, 0) := by
  have hwidth : vast.width < Word.size := by decide
  have hheight : vast.height < Word.size := by decide
  have hall : vast.width * vast.height < Word.size := by decide
  have hspan : vast.span? 0 = some ⟨⟨0, 1⟩, ⟨0, 0⟩⟩ := by decide +kernel
  obtain ⟨hspans, hmarks⟩ := spans_endOnCanvas hwidth hheight
  obtain ⟨-, hcolumns, hrows, -⟩ := hspans _ _ hspan
  have hblank : vast.canvas? .wraps .black = some (vast.canvas .black) :=
    Canvas.blank?_eq (by decide) .black
  have hlooks : Painting.LooksUp .wraps vast .first .black 0 (vast.canvas .black) (0, 0) :=
    ⟨[], [], _, ⟨255, 0, 0⟩, ⟨⟨0, 1⟩, ⟨0, 0⟩⟩, [], [(1, 0)], _, _, rfl, rfl, rfl, hspan, rfl,
      hblank, rfl, rfl⟩
  have hright := hcolumns.mp (by decide)
  have hupper := hrows.mp (by decide)
  exact ⟨hwidth, hheight, hall, hspan, hright, vast.canvas .black, hlooks,
    (hmarks .wraps (fun _ => hall) _ _ _ _ _ hlooks).2 hright hupper⟩

/-- A box that reaches over the right edge of a canvas that is too wide for the number of its last
column to be a double. Its span ends on the column behind the last one, for which there is no mark
in the top row. -/
theorem exists_span_offCanvas : ∃ (b : Box Float) (width height : Nat) (span : PixelSpan),
    width < Word.size ∧ height < Word.size ∧ b.pixelSpan? width height = some span ∧
    ¬span.columns.last < width ∧
    ∃ x y, span.Covers x y ∧ ¬y * width + x < width * height :=
  ⟨⟨⟨0, 0⟩, ⟨9007199254741000, 1⟩⟩, 9007199254740996, 1, ⟨⟨0, 9007199254740996⟩, ⟨0, 0⟩⟩,
    by decide, by decide, by decide +kernel, by decide, 9007199254740996, 0, by decide, by decide⟩

end Scene

end Easel
