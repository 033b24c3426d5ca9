import Easel.Proofs.Image.Dots
import Easel.Proofs.Image.Files

/-! Where the pixels of an image are. An image is painted dot by dot, and the last dot on a pixel
counts; a dot outside the image changes nothing. Its rows are listed from the top down, and in the
file that is written for it each pixel has three bytes at a place that its column and row give. -/

namespace Easel

/-- Whether a dot is on the pixel in column `x` and row `y`. -/
def Dot.isAt (x y : Nat) (d : Dot) : Bool := d.x = x ∧ d.y = y

/-- The colour of the last of some dots on a pixel, if there is one on it. -/
def Dot.last? (dots : List Dot) (x y : Nat) : Option Color :=
  (dots.filter (Dot.isAt x y)).getLast?.map (·.color)

/-- An image with some dots, one after the other. -/
def Image.withDots (image : Image) (dots : List Dot) : Image :=
  dots.foldl (fun image d => image.set d.x d.y d.color) image

/-- How an image of a given size is laid out, and the file that is written for it, if `color` says
the colour of each pixel. -/
structure Image.LaidOut (image : Image) (width height : Nat) (color : Nat → Nat → Color) :
    Prop where
  width_eq : image.width = width
  height_eq : image.height = height
  pixel : ∀ x < width, ∀ y < height, image.get? x y = some (color x y)
  rows : 0 < width → image.rowsTopDown =
    (List.range height).map fun r => (List.range width).map fun x => color x (height - 1 - r)
  noRows : width = 0 → image.rowsTopDown = []
  file : ∃ data, Pixmap.encode image = Utf8.encode s!"P6 {width} {height} 255\n" ++ data ∧
    data.length = 3 * width * height ∧
    ∀ x < width, ∀ y < height,
      (data.drop (3 * ((height - 1 - y) * width + x))).take 3 = (color x y).bytes

/-! ### Dots -/

theorem Dot.last?_cons (d : Dot) (dots : List Dot) (x y : Nat) :
    Dot.last? (d :: dots) x y =
      (Dot.last? dots x y).or (if d.x = x ∧ d.y = y then some d.color else none) := by
  rw [last?, last?, List.getLast?_filter, List.getLast?_filter, List.reverse_cons,
    List.find?_append, Option.map_or, List.find?_singleton, isAt]
  simp only [decide_eq_true_eq]
  split <;> rfl

namespace Canvas

variable {c : Canvas} {width height : Nat} {background : Color} {view : Nat → Nat → Option Color}

/-- A dot is shown on its pixel, and if this is not on the canvas, nothing changes. -/
theorem Shows.dot (h : c.Shows width height background view) (d : Dot) :
    ∃ c' : Canvas, c'.image = c.image.set d.x d.y d.color ∧
      c'.Shows width height background fun x y =>
        if d.x = x ∧ d.y = y then some d.color else view x y := by
  by_cases hin : d.x < width ∧ d.y < height
  · refine ⟨c.set d.x d.y d.color, rfl, (h.set hin.1 hin.2 d.color).congr fun x y _ _ => ?_⟩
    simp only [eq_comm]
  · refine ⟨c, ?_, h.congr fun x y hx hy => ?_⟩
    · rw [Image.set, h.columns, h.rows, if_neg hin]
    · rw [if_neg]
      rintro ⟨rfl, rfl⟩
      exact hin ⟨hx, hy⟩

theorem Shows.dots (h : c.Shows width height background view) (dots : List Dot) :
    ∃ c' : Canvas, c'.image = c.image.withDots dots ∧
      c'.Shows width height background fun x y => (Dot.last? dots x y).or (view x y) := by
  induction dots generalizing c view with
  | nil => exact ⟨c, rfl, h⟩
  | cons d dots ih =>
    obtain ⟨between, himage, hbetween⟩ := h.dot d
    obtain ⟨c', himage', hshows⟩ := ih hbetween
    refine ⟨c', ?_, hshows.congr fun x y _ _ => ?_⟩
    · rw [himage', himage]
      rfl
    · rw [Dot.last?_cons, Option.or_assoc]
      split <;> rfl

end Canvas

/-! ### Rows -/

namespace Pixmap

variable {image : Image} {color : Nat → Nat → Color}

theorem row_eq_map (hpixel : ∀ x < image.width, ∀ y < image.height,
    image.get? x y = some (color x y)) {y : Nat} (hy : y < image.height) :
    image.row y = (List.range image.width).map fun x => color x y := by
  apply List.ext_getElem?
  intro x
  rw [row_eq, List.getElem?_take, List.getElem?_drop, Array.getElem?_toList, List.getElem?_map]
  by_cases hx : x < image.width
  · rw [if_pos hx, List.getElem?_range hx, ← Image.get?_eq hx hy, hpixel x hx y hy]
    rfl
  · rw [if_neg hx, List.getElem?_eq_none (by simpa using hx)]
    rfl

theorem rowsTopDown_eq_map (image : Image) : image.rowsTopDown =
    (List.range image.rowCount).map fun r => image.row (image.rowCount - 1 - r) := by
  apply List.ext_getElem
  · rw [length_rowsTopDown, List.length_map, List.length_range]
  · intro r hr _
    simp only [Image.rowsTopDown, List.getElem_reverse, List.getElem_map, List.getElem_range,
      List.length_map, List.length_range]

/-- An image that has all of its pixels is laid out by their colours. -/
theorem laidOut (hsize : image.pixels.size = image.width * image.height)
    (hpixel : ∀ x < image.width, ∀ y < image.height, image.get? x y = some (color x y)) :
    image.LaidOut image.width image.height color where
  width_eq := rfl
  height_eq := rfl
  pixel := hpixel
  rows hpos := by
    rw [rowsTopDown_eq_map, rowCount_eq hsize hpos]
    refine List.map_congr_left fun r hr => row_eq_map hpixel ?_
    have hlt := List.mem_range.mp hr
    omega
  noRows hzero := by
    rw [rowsTopDown_eq_map, Image.rowCount, if_pos hzero, List.range_zero, List.map_nil]
  file := by
    refine ⟨body image, by rw [encode, header_eq], length_body hsize, fun x hx y hy => ?_⟩
    obtain ⟨c, hget, hbytes⟩ := (storedIn_body hsize).pixel x hx y hy
    obtain rfl := Option.some.inj ((hpixel x hx y hy).symm.trans hget)
    exact hbytes

/-- An image of one colour with dots on it is laid out by the last dot on each pixel, wherever the
dots are. A machine that can hold its pixels comes to the same image without stopping, and has room
for a row when it writes the file. -/
theorem laidOut_withDots (o : Overflow) {width height : Nat} (hrow : width * 3 ≤ Word.maxBytes)
    (hall : width * height * 3 ≤ Word.maxBytes) (background : Color) (dots : List Dot) :
    ((Image.filled? o width height background).bind fun blank => dots.foldlM (Image.set? o) blank) =
        some ((Image.filled width height background).withDots dots) ∧
      hasRoom o width = true ∧
      ((Image.filled width height background).withDots dots).LaidOut width height fun x y =>
        (Dot.last? dots x y).getD background := by
  have hmax := Word.maxBytes_lt
  have hnarrow : Holdable width 0 := ⟨by omega, by omega⟩
  have hblank : (Image.filled width height background).pixels.size = width * height := by
    simp [Image.filled]
  refine ⟨?_, hnarrow.hasRoom o, ?_⟩
  · rw [Image.filled?_eq hall, Option.bind_some]
    exact Image.foldlM_set?_eq hblank (by omega) dots
  · have hstart : (Canvas.blank width height background).Shows width height background
        fun _ _ => none := Canvas.shows_blank
    obtain ⟨c, himage, hshows⟩ := hstart.dots dots
    have hpixels := hshows.pixel
    obtain rfl := hshows.columns
    obtain rfl := hshows.rows
    have hdotted : (Image.filled c.image.width c.image.height background).withDots dots = c.image :=
      himage.symm
    rw [hdotted]
    refine laidOut hshows.pixelCount fun x hx y hy => ?_
    rw [Image.get?_eq hx hy, hpixels x y hx hy, Option.or_none]

/-- Four dots on an image of two columns and two rows: two on one pixel, and two to the right of the
image and above it. -/
def fourDots : List Dot :=
  [⟨0, 1, ⟨255, 0, 0⟩⟩, ⟨2, 0, ⟨0, 255, 0⟩⟩, ⟨0, 1, ⟨0, 0, 255⟩⟩, ⟨1, 2, ⟨0, 255, 0⟩⟩]

theorem fourDots_laidOut : 2 * 3 ≤ Word.maxBytes ∧ 2 * 2 * 3 ≤ Word.maxBytes ∧
    ((Image.filled 2 2 .black).withDots fourDots).rowsTopDown =
      [[⟨0, 0, 255⟩, .black], [.black, .black]] := by
  have hrow : 2 * 3 ≤ Word.maxBytes := by decide
  have hall : 2 * 2 * 3 ≤ Word.maxBytes := by decide
  obtain ⟨-, -, hlaidOut⟩ := laidOut_withDots .stops hrow hall .black fourDots
  exact ⟨hrow, hall, hlaidOut.rows (by decide)⟩

end Pixmap

end Easel
