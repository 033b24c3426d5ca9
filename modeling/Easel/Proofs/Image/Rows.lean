import Easel.Image.Pixmap
import Easel.Proofs.Image.Canvas

/-! Images and the bytes of their pixels. In a pixmap the rows come from the top down, and in an
image from the bottom up. The bytes of an image are stored one pixel behind the other, and bytes and
images determine each other. -/

namespace Easel

/-- An image of a given size whose pixels are stored in `data`, from the top row down. -/
structure Image.StoredIn (image : Image) (width height : Nat) (data : List UInt8) : Prop where
  width_eq : image.width = width
  height_eq : image.height = height
  size : image.pixels.size = width * height
  pixel : ∀ x < width, ∀ y < height, ∃ c, image.get? x y = some c ∧
    (data.drop (3 * ((height - 1 - y) * width + x))).take 3 = c.bytes

/-! ### Lists of equal parts -/

section

variable {β γ : Type} {l : List β} {f : β → List γ} {k : Nat}

theorem length_flatMap_of_forall (hf : ∀ b ∈ l, (f b).length = k) :
    (l.flatMap f).length = k * l.length := by
  induction l with
  | nil => rfl
  | cons b l ih =>
    obtain ⟨hb, hl⟩ := List.forall_mem_cons.mp hf
    rw [List.flatMap_cons, List.length_append, hb, ih hl, List.length_cons, Nat.mul_succ,
      Nat.add_comm]

theorem drop_flatMap_of_forall (hf : ∀ b ∈ l, (f b).length = k) (i : Nat) :
    (l.flatMap f).drop (k * i) = (l.drop i).flatMap f := by
  induction l generalizing i with
  | nil => simp
  | cons b l ih =>
    obtain ⟨hb, hl⟩ := List.forall_mem_cons.mp hf
    cases i with
    | zero => rfl
    | succ i =>
      rw [List.flatMap_cons, Nat.mul_succ, Nat.add_comm, ← hb, List.drop_length_add_append, hb,
        ih hl, List.drop_succ_cons]

end

/-! ### Pixels -/

/-- Row by row, there is a pixel in every place. -/
theorem exists_index_eq {width height i : Nat} (hi : i < width * height) :
    ∃ x < width, ∃ y < height, i = y * width + x := by
  have hpos : 0 < width := Nat.pos_of_mul_pos_right (Nat.zero_lt_of_lt hi)
  refine ⟨i % width, Nat.mod_lt i hpos, i / width, ?_, ?_⟩
  · exact Nat.div_lt_of_lt_mul hi
  · rw [Nat.mul_comm]
    exact (Nat.div_add_mod i width).symm

theorem Color.bytes_injective {c d : Color} (h : c.bytes = d.bytes) : c = d := by
  obtain ⟨red, green, blue⟩ := c
  obtain ⟨red', green', blue'⟩ := d
  cases h
  rfl

theorem Image.get?_eq {image : Image} {x y : Nat} (hx : x < image.width) (hy : y < image.height) :
    image.get? x y = image.pixels[y * image.width + x]? := if_pos ⟨hx, hy⟩

theorem Image.ext {image image' : Image} (hwidth : image.width = image'.width)
    (hheight : image.height = image'.height) (hpixels : image.pixels = image'.pixels) :
    image = image' := by
  obtain ⟨width, height, pixels⟩ := image
  cases hwidth
  cases hheight
  cases hpixels
  rfl

namespace Image.StoredIn

variable {image image' : Image} {width height : Nat} {data data' : List UInt8}

theorem pixel_eq (h : image.StoredIn width height data) {x y : Nat} (hx : x < width)
    (hy : y < height) : ∃ c, image.pixels[y * width + x]? = some c ∧
      (data.drop (3 * ((height - 1 - y) * width + x))).take 3 = c.bytes := by
  obtain ⟨c, hget, hbytes⟩ := h.pixel x hx y hy
  have hpixel := Image.get?_eq (h.width_eq.symm ▸ hx) (h.height_eq.symm ▸ hy)
  rw [h.width_eq] at hpixel
  exact ⟨c, hpixel.symm.trans hget, hbytes⟩

/-- Bytes store one image of a given size. -/
theorem unique (h : image.StoredIn width height data) (h' : image'.StoredIn width height data) :
    image = image' := by
  apply Image.ext (h.width_eq.trans h'.width_eq.symm) (h.height_eq.trans h'.height_eq.symm)
  apply Array.ext_getElem?
  intro i
  by_cases hi : i < width * height
  · obtain ⟨x, hx, y, hy, rfl⟩ := exists_index_eq hi
    obtain ⟨c, hc, hbytes⟩ := h.pixel_eq hx hy
    obtain ⟨c', hc', hbytes'⟩ := h'.pixel_eq hx hy
    rw [hc, hc', Color.bytes_injective (hbytes.symm.trans hbytes')]
  · rw [Array.getElem?_eq_none (by rw [h.size]; omega),
      Array.getElem?_eq_none (by rw [h'.size]; omega)]

/-- The bytes of an image are the same wherever they are stored. -/
theorem take_eq (h : image.StoredIn width height data) (h' : image.StoredIn width height data') :
    data.take (3 * width * height) = data'.take (3 * width * height) := by
  apply List.ext_getElem?
  intro i
  by_cases hi : i < 3 * width * height
  · have hnumber : i / 3 < width * height := by
      rw [Nat.mul_assoc] at hi
      omega
    obtain ⟨x, hx, y, hy, heq⟩ := exists_index_eq hnumber
    have hrow : height - 1 - (height - 1 - y) = y := by omega
    obtain ⟨c, hc, hbytes⟩ := h.pixel_eq hx (show height - 1 - y < height by omega)
    obtain ⟨c', hc', hbytes'⟩ := h'.pixel_eq hx (show height - 1 - y < height by omega)
    rw [hrow, ← heq] at hbytes hbytes'
    obtain rfl : c = c' := Option.some.inj (hc.symm.trans hc')
    have hpart := congrArg (·[i % 3]?) (hbytes.trans hbytes'.symm)
    have hthree : i % 3 < 3 := Nat.mod_lt i (by decide)
    simp only [List.getElem?_take_of_lt hthree, List.getElem?_drop, Nat.div_add_mod] at hpart
    rw [List.getElem?_take_of_lt hi, List.getElem?_take_of_lt hi, hpart]
  · rw [List.getElem?_take_eq_none (Nat.le_of_not_lt hi),
      List.getElem?_take_eq_none (Nat.le_of_not_lt hi)]

/-- What follows the bytes of the pixels does not matter. -/
theorem append (h : image.StoredIn width height data) (hdata : 3 * width * height ≤ data.length)
    (more : List UInt8) : image.StoredIn width height (data ++ more) := by
  refine ⟨h.width_eq, h.height_eq, h.size, fun x hx y hy => ?_⟩
  obtain ⟨c, hget, hbytes⟩ := h.pixel x hx y hy
  have hnumber : (height - 1 - y) * width + x < width * height :=
    index_lt hx (show height - 1 - y < height by omega)
  rw [Nat.mul_assoc] at hdata
  refine ⟨c, hget, ?_⟩
  rw [List.drop_append_of_le_length (by omega), List.take_append_of_le_length, hbytes]
  rw [List.length_drop]
  omega

end Image.StoredIn

namespace Pixmap

/-! ### Reading -/

/-- The number of bytes that a file of a given size holds after its header, as it is counted. -/
def dataSize (width height : Nat) : Nat := width * 3 % Word.size * height % Word.size

/-- The colour of the pixel with the given number, counted from the top row down. -/
def pixelAt (data : Array UInt8) (number : Nat) : Color :=
  ⟨data.getD (3 * number) 0, data.getD (3 * number + 1) 0, data.getD (3 * number + 2) 0⟩

/-- The image whose pixels are listed from the top row down, as they are counted. -/
def imageOf (width height : Nat) (data : Array UInt8) : Image :=
  let pixel (i : Nat) : Color :=
    pixelAt data (((height - 1 - i / width) * width + i % width) % Word.size)
  ⟨width, height, (Array.range (dataSize width height / 3)).map pixel⟩

variable {width height : Nat} {data : List UInt8}

theorem dataSize_eq (hrow : 3 * width ≤ Word.maxBytes) (hall : 3 * width * height ≤ Word.maxBytes) :
    dataSize width height = 3 * width * height := by
  rw [dataSize, Nat.mul_comm width 3, Nat.mod_eq_of_lt (Word.lt_of_le_maxBytes hrow),
    Nat.mod_eq_of_lt (Word.lt_of_le_maxBytes hall)]

theorem pixelAt_bytes {number : Nat} (h : 3 * number + 2 < data.length) :
    (data.drop (3 * number)).take 3 = (pixelAt data.toArray number).bytes := by
  have hbyte (i : Nat) (hi : i < data.length) : data.toArray.getD i 0 = data[i] := by
    simp [Array.getD, hi]
  rw [Color.bytes, pixelAt, hbyte _ (by omega), hbyte _ (by omega), hbyte _ h,
    List.drop_eq_getElem_cons (by omega), List.drop_eq_getElem_cons (by omega),
    List.drop_eq_getElem_cons h]
  rfl

theorem getElem?_imageOf (data : List UInt8) {i : Nat} (hi : i < dataSize width height / 3) :
    (imageOf width height data.toArray).pixels[i]? = some (pixelAt data.toArray
      (((height - 1 - i / width) * width + i % width) % Word.size)) := by
  simp only [imageOf, Array.getElem?_map, Array.getElem?_range, if_pos hi, Option.map_some]

/-- The column and the row of a pixel are found from its place. -/
theorem index_div_mod {x : Nat} (hx : x < width) (y : Nat) :
    (y * width + x) / width = y ∧ (y * width + x) % width = x := by
  constructor
  · rw [Nat.add_comm, Nat.add_mul_div_right _ _ (Nat.zero_lt_of_lt hx), Nat.div_eq_of_lt hx,
      Nat.zero_add]
  · rw [Nat.mul_add_mod_self_right, Nat.mod_eq_of_lt hx]

theorem storedIn_imageOf (hrow : 3 * width ≤ Word.maxBytes)
    (hall : 3 * width * height ≤ Word.maxBytes) (hdata : 3 * width * height ≤ data.length) :
    (imageOf width height data.toArray).StoredIn width height data := by
  have hmax := Word.maxBytes_lt
  have hcount : dataSize width height / 3 = width * height := by
    rw [dataSize_eq hrow hall, Nat.mul_assoc, Nat.mul_div_cancel_left _ (by decide)]
  rw [Nat.mul_assoc] at hall hdata
  refine ⟨rfl, rfl, ?_, ?_⟩
  · rw [imageOf, Array.size_map, Array.size_range, hcount]
  · intro x hx y hy
    have hindex : y * width + x < width * height := index_lt hx hy
    have hnumber : (height - 1 - y) * width + x < width * height :=
      index_lt hx (show height - 1 - y < height by omega)
    obtain ⟨hline, hcolumn⟩ := index_div_mod hx y
    have hpixel := getElem?_imageOf data (hcount.symm ▸ hindex)
    rw [hcolumn, hline, Nat.mod_eq_of_lt (by omega)] at hpixel
    exact ⟨_, (Image.get?_eq hx hy).trans hpixel, pixelAt_bytes (by omega)⟩

/-! ### Writing -/

variable {image : Image}

theorem rowCount_eq (hsize : image.pixels.size = image.width * image.height)
    (hpos : 0 < image.width) : image.rowCount = image.height := by
  rw [Image.rowCount, if_neg (by omega), hsize, Nat.add_sub_assoc hpos,
    Nat.mul_add_div hpos, Nat.div_eq_of_lt (by omega), Nat.add_zero]

theorem row_eq (image : Image) (y : Nat) :
    image.row y = (image.pixels.toList.drop (y * image.width)).take image.width := by
  rw [Image.row, Array.toList_extract, List.extract_eq_take_drop, Nat.add_sub_cancel_left]

theorem length_row (hsize : image.pixels.size = image.width * image.height) {y : Nat}
    (hy : y < image.height) : (image.row y).length = image.width := by
  have hrows : (y + 1) * image.width ≤ image.height * image.width := Nat.mul_le_mul_right _ hy
  rw [Nat.succ_mul, Nat.mul_comm image.height, ← hsize] at hrows
  rw [row_eq, List.length_take, List.length_drop, Array.length_toList]
  omega

theorem length_bytes (c : Color) : c.bytes.length = 3 := rfl

theorem length_row_bytes (hsize : image.pixels.size = image.width * image.height) {y : Nat}
    (hy : y < image.height) : ((image.row y).flatMap Color.bytes).length = 3 * image.width := by
  rw [length_flatMap_of_forall fun c _ => length_bytes c, length_row hsize hy]

theorem mem_rowsTopDown {row : List Color} (h : row ∈ image.rowsTopDown) :
    ∃ y < image.rowCount, row = image.row y := by
  rw [Image.rowsTopDown, List.mem_reverse, List.mem_map] at h
  obtain ⟨y, hy, rfl⟩ := h
  exact ⟨y, List.mem_range.mp hy, rfl⟩

theorem length_rowsTopDown (image : Image) : image.rowsTopDown.length = image.rowCount := by
  rw [Image.rowsTopDown, List.length_reverse, List.length_map, List.length_range]

theorem length_row_bytes_of_mem (hsize : image.pixels.size = image.width * image.height)
    (hpos : 0 < image.width) :
    ∀ row ∈ image.rowsTopDown, (row.flatMap Color.bytes).length = 3 * image.width := by
  intro row hrow
  obtain ⟨y, hy, rfl⟩ := mem_rowsTopDown hrow
  rw [rowCount_eq hsize hpos] at hy
  exact length_row_bytes hsize hy

theorem length_body (hsize : image.pixels.size = image.width * image.height) :
    (body image).length = 3 * image.width * image.height := by
  rcases Nat.eq_zero_or_pos image.width with hzero | hpos
  · have hrows : image.rowsTopDown = [] := by
      rw [← List.length_eq_zero_iff, length_rowsTopDown, Image.rowCount, if_pos hzero]
    rw [body, hrows, hzero, Nat.mul_zero, Nat.zero_mul]
    rfl
  · rw [body, length_flatMap_of_forall (length_row_bytes_of_mem hsize hpos), length_rowsTopDown,
      rowCount_eq hsize hpos]

/-- Behind the rows above it, a row is the next one from the top down. -/
theorem drop_rowsTopDown {y : Nat} (hy : y < image.rowCount) :
    ∃ below, image.rowsTopDown.drop (image.rowCount - 1 - y) = image.row y :: below := by
  have hk : image.rowCount - 1 - y < image.rowsTopDown.length := by
    rw [length_rowsTopDown]
    omega
  have hrow : image.rowsTopDown[image.rowCount - 1 - y] = image.row y := by
    have hback : image.rowCount - 1 - (image.rowCount - 1 - y) = y := by omega
    simp only [Image.rowsTopDown, List.getElem_reverse, List.getElem_map, List.getElem_range,
      List.length_map, List.length_range, hback]
  rw [List.drop_eq_getElem_cons hk, hrow]
  exact ⟨_, rfl⟩

/-- The bytes of a pixel stand behind those of the pixels before it in its row. -/
theorem drop_row_bytes (hsize : image.pixels.size = image.width * image.height) {x y : Nat}
    (hx : x < image.width) (hy : y < image.height) :
    ∃ c more, image.get? x y = some c ∧
      ((image.row y).flatMap Color.bytes).drop (3 * x) = c.bytes ++ more := by
  have hlength : x < (image.row y).length := by rwa [length_row hsize hy]
  refine ⟨(image.row y)[x], ((image.row y).drop (x + 1)).flatMap Color.bytes, ?_, ?_⟩
  · rw [Image.get?_eq hx hy, ← List.getElem?_eq_getElem hlength, row_eq,
      List.getElem?_take_of_lt hx, List.getElem?_drop, Array.getElem?_toList]
  · rw [drop_flatMap_of_forall fun c _ => length_bytes c, List.drop_eq_getElem_cons hlength,
      List.flatMap_cons]

/-- The bytes that are written for an image store it. -/
theorem storedIn_body (hsize : image.pixels.size = image.width * image.height) :
    image.StoredIn image.width image.height (body image) := by
  refine ⟨rfl, rfl, hsize, fun x hx y hy => ?_⟩
  have hpos : 0 < image.width := Nat.zero_lt_of_lt hx
  have hcount := rowCount_eq hsize hpos
  obtain ⟨below, hbelow⟩ := drop_rowsTopDown (hcount.symm ▸ hy)
  obtain ⟨c, more, hget, hpixel⟩ := drop_row_bytes hsize hx hy
  refine ⟨c, hget, ?_⟩
  have hoffset : 3 * ((image.height - 1 - y) * image.width + x) =
      3 * image.width * (image.height - 1 - y) + 3 * x := by
    rw [Nat.mul_add, Nat.mul_assoc, Nat.mul_comm image.width]
  have hlength : 3 * x ≤ ((image.row y).flatMap Color.bytes).length := by
    rw [length_row_bytes hsize hy]
    omega
  rw [hcount] at hbelow
  rw [hoffset, ← List.drop_drop, body, drop_flatMap_of_forall (length_row_bytes_of_mem hsize hpos),
    hbelow, List.flatMap_cons, List.drop_append_of_le_length hlength, hpixel, List.append_assoc,
    List.take_left' (length_bytes c)]

end Pixmap

end Easel
