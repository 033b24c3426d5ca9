import Easel.Proofs.Image.Dots
import Easel.Proofs.Image.Header

/-! The pixels of a pixmap in memory. If a machine has stored every row of a file, then it has the
image that the file holds, even where it has lost count: its counts are then off by multiples of the
size of a word. -/

namespace Easel.Pixmap

variable {o : Overflow} {width height size n r : Nat} {data row : List UInt8} {image image' : Image}
  {d : Dot}

/-! ### Rows of whole pixels -/

theorem pixelAt_drop (k x : Nat) :
    pixelAt (data.drop (3 * k)).toArray x = pixelAt data.toArray (k + x) := by
  simp [pixelAt, Nat.mul_add, Nat.add_assoc]

theorem pixelAt_take {k : Nat} (h : 3 * n + 2 < k) :
    pixelAt (data.take k).toArray n = pixelAt data.toArray n := by
  have hbyte (i : Nat) (hi : i < k) : (data.take k).toArray.getD i 0 = data.toArray.getD i 0 := by
    simp [List.getElem?_take_of_lt hi]
  rw [pixelAt, pixelAt, hbyte _ (by omega), hbyte _ (by omega), hbyte _ h]

theorem mem_rowDots (hwidth : 0 < width) (hn : 3 * n ≤ data.length) :
    d ∈ rowDots height (rows (3 * width) (data.take (3 * n))).zipIdx ↔
      ∃ r, r * width + d.x < n ∧ d.x < width ∧ d.y = height - 1 - r ∧
        d.color = pixelAt data.toArray (r * width + d.x) := by
  have hpos : 0 < 3 * width := by omega
  have hstart (r : Nat) : r * (3 * width) = 3 * (r * width) := Nat.mul_left_comm r 3 width
  simp only [rowDots, List.mem_flatMap, mem_rows hpos, mem_dots, hstart, List.length_take]
  constructor
  · rintro ⟨⟨row, r⟩, ⟨hr, hrow⟩, hy, hx, hcolor⟩
    dsimp only at hr hrow hy hx hcolor
    rw [hrow] at hx hcolor
    rw [List.length_take, List.length_drop, List.length_take] at hx
    refine ⟨r, by omega, by omega, hy, hcolor.trans ?_⟩
    rw [pixelAt_take (by omega), pixelAt_drop, pixelAt_take (by omega)]
  · rintro ⟨r, hlt, hx, hy, hcolor⟩
    refine ⟨(((data.take (3 * n)).drop (3 * (r * width))).take (3 * width), r),
      ⟨by dsimp only; omega, rfl⟩, hy, ?_, hcolor.trans ?_⟩
    · rw [List.length_take, List.length_drop, List.length_take]
      omega
    · rw [pixelAt_take (by omega), pixelAt_drop, pixelAt_take (by omega)]

/-! ### Places of dots -/

section

variable {j x : Nat} (hcount : height * width = n + j * Word.size) (hr : r < height)

include hcount hr

theorem rows_add : (height - 1 - r) * width + (r + 1) * width = n + j * Word.size := by
  rw [← Nat.add_mul, ← hcount, show height - 1 - r + (r + 1) = height by omega]

/-- The number of a dot in a row that the pixels suffice for. -/
theorem number_of_le (hle : (r + 1) * width ≤ n) (hlt : n - (r + 1) * width + x < Word.size) :
    ((height - 1 - r) * width + x) % Word.size = n - (r + 1) * width + x := by
  have hrows := rows_add hcount hr
  rw [show (height - 1 - r) * width + x = n - (r + 1) * width + x + j * Word.size by omega,
    Nat.add_mul_mod_self_right, Nat.mod_eq_of_lt hlt]

/-- The number of a dot that the pixels do not suffice for. -/
theorem number_of_lt (hlt : n + x < (r + 1) * width) (hle : (r + 1) * width ≤ Word.size) :
    ((height - 1 - r) * width + x) % Word.size = Word.size + (n + x) - (r + 1) * width := by
  have hrows := rows_add hcount hr
  obtain ⟨i, rfl⟩ : ∃ i, j = i + 1 := by
    cases j with
    | zero => omega
    | succ i => exact ⟨i, rfl⟩
  rw [Nat.succ_mul i] at hrows
  rw [show (height - 1 - r) * width + x =
      Word.size + (n + x) - (r + 1) * width + i * Word.size by omega,
    Nat.add_mul_mod_self_right, Nat.mod_eq_of_lt (by omega)]

end

/-! ### Pixels that are stored -/

section

variable {j : Nat} {pixels : Array Color} (hwidth : 0 < width) (hrow : 3 * width < Word.size)
  (hn : 3 * n ≤ Word.maxBytes) (hdata : 3 * n ≤ data.length) (hsize : pixels.size = n)
  (hcount : height * width = n + j * Word.size)
  (h : Image.Dotted (rowDots height (rows (3 * width) (data.take (3 * n))).zipIdx)
    ⟨width, height, pixels⟩ image)

include hwidth hrow hn hdata hsize hcount h

/-- If all dots have been stored, then the pixels make up whole rows. -/
theorem exists_rows_of_dotted (hpos : 0 < n) : ∃ m, n = m * width := by
  have hmax := Word.two_mul_maxBytes_lt
  have hstart := Nat.div_mul_le_self (n - 1) width
  have hend := Nat.lt_div_mul_add (a := n - 1) hwidth
  -- the row with the last pixel: if it were cut, its first dot would have the number of no pixel
  generalize (n - 1) / width = r at hstart hend
  have hrows : (r + 1) * width = r * width + width := Nat.succ_mul r width
  refine ⟨r + 1, hrows ▸ ?_⟩
  by_contra hne
  have hr : r < height := Nat.lt_of_mul_lt_mul_right (a := width) (by omega)
  have hmem : (⟨0, height - 1 - r, pixelAt data.toArray (r * width + 0)⟩ : Dot) ∈
      rowDots height (rows (3 * width) (data.take (3 * n))).zipIdx :=
    (mem_rowDots hwidth hdata).mpr ⟨r, by dsimp only; omega, hwidth, rfl, rfl⟩
  have hlt : ((height - 1 - r) * width + 0) % Word.size < pixels.size :=
    h.number_lt _ hmem ⟨hwidth, show height - 1 - r < height by omega⟩
  rw [number_of_lt hcount hr (by omega) (by omega), hsize] at hlt
  omega

/-- If all dots have been stored and the pixels make up whole rows, then the pixels have the colours
that the file says. -/
theorem getElem?_of_dotted {m i : Nat} (hm : n = m * width) (hi : i < n) :
    image.pixels[i]? = some (pixelAt data.toArray
      (((height - 1 - i / width) * width + i % width) % Word.size)) := by
  have hmax := Word.two_mul_maxBytes_lt
  have hbelow {r : Nat} (hr : r < m) : (r + 1) * width ≤ n ∧ r < height ∧
      n - (r + 1) * width = (m - 1 - r) * width := by
    have hle : (r + 1) * width ≤ n := hm ▸ Nat.mul_le_mul_right width hr
    refine ⟨hle, ?_, ?_⟩
    · exact Nat.lt_of_lt_of_le (Nat.lt_succ_self r)
        (Nat.le_of_mul_le_mul_right (hle.trans (by omega)) hwidth)
    · rw [hm, ← Nat.sub_mul, show m - (r + 1) = m - 1 - r by omega]
  rcases h.pixel i with ⟨⟨x, y, color⟩, hmem, -, hnumber, hcolor⟩ | ⟨hnone, -⟩
  -- the row of the dot, counted from the top and from the bottom of the pixels that there are
  · obtain ⟨r, hlt, hx, rfl, hdot⟩ := (mem_rowDots hwidth hdata).mp hmem
    dsimp only at hlt hx hdot hcolor
    have hr : r < m := Nat.lt_of_mul_lt_mul_right (a := width) (by omega)
    obtain ⟨hle, hheight, hrest⟩ := hbelow hr
    obtain ⟨hle', hheight', hrest'⟩ := hbelow (r := m - 1 - r) (by omega)
    have hplace : (m - 1 - r) * width + x = i := by
      rw [← hrest, ← number_of_le hcount hheight hle (by omega)]
      exact hnumber
    obtain ⟨hline, hcolumn⟩ := index_div_mod hx (m - 1 - r)
    rw [hcolor, hdot, ← hplace, hline, hcolumn,
      number_of_le hcount hheight' hle' (by omega), hrest',
      show m - 1 - (m - 1 - r) = r by omega]
  -- there is a dot for every pixel
  · have hline : i / width < m := Nat.div_lt_of_lt_mul (by rwa [Nat.mul_comm, ← hm])
    have hx : i % width < width := Nat.mod_lt i hwidth
    have hplace := Nat.div_add_mod' i width
    generalize i / width = y at hline hplace
    generalize i % width = x at hx hplace
    obtain ⟨hle, hheight, hrest⟩ := hbelow (r := m - 1 - y) (by omega)
    rw [show m - 1 - (m - 1 - y) = y by omega] at hrest
    have hrows : (m - 1 - y + 1) * width = (m - 1 - y) * width + width := Nat.succ_mul _ _
    have hmem : (⟨x, height - 1 - (m - 1 - y),
        pixelAt data.toArray ((m - 1 - y) * width + x)⟩ : Dot) ∈
          rowDots height (rows (3 * width) (data.take (3 * n))).zipIdx :=
      (mem_rowDots hwidth hdata).mpr ⟨m - 1 - y, by dsimp only; omega, hx, rfl, rfl⟩
    have hnumber := number_of_le (x := x) hcount hheight hle (by omega)
    rw [hrest, hplace] at hnumber
    exact absurd hnumber (hnone _ hmem ⟨hx, show height - 1 - (m - 1 - y) < height by omega⟩)

end

theorem pixelAt_eq_black (h : data.length ≤ 3 * n) : pixelAt data.toArray n = .black := by
  have hbyte (i : Nat) (hi : data.length ≤ i) : data.toArray.getD i 0 = 0 := by
    simp [List.getElem?_eq_none hi]
  rw [pixelAt, hbyte _ h, hbyte _ (by omega), hbyte _ (by omega)]
  rfl

theorem exists_firstDot (height : Nat) (hsize : 3 ≤ size) (hdata : 3 ≤ data.length) :
    ∃ d ∈ rowDots height (rows size data).zipIdx, d.x = 0 ∧ d.y = height - 1 := by
  refine ⟨⟨0, height - 1, pixelAt (data.take size).toArray 0⟩,
    List.mem_flatMap.mpr ⟨(data.take size, 0), (mem_rows (by omega)).mpr ⟨?_, ?_⟩,
      mem_dots.mpr ⟨rfl, ?_, rfl⟩⟩, rfl, rfl⟩
  · omega
  · rw [Nat.zero_mul, List.drop_zero]
  · rw [List.length_take]
    dsimp only
    omega

/-- If a row has more bytes than a machine can count, then the dots have numbers of no pixels. They
can be stored only if the bytes of a row seem to be too few for a dot, and the pixels stay black. -/
theorem getElem?_of_wide {j i : Nat} (hrow : Word.size ≤ 3 * width) (hwidth : width < Word.size)
    (hsize : 0 < width * 3 % Word.size) (hn : 3 * n ≤ data.length)
    (hdata : data.length ≤ Word.maxBytes) (hcount : height * width = n + j * Word.size)
    (h : Image.Dotted (rowDots height (rows (width * 3 % Word.size) (data.take (3 * n))).zipIdx)
      ⟨width, height, Array.replicate n .black⟩ image) (hi : i < n) :
    image.pixels[i]? = some (pixelAt data.toArray
      (((height - 1 - i / width) * width + i % width) % Word.size)) := by
  have hmax := Word.two_mul_maxBytes_lt
  have hheight : 0 < height := Nat.pos_of_mul_pos_right (b := width) (by omega)
  have hshort : width * 3 % Word.size < 3 := by
    by_contra hlong
    have hlength : 3 ≤ (data.take (3 * n)).length := by
      rw [List.length_take]
      omega
    obtain ⟨⟨_, _, color⟩, hmem, rfl, rfl⟩ :=
      exists_firstDot height (Nat.le_of_not_lt hlong) hlength
    have hlt : ((height - 1 - 0) * width + 0) % Word.size < (Array.replicate n Color.black).size :=
      h.number_lt _ hmem ⟨by dsimp only; omega, by dsimp only; omega⟩
    rw [number_of_lt hcount hheight (by omega) (by omega), Array.size_replicate] at hlt
    omega
  rcases h.pixel i with ⟨d, hmem, -⟩ | ⟨-, hpixel⟩
  · obtain ⟨row, hrow, hdot⟩ := List.mem_flatMap.mp hmem
    obtain ⟨-, hcut⟩ := (mem_rows hsize).mp hrow
    obtain ⟨-, hx, -⟩ := mem_dots.mp hdot
    rw [hcut, List.length_take] at hx
    omega
  · have hsplit := Nat.div_add_mod' (width * 3) Word.size
    have hquotient : width * 3 / Word.size < 3 := Nat.div_lt_of_lt_mul (by omega)
    have hproduct := Nat.mul_le_mul_right Word.size (Nat.le_of_lt_succ hquotient)
    have hlt : i < width := by omega
    rw [hpixel, Nat.div_eq_of_lt hlt, Nat.mod_eq_of_lt hlt,
      number_of_lt hcount hheight (by omega) (by omega), pixelAt_eq_black (by omega),
      Array.getElem?_replicate, if_pos hi]

/-! ### The image in memory -/

theorem dataSize_eq_mod (width height : Nat) :
    dataSize width height = 3 * width * height % Word.size := by
  rw [dataSize, Nat.mod_mul_mod, Nat.mul_comm width]

theorem filled?_eq_some {background : Color}
    (h : Image.filled? o width height background = some image) :
    image = ⟨width, height, Array.replicate (width * height % Word.size) background⟩ ∧
      dataSize width height = 3 * (width * height % Word.size) ∧
      3 * (width * height % Word.size) ≤ Word.maxBytes := by
  have hmax := Word.maxBytes_lt
  rw [Image.filled?] at h
  obtain ⟨count, hcount, hroom⟩ := Option.bind_eq_some_iff.mp h
  obtain rfl : count = width * height % Word.size := Overflow.eq_mod_of_count? hcount
  split at hroom
  · next hle =>
    refine ⟨(Option.some.inj hroom).symm, ?_, hle⟩
    rw [dataSize_eq_mod, Nat.mul_assoc, ← Nat.mul_mod_mod, Nat.mod_eq_of_lt (by omega)]
  · cases hroom

theorem rowSize_pos (hpos : 0 < dataSize width height) : 0 < width * 3 % Word.size := by
  rw [Nat.pos_iff_ne_zero]
  intro hzero
  rw [dataSize, hzero, Nat.zero_mul] at hpos
  cases hpos

/-- A row starts inside the pixels, so that it is one of the image. -/
theorem row_lt (hsize : 0 < width * 3 % Word.size) {row : List UInt8 × Nat}
    (hrow : row ∈ (rows (width * 3 % Word.size) (data.take (dataSize width height))).zipIdx) :
    row.2 < height := by
  have hstart := ((mem_rows hsize).mp hrow).1
  have hle : dataSize width height ≤ width * 3 % Word.size * height := Nat.mod_le _ _
  rw [List.length_take, Nat.mul_comm] at hstart
  exact Nat.lt_of_mul_lt_mul_left (a := width * 3 % Word.size) (by omega)

/-- What has been stored is the image that the file holds, if a machine can count the bytes of a row
or holds the whole file. -/
theorem eq_imageOf (hwidth : width < Word.size) (hheight : height < Word.size)
    (hdata : 3 * width < Word.size ∨ data.length ≤ Word.maxBytes)
    (hexpected : dataSize width height ≤ data.length) (hpos : 0 < dataSize width height)
    (hn : dataSize width height = 3 * (width * height % Word.size))
    (hfits : 3 * (width * height % Word.size) ≤ Word.maxBytes)
    (h : (rows (width * 3 % Word.size) (data.take (dataSize width height))).zipIdx.foldlM
      (storeRow? o) ⟨width, height, Array.replicate (width * height % Word.size) .black⟩ =
        some image) :
    image = imageOf width height data.toArray := by
  have hmax := Word.two_mul_maxBytes_lt
  have hsize := rowSize_pos hpos
  have hdots := dotted_of_rows (fun row => row_lt hsize) (Nat.le_of_lt hheight) h
  have hcount : height * width =
      width * height % Word.size + width * height / Word.size * Word.size := by
    rw [Nat.mod_add_div', Nat.mul_comm]
  -- the pixels that there is memory for
  generalize width * height % Word.size = n at *
  rw [hn] at h hdots hexpected hpos
  have hpixels : image.pixels = (imageOf width height data.toArray).pixels := by
    apply Array.ext_getElem?
    intro i
    by_cases hi : i < n
    · rw [getElem?_imageOf data (by omega)]
      by_cases hrow : 3 * width < Word.size
      · rw [Nat.mul_comm width, Nat.mod_eq_of_lt hrow] at hdots hsize
        obtain ⟨m, hm⟩ := exists_rows_of_dotted (by omega) hrow hfits hexpected
          Array.size_replicate hcount hdots (by omega)
        exact getElem?_of_dotted (by omega) hrow hfits hexpected Array.size_replicate hcount hdots
          hm hi
      · exact getElem?_of_wide (Nat.le_of_not_lt hrow) hwidth hsize hexpected
          (hdata.resolve_left hrow) hcount hdots hi
    · have hsize : image.pixels.size = n := hdots.size.trans Array.size_replicate
      rw [Array.getElem?_eq_none (by omega), Array.getElem?_eq_none]
      rw [imageOf, Array.size_map, Array.size_range]
      omega
  exact Image.ext hdots.width hdots.height hpixels

/-! ### What is stored -/

theorem store?_eq {rowSize expected : Nat} (hrow : o.count? (width * 3 : Nat) = some rowSize)
    (hexpected : o.count? (rowSize * height : Nat) = some expected) :
    store? o ⟨width, height, data⟩ =
      if data.length < expected then some (.error (.truncated expected data.length))
      else (Image.filled? o width height .black).bind fun image =>
        if expected = 0 then some (.ok image)
        else ((rows rowSize (data.take expected)).zipIdx.foldlM (storeRow? o) image).bind
          fun image => some (.ok image) := by
  rw [store?]
  dsimp only
  rw [hrow, Option.bind_eq_bind, Option.bind_some, hexpected, Option.bind_eq_bind, Option.bind_some]
  rfl

theorem counts_of_store? {r : Except PixmapError Image}
    (h : store? o ⟨width, height, data⟩ = some r) :
    o.count? (width * 3 : Nat) = some (width * 3 % Word.size) ∧
      o.count? (width * 3 % Word.size * height : Nat) = some (dataSize width height) := by
  rw [store?] at h
  obtain ⟨rowSize, hrow, h⟩ := Option.bind_eq_some_iff.mp h
  obtain ⟨expected, hexpected, -⟩ := Option.bind_eq_some_iff.mp h
  obtain rfl : rowSize = width * 3 % Word.size := Overflow.eq_mod_of_count? hrow
  obtain rfl : expected = dataSize width height := Overflow.eq_mod_of_count? hexpected
  exact ⟨hrow, hexpected⟩

/-- What a machine finds behind a header of two words. -/
theorem store?_eq_some {r : Except PixmapError Image} (hwidth : width < Word.size)
    (hheight : height < Word.size) (hdata : 3 * width < Word.size ∨ data.length ≤ Word.maxBytes)
    (h : store? o ⟨width, height, data⟩ = some r) :
    (data.length < dataSize width height ∧
      r = .error (.truncated (dataSize width height) data.length)) ∨
    dataSize width height ≤ data.length ∧ r = .ok (imageOf width height data.toArray) := by
  obtain ⟨hrow, hexpected⟩ := counts_of_store? h
  rw [store?_eq hrow hexpected] at h
  split at h
  · next hlt => exact .inl ⟨hlt, (Option.some.inj h).symm⟩
  · next hle =>
    refine .inr ⟨Nat.le_of_not_lt hle, ?_⟩
    obtain ⟨image, hfilled, h⟩ := Option.bind_eq_some_iff.mp h
    obtain ⟨rfl, hsize, hfits⟩ := filled?_eq_some hfilled
    split at h
    · next hzero =>
      rw [← Option.some.inj h, show width * height % Word.size = 0 by omega, imageOf, hzero]
      simp
    · next hpos =>
      obtain ⟨image, hrows, h⟩ := Option.bind_eq_some_iff.mp h
      rw [← Option.some.inj h, eq_imageOf hwidth hheight hdata (Nat.le_of_not_lt hle)
        (Nat.pos_of_ne_zero hpos) hsize hfits hrows]

/-- Whether a machine counts the bytes of an image as they are. If it wraps, it may count those of a
row wrongly as long as there are no rows. -/
def Countable (o : Overflow) (width height : Nat) : Prop :=
  3 * width * height < Word.size ∧ (o = .stops → 3 * width < Word.size)

instance (o : Overflow) (width height : Nat) : Decidable (Countable o width height) :=
  inferInstanceAs (Decidable (_ ∧ _))

theorem Countable.dataSize_eq (h : Countable o width height) :
    dataSize width height = 3 * width * height := by
  rw [dataSize_eq_mod, Nat.mod_eq_of_lt h.1]

/-- A machine that counts the bytes as they are comes to an answer, if it can hold as many as there
are. -/
theorem exists_store? (hcount : Countable o width height) (hheight : height < Word.size)
    (hdata : 3 * width * height ≤ data.length → 3 * width * height ≤ Word.maxBytes) :
    ∃ r, store? o ⟨width, height, data⟩ = some r := by
  have hmax := Word.maxBytes_lt
  have hrowSize : o.count? (width * 3 : Nat) = some (width * 3 % Word.size) :=
    Overflow.count?_eq_mod fun ho => Nat.mul_comm 3 width ▸ hcount.2 ho
  have hexpected : o.count? (width * 3 % Word.size * height : Nat) =
      some (dataSize width height) := by
    refine Overflow.count?_eq_mod fun _ => Nat.lt_of_le_of_lt ?_ hcount.1
    rw [Nat.mul_comm 3]
    exact Nat.mul_le_mul_right height (Nat.mod_le _ _)
  rw [store?_eq hrowSize hexpected]
  split
  · exact ⟨_, rfl⟩
  next hle =>
  rw [hcount.dataSize_eq] at hle
  have hall := hdata (Nat.le_of_not_lt hle)
  rw [Nat.mul_assoc] at hall
  rw [Image.filled?_eq (by omega), Option.bind_some]
  split
  · exact ⟨_, rfl⟩
  next hpos =>
  have hsize : (Image.filled width height .black).pixels.size = width * height :=
    Array.size_replicate
  have hrows : ∀ row ∈
      (rows (width * 3 % Word.size) (data.take (dataSize width height))).zipIdx, row.2 < height :=
    fun row => row_lt (rowSize_pos (Nat.pos_of_ne_zero hpos))
  obtain ⟨image, himage⟩ := exists_rows (o := o) hsize (by omega) hrows (Nat.le_of_lt hheight)
  exact ⟨_, congrArg (Option.bind · _) himage⟩

end Easel.Pixmap
