import Easel.Image.Loading
import Easel.Proofs.Image.Rows

/-! Dots that a machine stores. They change the pixels with the numbers that it counts for them and
no others, and all of them are stored if the image has as many pixels as it should have. -/

namespace Easel

namespace Image

/-- The place of a dot is in an image. -/
def Has (image : Image) (d : Dot) : Prop := d.x < image.width ∧ d.y < image.height

/-- The number of the pixel that takes a dot, as a machine counts it. -/
def number (image : Image) (d : Dot) : Nat := image.index d.x d.y % Word.size

/-- `after` is `before` with some dots: the numbers of those in the image are those of pixels, each
of these pixels has the colour of a dot, and the others are as before. -/
structure Dotted (dots : List Dot) (before after : Image) : Prop where
  width : after.width = before.width
  height : after.height = before.height
  size : after.pixels.size = before.pixels.size
  number_lt : ∀ d ∈ dots, before.Has d → before.number d < before.pixels.size
  pixel : ∀ i,
    (∃ d ∈ dots, before.Has d ∧ before.number d = i ∧ after.pixels[i]? = some d.color) ∨
    (∀ d ∈ dots, before.Has d → before.number d ≠ i) ∧ after.pixels[i]? = before.pixels[i]?

namespace Dotted

variable {image image' image'' : Image} {ds es : List Dot}

theorem refl (image : Image) : Dotted [] image image :=
  ⟨rfl, rfl, rfl, List.forall_mem_nil _, fun _ => .inr ⟨List.forall_mem_nil _, rfl⟩⟩

theorem append (h : Dotted ds image image') (h' : Dotted es image' image'') :
    Dotted (ds ++ es) image image'' := by
  have hhas (d : Dot) : image'.Has d ↔ image.Has d := by rw [Has, Has, h.width, h.height]
  have hnumber (d : Dot) : image'.number d = image.number d := by
    rw [number, number, index, index, h.width]
  have hlt := h'.number_lt
  have hpixel := h'.pixel
  simp only [hhas, hnumber, h.size] at hlt hpixel
  refine ⟨h'.width.trans h.width, h'.height.trans h.height, h'.size.trans h.size, ?_, fun i => ?_⟩
  · rw [List.forall_mem_append]
    exact ⟨h.number_lt, hlt⟩
  -- the later dots win over the earlier ones
  rcases hpixel i with ⟨d, hd, hdot⟩ | ⟨hnone, heq⟩
  · exact .inl ⟨d, List.mem_append_right ds hd, hdot⟩
  rcases h.pixel i with ⟨d, hd, hin, hi, hcolor⟩ | ⟨hnone', heq'⟩
  · exact .inl ⟨d, List.mem_append_left es hd, hin, hi, heq.trans hcolor⟩
  · exact .inr ⟨List.forall_mem_append.mpr ⟨hnone', hnone⟩, heq.trans heq'⟩

end Dotted

variable {o : Overflow} {image image' : Image} {d : Dot}

theorem dotted_of_set? (h : image.set? o d = some image') : Dotted [d] image image' := by
  rw [set?] at h
  split at h
  · next hin =>
    obtain ⟨i, hcount, hset⟩ := Option.bind_eq_some_iff.mp h
    have hi : image.number d = i := (Overflow.eq_mod_of_count? hcount).symm
    split at hset
    · next hlt =>
      cases hset
      refine ⟨rfl, rfl, Array.size_setIfInBounds, ?_, fun j => ?_⟩
      · rw [List.forall_mem_singleton]
        exact fun _ => hi ▸ hlt
      · by_cases hj : i = j
        · subst hj
          exact .inl ⟨d, List.mem_singleton_self d, hin, hi,
            Array.getElem?_setIfInBounds_self_of_lt hlt⟩
        · refine .inr ⟨List.forall_mem_singleton.mpr fun _ => hi ▸ hj, ?_⟩
          exact Array.getElem?_setIfInBounds_ne hj
    · cases hset
  · next hout =>
    cases h
    exact ⟨rfl, rfl, rfl, List.forall_mem_singleton.mpr fun hin => absurd hin hout,
      fun _ => .inr ⟨List.forall_mem_singleton.mpr fun hin => absurd hin hout, rfl⟩⟩

theorem dotted_of_foldlM {ds : List Dot} (h : ds.foldlM (set? o) image = some image') :
    Dotted ds image image' := by
  induction ds generalizing image with
  | nil =>
    cases h
    exact .refl _
  | cons d ds ih =>
    rw [List.foldlM_cons] at h
    obtain ⟨between, hset, hrest⟩ := Option.bind_eq_some_iff.mp h
    exact (dotted_of_set? hset).append (ih hrest)

theorem foldlM_set?_eq (hsize : image.pixels.size = image.width * image.height)
    (hfits : image.pixels.size ≤ Word.size) (ds : List Dot) : ds.foldlM (set? o) image =
      some (ds.foldl (fun image d => image.set d.x d.y d.color) image) := by
  induction ds generalizing image with
  | nil => rfl
  | cons d ds ih =>
    have hset : image.set? o d = some (image.set d.x d.y d.color) := set?_eq hsize hfits
    have hdotted := dotted_of_set? hset
    rw [List.foldlM_cons, hset, List.foldl_cons]
    refine ih ?_ (hdotted.size ▸ hfits)
    rw [hdotted.size, hdotted.width, hdotted.height, hsize]

end Image

namespace Pixmap

variable {o : Overflow} {size : Nat} {data row : List UInt8} {image image' : Image} {d : Dot}

/-! ### Rows of dots -/

theorem getElem?_colors (row : List UInt8) (x : Nat) :
    (colors row)[x]? = if 3 * x + 2 < row.length then some (pixelAt row.toArray x) else none := by
  induction row using colors.induct generalizing x with
  | case1 red green blue rest ih =>
    rw [colors]
    cases x with
    | zero => rfl
    | succ x =>
      have hpixel : pixelAt (red :: green :: blue :: rest).toArray (x + 1) =
          pixelAt rest.toArray x := by
        simp [pixelAt, Nat.mul_add]
      have hlength : 3 * (x + 1) + 2 < rest.length + 1 + 1 + 1 ↔ 3 * x + 2 < rest.length := by omega
      simp only [List.getElem?_cons_succ, ih, hpixel, List.length_cons, hlength]
  | case2 row hshort =>
    have hlength : ¬3 * x + 2 < row.length := by
      intro hlt
      cases row with
      | nil => exact Nat.not_lt_zero _ hlt
      | cons red row =>
        cases row with
        | nil =>
          rw [List.length_singleton] at hlt
          omega
        | cons green row =>
          cases row with
          | nil =>
            rw [List.length_cons, List.length_singleton] at hlt
            omega
          | cons blue rest => exact hshort red green blue rest rfl
    rw [colors, if_neg hlength, List.getElem?_nil]
    exact hshort

theorem mem_dots {y : Nat} :
    d ∈ dots y row ↔ d.y = y ∧ 3 * d.x + 2 < row.length ∧ d.color = pixelAt row.toArray d.x := by
  rw [dots, List.mem_map]
  constructor
  · rintro ⟨⟨color, x⟩, hmem, rfl⟩
    have hcolor := List.mem_zipIdx_iff_getElem?.mp hmem
    rw [getElem?_colors] at hcolor
    split at hcolor
    · next hlt => exact ⟨rfl, hlt, (Option.some.inj hcolor).symm⟩
    · cases hcolor
  · obtain ⟨x, y', color⟩ := d
    rintro ⟨rfl, hlt, hcolor⟩
    rw [show color = pixelAt row.toArray x from hcolor]
    refine ⟨(pixelAt row.toArray x, x), ?_, rfl⟩
    rw [List.mem_zipIdx_iff_getElem?, getElem?_colors, if_pos hlt]

/-- There is a row with a given number if bytes begin there. -/
theorem mem_rows (hsize : 0 < size) {row : List UInt8 × Nat} : row ∈ (rows size data).zipIdx ↔
    row.2 * size < data.length ∧ row.1 = (data.drop (row.2 * size)).take size := by
  obtain ⟨row, r⟩ := row
  have hcount : r < (data.length + size - 1) / size ↔ r * size < data.length := by
    rw [← Nat.succ_le_iff, Nat.le_div_iff_mul_le hsize, Nat.succ_mul]
    omega
  rw [List.mem_zipIdx_iff_getElem?, rows, List.getElem?_map]
  by_cases hr : r < (data.length + size - 1) / size
  · rw [List.getElem?_range hr, Option.map_some, Option.some.injEq, eq_comm]
    exact (and_iff_right (hcount.mp hr)).symm
  · rw [List.getElem?_eq_none (by rwa [List.length_range, ← Nat.not_lt])]
    refine iff_of_false (fun h => ?_) fun h => hr (hcount.mpr h.1)
    cases h

/-- The dots of numbered rows. -/
def rowDots (height : Nat) (rows : List (List UInt8 × Nat)) : List Dot :=
  rows.flatMap fun row => dots (height - 1 - row.2) row.1

theorem storeRow?_eq {row : List UInt8 × Nat} (hr : row.2 < image.height)
    (hheight : image.height ≤ Word.size) : storeRow? o image row =
      (dots (image.height - 1 - row.2) row.1).foldlM (Image.set? o) image := by
  have hcast : (image.height : Int) - 1 - row.2 = (image.height - 1 - row.2 : Nat) := by omega
  rw [storeRow?, hcast, Overflow.count?_of_lt (by omega)]
  rfl

theorem dotted_of_rows {rows : List (List UInt8 × Nat)} (hrows : ∀ row ∈ rows, row.2 < image.height)
    (hheight : image.height ≤ Word.size) (h : rows.foldlM (storeRow? o) image = some image') :
    Image.Dotted (rowDots image.height rows) image image' := by
  induction rows generalizing image with
  | nil =>
    cases h
    exact .refl _
  | cons row rows ih =>
    obtain ⟨hrow, hrows⟩ := List.forall_mem_cons.mp hrows
    rw [List.foldlM_cons] at h
    obtain ⟨between, hstore, hrest⟩ := Option.bind_eq_some_iff.mp h
    rw [storeRow?_eq hrow hheight] at hstore
    have hfirst := Image.dotted_of_foldlM hstore
    rw [← hfirst.height] at hrows hheight
    have hbehind := ih hrows hheight hrest
    rw [hfirst.height] at hbehind
    exact hfirst.append hbehind

theorem exists_rows {rows : List (List UInt8 × Nat)}
    (hsize : image.pixels.size = image.width * image.height) (hfits : image.pixels.size ≤ Word.size)
    (hrows : ∀ row ∈ rows, row.2 < image.height) (hheight : image.height ≤ Word.size) :
    ∃ image', rows.foldlM (storeRow? o) image = some image' := by
  induction rows generalizing image with
  | nil => exact ⟨image, rfl⟩
  | cons row rows ih =>
    obtain ⟨hrow, hrows⟩ := List.forall_mem_cons.mp hrows
    obtain ⟨between, hstore⟩ : ∃ between,
        (dots (image.height - 1 - row.2) row.1).foldlM (Image.set? o) image = some between :=
      ⟨_, Image.foldlM_set?_eq hsize hfits _⟩
    have hdotted := Image.dotted_of_foldlM hstore
    rw [List.foldlM_cons, storeRow?_eq hrow hheight, hstore]
    refine ih ?_ (hdotted.size ▸ hfits) (hdotted.height ▸ hrows) (hdotted.height ▸ hheight)
    rw [hdotted.size, hdotted.width, hdotted.height, hsize]

end Pixmap

end Easel
