import Easel.Command.Run
import Easel.Proofs.Description.Instructions
import Easel.Proofs.Image.Marks
import Easel.Proofs.Image.Painter

/-! The memory of a machine that counts with 64 bits. Whatever the painting of a scene counts or
asks for stays within it, as the reading limits the number of pixels. The writing asks for memory
for one row, and a canvas without rows may have rows of any width. -/

namespace Easel

namespace Description

theorem Describes.size_le {l : Limits} {ts : List Token} {s : Scene} (h : Describes l ts s) :
    s.width * s.height * 3 ≤ Word.maxBytes := by
  obtain ⟨⟨-, -, -, -, hfits⟩, -⟩ := h
  exact hfits

end Description

namespace Scene

variable {s : Scene} {file source : String}

/-- What the painting of a scene counts is less than a word can hold, and what it asks for fits in
one piece of memory: three bytes for the colour of a pixel, and one for its mark. A machine comes to
the picture, unless a box leads it beyond the edges of the canvas. -/
structure PaintsInMemory (s : Scene) : Prop where
  pixelCount : s.width * s.height < Word.size
  canvas : ∀ o background, ∃ c, s.canvas? o background = some c ∧
    c.image.pixels.size * 3 ≤ Word.maxBytes ∧ c.painted.size ≤ Word.maxBytes
  index : ∀ id span, s.span? id = some span → ∀ cell ∈ span.cells,
    ∀ image : Image, image.width = s.width → image.index cell.1 cell.2 < Word.size
  picture : s.SpansInside → ∀ o order background,
    ∃ image, s.picture? o order background = some image

/-- The bytes of a row are less than a word can hold and fit in one piece of memory. -/
structure WritesInMemory (s : Scene) : Prop where
  rowBytes : s.width * 3 < Word.size
  row : ∀ o, Pixmap.hasRoom o s.width = true

theorem Holdable.paintsInMemory (h : s.Holdable) : s.PaintsInMemory := by
  have hmax := Word.maxBytes_lt
  have hpixels := h.pixels
  refine ⟨by omega, fun o background => ⟨_, Canvas.blank?_eq h.pixels background, ?_, ?_⟩, ?_,
    fun hinside o order background => ⟨_, picture?_eq o order background h hinside⟩⟩
  · rw [Canvas.blank, Image.filled, Array.size_replicate]
    exact h.pixels
  · rw [Canvas.blank, Array.size_replicate]
    omega
  · rintro id span hspan ⟨x, y⟩ hcell image hwidth
    have hlt := Box.pixelSpan?_index_lt (by omega) hspan (PixelSpan.mem_cells.mp hcell)
    rw [Image.index, hwidth]
    omega

theorem writesInMemory_iff : s.WritesInMemory ↔ s.width * 3 ≤ Word.maxBytes := by
  have hmax := Word.maxBytes_lt
  have hroom {o : Overflow} (hbytes : s.width * 3 < Word.size) :
      Pixmap.hasRoom o s.width = true ↔ s.width * 3 ≤ Word.maxBytes := by
    rw [Pixmap.hasRoom, Overflow.count?_of_lt hbytes]
    exact decide_eq_true_iff
  constructor
  · rintro ⟨hbytes, hrow⟩
    exact (hroom hbytes).mp (hrow .stops)
  · intro h
    have hbytes : s.width * 3 < Word.size := by omega
    exact ⟨hbytes, fun _ => (hroom hbytes).mpr h⟩

theorem measures_picture? {o : Overflow} {order : Precedence} {background : Color} {image : Image}
    (h : s.picture? o order background = some image) :
    image.width = s.width ∧ image.height = s.height := by
  rw [picture?] at h
  obtain ⟨canvas, hcanvas, h⟩ := Option.bind_eq_some_iff.mp h
  obtain ⟨painted, hrun, h⟩ := Option.bind_eq_some_iff.mp h
  obtain rfl := Option.some.inj h
  obtain ⟨pixels, count, -, rfl⟩ := Canvas.blank?_eq_some hcanvas
  have hkeeps := Painting.keeps_run? hrun
  exact ⟨hkeeps.columns, hkeeps.rows⟩

/-- The file of a picture has its pixels just when there is room for one of its rows. -/
theorem complete_eq {o : Overflow} {order : Precedence} {background : Color} {image : Image}
    (h : s.picture? o order background = some image) (path : String) :
    (Command.Picture.ofImage o path image).complete = Pixmap.hasRoom o s.width := by
  rw [Command.Picture.ofImage, (measures_picture? h).1]
  split
  · next hroom => exact hroom.symm
  · next hroom => exact (Bool.eq_false_iff.mpr hroom).symm

theorem holdable_of_parse? [Description.Keyword.Order] (h : parse? file source = .ok s) :
    s.Holdable := by
  obtain ⟨tokens, -, hbuild⟩ := Except.bind_eq_ok_iff.mp h
  have hdescribes := (build_iff_describes_kept file).mp hbuild
  exact ⟨hdescribes.size_le, hdescribes.sound.fills⟩

/-- A scene that is read from a source is painted in memory. It is written in memory as well if it
has rows, and if it has none, then just when they would fit. -/
theorem parse?_inMemory [Description.Keyword.Order] (h : parse? file source = .ok s) :
    s.PaintsInMemory ∧ (s.WritesInMemory ↔ 0 < s.height ∨ s.width * 3 ≤ Word.maxBytes) := by
  have hholdable := holdable_of_parse? h
  have hsize := hholdable.pixels
  refine ⟨hholdable.paintsInMemory, ?_⟩
  rw [writesInMemory_iff, or_iff_right_of_imp]
  intro hheight
  have := Nat.le_mul_of_pos_right s.width hheight
  omega

/-- A description of a disc. -/
def disc : String := "size 4 3 circ d \x7b2 1\x7d 1 fill d \x7b1 0 0\x7d"

theorem disc_inMemory :
    ∃ s, parse? "disc.paint" disc = .ok s ∧ s.PaintsInMemory ∧ s.WritesInMemory := by
  have hread : (parse? "disc.paint" disc).toOption.any (0 < ·.height) = true := by decide +kernel
  cases hparse : parse? "disc.paint" disc with
  | error d =>
    rw [hparse] at hread
    cases hread
  | ok s =>
    rw [hparse] at hread
    obtain ⟨hpaints, hwrites⟩ := parse?_inMemory hparse
    exact ⟨s, rfl, hpaints, hwrites.mpr (.inl (of_decide_eq_true hread))⟩

/-- A description of a canvas without rows that is as wide as can be written. -/
def rowless : String := "size 18446744073709549568 0"

/-- There is a source that is read, though no picture of its scene is complete. -/
theorem exists_not_writesInMemory :
    ∃ s, parse? "rowless.paint" rowless = .ok s ∧ ¬s.WritesInMemory ∧ ∀ o order background,
      ∃ image, s.picture? o order background = some image ∧
        ∀ path, (Command.Picture.ofImage o path image).complete = false := by
  have hread : (parse? "rowless.paint" rowless).toOption.any (fun s => s.fills = #[] ∧
      Pixmap.hasRoom .stops s.width = false ∧ Pixmap.hasRoom .wraps s.width = false) = true := by
    decide +kernel
  cases hparse : parse? "rowless.paint" rowless with
  | error d =>
    rw [hparse] at hread
    cases hread
  | ok s =>
    rw [hparse] at hread
    obtain ⟨hfills, hstops, hwraps⟩ := of_decide_eq_true hread
    have hroom : ∀ o, Pixmap.hasRoom o s.width = false
      | .stops => hstops
      | .wraps => hwraps
    have hinside : s.SpansInside := by
      intro id hid
      rw [hfills] at hid
      exact absurd hid (Array.not_mem_empty id)
    refine ⟨s, rfl, fun h => ?_, fun o order background => ?_⟩
    · have hrow := h.row .stops
      rw [hroom] at hrow
      cases hrow
    · have hpaints := (holdable_of_parse? hparse).paintsInMemory
      obtain ⟨image, himage⟩ := hpaints.picture hinside o order background
      exact ⟨image, himage, fun path => (complete_eq himage path).trans (hroom o)⟩

end Scene

end Easel
