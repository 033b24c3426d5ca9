import Easel.Description.Basic
import Easel.Proofs.Image.Painter

/-! Painting with and without boxes. A box keeps the painter from testing pixels that lie outside
it, and the picture stays the same as long as no box keeps out a pixel that its shape would have
coloured otherwise than what lies below. Boxes do keep out such pixels: their corners are rounded,
their slack is fixed, and a box that is not finite covers nothing at all. -/

namespace Easel

/-- All pixels of a canvas, if it has any. -/
def PixelSpan.whole? (width height : Nat) : Option PixelSpan :=
  if width = 0 ∨ height = 0 then none else some ⟨⟨0, width - 1⟩, ⟨0, height - 1⟩⟩

theorem PixelSpan.whole?_inside {width height : Nat} :
    ∀ span ∈ whole? width height, span.Inside width height := by
  intro span hspan
  simp only [whole?, Option.mem_def] at hspan
  split at hspan
  · cases hspan
  · next hne =>
    obtain rfl := Option.some.inj hspan
    exact ⟨by simp; omega, by simp; omega⟩

theorem PixelSpan.whole?_covers {width height x y : Nat} (hx : x < width) (hy : y < height) :
    ∃ span, whole? width height = some span ∧ span.Covers x y := by
  rw [whole?, if_neg (by omega)]
  exact ⟨_, rfl, ⟨Nat.zero_le x, Nat.le_sub_one_of_lt hx⟩, Nat.zero_le y, Nat.le_sub_one_of_lt hy⟩

namespace Scene

/-- Every pixel of the canvas, whichever the shape. -/
def everywhere? (s : Scene) (_ : Nat) : Option PixelSpan := PixelSpan.whole? s.width s.height

/-- The picture of a scene by the painter that does not look at boxes: each filled shape is tested
at every pixel of the canvas. -/
def exhaustivePicture? (o : Overflow) (s : Scene) (order : Precedence) (background : Color) :
    Option Image := do
  let canvas ← s.canvas? o background
  return (← Painting.run? o s s.everywhere? canvas (order.turns s.fills)).image

/-- The picture by the painter that does not look at boxes, without limits. -/
def exhaustivePicture (s : Scene) (order : Precedence) (background : Color) : Image :=
  (Painting.run s s.everywhere? (s.canvas background) (order.turns s.fills)).image

/-- Whether the box around a shape covers the centre of a pixel. -/
def Boxed (s : Scene) (x y id : Nat) : Prop := ∃ span, s.span? id = some span ∧ span.Covers x y

/-- Boxes do no harm if, wherever the topmost shape that contains the centre of a pixel is kept out
by its box, the pixel gets the colour of that shape all the same. -/
def BoxesHarmless (s : Scene) (order : Precedence) (background : Color) : Prop :=
  ∀ x y, x < s.width → y < s.height → ∀ i id color, s.fills[i]? = some id →
    s.Topmost s.everywhere? order x y i color → ¬s.Boxed x y id →
      s.Leaves s.span? order background x y color

variable {s : Scene} {order : Precedence} {background color : Color} {x y i id : Nat}

theorem Colours.everywhere (hx : x < s.width) (hy : y < s.height)
    (h : s.Colours s.span? x y id color) : s.Colours s.everywhere? x y id color :=
  ⟨h.1, PixelSpan.whole?_covers hx hy, h.2.2⟩

theorem Colours.boxed (h : s.Colours s.everywhere? x y id color) (hbox : s.Boxed x y id) :
    s.Colours s.span? x y id color :=
  ⟨h.1, hbox, h.2.2⟩

/-- A shape that is topmost without boxes and is not kept out by its own is topmost with them. -/
theorem Topmost.boxed (hx : x < s.width) (hy : y < s.height) (hid : s.fills[i]? = some id)
    (h : s.Topmost s.everywhere? order x y i color) (hbox : s.Boxed x y id) :
    s.Topmost s.span? order x y i color := by
  obtain ⟨id', hid', hcolours, habove⟩ := h
  obtain rfl : id = id' := Option.some.inj (hid.symm.trans hid')
  exact ⟨id, hid, hcolours.boxed hbox, fun j other hj hother otherColor hc =>
    habove j other hj hother otherColor (hc.everywhere hx hy)⟩

/-- Two canvases that show views over one background have the same image if and only if the views
give each pixel the same colour. -/
theorem image_eq_iff {c c' : Canvas} {width height : Nat} {view view' : Nat → Nat → Option Color}
    (h : c.Shows width height background view) (h' : c'.Shows width height background view') :
    c.image = c'.image ↔ ∀ x y, x < width → y < height →
      (view x y).getD background = (view' x y).getD background := by
  constructor
  · intro heq x y hx hy
    have hpixel := h.pixel x y hx hy
    rw [heq, h'.pixel x y hx hy] at hpixel
    exact (Option.some.inj hpixel).symm
  · intro hview
    have hpixels : c.image.pixels = c'.image.pixels := by
      refine Array.ext (h.pixelCount.trans h'.pixelCount.symm) fun k hk hk' => ?_
      -- every place of the image is that of a pixel
      have hlt : k < width * height := h.pixelCount ▸ hk
      have hwidth : 0 < width := Nat.pos_of_mul_pos_right (Nat.zero_lt_of_lt hlt)
      have hx : k % width < width := Nat.mod_lt k hwidth
      have hy : k / width < height := Nat.div_lt_of_lt_mul hlt
      have hplace : k / width * width + k % width = k := Nat.div_add_mod' k width
      have hleft := h.pixel _ _ hx hy
      have hright := h'.pixel _ _ hx hy
      rw [hplace, Array.getElem?_eq_getElem hk] at hleft
      rw [hplace, Array.getElem?_eq_getElem hk', ← hview _ _ hx hy, ← hleft] at hright
      exact (Option.some.inj hright).symm
    obtain ⟨⟨w, ht, px⟩, _⟩ := c
    obtain ⟨⟨w', ht', px'⟩, _⟩ := c'
    have hw : w = w' := h.columns.trans h'.columns.symm
    have hh : ht = ht' := h.rows.trans h'.rows.symm
    simp only at hpixels
    rw [hw, hh, hpixels]

/-- A bar so long that its end is rounded past the centre of the only pixel. -/
def longBar : String :=
  "size 1 1\nrect a \x7b4503599627370497 0.5\x7d 9007199254740992 1\nfill a \x7b1 0 0\x7d"

/-- There are descriptions whose picture boxes do change. -/
theorem exists_picture_ne_exhaustivePicture : ∃ s, Scene.parse? "bar.paint" longBar = .ok s ∧
    s.picture .first .black ≠ s.exhaustivePicture .first .black ∧
    ∀ o, s.picture? o .first .black ≠ s.exhaustivePicture? o .first .black := by
  have hdiffers : ((Scene.parse? "bar.paint" longBar).toOption.any fun s =>
      s.picture .first .black ≠ s.exhaustivePicture .first .black ∧
        s.picture? .stops .first .black ≠ s.exhaustivePicture? .stops .first .black ∧
        s.picture? .wraps .first .black ≠ s.exhaustivePicture? .wraps .first .black) = true := by
    decide +kernel
  cases hparse : Scene.parse? "bar.paint" longBar with
  | error d => rw [hparse] at hdiffers; cases hdiffers
  | ok s =>
    rw [hparse] at hdiffers
    obtain ⟨hpicture, hstops, hwraps⟩ := of_decide_eq_true hdiffers
    refine ⟨s, rfl, hpicture, fun o => ?_⟩
    cases o with
    | stops => exact hstops
    | wraps => exact hwraps

theorem exhaustivePicture?_eq (o : Overflow) (order : Precedence) (background : Color)
    (hs : s.Holdable) :
    s.exhaustivePicture? o order background = some (s.exhaustivePicture order background) := by
  rw [exhaustivePicture?]
  exact image_run?_turns o s.everywhere? order background hs fun _ _ => PixelSpan.whole?_inside

/-- Boxes leave the picture of a scene as it is if and only if they do no harm, and so it is for a
machine that can hold the pixels. -/
theorem picture_eq_exhaustivePicture_iff (s : Scene) (order : Precedence) (background : Color)
    (h : s.SpansInside) :
    (s.picture order background = s.exhaustivePicture order background ↔
      s.BoxesHarmless order background) ∧
    (s.Holdable → ∀ o,
      (s.picture? o order background = s.exhaustivePicture? o order background ↔
        s.BoxesHarmless order background)) := by
  suffices hiff : s.picture order background = s.exhaustivePicture order background ↔
      s.BoxesHarmless order background by
    refine ⟨hiff, fun hs o => ?_⟩
    rw [picture?_eq o order background hs h, exhaustivePicture?_eq o order background hs,
      Option.some_inj, hiff]
  have hboxed := shows_turns s.span? order background h
  have hfree := shows_turns s.everywhere? order background
    fun _ _ => PixelSpan.whole?_inside
  rw [picture, exhaustivePicture, image_eq_iff hboxed hfree]
  simp only [findSome?_coat?_getD_eq_iff]
  constructor
  · intro hsame x y hx hy i id color _ htop _
    have hleaves := hsame x y hx hy
    rwa [findSome?_coat?_eq_some_iff.mpr ⟨i, htop⟩] at hleaves
  · intro hharmless x y hx hy
    cases hfirst : (order.turns s.fills).findSome? (Painting.coat? s s.everywhere? x y) with
    | none =>
      have hnone := (findSome?_coat?_eq_none_iff order).mp hfirst
      exact .inr ⟨rfl, fun id hid other hc => hnone id hid other (hc.everywhere hx hy)⟩
    | some color =>
      obtain ⟨i, htop⟩ := findSome?_coat?_eq_some_iff.mp hfirst
      obtain ⟨id, hid, -⟩ := id htop
      by_cases hbox : s.Boxed x y id
      · exact .inl ⟨i, htop.boxed hx hy hid hbox⟩
      · exact hharmless x y hx hy i id color hid htop hbox

theorem overlapping_boxesHarmless : overlapping.SpansInside ∧
    overlapping.BoxesHarmless .last .black := by
  have hinside : overlapping.SpansInside := by decide +kernel
  exact ⟨hinside,
    (picture_eq_exhaustivePicture_iff overlapping .last .black hinside).1.mp (by decide +kernel)⟩

end Scene

end Easel
