import Easel.Image.Painting
import Easel.Proofs.Number.Word

/-! What a canvas shows while it is painted. A view gives a pixel the colour that shapes have
painted it with, if they have, and `Canvas.Shows` ties the pixels and the marks of a canvas to one
view. The main statements say how the view changes in a visit, in the turn of one shape and in a
whole run of a painter that counts without limits, and that a machine paints the same as long as it
can hold the pixels and all places in which it looks are there. -/

namespace Easel

/-! ### Painting without limits -/

namespace Image

def filled (width height : Nat) (background : Color) : Image :=
  ⟨width, height, Array.replicate (width * height) background⟩

def set (image : Image) (x y : Nat) (color : Color) : Image :=
  if x < image.width ∧ y < image.height then
    { image with pixels := image.pixels.setIfInBounds (image.index x y) color }
  else image

end Image

namespace Canvas

def blank (width height : Nat) (background : Color) : Canvas :=
  ⟨.filled width height background, Array.replicate (width * height) false⟩

def set (c : Canvas) (x y : Nat) (color : Color) : Canvas :=
  ⟨c.image.set x y color, c.painted.setIfInBounds (c.image.index x y) true⟩

end Canvas

namespace Painting

/-- Colours a pixel if it has a mark, is not painted yet, and the shape contains its centre. -/
def visit (d : Drawing Float) (id : Nat) (color : Color) (c : Canvas) (cell : Nat × Nat) : Canvas :=
  match c.painted[c.image.index cell.1 cell.2]? with
  | some false =>
    if d.contains id (Point.pixelCenter cell.1 cell.2) then c.set cell.1 cell.2 color else c
  | _ => c

/-- Gives a shape its turn, if there is one in that place and it has a colour. -/
def turn (s : Scene) (span? : Nat → Option PixelSpan) (c : Canvas) (id : Nat) : Canvas :=
  match s.drawing.shapes[id]?.bind (·.fill), span? id with
  | some color, some span => span.cells.foldl (visit s.drawing id color) c
  | _, _ => c

def run (s : Scene) (span? : Nat → Option PixelSpan) (c : Canvas) (turns : List Nat) : Canvas :=
  turns.foldl (turn s span?) c

end Painting

namespace Scene

def canvas (s : Scene) (background : Color) : Canvas := .blank s.width s.height background

/-- The picture of a scene that is painted without limits. -/
def picture (s : Scene) (order : Precedence) (background : Color) : Image :=
  (Painting.run s s.span? (s.canvas background) (order.turns s.fills)).image

/-- Whether two scenes have the same pictures: without limits, and on each machine, which stops for
both of them or for none. -/
structure SamePictures (s s' : Scene) : Prop where
  picture : ∀ order background, s.picture order background = s'.picture order background
  onMachine : ∀ o order background, s.picture? o order background = s'.picture? o order background

variable {s s' s'' : Scene}

theorem SamePictures.symm (h : s.SamePictures s') : s'.SamePictures s :=
  ⟨fun order background => (h.picture order background).symm,
    fun o order background => (h.onMachine o order background).symm⟩

theorem SamePictures.trans (h : s.SamePictures s') (h' : s'.SamePictures s'') :
    s.SamePictures s'' :=
  ⟨fun order background => (h.picture order background).trans (h'.picture order background),
    fun o order background =>
      (h.onMachine o order background).trans (h'.onMachine o order background)⟩

end Scene

/-! ### Places -/

theorem Span.mem_indices {s : Span} {i : Nat} : i ∈ s.indices ↔ s.first ≤ i ∧ i ≤ s.last := by
  rw [Span.indices, List.mem_range'_1]
  omega

namespace PixelSpan

/-- Whether a rectangle of pixels has the pixel in column `x` and row `y`. -/
def Covers (span : PixelSpan) (x y : Nat) : Prop :=
  (span.columns.first ≤ x ∧ x ≤ span.columns.last) ∧ span.rows.first ≤ y ∧ y ≤ span.rows.last

instance (span : PixelSpan) (x y : Nat) : Decidable (span.Covers x y) :=
  inferInstanceAs (Decidable (_ ∧ _))

/-- A rectangle of pixels that does not reach over the edge of a canvas. -/
def Inside (span : PixelSpan) (width height : Nat) : Prop :=
  span.columns.last < width ∧ span.rows.last < height

instance (span : PixelSpan) (width height : Nat) : Decidable (span.Inside width height) :=
  inferInstanceAs (Decidable (_ ∧ _))

@[simp] theorem mem_cells {span : PixelSpan} {cell : Nat × Nat} :
    cell ∈ span.cells ↔ span.Covers cell.1 cell.2 := by
  obtain ⟨x, y⟩ := cell
  simp only [cells, List.mem_flatMap, List.mem_map, Prod.mk.injEq, Span.mem_indices, Covers]
  constructor
  · rintro ⟨_, hy, _, hx, rfl, rfl⟩
    exact ⟨hx, hy⟩
  · rintro ⟨hx, hy⟩
    exact ⟨y, hy, x, hx, rfl, rfl⟩

theorem Covers.lt {span : PixelSpan} {width height x y : Nat} (h : span.Covers x y)
    (hIn : span.Inside width height) : x < width ∧ y < height :=
  ⟨Nat.lt_of_le_of_lt h.1.2 hIn.1, Nat.lt_of_le_of_lt h.2.2 hIn.2⟩

end PixelSpan

/-- Row by row, the pixels of a canvas have places below their number. -/
theorem index_lt {width height x y : Nat} (hx : x < width) (hy : y < height) :
    y * width + x < width * height :=
  calc
    y * width + x < (y + 1) * width := by rw [Nat.add_mul, Nat.one_mul]; omega
    _ ≤ height * width := Nat.mul_le_mul_right width hy
    _ = width * height := Nat.mul_comm height width

/-- Row by row, different pixels have different places. -/
theorem index_injective {width x y x' y' : Nat} (hx : x < width) (hx' : x' < width)
    (h : y * width + x = y' * width + x') : x = x' ∧ y = y' := by
  rcases Nat.lt_trichotomy y y' with hlt | rfl | hgt
  · have hrows := Nat.mul_le_mul_right width (Nat.succ_le_of_lt hlt)
    rw [Nat.succ_mul] at hrows
    omega
  · exact ⟨Nat.add_left_cancel h, rfl⟩
  · have hrows := Nat.mul_le_mul_right width (Nat.succ_le_of_lt hgt)
    rw [Nat.succ_mul] at hrows
    omega

namespace Canvas

/-- The pixels that `view` gives a colour have it and are marked as painted; all others have the
background and no mark. -/
structure Shows (c : Canvas) (width height : Nat) (background : Color)
    (view : Nat → Nat → Option Color) : Prop where
  columns : c.image.width = width
  rows : c.image.height = height
  pixelCount : c.image.pixels.size = width * height
  markCount : c.painted.size = width * height
  pixel : ∀ x y, x < width → y < height →
    c.image.pixels[y * width + x]? = some ((view x y).getD background)
  mark : ∀ x y, x < width → y < height → c.painted[y * width + x]? = some (view x y).isSome

variable {c : Canvas} {width height : Nat} {background : Color}
  {view view' : Nat → Nat → Option Color}

theorem Shows.congr (h : c.Shows width height background view)
    (hview : ∀ x y, x < width → y < height → view x y = view' x y) :
    c.Shows width height background view' where
  columns := h.columns
  rows := h.rows
  pixelCount := h.pixelCount
  markCount := h.markCount
  pixel x y hx hy := by rw [h.pixel x y hx hy, hview x y hx hy]
  mark x y hx hy := by rw [h.mark x y hx hy, hview x y hx hy]

theorem shows_blank : (blank width height background).Shows width height background
    fun _ _ => none where
  columns := rfl
  rows := rfl
  pixelCount := by simp [blank, Image.filled]
  markCount := by simp [blank]
  pixel x y hx hy := by simp [blank, Image.filled, index_lt hx hy]
  mark x y hx hy := by simp [blank, index_lt hx hy]

/-- Setting a pixel changes the view at that pixel alone. -/
theorem Shows.set (h : c.Shows width height background view) {x y : Nat} (hx : x < width)
    (hy : y < height) (color : Color) :
    (c.set x y color).Shows width height background
      fun a b => if a = x ∧ b = y then some color else view a b := by
  have hset : c.set x y color =
      ⟨⟨width, c.image.height, c.image.pixels.setIfInBounds (y * width + x) color⟩,
        c.painted.setIfInBounds (y * width + x) true⟩ := by
    have hbounds : x < c.image.width ∧ y < c.image.height := by
      rw [h.columns, h.rows]
      exact ⟨hx, hy⟩
    rw [Canvas.set, Image.set, if_pos hbounds, Image.index, h.columns]
  rw [hset]
  have hplace : ∀ {a b : Nat}, a < width → ¬(a = x ∧ b = y) → y * width + x ≠ b * width + a :=
    fun ha hne heq => hne ⟨(index_injective hx ha heq).1.symm, (index_injective hx ha heq).2.symm⟩
  refine ⟨rfl, h.rows, by simpa using h.pixelCount, by simpa using h.markCount,
    fun a b ha hb => ?_, fun a b ha hb => ?_⟩
  · by_cases hab : a = x ∧ b = y
    · obtain ⟨rfl, rfl⟩ := hab
      simp [h.pixelCount, index_lt hx hy]
    · simp only [if_neg hab]
      rw [Array.getElem?_setIfInBounds_ne (hplace ha hab)]
      exact h.pixel a b ha hb
  · by_cases hab : a = x ∧ b = y
    · obtain ⟨rfl, rfl⟩ := hab
      simp [h.markCount, index_lt hx hy]
    · simp only [if_neg hab]
      rw [Array.getElem?_setIfInBounds_ne (hplace ha hab)]
      exact h.mark a b ha hb

end Canvas

namespace Painting

open Canvas

/-- The colour that a shape offers a pixel, if it contains the centre. -/
def offer (d : Drawing Float) (id : Nat) (color : Color) (x y : Nat) : Option Color :=
  if d.contains id (Point.pixelCenter x y) then some color else none

variable {c : Canvas} {width height : Nat} {background : Color} {view : Nat → Nat → Option Color}

/-- A visited pixel takes the offer if it has no colour yet. -/
theorem shows_visit (d : Drawing Float) (id : Nat) (color : Color)
    (h : c.Shows width height background view) {cell : Nat × Nat} (hx : cell.1 < width)
    (hy : cell.2 < height) :
    (visit d id color c cell).Shows width height background fun a b =>
      if a = cell.1 ∧ b = cell.2 then (view a b).or (offer d id color a b) else view a b := by
  obtain ⟨x, y⟩ := cell
  have hmark : c.painted[c.image.index x y]? = some (view x y).isSome := by
    rw [Image.index, h.columns]
    exact h.mark x y hx hy
  simp only [visit, hmark]
  cases hview : view x y with
  | some old =>
    refine h.congr fun a b _ _ => ?_
    split
    · next hab => rw [hab.1, hab.2, hview]; rfl
    · rfl
  | none =>
    by_cases hin : d.contains id (Point.pixelCenter x y) = true
    · simp only [Option.isSome_none, if_pos hin]
      refine (h.set hx hy color).congr fun a b _ _ => ?_
      split
      · next hab => rw [hab.1, hab.2, hview, offer, if_pos hin]; rfl
      · rfl
    · simp only [Option.isSome_none, if_neg hin]
      refine h.congr fun a b _ _ => ?_
      split
      · next hab => rw [hab.1, hab.2, hview, offer, if_neg hin]; rfl
      · rfl

/-- After any list of visits, the visited pixels without a colour have taken the offer. -/
theorem shows_foldl_visit (d : Drawing Float) (id : Nat) (color : Color) (cells : List (Nat × Nat))
    (hcells : ∀ cell ∈ cells, cell.1 < width ∧ cell.2 < height)
    (h : c.Shows width height background view) :
    (cells.foldl (visit d id color) c).Shows width height background fun a b =>
      if (a, b) ∈ cells then (view a b).or (offer d id color a b) else view a b := by
  induction cells generalizing c view with
  | nil => simpa using h
  | cons cell rest ih =>
    obtain ⟨hx, hy⟩ := hcells cell List.mem_cons_self
    have hrest := ih (fun other hmem => hcells other (List.mem_cons_of_mem _ hmem))
      (shows_visit d id color h hx hy)
    refine hrest.congr fun a b _ _ => ?_
    have hcell : (a, b) ∈ cell :: rest ↔ (a = cell.1 ∧ b = cell.2) ∨ (a, b) ∈ rest := by
      rw [List.mem_cons, Prod.ext_iff]
    -- a second offer of the same shape changes nothing
    have htwice : ((view a b).or (offer d id color a b)).or (offer d id color a b) =
        (view a b).or (offer d id color a b) := by
      cases view a b <;> cases offer d id color a b <;> rfl
    by_cases hhere : a = cell.1 ∧ b = cell.2
    · rw [if_pos hhere, if_pos (hcell.mpr (.inl hhere)), htwice, ite_self]
    · simp only [hcell, hhere, false_or, if_false]

/-- The colour that the turn of a shape offers a pixel: the shape has a colour, it may touch the
pixel, and it contains the centre. -/
def coat? (s : Scene) (span? : Nat → Option PixelSpan) (x y id : Nat) : Option Color :=
  match s.drawing.shapes[id]?.bind (·.fill), span? id with
  | some color, some span =>
    if span.Covers x y then offer s.drawing id color x y else none
  | _, _ => none

/-- A turn shows its offers where there was no colour yet. -/
theorem shows_turn (s : Scene) {span? : Nat → Option PixelSpan} {id : Nat}
    (hspan : ∀ span ∈ span? id, span.Inside width height)
    (h : c.Shows width height background view) :
    (turn s span? c id).Shows width height background fun a b =>
      (view a b).or (coat? s span? a b id) := by
  unfold turn
  split
  · next color span hcolor hspan' =>
    have hcells : ∀ cell ∈ span.cells, cell.1 < width ∧ cell.2 < height := fun cell hmem =>
      (PixelSpan.mem_cells.mp hmem).lt (hspan span hspan')
    refine (shows_foldl_visit s.drawing id color span.cells hcells h).congr fun a b _ _ => ?_
    simp only [PixelSpan.mem_cells, coat?, hcolor, hspan']
    split <;> simp
  · next hnone =>
    refine h.congr fun a b _ _ => ?_
    have hcoat : coat? s span? a b id = none := by
      unfold coat?
      split
      · next color span hcolor hspan' => exact absurd hspan' (hnone color span hcolor)
      · rfl
    rw [hcoat, Option.or_none]

/-- A run shows at each pixel the first offer of the turns, where there was no colour yet. -/
theorem shows_run (s : Scene) {span? : Nat → Option PixelSpan} (turns : List Nat)
    (hspan : ∀ id ∈ turns, ∀ span ∈ span? id, span.Inside width height)
    (h : c.Shows width height background view) :
    (run s span? c turns).Shows width height background fun a b =>
      (view a b).or (turns.findSome? (coat? s span? a b)) := by
  induction turns generalizing c view with
  | nil => simpa [run] using h
  | cons id rest ih =>
    have hturn := shows_turn s (hspan id List.mem_cons_self) h
    have hrest := ih (fun other hmem => hspan other (List.mem_cons_of_mem _ hmem)) hturn
    refine hrest.congr fun a b _ _ => ?_
    rw [Option.or_assoc, List.findSome?_cons]
    cases coat? s span? a b id <;> rfl

end Painting

/-! ### Painting by a machine -/

namespace Image

variable {o : Overflow} {image : Image} {d : Dot}

theorem filled?_eq {width height : Nat} (hall : width * height * 3 ≤ Word.maxBytes)
    (background : Color) :
    filled? o width height background = some (filled width height background) := by
  have hmax := Word.maxBytes_lt
  have hcount : o.count? (width * height : Nat) = some (width * height) :=
    Overflow.count?_of_lt (by omega)
  rw [filled?, hcount]
  exact if_pos (by omega)

/-- In an image with all of its pixels that a machine can number, every dot can be stored. -/
theorem set?_eq (hsize : image.pixels.size = image.width * image.height)
    (hfits : image.pixels.size ≤ Word.size) :
    image.set? o d = some (image.set d.x d.y d.color) := by
  rw [set?, set]
  split
  · next hin =>
    have hlt : image.index d.x d.y < image.pixels.size := hsize ▸ index_lt hin.1 hin.2
    rw [Overflow.count?_of_lt (Nat.lt_of_lt_of_le hlt hfits)]
    exact if_pos hlt
  · rfl

end Image

theorem Canvas.blank?_eq {o : Overflow} {width height : Nat}
    (hall : width * height * 3 ≤ Word.maxBytes) (background : Color) :
    blank? o width height background = some (blank width height background) := by
  have hmax := Word.maxBytes_lt
  have hcount : o.count? (width * height : Nat) = some (width * height) :=
    Overflow.count?_of_lt (by omega)
  rw [blank?, Image.filled?_eq hall, hcount]
  exact if_pos (by omega)

namespace Painting

open Canvas

variable {o : Overflow} {c : Canvas} {width height : Nat} {background : Color}
  {view : Nat → Nat → Option Color}

/-- A machine visits a pixel of a canvas, since it finds the mark. -/
theorem visit?_eq (d : Drawing Float) (id : Nat) (color : Color)
    (h : c.Shows width height background view) (hfits : width * height ≤ Word.size)
    {cell : Nat × Nat} (hx : cell.1 < width) (hy : cell.2 < height) :
    visit? o d id color c cell = some (visit d id color c cell) := by
  obtain ⟨x, y⟩ := cell
  have hlt : c.image.index x y < Word.size := by
    rw [Image.index, h.columns]
    exact Nat.lt_of_lt_of_le (index_lt hx hy) hfits
  have hmark : c.painted[c.image.index x y]? = some (view x y).isSome := by
    rw [Image.index, h.columns]
    exact h.mark x y hx hy
  have hset : c.set? o ⟨x, y, color⟩ (c.image.index x y) = some (c.set x y color) := by
    have himage : c.image.set? o ⟨x, y, color⟩ = some (c.image.set x y color) :=
      Image.set?_eq (by rw [h.pixelCount, h.columns, h.rows]) (h.pixelCount ▸ hfits)
    rw [set?, himage]
    rfl
  rw [visit?, Overflow.count?_of_lt hlt, Option.bind_eq_bind, Option.bind_some, visit]
  simp only [hmark, hset]
  cases (view x y).isSome with
  | true => rfl
  | false => exact (apply_ite some _ _ _).symm

theorem foldlM_visit?_eq (d : Drawing Float) (id : Nat) (color : Color) {cells : List (Nat × Nat)}
    (hcells : ∀ cell ∈ cells, cell.1 < width ∧ cell.2 < height)
    (h : c.Shows width height background view) (hfits : width * height ≤ Word.size) :
    cells.foldlM (visit? o d id color) c = some (cells.foldl (visit d id color) c) := by
  induction cells generalizing c view with
  | nil => rfl
  | cons cell rest ih =>
    obtain ⟨hx, hy⟩ := hcells cell List.mem_cons_self
    rw [List.foldlM_cons, visit?_eq d id color h hfits hx hy, List.foldl_cons]
    exact ih (fun other hmem => hcells other (List.mem_cons_of_mem _ hmem))
      (shows_visit d id color h hx hy)

/-- A machine gives a shape its turn, since it finds the shape and the marks. -/
theorem turn?_eq (s : Scene) {span? : Nat → Option PixelSpan} {id : Nat} (hid : id < s.drawing.size)
    (hspan : ∀ span ∈ span? id, span.Inside width height)
    (h : c.Shows width height background view) (hfits : width * height ≤ Word.size) :
    turn? o s span? c id = some (turn s span? c id) := by
  have hshape : s.drawing.shapes[id]? = some s.drawing.shapes[id] := Array.getElem?_eq_getElem hid
  rw [turn?, turn, hshape, Option.bind_eq_bind, Option.bind_some, Option.bind_some]
  cases s.drawing.shapes[id].fill with
  | none => rfl
  | some color =>
    cases hspan' : span? id with
    | none => rfl
    | some span =>
      have hcells : ∀ cell ∈ span.cells, cell.1 < width ∧ cell.2 < height := fun cell hmem =>
        (PixelSpan.mem_cells.mp hmem).lt (hspan span hspan')
      exact foldlM_visit?_eq s.drawing id color hcells h hfits

/-- A machine paints what is painted without limits, as long as it can number the pixels, the shapes
that it is to paint are in the drawing, and none of them leads it beyond the edges. -/
theorem run?_eq (s : Scene) {span? : Nat → Option PixelSpan} {turns : List Nat}
    (hturns : ∀ id ∈ turns, id < s.drawing.size)
    (hspan : ∀ id ∈ turns, ∀ span ∈ span? id, span.Inside width height)
    (h : c.Shows width height background view) (hfits : width * height ≤ Word.size) :
    run? o s span? c turns = some (run s span? c turns) := by
  rw [run?, run]
  induction turns generalizing c view with
  | nil => rfl
  | cons id rest ih =>
    have hinside := hspan id List.mem_cons_self
    rw [List.foldlM_cons, turn?_eq s (hturns id List.mem_cons_self) hinside h hfits,
      List.foldl_cons]
    exact ih (fun other hmem => hturns other (List.mem_cons_of_mem _ hmem))
      (fun other hmem => hspan other (List.mem_cons_of_mem _ hmem)) (shows_turn s hinside h)

end Painting

end Easel
