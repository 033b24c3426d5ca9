import Easel.Proofs.Image.Keeping
import Easel.Proofs.Image.Painter

/-! Filling a shape again. A turn of a shape leaves none of the pixels unpainted that the shape
colours, and no later turn takes paint away, so a second turn of the same shape finds nothing to do.
Of the turns that a shape has in the list of fills only the topmost one counts, although the fill
that comes last decides on the colour. A machine that stops before the picture is finished stops
with either list. -/

namespace Easel

/-! ### Turns -/

namespace Painting

open Canvas

variable {o : Overflow} {s : Scene} {span? : Nat → Option PixelSpan} {c c' : Canvas} {id : Nat}
  {d : Drawing Float} {color : Color} {cell : Nat × Nat}

/-- A shape is done with a pixel if the mark of the pixel is found, and is one of paint where the
shape contains the centre. -/
def Done (o : Overflow) (d : Drawing Float) (id : Nat) (c : Canvas) (cell : Nat × Nat) : Prop :=
  ∃ number mark, o.count? (c.image.index cell.1 cell.2 : Nat) = some number ∧
    c.painted[number]? = some mark ∧
    (d.contains id (Point.pixelCenter cell.1 cell.2) = true → mark = true)

theorem Done.keep (h : Done o d id c cell) (hkeeps : c.Keeps c') : Done o d id c' cell := by
  obtain ⟨number, mark, hnumber, hmark, hin⟩ := h
  have hindex : c'.image.index cell.1 cell.2 = c.image.index cell.1 cell.2 := by
    rw [Image.index, Image.index, hkeeps.columns]
  have hlt : number < c'.painted.size := hkeeps.marks ▸ (Array.getElem?_eq_some_iff.mp hmark).1
  refine ⟨number, c'.painted[number], by rw [hindex, hnumber], Array.getElem?_eq_getElem hlt,
    fun hcontains => ?_⟩
  have hpaint : c.painted[number]? = some true := by rw [hmark, hin hcontains]
  exact (Array.getElem?_eq_some_iff.mp (hkeeps.painted number hpaint)).2

/-- The visit of a pixel that the shape is done with changes nothing. -/
theorem visit?_of_done (h : Done o d id c cell) (color : Color) :
    visit? o d id color c cell = some c := by
  obtain ⟨number, mark, hnumber, hmark, hin⟩ := h
  rw [visit?, hnumber, Option.bind_eq_bind, Option.bind_some]
  cases mark with
  | true => simp only [hmark]
  | false =>
    simp only [hmark]
    exact if_neg fun hcontains => Bool.noConfusion (hin hcontains)

/-- A shape is done with a pixel after its visit. -/
theorem done_visit? (h : visit? o d id color c cell = some c') : Done o d id c' cell := by
  obtain ⟨number, mark, hnumber, hmark, ⟨rfl, hin⟩ | ⟨-, -, hset⟩⟩ := visit?_cases h
  · exact ⟨number, mark, hnumber, hmark, hin⟩
  · have hindex : c'.image.index cell.1 cell.2 = c.image.index cell.1 cell.2 := by
      rw [Image.index, Image.index, (keeps_set? hset).columns]
    refine ⟨number, true, by rw [hindex, hnumber], ?_, fun _ => rfl⟩
    rw [painted_set? hset, Array.getElem?_setIfInBounds_self,
      if_pos (Array.getElem?_eq_some_iff.mp hmark).1]

theorem done_foldlM_visit? {cells : List (Nat × Nat)}
    (h : cells.foldlM (visit? o d id color) c = some c') : ∀ cell ∈ cells, Done o d id c' cell := by
  induction cells generalizing c with
  | nil => exact fun _ hmem => absurd hmem List.not_mem_nil
  | cons first rest ih =>
    rw [List.foldlM_cons] at h
    obtain ⟨next, hfirst, hrest⟩ := Option.bind_eq_some_iff.mp h
    exact List.forall_mem_cons.mpr
      ⟨(done_visit? hfirst).keep (keeps_foldlM_visit? hrest), ih hrest⟩

/-- A shape is settled on a canvas if it is there and done with all of its pixels. -/
def Settled (o : Overflow) (s : Scene) (span? : Nat → Option PixelSpan) (c : Canvas) (id : Nat) :
    Prop :=
  ∃ shape, s.drawing.shapes[id]? = some shape ∧
    ∀ color span, shape.fill = some color → span? id = some span →
      ∀ cell ∈ span.cells, Done o s.drawing id c cell

theorem Settled.keep (h : Settled o s span? c id) (hkeeps : c.Keeps c') :
    Settled o s span? c' id := by
  obtain ⟨shape, hshape, hdone⟩ := h
  exact ⟨shape, hshape, fun color span hfill hspan cell hcell =>
    (hdone color span hfill hspan cell hcell).keep hkeeps⟩

/-- The turn of a settled shape changes nothing. -/
theorem turn?_of_settled (h : Settled o s span? c id) : turn? o s span? c id = some c := by
  obtain ⟨shape, hshape, hdone⟩ := h
  rw [turn?, hshape, Option.bind_eq_bind, Option.bind_some]
  split
  · next color span hfill hspan =>
    have hcells := hdone color span hfill hspan
    rw [paint?]
    generalize span.cells = cells at hcells
    induction cells with
    | nil => rfl
    | cons first rest ih =>
      obtain ⟨hfirst, hrest⟩ := List.forall_mem_cons.mp hcells
      rw [List.foldlM_cons, visit?_of_done hfirst]
      exact ih hrest
  · rfl

/-- A shape is settled once it has had its turn. -/
theorem settled_turn? (h : turn? o s span? c id = some c') : Settled o s span? c' id := by
  obtain ⟨shape, hshape, hturn⟩ := turn?_cases h
  refine ⟨shape, hshape, fun color span hfill hspan => ?_⟩
  rcases hturn with ⟨color', span', -, hspan', hpaint⟩ | ⟨-, hnone | hnone⟩
  · obtain rfl : span = span' := Option.some.inj (hspan.symm.trans hspan')
    exact done_foldlM_visit? hpaint
  · rw [hfill] at hnone
    cases hnone
  · rw [hspan] at hnone
    cases hnone

theorem settled_run? {turns : List Nat} (hid : id ∈ turns)
    (h : run? o s span? c turns = some c') : Settled o s span? c' id := by
  obtain ⟨before, after, rfl⟩ := List.append_of_mem hid
  rw [run?, List.foldlM_append] at h
  obtain ⟨c₁, -, hrest⟩ := Option.bind_eq_some_iff.mp h
  rw [List.foldlM_cons] at hrest
  obtain ⟨c₂, hturn, hafter⟩ := Option.bind_eq_some_iff.mp hrest
  exact (settled_turn? hturn).keep (keeps_run? hafter)

/-- A shape that has had a turn may have a last one in addition. -/
theorem run?_append_again (o : Overflow) (s : Scene) (span? : Nat → Option PixelSpan) (c : Canvas)
    {turns : List Nat} (hid : id ∈ turns) :
    run? o s span? c (turns ++ [id]) = run? o s span? c turns := by
  have happend : run? o s span? c (turns ++ [id]) =
      (run? o s span? c turns).bind (turn? o s span? · id) := by
    rw [run?, List.foldlM_append]
    exact Option.bind_congr fun c' _ => by rw [List.foldlM_cons]; simp
  rw [happend]
  cases hrun : run? o s span? c turns with
  | none => rfl
  | some c' => exact turn?_of_settled (settled_run? hid hrun)

/-- The turns of a settled shape may be left out. -/
theorem run?_filter_of_settled (h : Settled o s span? c id) (turns : List Nat) :
    run? o s span? c (turns.filter (· ≠ id)) = run? o s span? c turns := by
  unfold run?
  induction turns generalizing c with
  | nil => rfl
  | cons other rest ih =>
    rcases Decidable.em (other = id) with rfl | hne
    · rw [List.filter_cons_of_neg (by simp), List.foldlM_cons, turn?_of_settled h]
      exact ih h
    · rw [List.filter_cons_of_pos (by simpa using hne), List.foldlM_cons, List.foldlM_cons]
      exact Option.bind_congr fun c' hturn => ih (h.keep (keeps_turn? hturn))

end Painting

/-! ### Boxes -/

namespace Drawing

variable {α : Type}

/-- A colour does not change how a shape answers, if the rule looks at its form alone. -/
theorem consult_setFill {ι β : Type} {rule : Rule α ι β}
    (hrule : ∀ (shape : Shape α) (color : Option Color) (input : ι) (ask : Nat → ι → Id β),
      rule.answer { shape with fill := color } input ask = rule.answer shape input ask)
    (d : Drawing α) (target : Nat) (color : Color) (nothing : β) (id : Nat) (input : ι) :
    (d.setFill target color).consult rule nothing id input = d.consult rule nothing id input := by
  induction id using Nat.strongRecOn generalizing input with
  | ind id ih =>
    have hask : (fun r i => (pure (if r < id then
          (d.setFill target color).consult rule nothing r i else nothing) : Id β)) =
        fun r i => pure (if r < id then d.consult rule nothing r i else nothing) := by
      funext r i
      split
      · next hlt => rw [ih r hlt i]
      · rfl
    rw [consult, consult, hask, setFill, Array.getElem?_modify]
    by_cases hhere : target = id
    · rw [if_pos hhere]
      cases d.shapes[id]? with
      | none => rfl
      | some shape => exact congrArg Id.run (hrule shape (some color) input _)
    · rw [if_neg hhere]

theorem bounds_setFill [Scalar α] (d : Drawing α) (target : Nat) (color : Color) (id : Nat) :
    (d.setFill target color).bounds id = d.bounds id :=
  consult_setFill (fun _ _ _ _ => rfl) d target color _ id ()

end Drawing

/-! ### Pictures -/

namespace Scene

/-- The scene where a shape has another colour, and its turns as before. -/
def recolor (s : Scene) (id : Nat) (color : Color) : Scene :=
  { s with drawing := s.drawing.setFill id color }

/-- The scene where a shape has one turn, behind those of all other shapes. -/
def relist (s : Scene) (id : Nat) : Scene :=
  { s with fills := (s.fills.filter (· ≠ id)).push id }

theorem fill_eq_list_recolor (s : Scene) (id : Nat) (color : Color) :
    s.fill id color = (s.recolor id color).list id := rfl

variable {s : Scene} {id : Nat}

/-- If the first fills are on top, it does not matter that a shape is listed again. -/
theorem picture?_list_first (o : Overflow) (h : id ∈ s.fills) (background : Color) :
    (s.list id).picture? o .first background = s.picture? o .first background := by
  have hturns : Precedence.first.turns (s.list id).fills = s.fills.toList ++ [id] :=
    Array.toList_push
  have hrun : ∀ c, Painting.run? o (s.list id) s.span? c (s.fills.toList ++ [id]) =
      Painting.run? o s s.span? c s.fills.toList := fun c =>
    Painting.run?_append_again o s s.span? c (Array.mem_toList_iff.mpr h)
  rw [picture?, picture?, hturns]
  exact Option.bind_congr fun c _ => congrArg (·.bind fun after => some after.image) (hrun c)

/-- If the last fills are on top, it does not matter that a shape was listed before. -/
theorem picture?_list_last (o : Overflow) (s : Scene) (id : Nat) (background : Color) :
    (s.list id).picture? o .last background = (s.relist id).picture? o .last background := by
  have hturns : Precedence.last.turns (s.list id).fills = id :: s.fills.toList.reverse := by
    simp [Precedence.turns, list]
  have hturns' : Precedence.last.turns (s.relist id).fills =
      id :: s.fills.toList.reverse.filter (· ≠ id) := by
    simp [Precedence.turns, relist]
  have hrun : ∀ c, Painting.run? o (s.list id) s.span? c (id :: s.fills.toList.reverse) =
      Painting.run? o s s.span? c (id :: s.fills.toList.reverse.filter (· ≠ id)) := fun c =>
    Option.bind_congr fun c' hturn =>
      (Painting.run?_filter_of_settled (Painting.settled_turn? hturn) s.fills.toList.reverse).symm
  rw [picture?, picture?, hturns, hturns']
  exact Option.bind_congr fun c _ => congrArg (·.bind fun after => some after.image) (hrun c)

theorem span?_fill (s : Scene) (id : Nat) (color : Color) : (s.fill id color).span? = s.span? := by
  funext other
  exact congrArg (Box.pixelSpan? · s.width s.height) (s.drawing.bounds_setFill id color other)

/-- Where there is a shape for each fill, one of them may be filled again. -/
theorem Holdable.fill (hs : s.Holdable) (h : id ∈ s.fills) (color : Color) :
    (s.fill id color).Holdable where
  pixels := hs.pixels
  listed other hmem := by
    have hsize : (s.fill id color).drawing.size = s.drawing.size := Array.size_modify
    rw [hsize]
    rcases Array.mem_push.mp hmem with hother | rfl
    · exact hs.listed other hother
    · exact hs.listed other h

theorem SpansInside.fill (hs : s.SpansInside) (h : id ∈ s.fills) (color : Color) :
    (s.fill id color).SpansInside := by
  intro other hmem span hspan
  rw [span?_fill] at hspan
  rcases Array.mem_push.mp hmem with hother | rfl
  · exact hs other hother span hspan
  · exact hs other h span hspan

/-- A shape that is filled again changes its colour. It keeps its turn if the first fills are on
top, and if the last ones are, its turn is the one that comes with the new colour. There is a
picture if the machine can hold it. -/
theorem picture?_fill_again (o : Overflow) (s : Scene) {id : Nat} (h : id ∈ s.fills)
    (color background : Color) :
    (s.fill id color).picture? o .first background =
      (s.recolor id color).picture? o .first background ∧
    (s.fill id color).picture? o .last background =
      ((s.recolor id color).relist id).picture? o .last background ∧
    (s.Holdable → s.SpansInside →
      ∀ order, ((s.fill id color).picture? o order background).isSome) := by
  have hlisted : id ∈ (s.recolor id color).fills := h
  refine ⟨?_, ?_, fun hholdable hinside order => ?_⟩
  · rw [fill_eq_list_recolor]
    exact picture?_list_first o hlisted background
  · rw [fill_eq_list_recolor]
    exact picture?_list_last o _ id background
  · rw [picture?_eq o order background (hholdable.fill h color) (hinside.fill h color)]
    rfl

theorem overlapping_fill_again : 0 ∈ overlapping.fills ∧
    ∃ image, (overlapping.fill 0 ⟨0, 255, 0⟩).picture? .stops .last .black = some image ∧
      ((overlapping.recolor 0 ⟨0, 255, 0⟩).relist 0).picture? .stops .last .black = some image := by
  have hlisted : 0 ∈ overlapping.fills := by decide +kernel
  obtain ⟨-, hlast, hsome⟩ :=
    picture?_fill_again .stops overlapping hlisted ⟨0, 255, 0⟩ .black
  obtain ⟨image, himage⟩ := Option.isSome_iff_exists.mp
    (hsome ⟨by decide, by decide +kernel⟩ (by decide +kernel) .last)
  exact ⟨hlisted, image, himage, hlast.symm.trans himage⟩

end Scene

end Easel
