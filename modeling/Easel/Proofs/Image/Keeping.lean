import Easel.Image.Painting

/-! What stays on a canvas while a machine paints it. It keeps its measures and all paint that it
has, in a visit, in the turn of a shape and in a whole run. -/

namespace Easel

namespace Canvas

/-- A canvas with the measures of another one, and with paint where the other one has paint. -/
structure Keeps (c c' : Canvas) : Prop where
  columns : c'.image.width = c.image.width
  rows : c'.image.height = c.image.height
  marks : c'.painted.size = c.painted.size
  painted : ∀ number : Nat, c.painted[number]? = some true → c'.painted[number]? = some true

variable {o : Overflow} {c c' : Canvas}

theorem Keeps.refl (c : Canvas) : c.Keeps c := ⟨rfl, rfl, rfl, fun _ => id⟩

theorem Keeps.trans {c'' : Canvas} (h : c.Keeps c') (h' : c'.Keeps c'') : c.Keeps c'' :=
  ⟨h'.columns.trans h.columns, h'.rows.trans h.rows, h'.marks.trans h.marks,
    fun number hpaint => h'.painted number (h.painted number hpaint)⟩

/-- What each step keeps, a run keeps. -/
theorem Keeps.foldlM {β : Type} {step : Canvas → β → Option Canvas}
    (hstep : ∀ (c c' : Canvas) (b : β), step c b = some c' → c.Keeps c') {steps : List β}
    (h : steps.foldlM step c = some c') : c.Keeps c' := by
  induction steps generalizing c with
  | nil =>
    obtain rfl : c = c' := Option.some.inj h
    exact .refl c
  | cons b rest ih =>
    rw [List.foldlM_cons] at h
    obtain ⟨next, hnext, hrest⟩ := Option.bind_eq_some_iff.mp h
    exact (hstep c next b hnext).trans (ih hrest)

end Canvas

theorem Image.measures_set? {o : Overflow} {image image' : Image} {dot : Dot}
    (h : image.set? o dot = some image') :
    image'.width = image.width ∧ image'.height = image.height := by
  unfold set? at h
  split at h
  · obtain ⟨index, -, hset⟩ := Option.bind_eq_some_iff.mp h
    split at hset
    · obtain rfl := Option.some.inj hset
      exact ⟨rfl, rfl⟩
    · cases hset
  · obtain rfl := Option.some.inj h
    exact ⟨rfl, rfl⟩

namespace Canvas

variable {o : Overflow} {c c' : Canvas} {dot : Dot} {number : Nat}

theorem painted_set? (h : c.set? o dot number = some c') :
    c'.painted = c.painted.setIfInBounds number true := by
  obtain ⟨image', -, hset⟩ := Option.bind_eq_some_iff.mp h
  obtain rfl := Option.some.inj hset
  rfl

theorem keeps_set? (h : c.set? o dot number = some c') : c.Keeps c' := by
  have hpainted := painted_set? h
  obtain ⟨image', himage, hset⟩ := Option.bind_eq_some_iff.mp h
  obtain rfl := Option.some.inj hset
  obtain ⟨hcolumns, hrows⟩ := Image.measures_set? himage
  refine ⟨hcolumns, hrows, Array.size_setIfInBounds, fun other hpaint => ?_⟩
  rw [hpainted, Array.getElem?_setIfInBounds]
  split
  · next heq =>
    subst heq
    rw [if_pos (Array.getElem?_eq_some_iff.mp hpaint).1]
  · exact hpaint

end Canvas

namespace Painting

open Canvas

variable {o : Overflow} {d : Drawing Float} {s : Scene} {span? : Nat → Option PixelSpan} {id : Nat}
  {color : Color} {cell : Nat × Nat} {c c' : Canvas}

/-- All that a visit can do: it finds the mark of the pixel and leaves it, or it colours the
pixel. -/
theorem visit?_cases (h : visit? o d id color c cell = some c') :
    ∃ number mark, o.count? (c.image.index cell.1 cell.2 : Nat) = some number ∧
      c.painted[number]? = some mark ∧
      (c' = c ∧ (d.contains id (Point.pixelCenter cell.1 cell.2) = true → mark = true) ∨
        mark = false ∧ d.contains id (Point.pixelCenter cell.1 cell.2) = true ∧
          c.set? o ⟨cell.1, cell.2, color⟩ number = some c') := by
  rw [visit?] at h
  obtain ⟨number, hnumber, hvisit⟩ := Option.bind_eq_some_iff.mp h
  cases hmark : c.painted[number]? with
  | none => simp [hmark] at hvisit
  | some mark =>
    refine ⟨number, mark, hnumber, hmark, ?_⟩
    cases mark with
    | true =>
      simp only [hmark, Option.some.injEq] at hvisit
      exact .inl ⟨hvisit.symm, fun _ => rfl⟩
    | false =>
      simp only [hmark] at hvisit
      split at hvisit
      · next hin => exact .inr ⟨rfl, hin, hvisit⟩
      · next hout => exact .inl ⟨(Option.some.inj hvisit).symm, fun hin => absurd hin hout⟩

/-- All that a turn can do: it finds the shape, and paints its pixels or has none to paint. -/
theorem turn?_cases (h : turn? o s span? c id = some c') :
    ∃ shape, s.drawing.shapes[id]? = some shape ∧
      ((∃ color span, shape.fill = some color ∧ span? id = some span ∧
          span.cells.foldlM (visit? o s.drawing id color) c = some c') ∨
        c' = c ∧ (shape.fill = none ∨ span? id = none)) := by
  obtain ⟨shape, hshape, hturn⟩ := Option.bind_eq_some_iff.mp h
  refine ⟨shape, hshape, ?_⟩
  cases hfill : shape.fill with
  | none =>
    simp only [hfill, Option.some.injEq] at hturn
    exact .inr ⟨hturn.symm, .inl rfl⟩
  | some color =>
    cases hspan : span? id with
    | none =>
      simp only [hfill, hspan, Option.some.injEq] at hturn
      exact .inr ⟨hturn.symm, .inr rfl⟩
    | some span =>
      simp only [hfill, hspan] at hturn
      exact .inl ⟨color, span, rfl, rfl, hturn⟩

theorem keeps_visit? (h : visit? o d id color c cell = some c') : c.Keeps c' := by
  obtain ⟨number, mark, -, -, ⟨rfl, -⟩ | ⟨-, -, hset⟩⟩ := visit?_cases h
  · exact .refl _
  · exact keeps_set? hset

theorem keeps_foldlM_visit? {cells : List (Nat × Nat)}
    (h : cells.foldlM (visit? o d id color) c = some c') : c.Keeps c' :=
  Keeps.foldlM (fun _ _ _ hvisit => keeps_visit? hvisit) h

theorem keeps_turn? (h : turn? o s span? c id = some c') : c.Keeps c' := by
  obtain ⟨shape, -, ⟨color, span, -, -, hpaint⟩ | ⟨rfl, -⟩⟩ := turn?_cases h
  · exact keeps_foldlM_visit? hpaint
  · exact .refl _

theorem keeps_run? {turns : List Nat} (h : run? o s span? c turns = some c') : c.Keeps c' :=
  Keeps.foldlM (fun _ _ _ hturn => keeps_turn? hturn) h

end Painting

end Easel
