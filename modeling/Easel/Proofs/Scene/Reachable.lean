import Easel.Proofs.Scene.Sound

/-! Scenes that operations lead to. A shape may be made from shapes of the scene only, and only they
are filled; nothing is asked of names, since an operation on a taken name changes nothing. -/

namespace Easel.Scene

variable {s next : Scene}

/-- A scene that a run of operations leads to, from a canvas without anything on it. -/
inductive Reachable : Scene → Prop
  | blank (width height : Nat) : Reachable (.blank width height)
  | shape {s : Scene} (hs : Reachable s) (name : String) (form : Form Float) (position : Position)
      (hearlier : ∀ r ∈ form.references, r < s.drawing.size) :
      Reachable (s.addShape name form position).scene
  | color {s : Scene} (hs : Reachable s) (name : String) (color : Color) (position : Position) :
      Reachable (s.addColor name color position).scene
  | fill {s : Scene} (hs : Reachable s) {id : Nat} (color : Color) (hid : id < s.drawing.size) :
      Reachable (s.fill id color)

theorem Reachable.sound (h : s.Reachable) : s.Sound := by
  induction h with
  | blank width height => exact sound_blank width height
  | shape _ name form position hearlier ih => exact ih.addShape hearlier
  | color _ name color position ih => exact ih.addColor
  | fill _ color hid ih => exact ih.fill hid

/-! ### Statements -/

/-- The shapes that a statement refers to are there. -/
def Fits (s : Scene) : Statement → Prop
  | .shape _ _ form => ∀ r ∈ form.references, r < s.drawing.size
  | .color _ _ _ => True
  | .fill target _ => target < s.drawing.size

theorem Reachable.apply {st : Statement} (h : s.Reachable) (hst : s.Fits st)
    (happly : s.apply st = .ok next) : next.Reachable := by
  cases st with
  | shape name position form =>
    have hnext := h.shape name form position hst
    simp only [Scene.apply, declareShape] at happly
    cases hresult : (s.addShape name form position).result with
    | error first =>
      rw [hresult] at happly
      cases happly
    | ok id =>
      rw [hresult] at happly
      cases happly
      exact hnext
  | color name position color =>
    have hnext := h.color name color position
    simp only [Scene.apply, declareColor] at happly
    cases hresult : (s.addColor name color position).result with
    | error first =>
      rw [hresult] at happly
      cases happly
    | ok _ =>
      rw [hresult] at happly
      cases happly
      exact hnext
  | fill target color =>
    cases happly
    exact h.fill color hst

end Easel.Scene
