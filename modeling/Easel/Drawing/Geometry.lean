import Easel.Drawing.Basic

/-! Where a shape lies: the points that it contains and a box around it. A shape that is made from
others is looked up in them. -/

namespace Easel

variable {α : Type} [Scalar α]

/-- On which side of the line through `a` and `b` the point `p` lies, by sign. -/
def Point.side (a b p : Point α) : α := (p.x - b.x) * (a.y - b.y) - (a.x - b.x) * (p.y - b.y)

/-- Whether a triangle contains a point. It does if the point is not on different sides of two
edges; a triangle without area contains nothing. -/
def triangleContains (v0 v1 v2 p : Point α) : Bool :=
  let area := (v1.x - v0.x) * (v2.y - v0.y) - (v2.x - v0.x) * (v1.y - v0.y)
  let sides := [Point.side v0 v1 p, Point.side v1 v2 p, Point.side v2 v0 p]
  if Scalar.le area Scalar.zero && Scalar.le Scalar.zero area then false
  else
    !(sides.any (fun s => Scalar.lt s Scalar.zero) && sides.any (fun s => Scalar.lt Scalar.zero s))

namespace Rule

/-- Whether a shape contains a point. Transformed shapes take the point back to where their target
is. -/
def contains : Rule α (Point α) Bool where
  answer shape p ask :=
    match shape.form with
    | .circle center radius =>
      let v := p - center
      return Scalar.le (v.x * v.x + v.y * v.y) (radius * radius)
    | .ellipse center a b =>
      let v := p - center
      return Scalar.le (Scalar.square (v.x * b) + Scalar.square (v.y * a)) (Scalar.square (a * b))
    | .rectangle center width height =>
      let v := p - center
      return Scalar.le (Scalar.abs v.x) (width / Scalar.nat 2) &&
        Scalar.le (Scalar.abs v.y) (height / Scalar.nat 2)
    | .triangle v0 v1 v2 => return triangleContains v0 v1 v2 p
    | .shifted offset target => ask target (p.shift (-offset))
    | .rotated degrees pivot target => ask target (p.rotate pivot (-degrees))
    | .union members => members.anyM fun member => ask member p
    | .difference base subtrahend => do
      if ← ask base p then return !(← ask subtrahend p) else return false

/-- A box around a shape. What a difference takes away does not make the box larger, and a union of
nothing has the box of the origin. -/
def bounds : Rule α Unit (Box α) where
  answer shape _ ask :=
    match shape.form with
    | .circle center radius => return ⟨center - ⟨radius, radius⟩, center + ⟨radius, radius⟩⟩
    | .ellipse center a b => return ⟨center - ⟨a, b⟩, center + ⟨a, b⟩⟩
    | .rectangle center width height =>
      let half : Point α := ⟨width / Scalar.nat 2, height / Scalar.nat 2⟩
      return ⟨center - half, center + half⟩
    | .triangle v0 v1 v2 => return Box.around v0 [v1, v2]
    | .shifted offset target => return (← ask target ()).shift offset
    | .rotated degrees pivot target => return (← ask target ()).rotate pivot degrees
    | .union members => do
      match ← members.mapM fun member => ask member () with
      | [] => return Box.single Point.origin
      | first :: more => return more.foldl Box.union first
    | .difference base _ => ask base ()

end Rule

namespace Drawing

/-- Whether the shape at a place contains a point. -/
def contains (d : Drawing α) (id : Nat) (p : Point α) : Bool := d.consult .contains false id p

/-- A box around the shape at a place. -/
def bounds (d : Drawing α) (id : Nat) : Box α := d.consult .bounds (.single .origin) id ()

/-- The pixels of a canvas whose centres lie in the box around the shape at a place. -/
def pixelSpan? (d : Drawing α) (id width height : Nat) : Option PixelSpan :=
  (d.bounds id).pixelSpan? width height

end Drawing

end Easel
