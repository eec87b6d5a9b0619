import CanvasTransform.Geometry.Angle
import CanvasTransform.Geometry.Vector

set_option autoImplicit false

/-! # Affine maps of the plane

`⟨a, b, c, d, e, f⟩` maps `(x, y)` to `(a x + c y + e, b x + d y + f)`. Composition is written
`A * B` and applies `B` first. The inverse divides by the determinant without looking at it: whether
a map can be inverted is for the caller to ask. -/

namespace CanvasTransform

/-- An affine map of the plane. -/
structure Affine (α : Type) where
  a : α
  b : α
  c : α
  d : α
  e : α
  f : α
deriving BEq, DecidableEq

namespace Affine

variable {α : Type} [Scalar α]

/-! ## Building maps -/

/-- The map that moves nothing. -/
def identity : Affine α := ⟨1, 0, 0, 1, 0, 0⟩

/-- The map that moves every point by `v`. -/
def translate (v : Vec α) : Affine α := ⟨1, 0, 0, 1, v.x, v.y⟩

/-- The turn by `angle` about the origin. -/
def rotate (angle : α) : Affine α :=
  let s := Scalar.sin angle
  let c := Scalar.cos angle
  ⟨c, s, -s, c, 0, 0⟩

/-- The scaling by `sx` along x and by `sy` along y, about the origin. -/
def scale (sx sy : α) : Affine α := ⟨sx, 0, 0, sy, 0, 0⟩

instance : Mul (Affine α) where
  mul s t :=
    { a := s.a * t.a + s.c * t.b
      b := s.b * t.a + s.d * t.b
      c := s.a * t.c + s.c * t.d
      d := s.b * t.c + s.d * t.d
      e := s.a * t.e + s.c * t.f + s.e
      f := s.b * t.e + s.d * t.f + s.f }

/-- The turn by `angle` about `center`. -/
def rotateAbout (angle : α) (center : Point α) : Affine α :=
  translate center.toVec * rotate angle * translate (-center.toVec)

/-- The scaling about `anchor` along the axes of a frame turned by `rotation`. Anchor and factors
    are given in that frame. -/
def scaleAbout (rotation : α) (factors : Vec α) (anchor : Point α) : Affine α :=
  rotate rotation * translate anchor.toVec * scale factors.x factors.y * translate (-anchor.toVec)
    * rotate (-rotation)

/-- The map from the frame of something at `(x, y)` with the given rotation into the frame that
    contains it. -/
def placement (x y rotation : α) : Affine α := translate ⟨x, y⟩ * rotate rotation

/-! ## Using maps -/

/-- The image of a point. -/
def apply (t : Affine α) (p : Point α) : Point α :=
  ⟨t.a * p.x + t.c * p.y + t.e, t.b * p.x + t.d * p.y + t.f⟩

/-- The image of a displacement, which the translation does not touch. -/
def applyVec (t : Affine α) (v : Vec α) : Vec α :=
  ⟨t.a * v.x + t.c * v.y, t.b * v.x + t.d * v.y⟩

/-- The factor by which the map changes areas, negative for a mirroring map. -/
def determinant (t : Affine α) : α := t.a * t.d - t.b * t.c

/-- The map that undoes `t`, for a determinant other than zero. -/
def inverse (t : Affine α) : Affine α :=
  let k := 1 / t.determinant
  { a := k * t.d
    b := -k * t.b
    c := -k * t.c
    d := k * t.a
    e := k * (t.c * t.f - t.d * t.e)
    f := k * (t.b * t.e - t.a * t.f) }

/-- The direction of the image of the x axis, in `[0, 2π)`. -/
def rotation (t : Affine α) : α := Angle.normalize (Scalar.atan2 t.b t.a)

/-- Whether every coefficient is finite. -/
def isFinite (t : Affine α) : Bool :=
  [t.a, t.b, t.c, t.d, t.e, t.f].all Scalar.isFinite

/-- Whether the map can be inverted reliably. -/
def isInvertible (t : Affine α) : Bool :=
  !(decide (Scalar.abs t.determinant ≤ Scalar.epsilon)) && t.isFinite

/-- The factors by which the map stretches the axes, measured in a frame turned by `rotation`. For
    the map `rotate rotation * scale sx sy` they are `sx` and `sy`. -/
def scaleInFrame (t : Affine α) (rotation : α) : Vec α :=
  let xAxis := (t.applyVec ⟨1, 0⟩).rotate (-rotation)
  let yAxis := (t.applyVec ⟨0, 1⟩).rotate (-rotation)
  ⟨xAxis.x, yAxis.y⟩

end Affine

end CanvasTransform
