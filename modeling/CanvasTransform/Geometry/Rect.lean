import CanvasTransform.Geometry.Affine

set_option autoImplicit false

/-! # Rectangles

A rectangle is given by two opposite corners, kept as they are: `x1` may lie left of `x0`. `minX`,
`maxX` and their like read the sides in order; `corners`, `width` and `position` read them as
given. -/

namespace CanvasTransform

/-- The rectangle between the corners `(x0, y0)` and `(x1, y1)`. -/
structure Rect (α : Type) where
  x0 : α
  y0 : α
  x1 : α
  y1 : α
deriving BEq, DecidableEq

namespace Rect

variable {α : Type} [Scalar α]

/-- The rectangle that is only the origin. -/
def zero : Rect α := ⟨0, 0, 0, 0⟩

/-- The smallest rectangle with both points in it. -/
def ofPoints (p q : Point α) : Rect α :=
  ⟨Scalar.min p.x q.x, Scalar.min p.y q.y, Scalar.max p.x q.x, Scalar.max p.y q.y⟩

/-! ## Sides and points -/

def width (r : Rect α) : α := r.x1 - r.x0
def height (r : Rect α) : α := r.y1 - r.y0
def minX (r : Rect α) : α := Scalar.min r.x0 r.x1
def maxX (r : Rect α) : α := Scalar.max r.x0 r.x1
def minY (r : Rect α) : α := Scalar.min r.y0 r.y1
def maxY (r : Rect α) : α := Scalar.max r.y0 r.y1

/-- The corner `(x0, y0)`. -/
def origin (r : Rect α) : Point α := ⟨r.x0, r.y0⟩

def center (r : Rect α) : Point α := ⟨0.5 * (r.x0 + r.x1), 0.5 * (r.y0 + r.y1)⟩

/-- The point at the given fractions of the width and the height. -/
def position (r : Rect α) (unit : Vec α) : Point α :=
  ⟨r.x0 + unit.x * r.width, r.y0 + unit.y * r.height⟩

/-- The corners in order: top left, top right, bottom right, bottom left. -/
def corners (r : Rect α) : List (Point α) :=
  [⟨r.x0, r.y0⟩, ⟨r.x1, r.y0⟩, ⟨r.x1, r.y1⟩, ⟨r.x0, r.y1⟩]

/-- The points a box offers for alignment: its corners and its center. -/
def snapPoints (r : Rect α) : List (Point α) := r.corners ++ [r.center]

/-- The least, middle and greatest x coordinate. -/
def xs (r : Rect α) : List α := [r.minX, r.center.x, r.maxX]

/-- The least, middle and greatest y coordinate. -/
def ys (r : Rect α) : List α := [r.minY, r.center.y, r.maxY]

/-! ## Operations -/

instance : HAdd (Rect α) (Vec α) (Rect α) :=
  ⟨fun r v => ⟨r.x0 + v.x, r.y0 + v.y, r.x1 + v.x, r.y1 + v.y⟩⟩

/-- The rectangle grown by `margin` on every side. -/
def expand (r : Rect α) (margin : α) : Rect α :=
  ⟨r.x0 - margin, r.y0 - margin, r.x1 + margin, r.y1 + margin⟩

/-- The smallest rectangle around both. -/
def union (r s : Rect α) : Rect α :=
  ⟨Scalar.min r.x0 s.x0, Scalar.min r.y0 s.y0, Scalar.max r.x1 s.x1, Scalar.max r.y1 s.y1⟩

/-- The smallest rectangle around `r` and the point. -/
def unionPoint (r : Rect α) (p : Point α) : Rect α :=
  ⟨Scalar.min r.x0 p.x, Scalar.min r.y0 p.y, Scalar.max r.x1 p.x, Scalar.max r.y1 p.y⟩

/-- The smallest rectangle around a list of rectangles, if there is one. -/
def unionAll? : List (Rect α) → Option (Rect α)
  | [] => none
  | r :: rest => some (rest.foldl union r)

/-- The smallest rectangle around a list of points, if there is one. -/
def boundsOf? : List (Point α) → Option (Rect α)
  | [] => none
  | p :: rest => some (rest.foldl unionPoint (ofPoints p p))

/-- Whether the point lies inside or on an edge. -/
def contains (r : Rect α) (p : Point α) : Bool :=
  r.minX ≤ p.x && p.x ≤ r.maxX && r.minY ≤ p.y && p.y ≤ r.maxY

/-- Whether two rectangles share any area or edge. -/
def overlaps (r s : Rect α) : Bool :=
  r.minX ≤ s.maxX && s.minX ≤ r.maxX && r.minY ≤ s.maxY && s.minY ≤ r.maxY

/-- The smallest upright rectangle around the image of the corners. Opposite corners come first, so
    that they span the box before the other two extend it. -/
def transformedBounds (r : Rect α) (t : Affine α) : Rect α :=
  let topLeft := t.apply ⟨r.x0, r.y0⟩
  let topRight := t.apply ⟨r.x1, r.y0⟩
  let bottomRight := t.apply ⟨r.x1, r.y1⟩
  let bottomLeft := t.apply ⟨r.x0, r.y1⟩
  ((ofPoints topLeft bottomRight).unionPoint topRight).unionPoint bottomLeft

end Rect

end CanvasTransform
