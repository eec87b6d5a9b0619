import CanvasTransform.Snap.Axis

set_option autoImplicit false

/-! # Snap lines

What the user is shown when something snaps: the points that share a coordinate, or the gaps that
are equally wide. -/

namespace CanvasTransform

/-- Along which axis a gap separates two shapes. -/
inductive GapDirection
  | horizontal | vertical
deriving DecidableEq

/-- Gaps along an axis run in this direction. -/
def Axis.direction : Axis → GapDirection
  | .x => .horizontal
  | .y => .vertical

/-- One gap, drawn as the two edges that face each other. Each edge is given by its ends. -/
structure GapIndicator (α : Type) where
  startEdge : Point α × Point α
  endEdge : Point α × Point α
deriving DecidableEq

/-- What a snap shows. -/
inductive SnapLine (α : Type)
  /-- Points that share one coordinate, sorted along the line. -/
  | points (points : List (Point α))
  /-- Gaps of equal width. -/
  | gaps (direction : GapDirection) (gaps : List (GapIndicator α))
deriving DecidableEq

/-- The gap from the far side of one rectangle to the near side of another, as wide as what they
    share across the axis. -/
def GapIndicator.between {α : Type} [Scalar α] (axis : Axis) (first second : Rect α) : GapIndicator α :=
  let low := Scalar.max (axis.cross.near first) (axis.cross.near second)
  let high := Scalar.min (axis.cross.far first) (axis.cross.far second)
  let start := axis.far first
  let stop := axis.near second
  { startEdge := (axis.point start low, axis.point start high)
    endEdge := (axis.point stop low, axis.point stop high) }

end CanvasTransform
