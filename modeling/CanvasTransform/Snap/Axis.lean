import CanvasTransform.Geometry.Rect

set_option autoImplicit false

/-! # Axes

Snapping treats the two axes alike and apart. `Axis` lets a rule be written once for both; `Axes`
says which of them may move and snap. -/

namespace CanvasTransform

inductive Axis
  | x | y
deriving DecidableEq

/-- A choice of axes. -/
structure Axes where
  x : Bool
  y : Bool
deriving DecidableEq

def Axes.both : Axes := ⟨true, true⟩

def Axes.enabled (axes : Axes) : Axis → Bool
  | .x => axes.x
  | .y => axes.y

namespace Axis

/-- The other axis. -/
def cross : Axis → Axis
  | x => y
  | y => x

variable {α : Type} [Scalar α]

/-- The coordinate of a point along the axis. -/
def coord (axis : Axis) (p : Point α) : α :=
  match axis with
  | x => p.x
  | y => p.y

/-- The least coordinate of a rectangle along the axis: its near side. -/
def near (axis : Axis) (r : Rect α) : α :=
  match axis with
  | x => r.minX
  | y => r.minY

/-- The greatest coordinate of a rectangle along the axis: its far side. -/
def far (axis : Axis) (r : Rect α) : α :=
  match axis with
  | x => r.maxX
  | y => r.maxY

/-- The point with the given coordinates along and across the axis. -/
def point (axis : Axis) (along across : α) : Point α :=
  match axis with
  | x => ⟨along, across⟩
  | y => ⟨across, along⟩

/-- The displacement along the axis. -/
def vec (axis : Axis) (length : α) : Vec α :=
  match axis with
  | x => ⟨length, 0⟩
  | y => ⟨0, length⟩

end Axis

end CanvasTransform
