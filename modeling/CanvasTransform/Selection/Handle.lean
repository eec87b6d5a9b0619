import CanvasTransform.Geometry.Rect

set_option autoImplicit false

/-! # Handles of a selection

A selection box has a handle at each corner and each edge for resizing, and one for turning. A
resize handle moves the sides that it touches; dragging it leaves the opposite handle where it is. -/

namespace CanvasTransform

inductive Corner
  | topLeft | topRight | bottomLeft | bottomRight
deriving DecidableEq

inductive Edge
  | top | right | bottom | left
deriving DecidableEq

/-- What can be grabbed on a selection box. -/
inductive Handle
  /-- Scales both axes. -/
  | corner (c : Corner)
  /-- Scales one axis. -/
  | edge (e : Edge)
  /-- Turns the selection; it stands above the top edge. -/
  | rotate
deriving DecidableEq

namespace Handle

/-- The corner handles, clockwise from the top left. -/
def corners : List Handle :=
  [.corner .topLeft, .corner .topRight, .corner .bottomRight, .corner .bottomLeft]

/-- The edge handles, clockwise from the top. -/
def edges : List Handle := [.edge .top, .edge .right, .edge .bottom, .edge .left]

/-- The handle across the box. -/
def opposite : Handle → Handle
  | corner .topLeft => corner .bottomRight
  | corner .topRight => corner .bottomLeft
  | corner .bottomRight => corner .topLeft
  | corner .bottomLeft => corner .topRight
  | edge .top => edge .bottom
  | edge .right => edge .left
  | edge .bottom => edge .top
  | edge .left => edge .right
  | rotate => edge .bottom

/-- Whether dragging the handle changes the width. -/
def movesX : Handle → Bool
  | corner _ | edge .left | edge .right => true
  | _ => false

/-- Whether dragging the handle changes the height. -/
def movesY : Handle → Bool
  | corner _ | edge .top | edge .bottom => true
  | _ => false

def isEdge : Handle → Bool
  | edge _ => true
  | _ => false

def isResize (h : Handle) : Bool := h != rotate

variable {α : Type} [Scalar α]

/-- The place of the handle in a box, in fractions of width and height. The rotate handle counts as
    being at the middle of the top edge. -/
def unit : Handle → Vec α
  | corner .topLeft => ⟨0, 0⟩
  | corner .topRight => ⟨1, 0⟩
  | corner .bottomRight => ⟨1, 1⟩
  | corner .bottomLeft => ⟨0, 1⟩
  | edge .top | rotate => ⟨0.5, 0⟩
  | edge .right => ⟨1, 0.5⟩
  | edge .bottom => ⟨0.5, 1⟩
  | edge .left => ⟨0, 0.5⟩

/-- The place of the handle on a rectangle. -/
def positionOn (h : Handle) (r : Rect α) : Point α := r.position h.unit

/-- Whether a point is within `tolerance` of a handle at `position`. -/
def hits (position p : Point α) (tolerance : α) : Bool :=
  let v := p - position
  v.dot v ≤ tolerance * tolerance

end Handle

end CanvasTransform
