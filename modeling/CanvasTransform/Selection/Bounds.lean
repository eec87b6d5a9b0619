import CanvasTransform.Canvas
import CanvasTransform.Selection.Handle

set_option autoImplicit false

/-! # The box around a selection

The box is upright in the *selection frame*, the page turned by the box's rotation. When all selected
shapes have the same rotation on the page the box takes it and is tight in it; otherwise it is
upright on the page.

`Canvas.aspectLocked` says whether resizing the selection has to keep its aspect ratio. -/

namespace CanvasTransform

/-- A box turned by `rotation`; the rectangle is given in the frame turned with it. -/
structure OrientedBox (α : Type) where
  rect : Rect α
  rotation : α
deriving BEq, DecidableEq

variable {α : Type} [Scalar α]

namespace OrientedBox

/-- The map from the selection frame into the page. -/
def toPage (b : OrientedBox α) : Affine α := Affine.rotate b.rotation

/-- The map from the page into the selection frame. -/
def toFrame (b : OrientedBox α) : Affine α := Affine.rotate (-b.rotation)

def pageCorners (b : OrientedBox α) : List (Point α) := b.rect.corners.map b.toPage.apply

def pageCenter (b : OrientedBox α) : Point α := b.toPage.apply b.rect.center

/-- The place of a resize handle on the page. -/
def handlePosition (b : OrientedBox α) (h : Handle) : Point α := b.toPage.apply (h.positionOn b.rect)

/-- Whether the box is upright on the page. -/
def isUpright (b : OrientedBox α) : Bool := Angle.same b.rotation 0

/-- Whether a page point lies in the box. -/
def contains (b : OrientedBox α) (p : Point α) : Bool := b.rect.contains (b.toFrame.apply p)

end OrientedBox

namespace Canvas

/-- The box around shapes of which none contains another. Shapes without a place on the page do not
    count; there is no box when no shape has one. -/
def selectionBox? (c : Canvas α) (ids : List ShapeId) : Option (OrientedBox α) := do
  let rotations := ids.filterMap fun id => (c.pageRotation id).toOption
  let first ← rotations.head?
  let rotation := if rotations.all (Angle.same · first) then first else 0
  let rect ← Rect.unionAll? (ids.filterMap fun id => (c.boundsInFrame id rotation).toOption)
  return { rect, rotation }

/-- Whether the selection keeps its aspect ratio when it is resized: when a shape in it, at any
    depth, is turned against the selection by other than quarter turns, or is of a kind that always
    scales evenly. -/
def aspectLocked (c : Canvas α) (ids : List ShapeId) (rotation : α) : Bool :=
  (ids.flatMap fun id => id :: c.document.descendants id).any fun id =>
    let askew :=
      match c.pageRotation id with
      | .ok r => !Angle.isQuarterTurn (Angle.delta r rotation)
      | .error _ => false
    let locked :=
      match c.shape id with
      | .ok s => c.registry.isAspectLocked s
      | .error _ => false
    askew || locked

end Canvas

end CanvasTransform
