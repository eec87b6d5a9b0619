import CanvasTransform.Behaviour.Registry
import CanvasTransform.Error

set_option autoImplicit false

/-! # The canvas: geometry of a document

A canvas is a document read through a registry. It answers where shapes are: in their own frame, in
their parent's frame and on the page. Nothing is remembered between questions, so an answer always
reflects the document at hand.

A shape has a page transform when its chain of parents is unbroken and not too long; without one,
questions about its place on the page answer `shapeNotFound`. -/

namespace CanvasTransform

/-- A document and the behaviours of its shapes. -/
structure Canvas (α : Type) where
  document : Document α
  registry : Registry α

namespace Canvas

variable {α : Type} [Scalar α]

def shape (c : Canvas α) (id : ShapeId) : Except TransformError (Shape α) :=
  match c.document.get? id with
  | some s => .ok s
  | none => .error (.shapeNotFound id)

/-! ## Frames -/

/-- The map from the shape's frame into its parent's. -/
def localTransform (c : Canvas α) (id : ShapeId) : Except TransformError (Affine α) :=
  (c.shape id).map (·.localTransform)

/-- The map from the shape's frame into the page. -/
def pageTransform (c : Canvas α) (id : ShapeId) : Except TransformError (Affine α) :=
  match c.document.pageTransform? id with
  | some t => .ok t
  | none => .error (.shapeNotFound id)

/-- The map from the frame of the shape's parent into the page. -/
def parentPageTransform (c : Canvas α) (id : ShapeId) : Except TransformError (Affine α) := do
  match (← c.shape id).parent with
  | .page => pure Affine.identity
  | .shape parent => c.pageTransform parent

/-- The rotation of the shape's x axis on the page. -/
def pageRotation (c : Canvas α) (id : ShapeId) : Except TransformError α :=
  (c.pageTransform id).map (·.rotation)

/-! ## Bounds -/

/-- Bounds in the shape's own frame. -/
def localBounds (c : Canvas α) (id : ShapeId) : Except TransformError (Rect α) :=
  (c.shape id).map (c.registry.bounds c.document)

/-- The corners of the local bounds on the page: top left, top right, bottom right, bottom left. -/
def pageCorners (c : Canvas α) (id : ShapeId) : Except TransformError (List (Point α)) := do
  let toPage ← c.pageTransform id
  return (← c.localBounds id).corners.map toPage.apply

/-- Upright bounds on the page. -/
def pageBounds (c : Canvas α) (id : ShapeId) : Except TransformError (Rect α) := do
  let toPage ← c.pageTransform id
  return (← c.localBounds id).transformedBounds toPage

/-- The tight bounds in the page frame turned by `rotation`. -/
def boundsInFrame (c : Canvas α) (id : ShapeId) (rotation : α) :
    Except TransformError (Rect α) := do
  let toFrame := Affine.rotate (-rotation)
  match Rect.boundsOf? ((← c.pageCorners id).map toFrame.apply) with
  | some r => pure r
  | none => throw (.invalidGeometry id)

/-- The points that the shape offers for alignment: those of its upright bounds and its own. -/
def pageSnapPoints (c : Canvas α) (id : ShapeId) : Except TransformError (List (Point α)) := do
  let s ← c.shape id
  let toPage ← c.pageTransform id
  return (← c.pageBounds id).snapPoints ++ (c.registry.snapPoints s).map toPage.apply

end Canvas

end CanvasTransform
