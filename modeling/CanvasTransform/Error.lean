import CanvasTransform.Shape.Basic
import CanvasTransform.Text.Uuid

set_option autoImplicit false

/-! # Errors and their wording

`TransformError` says why one shape is left out of a transform; it never stops the transform of the
others. `StoreError` says why the tree of shapes refuses a change. -/

namespace CanvasTransform

/-- Why a shape cannot be transformed. -/
inductive TransformError
  | shapeNotFound (id : ShapeId)
  | invalidGeometry (id : ShapeId)
  | notInvertible (id : ShapeId)
deriving DecidableEq

/-- Why the tree of shapes refuses a change. -/
inductive StoreError
  | parentNotFound (id : ShapeId)
  | duplicateId (id : ShapeId)
  | cycle (id : ShapeId)
deriving DecidableEq

/-- The text shown for a transform error. -/
def TransformError.message : TransformError → String
  | shapeNotFound id => "Shape not found: " ++ Uuid.format id
  | invalidGeometry id => "Transform for shape " ++ Uuid.format id ++ " produced non-finite geometry"
  | notInvertible id => "Transform for shape " ++ Uuid.format id ++ " is not invertible"

/-- The text shown for a store error. -/
def StoreError.message : StoreError → String
  | parentNotFound id => "Parent not found: " ++ Uuid.format id
  | duplicateId id => "Duplicate shape id: " ++ Uuid.format id
  | cycle id => "Parent cycle through shape " ++ Uuid.format id

end CanvasTransform
