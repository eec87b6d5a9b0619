import CanvasTransform.Document.Basic

set_option autoImplicit false

/-! # What a kind of shape does

A `Behaviour` is the table of operations through which the engine treats shapes of a kind. Bounds
and refits may depend on other shapes, so they are given the document and a function for the bounds
of any shape in it; the recursion over the tree is closed in one place, by the registry. -/

namespace CanvasTransform

/-- What a resize asks of one shape. -/
structure Placement (α : Type) where
  /-- Signed factors along the shape's own axes. -/
  scale : Vec α
  /-- Where the shape's origin comes to lie in the parent's frame when the factors are applied
      literally, before a mirrored shape makes up for its flip. -/
  origin : Point α
  /-- Rotation relative to the parent after the resize. It differs from the shape's own only when
      the resize mirrors a shape that is not aligned with the selection. -/
  rotation : α
deriving DecidableEq

/-- The operations of a kind of shape. -/
structure Behaviour (α : Type) where
  /-- Bounds in the shape's own frame, given the document and the bounds of the shapes in it. -/
  bounds : Document α → (Shape α → Rect α) → Shape α → Rect α
  /-- The patch that resizes the shape. -/
  resize : Shape α → Placement α → Patch α
  /-- Whether the shape changes size at all; if not, a resize only moves it. -/
  canResize : Shape α → Bool
  /-- Whether every selection with the shape in it keeps its aspect ratio. -/
  isAspectLocked : Shape α → Bool
  /-- The patches that the shape asks for after its children changed. -/
  refit : Document α → (Shape α → Rect α) → Shape α → List (Patch α)
  /-- Points for alignment in the shape's own frame, besides corners and center of its box. -/
  snapPoints : Shape α → List (Point α)

namespace Placement

variable {α : Type} [Scalar α]

/-- How far the origin moves so that a box of the given extent, mirrored through its origin, has its
    origin at the top left again. -/
def flipOffset (p : Placement α) (extent : Vec α) : Vec α :=
  ⟨if p.scale.x < 0 then -extent.x else 0, if p.scale.y < 0 then -extent.y else 0⟩

/-- The origin of a box that has the given extent after the resize. -/
def boxOrigin (p : Placement α) (extent : Vec α) : Point α :=
  p.origin + (p.flipOffset extent).rotate p.rotation

/-- The extent of a box after the resize, not negative for a box that was not. -/
def scaledExtent (p : Placement α) (extent : Vec α) : Vec α :=
  ⟨extent.x * Scalar.abs p.scale.x, extent.y * Scalar.abs p.scale.y⟩

/-- The patch that moves `s` to `origin`, and turns it if the resize does. -/
def moveTo (p : Placement α) (s : Shape α) (origin : Point α) : Patch α :=
  let moved := Patch.position s.id origin.x origin.y
  if Angle.same s.rotation p.rotation then moved else moved.withRotation p.rotation

end Placement

end CanvasTransform
