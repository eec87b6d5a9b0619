import CanvasTransform.Scalar

set_option autoImplicit false

/-! # Configuration

The tunables of the engine. Distances given in pixels are divided by the camera's zoom before they
are compared with page coordinates, so that they look the same at every zoom. -/

namespace CanvasTransform

/-- Rounding to a grid. -/
structure GridConfig (α : Type) where
  enabled : Bool
  /-- Distance of the grid lines, in page units. -/
  size : α
deriving BEq, DecidableEq

/-- The tunables of the engine. -/
structure Config (α : Type) where
  /-- How near something has to come to snap, in pixels. -/
  snapDistance : α
  /-- How far the pointer moves before a press becomes a drag, in pixels. -/
  dragDistance : α
  /-- The same for coarse pointers such as touch, in pixels. -/
  coarseDragDistance : α
  grid : GridConfig α
  /-- The step of rotations while shift is held, in degrees. -/
  rotationSnapDegrees : α
  /-- How long the cloning indicator stays after alt is released, in milliseconds. -/
  cloneRevertDelay : UInt64
  /-- The radius in which a handle is hit, in pixels. -/
  handleHitTolerance : α
  /-- The distance of the rotate handle from the top edge, in pixels. -/
  rotateHandleOffset : α
deriving BEq, DecidableEq

variable {α : Type} [Scalar α]

/-- No grid; when it is switched on, its lines are 20 apart. -/
def GridConfig.standard : GridConfig α := ⟨false, 20.0⟩

namespace Config

/-- The configuration to start with. -/
def standard : Config α :=
  { snapDistance := 8.0
    dragDistance := 4.0
    coarseDragDistance := 6.0
    grid := GridConfig.standard
    rotationSnapDegrees := 15.0
    cloneRevertDelay := 150
    handleHitTolerance := 8.0
    rotateHandleOffset := 24.0 }

/-- How far a pointer moves before a press becomes a drag, in pixels. -/
def dragThreshold (c : Config α) (coarse : Bool) : α :=
  if coarse then c.coarseDragDistance else c.dragDistance

end Config

end CanvasTransform
