import CanvasTransform.Codec.Basic
import CanvasTransform.Config
import CanvasTransform.Json.Parser
import CanvasTransform.Json.Printer

set_option autoImplicit false

/-! # The configuration as JSON

A configuration file names the settings that differ from the standard; what it leaves out keeps its
standard value. It is written in full, over several lines. -/

namespace CanvasTransform

variable {α : Type} [Scalar α] [Codec α]

instance : Codec (GridConfig α) where
  toJson g := .record [("enabled", toJson g.enabled), ("size", toJson g.size)]
  ofJson? j := do
    let [enabled, size] ← j.slots? ["enabled", "size"] | none
    let standard : GridConfig α := GridConfig.standard
    return ⟨← enabled.withDefault? standard.enabled, ← size.withDefault? standard.size⟩

instance : Codec (Config α) where
  toJson c :=
    .record [("snap_distance", toJson c.snapDistance), ("drag_distance", toJson c.dragDistance),
      ("coarse_drag_distance", toJson c.coarseDragDistance), ("grid", toJson c.grid),
      ("rotation_snap_degrees", toJson c.rotationSnapDegrees),
      ("clone_revert_delay_ms", toJson c.cloneRevertDelay),
      ("handle_hit_tolerance", toJson c.handleHitTolerance),
      ("rotate_handle_offset", toJson c.rotateHandleOffset)]
  ofJson? j := do
    let [snap, drag, coarseDrag, grid, rotationSnap, cloneRevert, hitTolerance, rotateOffset] ←
      j.slots? ["snap_distance", "drag_distance", "coarse_drag_distance", "grid",
        "rotation_snap_degrees", "clone_revert_delay_ms", "handle_hit_tolerance",
        "rotate_handle_offset"] | none
    let standard : Config α := Config.standard
    return {
      snapDistance := ← snap.withDefault? standard.snapDistance
      dragDistance := ← drag.withDefault? standard.dragDistance
      coarseDragDistance := ← coarseDrag.withDefault? standard.coarseDragDistance
      grid := ← grid.withDefault? standard.grid
      rotationSnapDegrees := ← rotationSnap.withDefault? standard.rotationSnapDegrees
      cloneRevertDelay := ← cloneRevert.withDefault? standard.cloneRevertDelay
      handleHitTolerance := ← hitTolerance.withDefault? standard.handleHitTolerance
      rotateHandleOffset := ← rotateOffset.withDefault? standard.rotateHandleOffset }

/-- The text of a configuration. -/
def Config.toText (c : Config α) : String := (toJson c).pretty

/-- The configuration that a text spells. -/
def Config.ofText? (text : String) : Option (Config α) := (Json.parse? text).bind ofJson?

end CanvasTransform
