import CanvasTransform.Selection.Snapshot
import CanvasTransform.Snap.Grid
import CanvasTransform.Transform.Outcome

set_option autoImplicit false

/-! # Turning a selection

A rotation turns the selection about its center. Only the top-level shapes are written; what is
below them keeps its place in its parent and is carried along. -/

namespace CanvasTransform

variable {α : Type} [Scalar α]

/-- The angle that the pointer swept around `center` on its way from `start` to `current`. With an
    increment in degrees, the rotation that the selection ends up with, starting from `initial`, is a
    multiple of it, and the angle is the shortest turn there. -/
def sweptAngle (center start current : Point α) (initial : α) (increment : Option α) : α :=
  let swept := (current - center).direction - (start - center).direction
  match increment with
  | none => swept
  | some step =>
    let total := Scalar.toRadians (Snap.toIncrement (Scalar.toDegrees (initial + swept)) step)
    Angle.delta total initial

namespace Member

/-- The patch that makes the member's page transform `t` after its captured one, for a rigid `t`. -/
def turn (m : Member α) (t : Affine α) : Except TransformError (Patch α) :=
  let target := m.parentPageTransform.inverse * t * m.pageTransform
  if target.isFinite then
    let origin := target.apply Point.origin
    .ok ((Patch.position m.shape.id origin.x origin.y).withRotation target.rotation)
  else .error (.invalidGeometry m.shape.id)

end Member

namespace Snapshot

/-- Turn every top-level shape about `center`. -/
def turn (s : Snapshot α) (d : Document α) (center : Point α) (angle : α) : Outcome α :=
  let t := Affine.rotateAbout angle center
  .concat (s.topLevel.map fun id =>
    match s.get? id with
    | none => .empty
    | some m => if d.contains id then .ofExcept (m.turn t) else .skip (.shapeNotFound id))

end Snapshot

end CanvasTransform
