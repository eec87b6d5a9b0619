import CanvasTransform.Selection.Snapshot
import CanvasTransform.Transform.Outcome

set_option autoImplicit false

/-! # Shifting a selection

A translation moves the top-level shapes by one displacement of the page, expressed in the frame of
each one's parent. What is below them rides along and is not written. -/

namespace CanvasTransform

variable {α : Type} [Scalar α]

/-- The axes along which a drag moves: both, or only the one it moved along further. -/
def dragAxes (delta : Vec α) (locked : Bool) : Axes :=
  if !locked then Axes.both
  else if Scalar.abs delta.y < Scalar.abs delta.x then ⟨true, false⟩
  else ⟨false, true⟩

/-- The displacement on the enabled axes only. -/
def Vec.onAxes (v : Vec α) (axes : Axes) : Vec α :=
  ⟨if axes.x then v.x else 0, if axes.y then v.y else 0⟩

namespace Member

/-- The patch that moves the member by a displacement of the page. -/
def shift (m : Member α) (delta : Vec α) : Except TransformError (Patch α) :=
  let v := m.parentPageTransform.inverse.applyVec delta
  let p := Patch.position m.shape.id (m.shape.x + v.x) (m.shape.y + v.y)
  if p.isFinite then .ok p else .error (.invalidGeometry m.shape.id)

end Member

namespace Snapshot

/-- Move every top-level shape by a displacement of the page. -/
def shift (s : Snapshot α) (d : Document α) (delta : Vec α) : Outcome α :=
  .concat (s.topLevel.map fun id =>
    match s.get? id with
    | none => .empty
    | some m => if d.contains id then .ofExcept (m.shift delta) else .skip (.shapeNotFound id))

end Snapshot

end CanvasTransform
