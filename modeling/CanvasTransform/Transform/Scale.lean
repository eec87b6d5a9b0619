import CanvasTransform.Behaviour.Registry
import CanvasTransform.Selection.Snapshot
import CanvasTransform.Session.Flags
import CanvasTransform.Transform.Outcome

set_option autoImplicit false

/-! # Scaling a selection

A resize scales the selection about an anchor along the axes of the selection frame. The scaling is
brought to the page as one affine map, and every captured shape is moved so that its page transform
becomes that map after its captured one, with the factors folded into the shape's own size instead
of its transform. -/

namespace CanvasTransform

variable {α : Type} [Scalar α]

/-! ## From a drag to factors -/

/-- Factors along the axes of the selection frame, and the point of it that stays. -/
structure FrameScale (α : Type) where
  factors : Vec α
  anchor : Point α
deriving DecidableEq

namespace OrientedBox

/-- The point that stays when a handle is dragged: the opposite handle, or the center. -/
def resizeAnchor (b : OrientedBox α) (h : Handle) (fromCenter : Bool) : Point α :=
  if fromCenter then b.rect.center else h.opposite.positionOn b.rect

/-- The scaling that dragging a handle by `delta` on the page asks for.

    Each side that the handle moves is scaled by how far the handle is now from the anchor, compared
    with where it started. When the aspect ratio is kept, a corner gives both axes the larger
    magnitude and each its own sign, and an edge gives the other axis the magnitude of its own. -/
def resizeScale (b : OrientedBox α) (h : Handle) (delta : Vec α) (flags : Flags) (locked : Bool) :
    FrameScale α :=
  let start := h.positionOn b.rect
  let anchor := b.resizeAnchor h flags.alt
  let moved := start + delta.rotate (-b.rotation)
  let reach := moved - anchor
  let extent := start - anchor
  let sx := if h.movesX then reach.x / extent.x else 1
  let sy := if h.movesY then reach.y / extent.y else 1
  let factors : Vec α :=
    if locked || flags.shift then
      match h with
      | .corner _ => Vec.equalize ⟨sx, sy⟩
      | .edge .left | .edge .right => ⟨sx, Scalar.abs sx⟩
      | .edge .top | .edge .bottom => ⟨Scalar.abs sy, sy⟩
      | .rotate => ⟨sx, sy⟩
    else ⟨sx, sy⟩
  { factors, anchor }

/-- A scaling of the selection frame as a map of the page. -/
def pageScale (b : OrientedBox α) (s : FrameScale α) : Affine α :=
  Affine.scaleAbout b.rotation s.factors s.anchor

end OrientedBox

/-! ## One shape -/

namespace Placement

/-- Split a map from a shape's frame to its parent's into origin, rotation and signed factors along
    the shape's axes. The rotation is chosen on the side that the shape faced before, so that a
    scaling along the shape's axes keeps the rotation and shows its signs in the factors. -/
def ofAffine (t : Affine α) (oldRotation : α) : Placement α :=
  let xAxis := t.applyVec ⟨1, 0⟩
  let yAxis := t.applyVec ⟨0, 1⟩
  let (rotation, sx) :=
    if xAxis.length ≤ Scalar.coordTolerance then (oldRotation, (0 : α))
    else
      let facing := Vec.rotate ⟨1, 0⟩ oldRotation
      let sign : α := if xAxis.dot facing < 0 then -1 else 1
      (Angle.normalize (xAxis.scale sign).direction, sign * xAxis.length)
  { scale := ⟨sx, (yAxis.rotate (-rotation)).y⟩, origin := t.apply Point.origin, rotation }

end Placement

namespace Member

/-- The patch that makes the member's page transform `t` after its captured one, when its parent's
    page transform has become `parentPage`. -/
def scale (m : Member α) (registry : Registry α) (t parentPage : Affine α) :
    Except TransformError (Patch α) :=
  let id := m.shape.id
  if parentPage.isInvertible then
    let oldPage := m.parentPageTransform * m.shape.localTransform
    let target := parentPage.inverse * t * oldPage
    if target.isFinite then
      let p := registry.resize m.shape (Placement.ofAffine target m.shape.rotation)
      if p.isFinite then .ok p else .error (.invalidGeometry id)
    else .error (.invalidGeometry id)
  else .error (.notInvertible id)

end Member

/-! ## The selection -/

namespace Snapshot

/-- Scale a captured shape and what is below it, at most `n` levels, under a parent whose page
    transform has become `parentPage`. A shape that is gone or cannot be scaled is left out with
    everything below it. -/
def scaleSubtree (s : Snapshot α) (c : Canvas α) (t : Affine α) :
    Nat → ShapeId → Affine α → Outcome α
  | 0, _, _ => .empty
  | n + 1, id, parentPage =>
    match s.get? id with
    | none => .empty
    | some m =>
      if c.document.contains id then
        match m.scale c.registry t parentPage with
        | .error e => .skip e
        | .ok p =>
          let newPage := parentPage * (m.shape.patch p).localTransform
          .update p ++ .concat (m.children.map fun child => s.scaleSubtree c t n child newPage)
      else .skip (.shapeNotFound id)

/-- Apply a scaling of the page to every captured shape, parents before their children. -/
def scale (s : Snapshot α) (c : Canvas α) (t : Affine α) : Outcome α :=
  .concat (s.topLevel.map fun id =>
    match s.get? id with
    | some m => s.scaleSubtree c t s.members.size id m.parentPageTransform
    | none => .empty)

end Snapshot

end CanvasTransform
