import CanvasTransform.Selection.Bounds

set_option autoImplicit false

/-! # Laying out handles and finding the one under a point

Corners and the rotate handle are small discs and win over edges. An edge is grabbed anywhere along
its length, within the tolerance to either side and beyond its ends. Distances are in page units. -/

namespace CanvasTransform

/-- A handle and its place on the page. -/
structure PlacedHandle (α : Type) where
  position : Point α
  handle : Handle

namespace OrientedBox

variable {α : Type} [Scalar α]

/-- The handles of a box: corners, edges, and the rotate handle `rotateOffset` above the top edge. -/
def handles (b : OrientedBox α) (rotateOffset : α) : List (PlacedHandle α) :=
  let top := Handle.rotate.positionOn b.rect
  (Handle.corners ++ Handle.edges).map (fun h => ⟨b.handlePosition h, h⟩) ++
    [⟨b.toPage.apply ⟨top.x, top.y - rotateOffset⟩, .rotate⟩]

/-- The edge that a point of the selection frame lies on. Of two edges that meet, the top or bottom
    one wins. -/
def edgeAt? (r : Rect α) (p : Point α) (tolerance : α) : Option Edge :=
  let alongX := decide (r.x0 - tolerance ≤ p.x) && decide (p.x ≤ r.x1 + tolerance)
  let alongY := decide (r.y0 - tolerance ≤ p.y) && decide (p.y ≤ r.y1 + tolerance)
  if alongX && Scalar.near p.y r.y0 tolerance then some .top
  else if alongX && Scalar.near p.y r.y1 tolerance then some .bottom
  else if alongY && Scalar.near p.x r.x0 tolerance then some .left
  else if alongY && Scalar.near p.x r.x1 tolerance then some .right
  else none

/-- The handle under a page point. -/
def handleAt? (b : OrientedBox α) (p : Point α) (tolerance rotateOffset : α) : Option Handle :=
  match (b.handles rotateOffset).find? fun h =>
      !h.handle.isEdge && Handle.hits h.position p tolerance with
  | some h => some h.handle
  | none => (edgeAt? b.rect (b.toFrame.apply p) tolerance).map .edge

end OrientedBox

end CanvasTransform
