import CanvasTransform.Behaviour.Basic

set_option autoImplicit false

/-! # The built-in behaviours

* `box`: rectangles, ellipses and frames scale with the selection.
* `fixedSize`: text and notes keep their size and only follow.
* `image`: like a box, but images keep their aspect ratio and remember being mirrored.
* `line`: a polyline scales its vertices.
* `group`: a group has no geometry of its own. It wraps its children, and after they changed it
  moves its origin to the top left of their bounds without moving them on the page. -/

namespace CanvasTransform.Behaviour

variable {α : Type} [Scalar α]

/-! ## Boxes -/

/-- The box of the shape's extent, anchored at its origin. -/
def boxBounds (s : Shape α) : Rect α := ⟨0, 0, s.extent.x, s.extent.y⟩

def resizeBox (s : Shape α) (p : Placement α) : Patch α :=
  let extent := p.scaledExtent s.extent
  (p.moveTo s (p.boxOrigin extent)).withForm (.box extent.x extent.y)

def box : Behaviour α where
  bounds _ _ := boxBounds
  resize := resizeBox
  canResize _ := true
  isAspectLocked _ := false
  refit _ _ _ := []
  snapPoints _ := []

/-! ## Shapes of fixed size -/

/-- Move a shape along without changing its size. On a mirrored axis the origin still shifts by the
    shape's own extent, so that the shape lies where its mirror image would begin. -/
def resizeFixed (s : Shape α) (p : Placement α) : Patch α := p.moveTo s (p.boxOrigin s.extent)

def fixedSize : Behaviour α := { box with resize := resizeFixed, canResize := fun _ => false }

/-! ## Images -/

/-- Scale like a box, and toggle the mirroring of the content on each mirrored axis. -/
def resizeImage (s : Shape α) (p : Placement α) : Patch α :=
  match s.form with
  | .image _ _ flipX flipY =>
    let extent := p.scaledExtent s.extent
    (p.moveTo s (p.boxOrigin extent)).withForm
      (.image extent.x extent.y (flipX ^^ decide (p.scale.x < 0)) (flipY ^^ decide (p.scale.y < 0)))
  | _ => resizeBox s p

def image : Behaviour α := { box with resize := resizeImage, isAspectLocked := fun _ => true }

/-! ## Polylines -/

/-- Scale the vertices. Mirrored vertices make a mirrored line, so the origin needs no shift. -/
def resizeLine (s : Shape α) (p : Placement α) : Patch α :=
  (p.moveTo s p.origin).withForm
    (.line (s.form.points.map fun v => ⟨v.x * p.scale.x, v.y * p.scale.y⟩))

def line : Behaviour α :=
  { box with
    bounds := fun _ _ s => (Rect.boundsOf? s.form.points).getD Rect.zero
    resize := resizeLine
    snapPoints := fun s => s.form.points }

/-! ## Groups -/

/-- The children of `s` as the document has them, back to front. -/
def childrenOf (d : Document α) (s : Shape α) : List (Shape α) :=
  (d.children (.shape s.id)).filterMap d.get?

/-- The box around the children's bounds, in the group's frame. A group without children is only its
    origin. -/
def groupBounds (d : Document α) (boundsOf : Shape α → Rect α) (s : Shape α) : Rect α :=
  (Rect.unionAll? ((childrenOf d s).map fun child =>
    (boundsOf child).transformedBounds child.localTransform)).getD Rect.zero

/-- The children are resized one by one; the group itself only follows its origin. -/
def resizeGroup (s : Shape α) (p : Placement α) : Patch α := p.moveTo s p.origin

/-- Move the group's origin to the top left of its children, and the children back by as much, so
    that nothing moves on the page. -/
def refitGroup (d : Document α) (boundsOf : Shape α → Rect α) (s : Shape α) : List (Patch α) :=
  if (d.children (.shape s.id)).isEmpty then []
  else
    let offset := (groupBounds d boundsOf s).origin.toVec
    if offset.length ≤ Scalar.coordTolerance then []
    else
      let moved := Vec.mk s.x s.y + offset.rotate s.rotation
      Patch.position s.id moved.x moved.y ::
        (childrenOf d s).map fun child =>
          Patch.position child.id (child.x - offset.x) (child.y - offset.y)

def group : Behaviour α :=
  { box with bounds := groupBounds, resize := resizeGroup, refit := refitGroup }

end CanvasTransform.Behaviour
