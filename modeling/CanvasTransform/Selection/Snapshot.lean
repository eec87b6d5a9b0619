import CanvasTransform.Camera
import CanvasTransform.Selection.Bounds
import CanvasTransform.Snap.Candidate

set_option autoImplicit false

/-! # Snapshots

A snapshot is everything that a transform computes from: the selected shapes with all that hangs
below them as they were, the box around them, and what they can snap to. It is taken once and never
changes, so every transform of it starts from the same state. -/

namespace CanvasTransform

/-- A shape as it was when the snapshot was taken. -/
structure Member (α : Type) where
  shape : Shape α
  pageTransform : Affine α
  parentPageTransform : Affine α
  /-- The children, back to front. -/
  children : List ShapeId

/-- A selection as it was at one moment. -/
structure Snapshot (α : Type) where
  /-- The selected shapes that have no selected ancestor. -/
  topLevel : List ShapeId
  /-- The top-level shapes and all their descendants. -/
  members : Std.TreeMap ShapeId (Member α) compare
  box : OrientedBox α
  aspectLocked : Bool
  /-- Upright bounds of the whole selection on the page. -/
  pageBounds : Rect α
  candidates : Candidates α

namespace Snapshot

variable {α : Type}

def get? (s : Snapshot α) (id : ShapeId) : Option (Member α) := s.members[id]?

def contains (s : Snapshot α) (id : ShapeId) : Bool := (s.get? id).isSome

/-- The captured shapes, ordered by identity. -/
def shapes (s : Snapshot α) : List (Shape α) := s.members.values.map (·.shape)

/-- The patches that put every captured shape back as it was. -/
def restore (s : Snapshot α) : List (Patch α) := s.shapes.map Patch.restore

end Snapshot

/-! ## Taking a snapshot -/

namespace Canvas

variable {α : Type} [Scalar α]

/-- The record of one shape, if it has a place on the page. -/
def member? (c : Canvas α) (id : ShapeId) : Option (Member α) := do
  let shape ← (c.shape id).toOption
  let pageTransform ← (c.pageTransform id).toOption
  let parentPageTransform ← (c.parentPageTransform id).toOption
  return { shape, pageTransform, parentPageTransform, children := c.document.children (.shape id) }

/-- The records of shapes that have a place on the page. -/
def membersOf (c : Canvas α) (ids : List ShapeId) : Std.TreeMap ShapeId (Member α) compare :=
  ids.foldl
    (fun found id =>
      match c.member? id with
      | some m => found.insert id m
      | none => found)
    ∅

/-- What a shape offers for alignment, if it is visible. -/
def candidate? (c : Canvas α) (viewport : Rect α) (id : ShapeId) : Option (Candidate α) := do
  let bounds ← (c.pageBounds id).toOption
  let points ← (c.pageSnapPoints id).toOption
  if bounds.overlaps viewport then some ⟨id, bounds, points⟩ else none

/-- Whether the shape is a group. Groups offer their children for alignment, not themselves. -/
def isGroup (c : Canvas α) (id : ShapeId) : Bool :=
  match c.document.get? id with
  | some s => s.kind == .group
  | none => false

/-- What a selection can snap to: the visible shapes that are neither selected, nor inside the
    selection, nor around it. -/
def candidatesFor (c : Canvas α) (topLevel : List ShapeId) (inSelection : ShapeId → Bool)
    (viewport : Rect α) : Candidates α :=
  let around := topLevel.flatMap c.document.ancestors
  .ofShapes <| ((c.document.frontToBack inSelection).filter fun id =>
    !around.contains id && !c.isGroup id).filterMap (c.candidate? viewport)

/-- Take a snapshot of a selection. There is none when no selected shape has a place on the page. -/
def capture? (c : Canvas α) (selection : List ShapeId) (camera : Camera α) :
    Option (Snapshot α) := do
  let topLevel := c.document.topLevel selection
  let box ← c.selectionBox? topLevel
  let members := c.membersOf (topLevel.flatMap fun id => id :: c.document.descendants id)
  let pageBounds ← Rect.unionAll? (topLevel.filterMap fun id => (c.pageBounds id).toOption)
  return {
    topLevel, members, box, pageBounds
    aspectLocked := c.aspectLocked topLevel box.rotation
    candidates := c.candidatesFor topLevel members.contains camera.viewportBounds }

end Canvas

end CanvasTransform
