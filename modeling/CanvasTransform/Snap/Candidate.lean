import CanvasTransform.Shape.Basic
import CanvasTransform.Snap.Axis

set_option autoImplicit false

/-! # Snap candidates and the gaps between them

A candidate is a shape that others can align with. Two candidates enclose a gap along an axis when
they face each other with nothing in between. Gaps are found once, when the candidates are
collected. -/

namespace CanvasTransform

/-- A shape that others can align with. -/
structure Candidate (α : Type) where
  id : ShapeId
  /-- Upright bounds on the page. -/
  bounds : Rect α
  /-- Points for alignment, on the page. -/
  points : List (Point α)
deriving DecidableEq

/-- A candidate that offers the corners and the center of its box. -/
def Candidate.ofBounds {α : Type} [Scalar α] (id : ShapeId) (bounds : Rect α) : Candidate α :=
  ⟨id, bounds, bounds.snapPoints⟩

/-- Free space between two candidates. -/
structure Gap (α : Type) where
  start : ShapeId
  stop : ShapeId
  startBounds : Rect α
  stopBounds : Rect α
  length : α
  /-- The least and greatest coordinate of what the two share across the axis. -/
  breadth : α × α
deriving DecidableEq

namespace Gap

variable {α : Type} [Scalar α]

/-- Every pair of elements of a list, each in the order of the list. -/
def pairs {β : Type} : List β → List (β × β)
  | [] => []
  | a :: rest => rest.map (fun b => (a, b)) ++ pairs rest

/-- Whether a candidate reaches into the space from `startFar` to `stopNear` along the axis and meets
    the breadth across it. -/
def blocks (axis : Axis) (startFar stopNear : α) (breadth : α × α) (c : Candidate α) : Bool :=
  decide (axis.near c.bounds < stopNear) && decide (startFar < axis.far c.bounds) &&
    Scalar.rangesMeet (axis.cross.near c.bounds) (axis.cross.far c.bounds) breadth.1 breadth.2

/-- The gap from `s` to `e`, if there is free space between them, they meet across the axis, and no
    other candidate of `all` stands in between. -/
def between? (axis : Axis) (all : List (Candidate α)) (s e : Candidate α) : Option (Gap α) :=
  let startFar := axis.far s.bounds
  let stopNear := axis.near e.bounds
  let breadth :=
    (Scalar.max (axis.cross.near s.bounds) (axis.cross.near e.bounds),
      Scalar.min (axis.cross.far s.bounds) (axis.cross.far e.bounds))
  if stopNear ≤ startFar then none
  else if breadth.2 < breadth.1 then none
  else if all.any fun c => c.id != s.id && c.id != e.id && blocks axis startFar stopNear breadth c
  then none
  else some ⟨s.id, e.id, s.bounds, e.bounds, stopNear - startFar, breadth⟩

/-- All gaps along an axis. Candidates are taken in the order of their near sides. -/
def findAll (axis : Axis) (shapes : List (Candidate α)) : List (Gap α) :=
  let sorted := shapes.mergeSort fun s t => Scalar.totalLe (axis.near s.bounds) (axis.near t.bounds)
  (pairs sorted).filterMap fun (s, e) => between? axis sorted s e

end Gap

/-- Candidates with the gaps between them. -/
structure Candidates (α : Type) where
  shapes : List (Candidate α)
  horizontalGaps : List (Gap α)
  verticalGaps : List (Gap α)
deriving DecidableEq

namespace Candidates

variable {α : Type}

def isEmpty (cs : Candidates α) : Bool := cs.shapes.isEmpty

/-- The gaps along an axis. -/
def gaps (cs : Candidates α) : Axis → List (Gap α)
  | .x => cs.horizontalGaps
  | .y => cs.verticalGaps

/-- All points that the candidates offer. -/
def points (cs : Candidates α) : List (Point α) := cs.shapes.flatMap (·.points)

/-- Collect candidates and find the gaps between them. -/
def ofShapes [Scalar α] (shapes : List (Candidate α)) : Candidates α :=
  ⟨shapes, Gap.findAll .x shapes, Gap.findAll .y shapes⟩

end Candidates

end CanvasTransform
