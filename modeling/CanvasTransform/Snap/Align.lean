import CanvasTransform.Snap.Candidate
import CanvasTransform.Snap.Line

set_option autoImplicit false

/-! # Alignment

A moving box snaps to the points of other shapes and to places that repeat a gap between them. The
axes are resolved independently. On each, the candidates for the nudge are the *offsets* that would
bring a point of the box onto a candidate's coordinate or the box into a place of equal spacing; the
nearest one within the threshold wins, the first of those at the same distance. Once the box is
nudged, every alignment that has become exact is reported as a snap line. -/

namespace CanvasTransform

/-- A nudge and the lines that justify it. -/
structure SnapOutcome (α : Type) where
  nudge : Vec α
  lines : List (SnapLine α)
deriving DecidableEq

namespace Snap

variable {α : Type} [Scalar α]

/-- Nothing to snap to. -/
def nothing : SnapOutcome α := ⟨Vec.zero, []⟩

/-! ## The nearest offset -/

/-- Take `d` in place of the best offset so far if it is strictly nearer, and within the threshold. -/
def nearer (threshold : α) (best : Option α) (d : α) : Option α :=
  let bar :=
    match best with
    | some b => Scalar.abs b
    | none => threshold
  if Scalar.abs d < bar then some d else best

/-- The first of the nearest offsets within the threshold. -/
def nearest? (threshold : α) (offsets : List α) : Option α := offsets.foldl (nearer threshold) none

/-- The offsets that bring a moving point onto the coordinate of a candidate point. -/
def pointOffsets (moving : List (Point α)) (cs : Candidates α) (axis : Axis) : List α :=
  moving.flatMap fun m => cs.points.map fun c => axis.coord c - axis.coord m

/-! ## Places of equal spacing -/

/-- Where a box repeats a gap. -/
inductive GapPlace
  /-- Centered between the two shapes. -/
  | between
  /-- One gap length past the second shape. -/
  | after
  /-- One gap length ahead of the first shape. -/
  | before
deriving DecidableEq

/-- A place next to a gap and the offset that brings the box there. -/
structure GapOffset (α : Type) where
  gap : Gap α
  place : GapPlace
  offset : α

/-- The places next to a gap that the moving box may take. It has to face the gap, and fits between
    the two shapes only if it is shorter than the gap. -/
def gapOffsetsOf (moving : Rect α) (axis : Axis) (g : Gap α) : List (GapOffset α) :=
  let near := axis.near moving
  let far := axis.far moving
  let size := far - near
  if Scalar.rangesMeet (axis.cross.near moving) (axis.cross.far moving) g.breadth.1 g.breadth.2 then
    (if size < g.length then
      [⟨g, .between, axis.far g.startBounds + (g.length - size) / 2.0 - near⟩]
    else []) ++
    [⟨g, .after, axis.far g.stopBounds + g.length - near⟩,
      ⟨g, .before, axis.near g.startBounds - g.length - far⟩]
  else []

def gapOffsets (moving : Rect α) (gaps : List (Gap α)) (axis : Axis) : List (GapOffset α) :=
  gaps.flatMap (gapOffsetsOf moving axis)

/-! ## Lines through points -/

/-- The coordinates of moved points that some candidate point shares, each once. -/
def sharedCoords (moved : List (Point α)) (cs : Candidates α) (axis : Axis) : List α :=
  (moved.map axis.coord).foldl
    (fun coords value =>
      if cs.points.any (fun c => Scalar.near (axis.coord c) value Scalar.coordTolerance) &&
          !coords.any (fun v => Scalar.near v value Scalar.coordTolerance) then
        coords ++ [value]
      else coords)
    []

/-- Drop each point of a list that coincides with the last one kept before it. -/
def dropRepeatsAfter (kept : Point α) : List (Point α) → List (Point α)
  | [] => []
  | p :: rest =>
    if p.distance kept ≤ Scalar.coordTolerance then dropRepeatsAfter kept rest
    else p :: dropRepeatsAfter p rest

def dropRepeats : List (Point α) → List (Point α)
  | [] => []
  | p :: rest => p :: dropRepeatsAfter p rest

/-- The moved points and candidate points with the coordinate `value`, sorted along the line. -/
def lineThrough (moved : List (Point α)) (cs : Candidates α) (axis : Axis) (value : α) :
    SnapLine α :=
  let on := (moved ++ cs.points).filter fun p =>
    Scalar.near (axis.coord p) value Scalar.coordTolerance
  .points (dropRepeats
    (on.mergeSort fun p q => Scalar.totalLe (axis.cross.coord p) (axis.cross.coord q)))

/-- One line for each candidate coordinate that a moved point now sits on. -/
def pointLines (moved : List (Point α)) (cs : Candidates α) (axis : Axis) : List (SnapLine α) :=
  (sharedCoords moved cs axis).map (lineThrough moved cs axis)

/-! ## Lines of gaps -/

def sameLength (a b : α) : Bool := Scalar.near a b Scalar.coordTolerance

/-- The row of gaps of the given length that leads up to the gap `g`, nearest first, in at most `n`
    steps. -/
def rowUpTo (gaps : List (Gap α)) (length : α) : Nat → Gap α → List (Gap α)
  | 0, _ => []
  | n + 1, g =>
    match gaps.find? fun h => h.stop == g.start && sameLength h.length length with
    | some h => h :: rowUpTo gaps length n h
    | none => []

/-- The row of gaps of the given length that goes on from the gap `g`, nearest first, in at most `n`
    steps. -/
def rowFrom (gaps : List (Gap α)) (length : α) : Nat → Gap α → List (Gap α)
  | 0, _ => []
  | n + 1, g =>
    match gaps.find? fun h => h.start == g.stop && sameLength h.length length with
    | some h => h :: rowFrom gaps length n h
    | none => []

/-- The line that shows the moved box in its place next to a gap, with the row of equal gaps that it
    extends. -/
def gapLine (o : GapOffset α) (moved : Rect α) (gaps : List (Gap α)) (axis : Axis) : SnapLine α :=
  let g := o.gap
  let indicator (h : Gap α) := GapIndicator.between axis h.startBounds h.stopBounds
  .gaps axis.direction <|
    match o.place with
    | .between =>
      [GapIndicator.between axis g.startBounds moved, GapIndicator.between axis moved g.stopBounds]
    | .after =>
      (rowUpTo gaps g.length gaps.length g).reverse.map indicator ++
        [indicator g, GapIndicator.between axis g.stopBounds moved]
    | .before =>
      [GapIndicator.between axis moved g.startBounds, indicator g] ++
        (rowFrom gaps g.length gaps.length g).map indicator

/-! ## Snapping -/

/-- The offset by which a moving box snaps on one axis. -/
def boxOffset? (moving : Rect α) (cs : Candidates α) (threshold : α) (axis : Axis) : Option α :=
  nearest? threshold
    (pointOffsets moving.snapPoints cs axis ++
      (gapOffsets moving (cs.gaps axis) axis).map (·.offset))

/-- The enabled axes on which an offset was found, with the offset. -/
def winners (axes : Axes) (offset? : Axis → Option α) : List (Axis × α) :=
  ([Axis.x, Axis.y].filter axes.enabled).filterMap fun axis =>
    (offset? axis).map fun offset => (axis, offset)

/-- The displacement made up of one offset per axis. -/
def nudgeOf (found : List (Axis × α)) : Vec α :=
  found.foldl (fun nudge w => nudge + w.1.vec w.2) Vec.zero

/-- Snap a moving box to the points of candidates and to the gaps between them. -/
def box (enabled : Bool) (moving : Rect α) (cs : Candidates α) (threshold : α) (axes : Axes) :
    SnapOutcome α :=
  if !enabled || cs.isEmpty then nothing
  else
    let found := winners axes (boxOffset? moving cs threshold)
    let nudge := nudgeOf found
    let moved := moving + nudge
    { nudge
      lines := found.flatMap fun (axis, offset) =>
        let gaps := cs.gaps axis
        pointLines moved.snapPoints cs axis ++
          ((gapOffsets moving gaps axis).filter fun o =>
            Scalar.near o.offset offset Scalar.coordTolerance).map
              fun o => gapLine o moved gaps axis }

/-- Snap a single dragged point to the coordinates of candidate points. -/
def point (p : Point α) (cs : Candidates α) (threshold : α) (axes : Axes) : SnapOutcome α :=
  let found := winners axes fun axis => nearest? threshold (pointOffsets [p] cs axis)
  let nudge := nudgeOf found
  { nudge, lines := found.flatMap fun (axis, _) => pointLines [p + nudge] cs axis }

end Snap

end CanvasTransform
