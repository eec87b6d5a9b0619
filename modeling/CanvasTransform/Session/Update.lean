import CanvasTransform.Config
import CanvasTransform.Session.Basic
import CanvasTransform.Snap.Align
import CanvasTransform.Snap.Grid
import CanvasTransform.Transform.Scale
import CanvasTransform.Transform.Shift
import CanvasTransform.Transform.Turn

set_option autoImplicit false

/-! # From the pointer to updates

How a session of each kind reads the way the pointer has come: the updates for where it is now, and
the snap lines that go with them. While the key for snapping is held, other shapes attract; otherwise
the grid does, when it is on. -/

namespace CanvasTransform

/-- Updates and the snap lines to show with them. -/
structure SessionUpdate (α : Type) where
  outcome : Outcome α
  lines : List (SnapLine α)

namespace Session

variable {α : Type} [Scalar α]

/-- How far the pointer has come. -/
def drag (s : Session α) : Vec α := s.current - s.origin

/-- The drag of a resize handle after snapping, with the lines to show. A handle snaps only when the
    selection is upright, because only then it moves along the axes of the page. -/
def snappedHandleDrag (s : Session α) (config : Config α) (zoom : α) (h : Handle) :
    Vec α × List (SnapLine α) :=
  let box := s.snapshot.box
  let delta := s.drag
  if box.isUpright then
    let axes : Axes := ⟨h.movesX, h.movesY⟩
    let target := box.handlePosition h + delta
    if s.flags.ctrl then
      let snap := Snap.point target s.snapshot.candidates (config.snapDistance / zoom) axes
      (delta + snap.nudge, snap.lines)
    else if config.grid.enabled then
      (delta + (Snap.toGrid target config.grid.size axes - target), [])
    else (delta, [])
  else (delta, [])

/-- The update of a resize session. There is none in a session of another kind. -/
def resizeUpdate (s : Session α) (c : Canvas α) (config : Config α) (zoom : α) :
    SessionUpdate α :=
  match s.kind with
  | .resize h =>
    let (delta, lines) := s.snappedHandleDrag config zoom h
    let box := s.snapshot.box
    let scale := box.resizeScale h delta s.flags s.snapshot.aspectLocked
    { outcome := s.snapshot.scale c (box.pageScale scale), lines }
  | _ => { outcome := .empty, lines := [] }

/-- The update of a rotation: the selection turns with the pointer about its center, in steps while
    shift is held. -/
def rotateUpdate (s : Session α) (d : Document α) (config : Config α) : Outcome α :=
  let box := s.snapshot.box
  let center := box.pageCenter
  let step := if s.flags.shift then some config.rotationSnapDegrees else none
  s.snapshot.turn d center (sweptAngle center s.origin s.current box.rotation step)

/-- The displacement of a translation after locking an axis and snapping, with the lines to show. A
    locked axis neither moves nor snaps. -/
def snappedShift (s : Session α) (config : Config α) (zoom : α) : Vec α × List (SnapLine α) :=
  let axes := dragAxes s.drag s.flags.shift
  let delta := s.drag.onAxes axes
  let moving := s.snapshot.pageBounds + delta
  if s.flags.ctrl then
    let snap := Snap.box true moving s.snapshot.candidates (config.snapDistance / zoom) axes
    (delta + snap.nudge, snap.lines)
  else if config.grid.enabled then
    (delta + (Snap.toGrid moving.origin config.grid.size axes - moving.origin), [])
  else (delta, [])

/-- The update of a translation. -/
def translateUpdate (s : Session α) (d : Document α) (config : Config α) (zoom : α) :
    SessionUpdate α :=
  let (delta, lines) := s.snappedShift config zoom
  { outcome := s.snapshot.shift d delta, lines }

/-- The update of the session at its current pointer position. -/
def update (s : Session α) (c : Canvas α) (config : Config α) (zoom : α) : SessionUpdate α :=
  match s.kind with
  | .resize _ => s.resizeUpdate c config zoom
  | .rotate => { outcome := s.rotateUpdate c.document config, lines := [] }
  | .translate => s.translateUpdate c.document config zoom

end Session

end CanvasTransform
