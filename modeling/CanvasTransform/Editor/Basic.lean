import CanvasTransform.Editor.Event
import CanvasTransform.Editor.Transition
import CanvasTransform.Selection.Cursor
import CanvasTransform.Selection.HitTest
import CanvasTransform.Session.Update

set_option autoImplicit false

/-! # The editor

The editor keeps the selection, the camera and what the user is in the middle of. The document is
not its own: every operation is given the document or the store that it works on.

This module has the state and the questions about it; what events and calls do to it is in
`Editor.Sessions`, `Editor.Dispatch` and `Editor.Resizing`. -/

namespace CanvasTransform

/-- A press that may become a drag. -/
structure Pointing (α : Type) where
  origin : Point α
  /-- The handle that was pressed, if it was a handle. -/
  handle? : Option Handle
  coarse : Bool
deriving DecidableEq

/-- What the user is in the middle of. What is remembered of it is not tied to the state: that a press
    held in the state for resize handles is one on such a handle, and that a session is of the kind
    that its state says, is kept by the operations of the editor and not by the type. -/
inductive Interaction (α : Type)
  | idle
  | pointingResizeHandle (held : Pointing α)
  | resizing (s : Session α)
  | pointingRotateHandle (held : Pointing α)
  | rotating (s : Session α)
  | pointingSelection (held : Pointing α)
  | translating (s : Session α)

namespace Target

/-- What the table of transitions makes of a press on the target. -/
def trigger : Target → Trigger
  | handle .rotate => .pressRotateHandle
  | handle _ => .pressResizeHandle
  | selection => .pressSelection
  | canvas => .pressCanvas

/-- The handle that a press on the target is on. -/
def handle? : Target → Option Handle
  | handle h => some h
  | _ => none

end Target

/-- The session that a drag starts on its way to the state `next`, from a press on a handle or on
    none. -/
def SessionKind.ofDrag (next : Phase) (handle? : Option Handle) : SessionKind :=
  match next, handle? with
  | .resizing, some h => .resize h
  | .rotating, _ => .rotate
  | _, _ => .translate

namespace Interaction

variable {α : Type}

/-- The state of the interaction as the table of transitions knows it. -/
def phase : Interaction α → Phase
  | idle => .idle
  | pointingResizeHandle _ => .pointingResizeHandle
  | resizing _ => .resizing
  | pointingRotateHandle _ => .pointingRotateHandle
  | rotating _ => .rotating
  | pointingSelection _ => .pointingSelection
  | translating _ => .translating

/-- The press that is held, if no session has started. -/
def pointing? : Interaction α → Option (Pointing α)
  | pointingResizeHandle held | pointingRotateHandle held | pointingSelection held => some held
  | _ => none

/-- The running session, if there is one. -/
def session? : Interaction α → Option (Session α)
  | resizing s | rotating s | translating s => some s
  | _ => none

/-- The interaction in the state `next` with a press held. States that are for no handle are taken as
    the one for the body of the selection. -/
def ofPress (next : Phase) (held : Pointing α) : Interaction α :=
  match next with
  | .pointingResizeHandle => pointingResizeHandle held
  | .pointingRotateHandle => pointingRotateHandle held
  | _ => pointingSelection held

/-- The interaction in the state for the kind of the session. -/
def ofSession (s : Session α) : Interaction α :=
  match s.kind with
  | .resize _ => resizing s
  | .rotate => rotating s
  | .translate => translating s

/-- The interaction with `s` in place of the running session, in the same state. Nothing happens when
    no session is running. -/
def setSession (i : Interaction α) (s : Session α) : Interaction α :=
  match i with
  | resizing _ => resizing s
  | rotating _ => rotating s
  | translating _ => translating s
  | i => i

end Interaction

/-- The selection transform editor. -/
structure Editor (α : Type) where
  config : Config α
  registry : Registry α
  camera : Camera α
  selection : List ShapeId
  interaction : Interaction α
  /-- The snap lines of the latest update of a session. -/
  snapLines : List (SnapLine α)
  cursor : Cursor α
  /-- Presses that came while a session was running, oldest first. -/
  deferred : List (Press α)

namespace Editor

variable {α : Type}

/-- The state of the interaction. -/
def phase (e : Editor α) : Phase := e.interaction.phase

/-- The running session, if there is one. -/
def session? (e : Editor α) : Option (Session α) := e.interaction.session?

/-- Whether the cloning indicator is showing. -/
def isCloning (e : Editor α) : Bool := e.session?.any (·.cloning)

/-- Choose shapes. Ignored while a session is running. -/
def select (e : Editor α) (ids : List ShapeId) : Editor α :=
  if e.phase.isSession then e else { e with selection := ids }

def withCamera (e : Editor α) (camera : Camera α) : Editor α := { e with camera }

def withViewport (e : Editor α) (viewport : Size α) : Editor α :=
  { e with camera := { e.camera with viewport } }

variable [Scalar α]

/-- An editor with nothing selected. -/
def initial (config : Config α) : Editor α :=
  { config
    registry := Registry.builtin
    camera := Camera.initial
    selection := []
    interaction := .idle
    snapLines := []
    cursor := Cursor.idle
    deferred := [] }

/-- The document as the editor reads it. -/
def canvas (e : Editor α) (d : Document α) : Canvas α := ⟨d, e.registry⟩

/-- The box around the selection, as it is in the document. -/
def selectionBox? (e : Editor α) (d : Document α) : Option (OrientedBox α) :=
  (e.canvas d).selectionBox? (d.topLevel e.selection)

/-- A snapshot of the selection. -/
def capture? (e : Editor α) (d : Document α) : Option (Snapshot α) :=
  (e.canvas d).capture? e.selection e.camera

/-! ## What is under the pointer -/

/-- What is under a page point. -/
def targetAt (e : Editor α) (d : Document α) (p : Point α) : Target :=
  match e.selectionBox? d with
  | none => .canvas
  | some box =>
    let tolerance := e.camera.screenDistance e.config.handleHitTolerance
    let offset := e.camera.screenDistance e.config.rotateHandleOffset
    match box.handleAt? p tolerance offset with
    | some h => .handle h
    | none => if box.contains p then .selection else .canvas

/-- What a press is on: what it says, or else what is under it. -/
def targetOf (e : Editor α) (d : Document α) (p : Press α) : Target :=
  match p.target with
  | some target => target
  | none => e.targetAt d p.point

/-- The cursor for a pointer hovering over a page point. -/
def hoverCursor (e : Editor α) (d : Document α) (p : Point α) : Cursor α :=
  match e.targetAt d p, e.selectionBox? d with
  | .handle h, some box => Cursor.forHandle h box.rotation
  | _, _ => Cursor.idle

end Editor

end CanvasTransform
