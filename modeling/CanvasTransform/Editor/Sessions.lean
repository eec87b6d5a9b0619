import CanvasTransform.Editor.Basic

set_option autoImplicit false

/-! # Running sessions from the editor

Beginning, updating, completing and cancelling a session. A press that comes while a session is
running waits in the queue; when the session has ended, the presses are replayed in order. A press
starts no session by itself, so replaying always uses up the queue. -/

namespace CanvasTransform.Editor

variable {α : Type} [Scalar α]

/-! ## Presses -/

/-- Do what the table asks for on a press, for the actions that apply to presses. -/
def performPress? (e : Editor α) (p : Press α) (target : Target) (t : Transition) :
    Option (Editor α) :=
  match t.action with
  | .nothing => some e
  | .beginPointing =>
    some { e with interaction := .ofPress t.next ⟨p.point, target.handle?, p.coarse⟩ }
  | .defer => some { e with deferred := e.deferred ++ [p] }
  | _ => none

/-- Take a press. An action that does not apply to presses does nothing. -/
def press (e : Editor α) (d : Document α) (p : Press α) : Editor α :=
  let target := e.targetOf d p
  match Transition.find? e.phase target.trigger with
  | some t => (e.performPress? p target t).getD e
  | none => e

/-! ## Ending a session -/

/-- Take back what a session showed, and replay the presses that waited for its end. -/
def finish (e : Editor α) (d : Document α) : Editor α :=
  let rested := { e with snapLines := [], cursor := Cursor.idle, deferred := [] }
  e.deferred.foldl (fun e p => e.press d p) rested

/-- End the session and keep what it wrote last. Nothing happens when no session is running. -/
def completeSession (e : Editor α) (d : Document α) : Editor α :=
  match e.session? with
  | some _ => { e with interaction := .idle }.finish d
  | none => e

/-- End whatever is going on, and undo everything that a session wrote. -/
def cancelSession (e : Editor α) (store : Store α) : Editor α × Store α :=
  let store :=
    match e.session? with
    | some s => store.update s.revert
    | none => store
  ({ e with interaction := .idle }.finish store.document, store)

/-! ## Beginning and updating a session -/

/-- The cursor of a session of a selection turned by `rotation`. -/
def sessionCursor (kind : SessionKind) (rotation : α) : Cursor α :=
  match kind with
  | .resize h => Cursor.forHandle h rotation
  | .rotate => Cursor.forHandle .rotate rotation
  | .translate => ⟨.move, 0⟩

/-- Begin a session with a press at `origin`; the answer says whether it began. It does not while
    another is running, and not when there is nothing to transform. -/
def beginSession (e : Editor α) (d : Document α) (kind : SessionKind) (origin : Point α)
    (modifiers : Modifiers) : Bool × Editor α :=
  if e.phase.isSession then (false, e)
  else
    match e.capture? d with
    | none => (false, { e with interaction := .idle })
    | some snapshot =>
      (true, { e with
        cursor := sessionCursor kind snapshot.box.rotation
        interaction := .ofSession (Session.start kind origin modifiers.flags snapshot) })

/-- Begin a resize session without a press on a handle. Only resize handles can begin one. -/
def beginResize (e : Editor α) (d : Document α) (h : Handle) (origin : Point α)
    (modifiers : Modifiers) : Bool × Editor α :=
  if h.isResize then e.beginSession d (.resize h) origin modifiers else (false, e)

/-- Recompute the running session, given as `s`, from its snapshot, and write the result as one
    batch. -/
def recompute (e : Editor α) (store : Store α) (s : Session α) : Editor α × Store α :=
  let update := s.update (e.canvas store.document) e.config e.camera.zoom
  let (s, store) := s.commit e.registry store update.outcome.updates
  ({ e with interaction := e.interaction.setSession s, snapLines := update.lines }, store)

/-- Move the running session to a page point. -/
def updateSession (e : Editor α) (store : Store α) (p : Point α) (modifiers : Modifiers) :
    Editor α × Store α :=
  match e.session? with
  | some s => e.recompute store (s.moveTo p modifiers.flags)
  | none => (e, store)

/-- Give the running session new modifiers, at a time in milliseconds. -/
def updateModifiers (e : Editor α) (store : Store α) (modifiers : Modifiers) (now : Nat) :
    Editor α × Store α :=
  match e.session? with
  | some s =>
    let s := { s with flags := modifiers.flags }
    e.recompute store (s.setAlt modifiers.alt now e.config.cloneRevertDelay.toNat)
  | none => (e, store)

/-- Do what is due in the running session. -/
def tick (e : Editor α) (now : Nat) : Editor α :=
  match e.session? with
  | some s => { e with interaction := e.interaction.setSession (s.tick now) }
  | none => e

/-- Begin the session that leads to the state `next` once the pointer has come far enough from where
    it was pressed, and bring it to where the pointer is. -/
def startSessionIfDragged (e : Editor α) (store : Store α) (p : Point α) (modifiers : Modifiers)
    (next : Phase) : Editor α × Store α :=
  match e.interaction.pointing? with
  | some held =>
    let threshold := e.camera.screenDistance (e.config.dragThreshold held.coarse)
    if p.distance held.origin ≤ threshold then (e, store)
    else
      let (began, e) :=
        e.beginSession store.document (.ofDrag next held.handle?) held.origin modifiers
      if began then e.updateSession store p modifiers else (e, store)
  | none => (e, store)

end CanvasTransform.Editor
