import CanvasTransform.Editor.Sessions

set_option autoImplicit false

/-! # Dispatching events

An event is classified, the table of transitions says what to do about it in the current state, and
the editor does it. `Editor.perform?` has no answer for an action that does not apply to the event;
the table asks for none of those. -/

namespace CanvasTransform.Editor

variable {α : Type} [Scalar α]

/-- What the table of transitions makes of an event. Keys other than the one that cancels mean
    nothing to it. -/
def classify? (e : Editor α) (d : Document α) (event : Event α) : Option Trigger :=
  if event.isCancel then some .cancel
  else
    match event with
    | .press p => some (e.targetOf d p).trigger
    | .move _ _ => some .move
    | .release _ _ => some .release
    | .modifiers _ _ => some .modifiers
    | .tick _ => some .tick
    | .key _ | .cancel => none

/-- Do what a row of the table asks for, if its action applies to the event. -/
def perform? (e : Editor α) (store : Store α) (t : Transition) (event : Event α) :
    Option (Editor α × Store α) :=
  match t.action, event with
  | .nothing, _ => some (e, store)
  | .beginPointing, .press p | .defer, .press p =>
    (e.performPress? p (e.targetOf store.document p) t).map (·, store)
  | .updateHover, .move p _ => some ({ e with cursor := e.hoverCursor store.document p }, store)
  | .startSessionIfDragged, .move p modifiers =>
    some (e.startSessionIfDragged store p modifiers t.next)
  | .update, .move p modifiers => some (e.updateSession store p modifiers)
  | .updateModifiers, .modifiers modifiers now => some (e.updateModifiers store modifiers now)
  | .commit, _ => some (e.completeSession store.document, store)
  | .revert, _ => some (e.cancelSession store)
  | .endPointing, _ => some ({ e with interaction := .idle, cursor := Cursor.idle }, store)
  | .runTimers, .tick now => some (e.tick now, store)
  | _, _ => none

/-- Take one event. An event without a transition changes nothing. -/
def handle (e : Editor α) (store : Store α) (event : Event α) : Editor α × Store α :=
  let next := do
    let trigger ← e.classify? store.document event
    let t ← Transition.find? e.phase trigger
    e.perform? store t event
  next.getD (e, store)

end CanvasTransform.Editor
