set_option autoImplicit false

/-! # The interaction as a state machine

The table of transitions says where an event leads and what has to be done on the way. It knows
nothing of shapes: the editor keeps the data of each state and performs the actions. Pairs of state
and trigger that are not listed are ignored. -/

namespace CanvasTransform

/-- The states of the interaction. -/
inductive Phase
  | idle
  | pointingResizeHandle
  | resizing
  | pointingRotateHandle
  | rotating
  | pointingSelection
  | translating
deriving DecidableEq

/-- Input as the table sees it. -/
inductive Trigger
  | pressResizeHandle
  | pressRotateHandle
  | pressSelection
  | pressCanvas
  | move
  | release
  | modifiers
  | cancel
  | tick
deriving DecidableEq

/-- What is done on a transition. -/
inductive Action
  | nothing
  /-- Remember the press. -/
  | beginPointing
  /-- Show the cursor for what is under the pointer. -/
  | updateHover
  /-- Start the session once the pointer has come far enough; until then the state stays. -/
  | startSessionIfDragged
  /-- Recompute the session at the new place of the pointer. -/
  | update
  /-- Recompute the session with new modifiers. -/
  | updateModifiers
  /-- Keep what the session wrote last, and end it. -/
  | commit
  /-- Undo what the session wrote, and end it. -/
  | revert
  /-- Give up pointing without writing anything. -/
  | endPointing
  /-- Keep the press until the session has ended. -/
  | defer
  /-- Do what is due. -/
  | runTimers
deriving DecidableEq

namespace Phase

/-- Whether something is pressed and no session has started. -/
def isPointing : Phase → Bool
  | pointingResizeHandle | pointingRotateHandle | pointingSelection => true
  | _ => false

/-- Whether a session is running. -/
def isSession : Phase → Bool
  | resizing | rotating | translating => true
  | _ => false

end Phase

/-- One row of the table. -/
structure Transition where
  source : Phase
  trigger : Trigger
  next : Phase
  action : Action
deriving DecidableEq

namespace Transition

/-- The rows for a state in which something is pressed: a move may start `session`. -/
def pointingRows (pointing session : Phase) : List Transition :=
  [⟨pointing, .move, session, .startSessionIfDragged⟩,
    ⟨pointing, .release, .idle, .endPointing⟩,
    ⟨pointing, .cancel, .idle, .endPointing⟩]

/-- The rows for a state in which a session is running. -/
def sessionRows (session : Phase) : List Transition :=
  [⟨session, .move, session, .update⟩,
    ⟨session, .modifiers, session, .updateModifiers⟩,
    ⟨session, .release, .idle, .commit⟩,
    ⟨session, .cancel, .idle, .revert⟩,
    ⟨session, .pressResizeHandle, session, .defer⟩,
    ⟨session, .pressRotateHandle, session, .defer⟩,
    ⟨session, .pressSelection, session, .defer⟩,
    ⟨session, .pressCanvas, session, .defer⟩,
    ⟨session, .tick, session, .runTimers⟩]

/-- Every transition. -/
def table : List Transition :=
  [⟨.idle, .pressResizeHandle, .pointingResizeHandle, .beginPointing⟩,
    ⟨.idle, .pressRotateHandle, .pointingRotateHandle, .beginPointing⟩,
    ⟨.idle, .pressSelection, .pointingSelection, .beginPointing⟩,
    ⟨.idle, .move, .idle, .updateHover⟩] ++
  pointingRows .pointingResizeHandle .resizing ++
  pointingRows .pointingRotateHandle .rotating ++
  pointingRows .pointingSelection .translating ++
  sessionRows .resizing ++ sessionRows .rotating ++ sessionRows .translating

/-- The transition that a trigger causes in a state. -/
def find? (phase : Phase) (trigger : Trigger) : Option Transition :=
  table.find? fun t => t.source == phase && t.trigger == trigger

end Transition

end CanvasTransform
