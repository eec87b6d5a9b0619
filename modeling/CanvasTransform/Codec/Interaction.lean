import CanvasTransform.Codec.Selection
import CanvasTransform.Editor.Event
import CanvasTransform.Editor.Transition

set_option autoImplicit false

/-! # Input and the state machine as JSON -/

namespace CanvasTransform

instance : Codec Modifiers where
  toJson m :=
    .record [("shift", toJson m.shift), ("ctrl", toJson m.ctrl), ("alt", toJson m.alt),
      ("meta", toJson m.command)]
  ofJson? j := do
    let [shift, ctrl, alt, command] ← j.slots? ["shift", "ctrl", "alt", "meta"] | none
    return ⟨← shift.required?, ← ctrl.required?, ← alt.required?, ← command.required?⟩

instance : Codec Target where
  toJson
    | .handle h => .tagged "Handle" (toJson h)
    | .selection => .text "Selection"
    | .canvas => .text "Canvas"
  ofJson? j :=
    match j.variant? with
    | some ("Handle", h) => (ofJson? h).map .handle
    | _ =>
      match j.name? with
      | some "Selection" => some .selection
      | some "Canvas" => some .canvas
      | _ => none

namespace Phase

def all : List Phase :=
  [idle, pointingResizeHandle, resizing, pointingRotateHandle, rotating, pointingSelection,
    translating]

def name : Phase → String
  | idle => "Idle"
  | pointingResizeHandle => "PointingResizeHandle"
  | resizing => "Resizing"
  | pointingRotateHandle => "PointingRotateHandle"
  | rotating => "Rotating"
  | pointingSelection => "PointingSelection"
  | translating => "Translating"

end Phase

instance : Codec Phase where
  toJson p := .text p.name
  ofJson? := Json.named? Phase.all Phase.name

namespace Trigger

def all : List Trigger :=
  [pressResizeHandle, pressRotateHandle, pressSelection, pressCanvas, move, release, modifiers,
    cancel, tick]

def name : Trigger → String
  | pressResizeHandle => "PointerDownOnResizeHandle"
  | pressRotateHandle => "PointerDownOnRotateHandle"
  | pressSelection => "PointerDownOnSelection"
  | pressCanvas => "PointerDownOnCanvas"
  | move => "PointerMove"
  | release => "PointerUp"
  | modifiers => "ModifiersChanged"
  | cancel => "Cancel"
  | tick => "Tick"

end Trigger

instance : Codec Trigger where
  toJson t := .text t.name
  ofJson? := Json.named? Trigger.all Trigger.name

namespace Action

def all : List Action :=
  [nothing, beginPointing, updateHover, startSessionIfDragged, update, updateModifiers, commit,
    revert, endPointing, defer, runTimers]

def name : Action → String
  | nothing => "None"
  | beginPointing => "BeginPointing"
  | updateHover => "UpdateHover"
  | startSessionIfDragged => "StartSessionIfDragged"
  | update => "Update"
  | updateModifiers => "UpdateModifiers"
  | commit => "Commit"
  | revert => "Revert"
  | endPointing => "EndPointing"
  | defer => "Defer"
  | runTimers => "RunTimers"

end Action

instance : Codec Action where
  toJson a := .text a.name
  ofJson? := Json.named? Action.all Action.name

end CanvasTransform
