import CanvasTransform.Selection.Handle
import CanvasTransform.Session.Flags

set_option autoImplicit false

/-! # Input

What happens to the editor, in page coordinates. A press may say what it is on; if it does not, the
editor finds out. -/

namespace CanvasTransform

/-- What a press is on. -/
inductive Target
  | handle (h : Handle)
  /-- The body of the selection. -/
  | selection
  /-- The empty canvas or a shape that is not selected. -/
  | canvas
deriving DecidableEq

/-- A press of the pointer. -/
structure Press (α : Type) where
  point : Point α
  /-- What the press is on, if it is known. -/
  target : Option Target
  modifiers : Modifiers
  /-- Whether the pointer is coarse, as a finger or a pen is. -/
  coarse : Bool
deriving DecidableEq

/-- An input event. Times are in milliseconds. -/
inductive Event (α : Type)
  | press (p : Press α)
  | move (point : Point α) (modifiers : Modifiers)
  | release (point : Point α) (modifiers : Modifiers)
  | modifiers (modifiers : Modifiers) (now : Nat)
  | key (name : String)
  | cancel
  | tick (now : Nat)
deriving DecidableEq

namespace Event

/-- The name of the key that cancels. -/
def cancelKey : String := "Escape"

/-- Whether the event asks for what is going on to be cancelled. -/
def isCancel {α : Type} : Event α → Bool
  | cancel => true
  | key name => name == cancelKey
  | _ => false

end Event

end CanvasTransform
