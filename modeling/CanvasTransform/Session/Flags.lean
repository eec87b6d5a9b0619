set_option autoImplicit false

/-! # Modifier keys

`Modifiers` is what the keyboard says; `Flags` is what the transforms make of it. -/

namespace CanvasTransform

/-- The modifier keys that are held. -/
structure Modifiers where
  shift : Bool
  ctrl : Bool
  alt : Bool
  command : Bool
deriving DecidableEq

namespace Modifiers

def none : Modifiers := ⟨false, false, false, false⟩

def shiftOnly : Modifiers := { none with shift := true }

def ctrlOnly : Modifiers := { none with ctrl := true }

def altOnly : Modifiers := { none with alt := true }

/-- Whether the key for snapping is held: control, or the command key. -/
def snap (m : Modifiers) : Bool := m.ctrl || m.command

end Modifiers

/-- The modifiers as the transforms read them. -/
structure Flags where
  /-- Keep the aspect ratio, move along one axis only, turn in steps. -/
  shift : Bool
  /-- Scale from the center; show the cloning indicator. -/
  alt : Bool
  /-- Snap to other shapes instead of the grid. -/
  ctrl : Bool
deriving DecidableEq

def Modifiers.flags (m : Modifiers) : Flags := ⟨m.shift, m.alt, m.snap⟩

end CanvasTransform
