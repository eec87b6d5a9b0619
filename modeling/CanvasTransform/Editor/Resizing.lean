import CanvasTransform.Editor.Basic

set_option autoImplicit false

/-! # Resizing without the pointer

The selection scaled or mirrored in one step and written as one batch. -/

namespace CanvasTransform

/-- The point that stays when the selection is scaled. -/
inductive ScaleOrigin (α : Type)
  /-- The center of the selection. -/
  | center
  /-- The place of a handle on the selection box. -/
  | handle (h : Handle)
  /-- A point of the page. -/
  | point (p : Point α)
deriving DecidableEq

variable {α : Type} [Scalar α]

/-- The point that stays, in the selection frame. -/
def ScaleOrigin.anchor (o : ScaleOrigin α) (box : OrientedBox α) : Point α :=
  match o with
  | center => box.rect.center
  | handle h => h.positionOn box.rect
  | point p => box.toFrame.apply p

namespace Editor

/-- The factors that a selection takes on: an aspect-locked one scales evenly, by the larger. -/
def lockedFactors (factors : Vec α) (aspectLocked : Bool) : Vec α :=
  if aspectLocked && Scalar.abs factors.x != Scalar.abs factors.y then factors.equalize
  else factors

/-- Scale the selection along the axes of its frame. The outcome has the batch that was written.
    Nothing happens while a session is running. -/
def resizeSelection (e : Editor α) (store : Store α) (factors : Vec α) (origin : ScaleOrigin α) :
    Outcome α × Store α :=
  if e.phase.isSession then (.empty, store)
  else
    match e.capture? store.document with
    | none => (.empty, store)
    | some snapshot =>
      let canvas := e.canvas store.document
      let box := snapshot.box
      let scale : FrameScale α :=
        ⟨lockedFactors factors snapshot.aspectLocked, origin.anchor box⟩
      let outcome := snapshot.scale canvas (box.pageScale scale)
      let batch := canvas.batch outcome.updates
      ({ outcome with updates := batch }, store.update batch)

/-- Mirror the selection left to right about its center. -/
def flipHorizontal (e : Editor α) (store : Store α) : Outcome α × Store α :=
  e.resizeSelection store ⟨-1, 1⟩ .center

/-- Mirror the selection top to bottom about its center. -/
def flipVertical (e : Editor α) (store : Store α) : Outcome α × Store α :=
  e.resizeSelection store ⟨1, -1⟩ .center

end Editor

end CanvasTransform
