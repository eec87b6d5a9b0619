import CanvasTransform.Selection.Handle

set_option autoImplicit false

/-! # Cursors

The cursor shows what a press would do. It turns with the selection. -/

namespace CanvasTransform

inductive CursorKind
  | default
  /-- Along the diagonal from the top left to the bottom right. -/
  | resizeNwse
  /-- Along the diagonal from the top right to the bottom left. -/
  | resizeNesw
  | resizeEw
  | resizeNs
  | rotate
  | move
deriving DecidableEq

/-- A cursor and the angle by which it is turned. -/
structure Cursor (α : Type) where
  kind : CursorKind
  rotation : α
deriving BEq, DecidableEq

namespace Cursor

variable {α : Type} [Scalar α]

/-- The cursor where nothing can be grabbed. -/
def idle : Cursor α := ⟨.default, 0⟩

/-- The cursor for a handle of a selection turned by `rotation`. -/
def forHandle (h : Handle) (rotation : α) : Cursor α :=
  let kind :=
    match h with
    | .corner .topLeft | .corner .bottomRight => .resizeNwse
    | .corner .topRight | .corner .bottomLeft => .resizeNesw
    | .edge .left | .edge .right => .resizeEw
    | .edge .top | .edge .bottom => .resizeNs
    | .rotate => .rotate
  ⟨kind, rotation⟩

end Cursor

end CanvasTransform
