import CanvasTransform.Behaviour.Builtin
import CanvasTransform.Document.Hierarchy

set_option autoImplicit false

/-! # The registry of behaviours

The registry says how each kind of shape behaves; a kind without an entry behaves like a box. It
also closes the recursion of bounds over the tree: the bounds of a shape may ask for the bounds of
shapes below it, down to as many levels as the document has shapes, which is as deep as any forest
goes. -/

namespace CanvasTransform

/-- The behaviour of each kind that has one of its own. -/
structure Registry (α : Type) where
  entries : Kind → Option (Behaviour α)

namespace Registry

variable {α : Type} [Scalar α]

/-- No entries: every shape behaves like a box. -/
def empty : Registry α := ⟨fun _ => none⟩

/-- Give a kind a behaviour, in place of the one it had. -/
def register (r : Registry α) (kind : Kind) (b : Behaviour α) : Registry α :=
  ⟨fun k => if k = kind then some b else r.entries k⟩

/-- The behaviours that the kinds come with. -/
def builtinBehaviour : Kind → Behaviour α
  | .rectangle | .ellipse | .frame => Behaviour.box
  | .text | .note => Behaviour.fixedSize
  | .image => Behaviour.image
  | .line => Behaviour.line
  | .group => Behaviour.group

/-- Every kind with the behaviour it comes with. -/
def builtin : Registry α := ⟨fun kind => some (builtinBehaviour kind)⟩

def behaviour (r : Registry α) (kind : Kind) : Behaviour α := (r.entries kind).getD Behaviour.box

/-! ## Operations on shapes -/

/-- Bounds in the shape's own frame, looking at most `n` levels down. -/
def boundsWithin (r : Registry α) (d : Document α) : Nat → Shape α → Rect α
  | 0, _ => Rect.zero
  | n + 1, s => (r.behaviour s.kind).bounds d (r.boundsWithin d n) s

/-- Bounds in the shape's own frame. -/
def bounds (r : Registry α) (d : Document α) (s : Shape α) : Rect α :=
  r.boundsWithin d (d.size + 1) s

def canResize (r : Registry α) (s : Shape α) : Bool := (r.behaviour s.kind).canResize s

/-- The patch that resizes a shape, or only moves it when it does not change size. -/
def resize (r : Registry α) (s : Shape α) (p : Placement α) : Patch α :=
  if r.canResize s then (r.behaviour s.kind).resize s p else Behaviour.resizeFixed s p

def isAspectLocked (r : Registry α) (s : Shape α) : Bool := (r.behaviour s.kind).isAspectLocked s

/-- The patches that a shape asks for after its children changed. -/
def refit (r : Registry α) (d : Document α) (s : Shape α) : List (Patch α) :=
  (r.behaviour s.kind).refit d (r.bounds d) s

def snapPoints (r : Registry α) (s : Shape α) : List (Point α) :=
  (r.behaviour s.kind).snapPoints s

end Registry

end CanvasTransform
