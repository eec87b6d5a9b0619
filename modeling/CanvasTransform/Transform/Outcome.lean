import CanvasTransform.Error
import CanvasTransform.Shape.Patch

set_option autoImplicit false

/-! # Outcomes

What a transform of a selection comes to: the patches, and the shapes that had to be left out. A
shape that is left out takes everything below it along. -/

namespace CanvasTransform

/-- Patches and the shapes that have none. -/
structure Outcome (α : Type) where
  updates : List (Patch α)
  skipped : List TransformError
deriving DecidableEq

namespace Outcome

variable {α : Type}

def empty : Outcome α := ⟨[], []⟩

/-- The outcome of transforming one shape. -/
def update (p : Patch α) : Outcome α := ⟨[p], []⟩

/-- The outcome of leaving one shape out. -/
def skip (e : TransformError) : Outcome α := ⟨[], [e]⟩

instance : Append (Outcome α) := ⟨fun o p => ⟨o.updates ++ p.updates, o.skipped ++ p.skipped⟩⟩

@[simp] theorem updates_append (o p : Outcome α) : (o ++ p).updates = o.updates ++ p.updates := rfl
@[simp] theorem skipped_append (o p : Outcome α) : (o ++ p).skipped = o.skipped ++ p.skipped := rfl

/-- The outcomes of several shapes, one after the other. -/
def concat (os : List (Outcome α)) : Outcome α := os.foldr (· ++ ·) empty

/-- The outcome of one shape whose transform may fail. -/
def ofExcept : Except TransformError (Patch α) → Outcome α
  | .ok p => update p
  | .error e => skip e

end Outcome

end CanvasTransform
