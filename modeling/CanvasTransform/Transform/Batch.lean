import CanvasTransform.Canvas
import CanvasTransform.Document.Staging

set_option autoImplicit false

/-! # Assembling a batch

Before updates reach the document they are staged, and every container of a touched shape gets to
react, deepest first: a container's own reaction may change what the containers around it see. The
result is one batch with one patch per shape. -/

namespace CanvasTransform

variable {α : Type} [Scalar α]

/-- Pair each shape of a chain of ancestors with its depth: the number of ancestors above it. -/
def withDepth : List ShapeId → List (Nat × ShapeId)
  | [] => []
  | id :: above => (above.length, id) :: withDepth above

namespace Document

/-- The containers of the given shapes, each once with its depth, deepest first. Containers of the
    same depth stay in the order in which they were come upon. -/
def containersOf (d : Document α) (ids : List ShapeId) : List (Nat × ShapeId) :=
  ((ids.flatMap fun id => withDepth (d.ancestors id)).eraseDupsBy fun a b => a.2 == b.2).mergeSort
    fun a b => b.1 ≤ a.1

end Document

/-- Let one container react to what is staged. -/
def Staging.refit (s : Staging α) (registry : Registry α) (id : ShapeId) : Staging α :=
  match s.document.get? id with
  | some container => s.applyAll (registry.refit s.document container)
  | none => s

/-- The batch that updates come to once the containers around them have reacted. -/
def Canvas.batch (c : Canvas α) (updates : List (Patch α)) : List (Patch α) :=
  let staged := (Staging.on c.document).applyAll updates
  let containers := c.document.containersOf staged.touched
  (containers.foldl (fun s container => s.refit c.registry container.2) staged).pending

end CanvasTransform
