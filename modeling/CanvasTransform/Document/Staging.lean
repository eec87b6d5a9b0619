import CanvasTransform.Document.Basic

set_option autoImplicit false

/-! # Staged updates

A staging area is a working copy of a document together with the updates that separate it from the
document it was opened on. Computations that follow up on an update, such as a group fitting itself
to children that moved, read the working copy before anything reaches the document. `Staging.pending`
is the whole difference as one batch: one patch per touched shape, in the order in which the shapes
were first touched. -/

namespace CanvasTransform

/-- A working copy and the batch that leads to it. -/
structure Staging (α : Type) where
  document : Document α
  pending : List (Patch α)

namespace Staging

variable {α : Type}

/-- The staging area freshly opened on a document. -/
def on (d : Document α) : Staging α := ⟨d, []⟩

/-- Merge a patch into the batch: into the patch of its shape, or as a new last one. -/
def record (p : Patch α) : List (Patch α) → List (Patch α)
  | [] => [p]
  | q :: rest => if q.id = p.id then q.merge p :: rest else q :: record p rest

/-- Stage one patch. A patch for an unknown shape is dropped. -/
def apply (s : Staging α) (p : Patch α) : Staging α :=
  if s.document.contains p.id then ⟨s.document.patch p, record p s.pending⟩ else s

/-- Stage patches in turn. -/
def applyAll (s : Staging α) (ps : List (Patch α)) : Staging α := ps.foldl apply s

/-- The touched shapes, in the order in which they were first touched. -/
def touched (s : Staging α) : List ShapeId := s.pending.map (·.id)

end Staging

end CanvasTransform
