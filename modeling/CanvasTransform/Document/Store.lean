import CanvasTransform.Document.Hierarchy
import CanvasTransform.Error

set_option autoImplicit false

/-! # The document store

The store owns the document. Shapes enter and leave it one at a time, and their geometry changes in
batches: `Store.update` applies a batch as a whole and reports it once. The batches reported so far
are the store's `journal`; whoever replays them on a copy keeps up with the document. -/

namespace CanvasTransform

/-- A document and the batches reported since the journal was opened, oldest first. -/
structure Store (α : Type) where
  document : Document α
  journal : List (List (Patch α))

namespace Store

variable {α : Type}

def empty : Store α := ⟨Document.empty, []⟩

/-- Add a shape. Its identity must be new, and its parent must exist. -/
def insert (s : Store α) (shape : Shape α) : Except StoreError (Store α) :=
  if s.document.contains shape.id then .error (.duplicateId shape.id)
  else
    match shape.parent with
    | .page => .ok { s with document := s.document.put shape }
    | .shape parent =>
      if s.document.contains parent then .ok { s with document := s.document.put shape }
      else .error (.parentNotFound parent)

/-- Hang a shape from another parent; its position relative to the parent stays. The new parent must
    exist, and the shape must not be the new parent or among the nearest ancestors of it. Nothing
    happens when the shape itself does not exist. -/
def reparent (s : Store α) (id : ShapeId) (parent : Parent) : Except StoreError (Store α) :=
  let moved : Store α :=
    match s.document.get? id with
    | some shape => { s with document := s.document.put (shape.withParent parent) }
    | none => s
  match parent with
  | .page => .ok moved
  | .shape target =>
    if !s.document.contains target then .error (.parentNotFound target)
    else if (target :: s.document.ancestorsWithin (Document.maxDepth - 1) target).contains id then
      .error (.cycle id)
    else .ok moved

/-- Remove a shape and everything beneath it. -/
def remove (s : Store α) (id : ShapeId) : Option (Shape α) × Store α :=
  (s.document.get? id,
    { s with document := (s.document.subtree id).foldl Document.erase s.document })

/-- Apply a batch and report it. Patches for unknown shapes and patches that change nothing are left
    out; a batch with nothing left is not reported. -/
def update (s : Store α) (batch : List (Patch α)) : Store α :=
  let effective := batch.filter fun p => s.document.contains p.id && !p.isEmpty
  if effective.isEmpty then s
  else ⟨s.document.patchAll effective, s.journal ++ [effective]⟩

end Store

end CanvasTransform
