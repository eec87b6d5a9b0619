import CanvasTransform.Shape.Patch
import Std.Data.TreeMap

set_option autoImplicit false

/-! # Documents

A document is a finite map from identities to shapes. It is read through `Document.get?`; every
operation is described by what it does to that view. The shapes form a tree through their `parent`
fields, and `Document.children` lists one level of it, back to front. -/

namespace CanvasTransform

/-- The shapes of a document, by identity. -/
structure Document (α : Type) where
  shapes : Std.TreeMap ShapeId (Shape α) compare

namespace Document

variable {α : Type}

def empty : Document α := ⟨∅⟩

/-- The shape with the given identity. -/
def get? (d : Document α) (id : ShapeId) : Option (Shape α) := d.shapes[id]?

def contains (d : Document α) (id : ShapeId) : Bool := (d.get? id).isSome

/-- The number of shapes. -/
def size (d : Document α) : Nat := d.shapes.size

/-- All shapes, ordered by identity. -/
def toList (d : Document α) : List (Shape α) := d.shapes.values

/-- Add a shape, or put it in the place of the one with its identity. -/
def put (d : Document α) (s : Shape α) : Document α := ⟨d.shapes.insert s.id s⟩

/-- Remove one shape, and only it. -/
def erase (d : Document α) (id : ShapeId) : Document α := ⟨d.shapes.erase id⟩

/-! ## Patching -/

/-- Apply a patch to the shape it names. A patch for an unknown shape does nothing. -/
def patch (d : Document α) (p : Patch α) : Document α :=
  match d.get? p.id with
  | some s => ⟨d.shapes.insert p.id (s.patch p)⟩
  | none => d

/-- Apply patches in turn. -/
def patchAll (d : Document α) (ps : List (Patch α)) : Document α := ps.foldl patch d

/-! ## One level of the tree -/

/-- Whether `s` belongs behind `t` or keeps its place before it: by index, then by identity. -/
def behind (s t : Shape α) : Bool := s.index < t.index || (s.index == t.index && s.id.ule t.id)

/-- The children of `parent`, back to front. -/
def children (d : Document α) (parent : Parent) : List ShapeId :=
  let found := d.shapes.foldr (fun _ s acc => if s.parent = parent then s :: acc else acc) []
  (found.mergeSort behind).map (·.id)

/-! ## The view -/

@[simp] theorem get?_empty (id : ShapeId) : (empty : Document α).get? id = none := by
  simp [get?, empty]

theorem get?_put (d : Document α) (s : Shape α) (id : ShapeId) :
    (d.put s).get? id = if s.id = id then some s else d.get? id := by
  simp [get?, put, Std.TreeMap.getElem?_insert]

theorem get?_erase (d : Document α) (id id' : ShapeId) :
    (d.erase id).get? id' = if id = id' then none else d.get? id' := by
  simp [get?, erase, Std.TreeMap.getElem?_erase]

/-- A patch reaches the shape it names and no other. -/
theorem get?_patch (d : Document α) (p : Patch α) (id : ShapeId) :
    (d.patch p).get? id = if p.id = id then (d.get? id).map (·.patch p) else d.get? id := by
  unfold patch
  by_cases h : p.id = id
  · subst h
    cases hs : d.get? p.id with
    | none => simp [hs]
    | some s => simp [get?]
  · cases hs : d.get? p.id with
    | none => simp [h]
    | some s => simp [h, get?, Std.TreeMap.getElem?_insert]

end Document

end CanvasTransform
