import CanvasTransform.Shape.Basic

set_option autoImplicit false

/-! # Patches

A patch is a sparse update of one shape: each field is set or left alone. Patches can move, turn and
resize a shape, and can do nothing else: identity, kind, parent and place among the siblings are out
of their reach. `Patch.merge` combines two patches into one that does what both do in turn
(`Shape.patch_merge`). -/

namespace CanvasTransform

/-- A sparse update of the shape `id`. -/
structure Patch (α : Type) where
  id : ShapeId
  x : Option α
  y : Option α
  rotation : Option α
  form : Option (Form α)
deriving DecidableEq

namespace Patch

variable {α : Type}

/-- The patch that changes nothing. -/
def empty (id : ShapeId) : Patch α := ⟨id, none, none, none, none⟩

/-- The patch that moves a shape. -/
def position (id : ShapeId) (x y : α) : Patch α := { empty id with x := some x, y := some y }

/-- The patch that writes back everything of `s` that a patch can write. -/
def restore (s : Shape α) : Patch α :=
  ⟨s.id, some s.x, some s.y, some s.rotation, some s.form⟩

def withForm (p : Patch α) (form : Form α) : Patch α := { p with form := some form }

/-- The patch that does what `p` and then `later` do. -/
def merge (p later : Patch α) : Patch α :=
  { id := p.id
    x := later.x <|> p.x
    y := later.y <|> p.y
    rotation := later.rotation <|> p.rotation
    form := later.form <|> p.form }

/-- Whether the patch changes nothing. -/
def isEmpty (p : Patch α) : Bool :=
  p.x.isNone && p.y.isNone && p.rotation.isNone && p.form.isNone

variable [Scalar α]

/-- The patch with a rotation, brought into `[0, 2π)`. -/
def withRotation (p : Patch α) (rotation : α) : Patch α :=
  { p with rotation := some (Angle.normalize rotation) }

/-- Whether every number that the patch writes is finite. -/
def isFinite (p : Patch α) : Bool :=
  p.x.all Scalar.isFinite && p.y.all Scalar.isFinite && p.rotation.all Scalar.isFinite &&
    p.form.all Form.isFinite

end Patch

namespace Shape

variable {α : Type}

/-- The shape after a patch. -/
def patch (s : Shape α) (p : Patch α) : Shape α :=
  { s with
    x := p.x.getD s.x
    y := p.y.getD s.y
    rotation := p.rotation.getD s.rotation
    form := p.form.getD s.form }

@[simp] theorem patch_id (s : Shape α) (p : Patch α) : (s.patch p).id = s.id := rfl
@[simp] theorem patch_kind (s : Shape α) (p : Patch α) : (s.patch p).kind = s.kind := rfl
@[simp] theorem patch_parent (s : Shape α) (p : Patch α) : (s.patch p).parent = s.parent := rfl
@[simp] theorem patch_index (s : Shape α) (p : Patch α) : (s.patch p).index = s.index := rfl

@[simp] theorem patch_empty (s : Shape α) (id : ShapeId) : s.patch (Patch.empty id) = s := rfl

/-- A merged patch does what its two parts do in turn. -/
theorem patch_merge (s : Shape α) (p later : Patch α) :
    s.patch (p.merge later) = (s.patch p).patch later := by
  simp only [patch, Patch.merge, Shape.mk.injEq, true_and]
  refine ⟨?_, ?_, ?_, ?_⟩
  · cases later.x <;> rfl
  · cases later.y <;> rfl
  · cases later.rotation <;> rfl
  · cases later.form <;> rfl

/-- Restoring brings a shape back, whatever patches it has seen since. -/
theorem patch_restore (s : Shape α) (p : Patch α) : (s.patch p).patch (Patch.restore s) = s := rfl

end Shape

end CanvasTransform
