import CanvasTransform.Proofs.Numbers.Order
import CanvasTransform.Snap.Axis

set_option autoImplicit false

/-! # Along and across an axis

What snapping asks of boxes and displacements it asks along one axis. The near side of a box is not
past its far side (`Axis.near_le_far`), both are coordinates of corners, and both move with the box
by what the displacement measures along the axis (`Axis.near_add`, `Axis.far_add`). -/

namespace CanvasTransform

variable {α : Type}

namespace Axis

/-- The component of a displacement along the axis. -/
def component (axis : Axis) (v : Vec α) : α :=
  match axis with
  | .x => v.x
  | .y => v.y

@[simp] theorem coord_point (axis : Axis) (along across : α) :
    axis.coord (axis.point along across) = along := by
  cases axis <;> rfl

@[simp] theorem cross_coord_point (axis : Axis) (along across : α) :
    axis.cross.coord (axis.point along across) = across := by
  cases axis <;> rfl

theorem mem_both (axis : Axis) : axis ∈ [Axis.x, Axis.y] := by
  cases axis <;> simp

end Axis

/-- All coordinates of the rectangle are numbers. -/
structure Rect.IsNumeric [Scalar α] (r : Rect α) : Prop where
  x0 : Scalar.IsNumber r.x0
  y0 : Scalar.IsNumber r.y0
  x1 : Scalar.IsNumber r.x1
  y1 : Scalar.IsNumber r.y1

namespace Axis

variable [Scalar α] (axis : Axis)

theorem near_le_far [Scalar.LawfulOrder α] {r : Rect α} (h : r.IsNumeric) :
    axis.near r ≤ axis.far r := by
  cases axis with
  | x => exact Scalar.min_le_max h.x0 h.x1
  | y => exact Scalar.min_le_max h.y0 h.y1

end Axis

/-! ## Exact sides -/

theorem Rect.isNumeric (r : Rect ℝ) : r.IsNumeric :=
  ⟨le_refl (α := ℝ) _, le_refl (α := ℝ) _, le_refl (α := ℝ) _, le_refl (α := ℝ) _⟩

namespace Axis

variable (axis : Axis) (r : Rect ℝ) (v : Vec ℝ)

theorem near_add : axis.near (r + v) = axis.near r + axis.component v := by
  cases axis <;>
    simp only [near, component, Rect.minX, Rect.minY, Scalar.min_eq, Rect.add_x0, Rect.add_x1,
      Rect.add_y0, Rect.add_y1, min_add_add_right]

theorem far_add : axis.far (r + v) = axis.far r + axis.component v := by
  cases axis <;>
    simp only [far, component, Rect.maxX, Rect.maxY, Scalar.max_eq, Rect.add_x0, Rect.add_x1,
      Rect.add_y0, Rect.add_y1, max_add_add_right]

theorem exists_corner_near : ∃ p ∈ r.corners, axis.coord p = axis.near r := by
  cases axis with
  | x =>
      have hside : r.minX = r.x0 ∨ r.minX = r.x1 := by
        rw [Rect.minX, Scalar.min_eq]
        exact min_choice _ _
      exact ⟨⟨r.minX, r.y0⟩, (r.mem_corners_iff _).2 ⟨hside, Or.inl rfl⟩, rfl⟩
  | y =>
      have hside : r.minY = r.y0 ∨ r.minY = r.y1 := by
        rw [Rect.minY, Scalar.min_eq]
        exact min_choice _ _
      exact ⟨⟨r.x0, r.minY⟩, (r.mem_corners_iff _).2 ⟨Or.inl rfl, hside⟩, rfl⟩

theorem exists_corner_far : ∃ p ∈ r.corners, axis.coord p = axis.far r := by
  cases axis with
  | x =>
      have hside : r.maxX = r.x0 ∨ r.maxX = r.x1 := by
        rw [Rect.maxX, Scalar.max_eq]
        exact max_choice _ _
      exact ⟨⟨r.maxX, r.y0⟩, (r.mem_corners_iff _).2 ⟨hside, Or.inl rfl⟩, rfl⟩
  | y =>
      have hside : r.maxY = r.y0 ∨ r.maxY = r.y1 := by
        rw [Rect.maxY, Scalar.max_eq]
        exact max_choice _ _
      exact ⟨⟨r.x0, r.maxY⟩, (r.mem_corners_iff _).2 ⟨Or.inl rfl, hside⟩, rfl⟩

end Axis

end CanvasTransform
