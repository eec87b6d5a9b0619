import Mathlib.Analysis.SpecialFunctions.Complex.Arg
import Mathlib.Tactic.Tauto
import CanvasTransform.Geometry.Rect

set_option autoImplicit false

/-! # The exact reading

The engine read over the real numbers. Here the laws of geometry hold that rounding breaks: affine
maps compose associatively, a turn is undone by the turn back, and moving a rectangle moves the box
around it by as much. -/

namespace CanvasTransform

/-- The real numbers as scalars. Every real number is finite, and zero has one sign. -/
noncomputable instance : Scalar ℝ where
  decLt a b := Real.decidableLT a b
  decLe a b := Real.decidableLE a b
  beq a b := decide (a = b)
  abs a := |a|
  copysign a b := if b < 0 then -|a| else |a|
  sqrt := Real.sqrt
  sin := Real.sin
  cos := Real.cos
  atan2 y x := Complex.arg ⟨x, y⟩
  round a := if a < 0 then -⌊-a + 1 / 2⌋ else ⌊a + 1 / 2⌋
  remEuclid a b := a - |b| * ⌊a / |b|⌋
  pi := Real.pi
  isFinite _ := true
  totalLe a b := decide (a ≤ b)

namespace Scalar

theorem max_eq (a b : ℝ) : Scalar.max a b = Max.max a b := by
  unfold Scalar.max
  by_cases h : b < a
  · rw [if_pos h, max_eq_left h.le]
  · rw [if_neg h, if_pos (le_refl b), max_eq_right (not_lt.1 h)]

theorem min_eq (a b : ℝ) : Scalar.min a b = Min.min a b := by
  unfold Scalar.min
  by_cases h : a < b
  · rw [if_pos h, min_eq_left h.le]
  · rw [if_neg h, if_pos (le_refl b), min_eq_right (not_lt.1 h)]

theorem coordTolerance_pos : (0 : ℝ) < Scalar.coordTolerance := by
  unfold Scalar.coordTolerance
  norm_num

end Scalar

/-! ## Affine maps -/

attribute [ext] Affine Point Vec Rect

namespace Affine

section
variable {α : Type} [Scalar α] (s t : Affine α)

@[simp] theorem mul_a : (s * t).a = s.a * t.a + s.c * t.b := rfl
@[simp] theorem mul_b : (s * t).b = s.b * t.a + s.d * t.b := rfl
@[simp] theorem mul_c : (s * t).c = s.a * t.c + s.c * t.d := rfl
@[simp] theorem mul_d : (s * t).d = s.b * t.c + s.d * t.d := rfl
@[simp] theorem mul_e : (s * t).e = s.a * t.e + s.c * t.f + s.e := rfl
@[simp] theorem mul_f : (s * t).f = s.b * t.e + s.d * t.f + s.f := rfl

end

variable (s t u : Affine ℝ)

protected theorem mul_assoc : s * t * u = s * (t * u) := by
  ext <;> simp only [mul_a, mul_b, mul_c, mul_d, mul_e, mul_f] <;> ring

@[simp] protected theorem identity_mul : identity * t = t := by
  ext <;> simp [identity]

@[simp] protected theorem mul_identity : t * identity = t := by
  ext <;> simp [identity]

theorem apply_mul (p : Point ℝ) : (s * t).apply p = s.apply (t.apply p) := by
  ext <;> simp only [apply, mul_a, mul_b, mul_c, mul_d, mul_e, mul_f] <;> ring

@[simp] theorem apply_identity (p : Point ℝ) : identity.apply p = p := by
  ext <;> simp [apply, identity]

@[simp] theorem apply_translate (v : Vec ℝ) (p : Point ℝ) : (translate v).apply p = p + v := by
  ext <;> simp [apply, translate]

theorem applyVec_mul (v : Vec ℝ) : (s * t).applyVec v = s.applyVec (t.applyVec v) := by
  ext <;> simp only [applyVec, mul_a, mul_b, mul_c, mul_d] <;> ring

@[simp] theorem applyVec_identity (v : Vec ℝ) : identity.applyVec v = v := by
  ext <;> simp [applyVec, identity]

theorem rotate_eq (angle : ℝ) : rotate angle =
    ⟨Real.cos angle, Real.sin angle, -Real.sin angle, Real.cos angle, 0, 0⟩ := rfl

theorem translate_mul_translate (v w : Vec ℝ) :
    translate v * translate w = translate (v + w) := by
  ext <;> simp [translate, add_comm]

@[simp] theorem translate_zero : translate (Vec.zero : Vec ℝ) = identity := rfl

/-- A displacement within a frame, seen from outside. -/
theorem mul_translate (v : Vec ℝ) : t * translate v = translate (t.applyVec v) * t := by
  ext <;> simp [translate, applyVec, add_comm]

/-- A placement moved within the frame of what is placed. -/
theorem placement_mul_translate (x y rotation : ℝ) (v : Vec ℝ) :
    placement x y rotation * translate v =
      placement (x + (v.rotate rotation).x) (y + (v.rotate rotation).y) rotation := by
  ext <;> simp [placement, translate, rotate, Vec.rotate] <;> ring

/-- A placement moved within the frame that contains it. -/
theorem translate_mul_placement (x y rotation : ℝ) (v : Vec ℝ) :
    translate v * placement x y rotation = placement (x + v.x) (y + v.y) rotation := by
  ext <;> simp [placement, translate, rotate]

end Affine

/-! ## Moving rectangles -/

namespace Rect

variable (r s : Rect ℝ) (p q : Point ℝ) (v : Vec ℝ)

@[simp] theorem add_x0 : (r + v).x0 = r.x0 + v.x := rfl
@[simp] theorem add_y0 : (r + v).y0 = r.y0 + v.y := rfl
@[simp] theorem add_x1 : (r + v).x1 = r.x1 + v.x := rfl
@[simp] theorem add_y1 : (r + v).y1 = r.y1 + v.y := rfl

theorem mem_corners_iff : p ∈ r.corners ↔ (p.x = r.x0 ∨ p.x = r.x1) ∧ (p.y = r.y0 ∨ p.y = r.y1) := by
  simp only [corners, List.mem_cons, List.not_mem_nil, or_false, Point.ext_iff]
  tauto

theorem ofPoints_add : ofPoints (p + v) (q + v) = ofPoints p q + v := by
  ext <;> simp [ofPoints, Scalar.min_eq, Scalar.max_eq, min_add_add_right, max_add_add_right]

theorem unionPoint_add : (r + v).unionPoint (p + v) = r.unionPoint p + v := by
  ext <;> simp [unionPoint, Scalar.min_eq, Scalar.max_eq, min_add_add_right, max_add_add_right]

theorem union_add : (r + v).union (s + v) = r.union s + v := by
  ext <;> simp [union, Scalar.min_eq, Scalar.max_eq, min_add_add_right, max_add_add_right]

/-- A map followed by a displacement moves the box around the image. -/
theorem transformedBounds_translate (t : Affine ℝ) :
    r.transformedBounds (Affine.translate v * t) = r.transformedBounds t + v := by
  have happly : ∀ p : Point ℝ, (Affine.translate v * t).apply p = t.apply p + v := by
    intro p
    rw [Affine.apply_mul, Affine.apply_translate]
  simp only [transformedBounds, happly, ofPoints_add, unionPoint_add]

/-- The box around the corners of a rectangle that was moved has its center where that of the
    rectangle went. -/
theorem center_of_boundsOf?_corners {box : Rect ℝ}
    (h : boundsOf? (r.corners.map fun p => (p + v : Point ℝ)) = some box) :
    box.center = r.center + v := by
  have hx : ∀ a b : ℝ, min (min (min a b) b) a + max (max (max a b) b) a = a + b := by
    intro a b
    rw [min_assoc a b b, min_self, min_right_comm, min_self, max_assoc a b b, max_self,
      max_right_comm, max_self, min_add_max]
  have hy : ∀ a b : ℝ, min (min a b) b + max (max a b) b = a + b := by
    intro a b
    rw [min_assoc a b b, min_self, max_assoc a b b, max_self, min_add_max]
  simp only [corners, List.map_cons, List.map_nil, boundsOf?, List.foldl_cons, List.foldl_nil,
    Option.some.injEq] at h
  rw [← h]
  ext
  · simp only [center, unionPoint, ofPoints, Point.add_x, Scalar.min_eq, Scalar.max_eq, min_self,
      max_self, hx]
    ring
  · simp only [center, unionPoint, ofPoints, Point.add_y, Scalar.min_eq, Scalar.max_eq, min_self,
      max_self, hy]
    ring

theorem unionAll?_map_add (rs : List (Rect ℝ)) :
    unionAll? (rs.map fun r => (r + v : Rect ℝ)) = (unionAll? rs).map fun r => (r + v : Rect ℝ) := by
  cases rs with
  | nil => rfl
  | cons r rs =>
      simp only [List.map_cons, unionAll?, Option.map_some]
      congr 1
      induction rs generalizing r with
      | nil => rfl
      | cons s rs ih => rw [List.map_cons, List.foldl_cons, union_add, ih, List.foldl_cons]

end Rect

end CanvasTransform
