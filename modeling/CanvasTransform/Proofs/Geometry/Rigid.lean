import CanvasTransform.Proofs.Geometry.Exact
import Mathlib.Analysis.SpecialFunctions.Trigonometric.Complex

set_option autoImplicit false

/-! # Rigid maps, and what a scaling does to their axes

The frames of shapes are rigid: a turn, then a displacement. Read exactly, a rigid map is undone by
its inverse, and its rotation gives its coefficients back.

A map of the page *stretches* a frame when it takes each axis of the frame to a multiple of itself
(`Affine.Stretches`). Then following the frame by the map is the same as first scaling within the
frame (`Affine.Stretches.mul_eq`). -/

namespace CanvasTransform

/-! ## Angles -/

namespace Scalar

theorem tau_eq : (tau : ℝ) = 2 * Real.pi := by
  show (2.0 : ℝ) * Real.pi = 2 * Real.pi
  norm_num

theorem norm_mk {x y k : ℝ} (hk : 0 < k) (h : x * x + y * y = k * k) : ‖(⟨x, y⟩ : ℂ)‖ = k := by
  rw [Complex.norm_def, Complex.normSq_mk, h, Real.sqrt_mul_self hk.le]

theorem cos_atan2 {x y k : ℝ} (hk : 0 < k) (h : x * x + y * y = k * k) :
    Real.cos (atan2 y x) = x / k := by
  have hne : (⟨x, y⟩ : ℂ) ≠ 0 := norm_pos_iff.1 (by rw [norm_mk hk h]; exact hk)
  show Real.cos (Complex.arg ⟨x, y⟩) = x / k
  rw [Complex.cos_arg hne, norm_mk hk h]

theorem sin_atan2 {x y k : ℝ} (hk : 0 < k) (h : x * x + y * y = k * k) :
    Real.sin (atan2 y x) = y / k := by
  show Real.sin (Complex.arg ⟨x, y⟩) = y / k
  rw [Complex.sin_arg, norm_mk hk h]

end Scalar

namespace Angle

theorem normalize_eq (a : ℝ) :
    normalize a = a - ⌊a / (2 * Real.pi)⌋ * (2 * Real.pi) ∧ 0 ≤ normalize a ∧
      normalize a < 2 * Real.pi := by
  have hpi := Real.two_pi_pos
  have hrem : (Scalar.remEuclid a Scalar.tau : ℝ) = a - ⌊a / (2 * Real.pi)⌋ * (2 * Real.pi) := by
    show a - |Scalar.tau| * ⌊a / |Scalar.tau|⌋ = _
    rw [Scalar.tau_eq, abs_of_pos hpi, mul_comm]
  have hnonneg := Int.sub_floor_div_mul_nonneg a hpi
  have hlt := Int.sub_floor_div_mul_lt a hpi
  have hnormalize : normalize a = a - ⌊a / (2 * Real.pi)⌋ * (2 * Real.pi) := by
    rw [normalize, hrem]
    exact if_neg (by rw [Scalar.tau_eq]; exact not_le.2 hlt)
  rw [hnormalize]
  exact ⟨rfl, hnonneg, hlt⟩

@[simp] theorem cos_normalize (a : ℝ) : Real.cos (normalize a) = Real.cos a := by
  rw [(normalize_eq a).1, Real.cos_sub_int_mul_two_pi]

@[simp] theorem sin_normalize (a : ℝ) : Real.sin (normalize a) = Real.sin a := by
  rw [(normalize_eq a).1, Real.sin_sub_int_mul_two_pi]

/-- The shortest turn leads all the way, but for whole turns. -/
theorem exists_delta_eq (a b : ℝ) : ∃ n : ℤ, delta a b = a - b - n * (2 * Real.pi) := by
  have hnormalize := (normalize_eq (a - b)).1
  unfold delta
  dsimp only
  split_ifs
  · refine ⟨⌊(a - b) / (2 * Real.pi)⌋ + 1, ?_⟩
    rw [hnormalize, Scalar.tau_eq]
    push_cast
    ring
  · exact ⟨_, hnormalize⟩

/-- Angles with the same sine and cosine point the same way. -/
theorem same_of_cos_sin {a b : ℝ} (hcos : Real.cos a = Real.cos b) (hsin : Real.sin a = Real.sin b) :
    same a b = true := by
  -- the difference has cosine one, and is the only such angle within a turn
  obtain ⟨-, hnonneg, hlt⟩ := normalize_eq (a - b)
  have hone : Real.cos (normalize (a - b)) = 1 := by
    rw [cos_normalize, Real.cos_sub, hcos, hsin]
    linear_combination Real.cos_sq_add_sin_sq b
  have hzero : normalize (a - b) = 0 := by
    refine (Real.cos_eq_one_iff_of_lt_of_lt ?_ hlt).1 hone
    linarith [Real.two_pi_pos]
  have hdelta : delta a b = 0 := by
    rw [delta, hzero]
    exact if_neg (not_lt.2 Real.pi_pos.le)
  rw [same, hdelta]
  show decide (|(0 : ℝ)| ≤ 1e-6) = true
  rw [abs_zero]
  norm_num

end Angle

namespace Affine

/-! ## Rigid maps -/

/-- A turn, then a displacement. -/
structure IsRigid (t : Affine ℝ) : Prop where
  d_eq : t.d = t.a
  c_eq : t.c = -t.b
  norm : t.a * t.a + t.b * t.b = 1

variable {s t p : Affine ℝ}

theorem isRigid_identity : (identity : Affine ℝ).IsRigid := by
  constructor <;> simp [identity]

theorem rotate_zero : rotate (0 : ℝ) = identity := by
  simp [rotate_eq, identity]

theorem placement_zero : placement (0 : ℝ) 0 0 = identity := by
  rw [placement, rotate_zero, Affine.mul_identity]
  exact translate_zero

theorem rotation_identity : (identity : Affine ℝ).rotation = 0 := by
  have harg : Complex.arg ⟨1, 0⟩ = 0 := Complex.arg_one
  show Angle.normalize (Complex.arg ⟨1, 0⟩) = 0
  rw [harg, (Angle.normalize_eq 0).1]
  simp

theorem isRigid_translate (v : Vec ℝ) : (translate v).IsRigid := by
  constructor <;> simp [translate]

theorem isRigid_placement (x y rotation : ℝ) : (placement x y rotation).IsRigid := by
  constructor
  · simp [placement, translate, rotate_eq]
  · simp [placement, translate, rotate_eq]
  · simp only [placement, translate, rotate_eq, mul_a, mul_b]
    linear_combination Real.cos_sq_add_sin_sq rotation

theorem isRigid_rotateAbout (angle : ℝ) (center : Point ℝ) : (rotateAbout angle center).IsRigid := by
  have hunit := Real.cos_sq_add_sin_sq angle
  constructor
  · simp [rotateAbout, translate, rotate_eq]
  · simp [rotateAbout, translate, rotate_eq]
  · simp only [rotateAbout, translate, rotate_eq, mul_a, mul_b]
    linear_combination hunit

namespace IsRigid

theorem mul (hs : s.IsRigid) (ht : t.IsRigid) : (s * t).IsRigid := by
  obtain ⟨hsd, hsc, hsn⟩ := hs
  obtain ⟨htd, htc, htn⟩ := ht
  constructor
  · rw [mul_d, mul_a, hsd, hsc, htd, htc]
    ring
  · rw [mul_c, mul_b, hsd, hsc, htd, htc]
    ring
  · rw [mul_a, mul_b, hsd, hsc]
    linear_combination (t.a * t.a + t.b * t.b) * hsn + htn

theorem determinant (ht : t.IsRigid) : t.determinant = 1 := by
  rw [Affine.determinant, ht.d_eq, ht.c_eq]
  linear_combination ht.norm

theorem isInvertible (ht : t.IsRigid) : t.isInvertible = true := by
  have hdet : ¬ (Scalar.abs t.determinant ≤ (Scalar.epsilon : ℝ)) := by
    rw [ht.determinant]
    show ¬ (|(1 : ℝ)| ≤ 2.220446049250313080847263336181640625e-16)
    rw [abs_one]
    norm_num
  rw [Affine.isInvertible, decide_eq_false hdet]
  rfl

theorem inverse_mul (ht : t.IsRigid) : t.inverse * t = identity := by
  have hdet := ht.determinant
  have hdet' : t.a * t.d - t.b * t.c = 1 := hdet
  ext
  · simp only [inverse, hdet, mul_a, identity]
    linear_combination hdet'
  · simp only [inverse, hdet, mul_b, identity]
    ring
  · simp only [inverse, hdet, mul_c, identity]
    ring
  · simp only [inverse, hdet, mul_d, identity]
    linear_combination hdet'
  · simp only [inverse, hdet, mul_e, identity]
    ring
  · simp only [inverse, hdet, mul_f, identity]
    ring

theorem inverse (ht : t.IsRigid) : t.inverse.IsRigid := by
  have hdet := ht.determinant
  obtain ⟨hd, hc, hn⟩ := ht
  constructor
  · simp only [Affine.inverse, hdet, hd]
  · simp only [Affine.inverse, hdet, hc]
    ring
  · simp only [Affine.inverse, hdet, hd]
    linear_combination hn

/-- A rigid map undoes its inverse, as it is undone by it. -/
theorem mul_inverse (ht : t.IsRigid) : t * t.inverse = identity := by
  have hback : t.inverse.inverse * t.inverse = identity := ht.inverse.inverse_mul
  calc t * t.inverse
      = t.inverse.inverse * t.inverse * t * t.inverse := by rw [hback, Affine.identity_mul]
    _ = t.inverse.inverse * (t.inverse * t) * t.inverse := by
      rw [Affine.mul_assoc t.inverse.inverse]
    _ = identity := by rw [ht.inverse_mul, Affine.mul_identity, hback]

/-- A displacement of the page is a displacement within the frame. -/
theorem exists_translate_mul (ht : t.IsRigid) (v : Vec ℝ) :
    ∃ u : Vec ℝ, translate v * t = t * translate u := by
  obtain ⟨hd, hc, hn⟩ := ht
  refine ⟨⟨t.a * v.x + t.b * v.y, t.a * v.y - t.b * v.x⟩, ?_⟩
  ext
  · simp [translate]
  · simp [translate]
  · simp [translate]
  · simp [translate]
  · simp only [mul_e, translate, hc]
    linear_combination -v.x * hn
  · simp only [mul_f, translate, hd]
    linear_combination -v.y * hn

theorem cos_rotation (ht : t.IsRigid) : Real.cos t.rotation = t.a := by
  rw [rotation, Angle.cos_normalize, Scalar.cos_atan2 one_pos (by rw [ht.norm, one_mul]), div_one]

theorem sin_rotation (ht : t.IsRigid) : Real.sin t.rotation = t.b := by
  rw [rotation, Angle.sin_normalize, Scalar.sin_atan2 one_pos (by rw [ht.norm, one_mul]), div_one]

/-- Seen from a frame that is turned like it, a rigid map is a displacement. -/
theorem exists_rotate_neg_mul (ht : t.IsRigid) :
    ∃ v, rotate (-t.rotation) * t = translate v ∧ rotate t.rotation * translate v = t := by
  have hunit := ht.norm
  refine ⟨⟨(rotate (-t.rotation) * t).e, (rotate (-t.rotation) * t).f⟩, ?_, ?_⟩
  · ext <;> simp [rotate_eq, translate, ht.cos_rotation, ht.sin_rotation, ht.c_eq, ht.d_eq]
    · linear_combination hunit
    · ring
    · ring
    · linear_combination hunit
  · ext <;> simp [rotate_eq, translate, ht.cos_rotation, ht.sin_rotation, ht.c_eq, ht.d_eq]
    · linear_combination t.e * hunit
    · linear_combination t.f * hunit

/-- **A rigid map is a placement**: of its origin, turned by its rotation. -/
theorem placement_eq (ht : t.IsRigid) : placement (t.apply Point.origin).x
    (t.apply Point.origin).y (Angle.normalize t.rotation) = t := by
  have hcos : Real.cos (Angle.normalize t.rotation) = t.a := by
    rw [Angle.cos_normalize, ht.cos_rotation]
  have hsin : Real.sin (Angle.normalize t.rotation) = t.b := by
    rw [Angle.sin_normalize, ht.sin_rotation]
  ext <;> simp [placement, translate, rotate_eq, apply, Point.origin, hcos, hsin, ht.c_eq, ht.d_eq]

end IsRigid

/-! ## Maps that stretch a frame -/

/-- The image of the x axis. -/
def xAxis (t : Affine ℝ) : Vec ℝ := ⟨t.a, t.b⟩

/-- The image of the y axis. -/
def yAxis (t : Affine ℝ) : Vec ℝ := ⟨t.c, t.d⟩

/-- The map takes the axes of the frame `p` to multiples of themselves, by the given factors. -/
structure Stretches (s p : Affine ℝ) (factors : Vec ℝ) : Prop where
  xAxis : s.applyVec p.xAxis = p.xAxis.scale factors.x
  yAxis : s.applyVec p.yAxis = p.yAxis.scale factors.y

/-- How far the map moves the origin of the frame `p`. -/
noncomputable def originShift (s p : Affine ℝ) : Vec ℝ :=
  s.apply (p.apply Point.origin) - p.apply Point.origin

/-- **Scaling a frame is scaling within it**: where the map stretches the frame, it moves the frame as
    it is, after the frame's content is scaled. -/
theorem Stretches.mul_eq {factors : Vec ℝ} (h : s.Stretches p factors) :
    s * p = translate (s.originShift p) * p * scale factors.x factors.y := by
  obtain ⟨hx, hy⟩ := h
  -- the axes give the linear part, the origin the rest
  simp only [applyVec, Affine.xAxis, Affine.yAxis, Vec.scale, Vec.mk.injEq] at hx hy
  ext
  · simp only [mul_a, translate, scale]
    linear_combination hx.1
  · simp only [mul_b, translate, scale]
    linear_combination hx.2
  · simp only [mul_c, translate, scale]
    linear_combination hy.1
  · simp only [mul_d, translate, scale]
    linear_combination hy.2
  · simp only [mul_e, translate, scale, originShift, apply, Point.origin, Point.sub_x]
    ring
  · simp only [mul_f, translate, scale, originShift, apply, Point.origin, Point.sub_y]
    ring

/-- In coordinates, with the y axis of a rigid frame read off its x axis. -/
theorem stretches_iff (hp : p.IsRigid) {factors : Vec ℝ} :
    s.Stretches p factors ↔
      (s.a * p.a + s.c * p.b = p.a * factors.x ∧ s.b * p.a + s.d * p.b = p.b * factors.x) ∧
      (s.c * p.a - s.a * p.b = -(p.b * factors.y) ∧ s.d * p.a - s.b * p.b = p.a * factors.y) := by
  have hx : s.applyVec p.xAxis = p.xAxis.scale factors.x ↔
      s.a * p.a + s.c * p.b = p.a * factors.x ∧ s.b * p.a + s.d * p.b = p.b * factors.x := by
    simp [applyVec, Affine.xAxis, Vec.scale]
  have hy : s.applyVec p.yAxis = p.yAxis.scale factors.y ↔
      s.c * p.a - s.a * p.b = -(p.b * factors.y) ∧ s.d * p.a - s.b * p.b = p.a * factors.y := by
    simp only [applyVec, Affine.yAxis, Vec.scale, Vec.mk.injEq, hp.c_eq, hp.d_eq]
    constructor
    · rintro ⟨h, h'⟩
      exact ⟨by linear_combination h, by linear_combination h'⟩
    · rintro ⟨h, h'⟩
      exact ⟨by linear_combination h, by linear_combination h'⟩
  rw [← hx, ← hy]
  exact ⟨fun h => ⟨h.xAxis, h.yAxis⟩, fun h => ⟨h.1, h.2⟩⟩

end Affine

end CanvasTransform
