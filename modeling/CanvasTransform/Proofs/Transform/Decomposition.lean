import Mathlib.Analysis.SpecialFunctions.Trigonometric.Angle
import CanvasTransform.Proofs.Geometry.Rigid
import CanvasTransform.Transform.Scale

set_option autoImplicit false

/-! # Reading a placement off a map

A map from a shape's frame to its parent's is read off as an origin, a rotation and two factors. The
rotation looks along the image of the x axis or against it, whichever is nearer to where the shape
faced before; the first factor is the length of that image, and the second how far the image of the
y axis goes across it (`Placement.IsReadOff`). Both factors carry the sign of the choice.

Of a frame that was scaled along its axes and then turned, nothing is lost: what is read off is the
frame, or the frame turned by half and mirrored along both axes, which is the same map
(`Placement.ofAffine_decomposes`). -/

namespace CanvasTransform

theorem Affine.placement_mul_scale (x y rotation sx sy : ℝ) :
    placement x y rotation * scale sx sy =
      ⟨sx * Real.cos rotation, sx * Real.sin rotation, -(sy * Real.sin rotation),
        sy * Real.cos rotation, x, y⟩ := by
  ext <;> simp [placement, translate, rotate_eq, scale, mul_comm]

/-- Angles whose difference lies on one axis, and not against it, are the same direction. -/
theorem Angle.coe_eq_of_sin_sub {a b : ℝ} (hsin : Real.sin (a - b) = 0)
    (hcos : 0 ≤ Real.cos (a - b)) : (a : Real.Angle) = b := by
  have hone : Real.cos (a - b) = 1 := by
    refine (sq_eq_sq₀ hcos zero_le_one).1 ?_
    rw [Real.cos_sq', hsin]
    ring
  have hzero := Real.Angle.cos_sin_inj (hone.trans Real.cos_zero.symm)
    (hsin.trans Real.sin_zero.symm)
  rwa [Real.Angle.coe_sub, Real.Angle.coe_zero, sub_eq_zero] at hzero

namespace Placement

variable {t : Affine ℝ} {length side oldRotation : ℝ}

/-- The placement is read off a map whose image of the x axis has the given length. The rotation looks
    along that image or against it, as `side` says, and not away from the old rotation. -/
structure IsReadOff (p : Placement ℝ) (t : Affine ℝ) (oldRotation length side : ℝ) : Prop where
  side_mul_side : side * side = 1
  origin : p.origin = ⟨t.e, t.f⟩
  rotation_mem : p.rotation ∈ Set.Ico 0 (2 * Real.pi)
  cos_rotation : Real.cos p.rotation = side * t.a / length
  sin_rotation : Real.sin p.rotation = side * t.b / length
  faces : 0 ≤ side * (t.a * Real.cos oldRotation + t.b * Real.sin oldRotation)
  scale_x : p.scale.x = side * length
  scale_y : p.scale.y = side * t.determinant / length

/-- There is a side to look to that is not away from where something faces. -/
theorem exists_side (facing : ℝ) : ∃ side : ℝ, (if facing < 0 then -1 else 1) = side ∧
    side * side = 1 ∧ 0 ≤ side * facing := by
  by_cases hneg : facing < 0
  · exact ⟨-1, if_pos hneg, by norm_num, by linarith⟩
  · exact ⟨1, if_neg hneg, by norm_num, by linarith⟩

/-- **What is read off a map** whose image of the x axis is long enough to have a direction. -/
theorem exists_isReadOff (hlength : Scalar.coordTolerance < length)
    (hnorm : t.a * t.a + t.b * t.b = length * length) (oldRotation : ℝ) :
    ∃ side, (ofAffine t oldRotation).IsReadOff t oldRotation length side := by
  have hpos : 0 < length := Scalar.coordTolerance_pos.trans hlength
  have hxAxis : t.applyVec ⟨1, 0⟩ = ⟨t.a, t.b⟩ := by simp [Affine.applyVec]
  have hyAxis : t.applyVec ⟨0, 1⟩ = ⟨t.c, t.d⟩ := by simp [Affine.applyVec]
  have horigin : t.apply Point.origin = ⟨t.e, t.f⟩ := by simp [Affine.apply, Point.origin]
  have hxLength : (Vec.mk t.a t.b).length = length := by
    show Real.sqrt (t.a * t.a + t.b * t.b) = length
    rw [hnorm, Real.sqrt_mul_self hpos.le]
  have hfacing : (Vec.mk t.a t.b).dot (Vec.rotate ⟨1, 0⟩ oldRotation) =
      t.a * Real.cos oldRotation + t.b * Real.sin oldRotation := by
    show t.a * (1 * Real.cos oldRotation - 0 * Real.sin oldRotation) +
      t.b * (1 * Real.sin oldRotation + 0 * Real.cos oldRotation) = _
    ring
  obtain ⟨side, hside, hsquare, hfaces⟩ :=
    exists_side (t.a * Real.cos oldRotation + t.b * Real.sin oldRotation)
  -- the rotation looks along the image of the x axis, on that side
  have hturned : t.a * side * (t.a * side) + t.b * side * (t.b * side) = length * length := by
    linear_combination side * side * hnorm + length * length * hsquare
  set rotation : ℝ := Angle.normalize ((Vec.mk t.a t.b).scale side).direction with hrotation
  have hcos : Real.cos rotation = t.a * side / length := by
    rw [hrotation, Angle.cos_normalize]
    exact Scalar.cos_atan2 hpos hturned
  have hsin : Real.sin rotation = t.b * side / length := by
    rw [hrotation, Angle.sin_normalize]
    exact Scalar.sin_atan2 hpos hturned
  have hreading : ofAffine t oldRotation =
      ⟨⟨side * length, ((Vec.mk t.c t.d).rotate (-rotation)).y⟩, ⟨t.e, t.f⟩, rotation⟩ := by
    unfold ofAffine
    simp only [hxAxis, hyAxis, horigin, hxLength, if_neg (not_le.2 hlength), hfacing, hside,
      ← hrotation]
  refine ⟨side, ?_⟩
  rw [hreading]
  constructor
  case side_mul_side => exact hsquare
  case origin => rfl
  case rotation_mem => exact (Angle.normalize_eq _).2
  case cos_rotation => rw [hcos, mul_comm]
  case sin_rotation => rw [hsin, mul_comm]
  case faces => exact hfaces
  case scale_x => rfl
  case scale_y =>
    show t.c * Real.sin (-rotation) + t.d * Real.cos (-rotation) = side * t.determinant / length
    rw [Real.sin_neg, Real.cos_neg, hcos, hsin, Affine.determinant]
    ring

/-! ## Frames that were scaled and turned -/

/-- A frame that was scaled and turned is read back as it is, or turned by half with both factors
    mirrored. -/
theorem exists_side_ofAffine {sx : ℝ} (hx : Scalar.coordTolerance < |sx|)
    (x y angle sy oldRotation : ℝ) :
    let p := ofAffine (Affine.placement x y angle * Affine.scale sx sy) oldRotation
    ∃ side, side * side = 1 ∧ p.origin = ⟨x, y⟩ ∧ p.scale = ⟨side * sx, side * sy⟩ ∧
      p.rotation ∈ Set.Ico 0 (2 * Real.pi) ∧
      Real.cos p.rotation = side * Real.cos angle ∧ Real.sin p.rotation = side * Real.sin angle ∧
      0 ≤ side * Real.cos (angle - oldRotation) := by
  rw [Affine.placement_mul_scale]
  intro p
  have hunit := Real.cos_sq_add_sin_sq angle
  have hpos : 0 < |sx| := Scalar.coordTolerance_pos.trans hx
  have hsx : |sx| * |sx| = sx * sx := abs_mul_abs_self sx
  obtain ⟨side, hread⟩ := exists_isReadOff (t := ⟨sx * Real.cos angle, sx * Real.sin angle,
    -(sy * Real.sin angle), sy * Real.cos angle, x, y⟩) hx
    (by linear_combination sx * sx * hunit - hsx) oldRotation
  have hdet : sx * Real.cos angle * (sy * Real.cos angle) -
      sx * Real.sin angle * -(sy * Real.sin angle) = sx * sy := by
    linear_combination sx * sy * hunit
  -- the side, counted from the angle and not from the image of the axis
  refine ⟨side * sx / |sx|, ?_, hread.origin, ?_, hread.rotation_mem, ?_, ?_, ?_⟩
  · field_simp
    linear_combination sx ^ 2 * hread.side_mul_side - hsx
  · ext
    · rw [hread.scale_x]
      field_simp
      linear_combination side * hsx
    · rw [hread.scale_y, Affine.determinant, hdet]
      ring
  · rw [hread.cos_rotation]
    ring
  · rw [hread.sin_rotation]
    ring
  · have hfaces := div_nonneg hread.faces hpos.le
    refine hfaces.trans_eq ?_
    rw [Real.cos_sub]
    ring

/-- A placement after a scaling along the axes is read back as it is, but for the choice of the angle
    that stands for the rotation. -/
theorem ofAffine_placement_mul_scale (x y rotation : ℝ) {factors : Vec ℝ}
    (hx : Scalar.coordTolerance < |factors.x|) :
    ∃ angle : ℝ,
      ofAffine (Affine.placement x y rotation * Affine.scale factors.x factors.y) rotation =
        ⟨factors, ⟨x, y⟩, angle⟩ ∧
      Real.cos angle = Real.cos rotation ∧ Real.sin angle = Real.sin rotation := by
  obtain ⟨side, hsquare, horigin, hscale, -, hcos, hsin, hfaces⟩ :=
    exists_side_ofAffine hx x y rotation factors.y rotation
  -- the shape faces where it did, so the side is that of the angle
  rw [sub_self, Real.cos_zero, mul_one] at hfaces
  obtain rfl : side = 1 := (mul_self_eq_one_iff.1 hsquare).resolve_right fun h => by linarith
  rw [one_mul] at hcos hsin
  simp only [one_mul] at hscale
  refine ⟨_, ?_, hcos, hsin⟩
  exact congrArg₂ (Placement.mk · · _) hscale horigin

/-- **Reading a placement off undoes building it, up to half a turn.** The origin comes back, and so do
    the factors along the axes, up to a sign that both share; the rotation is the one of the two that
    is nearer to the old rotation. -/
theorem ofAffine_decomposes (o : Point ℝ) (angle : ℝ) {sx : ℝ} (hx : Scalar.coordTolerance < |sx|)
    (sy oldRotation : ℝ) :
    let p := ofAffine (Affine.translate o.toVec * Affine.rotate angle * Affine.scale sx sy)
      oldRotation
    p.origin = o ∧ p.rotation ∈ Set.Ico 0 (2 * Real.pi) ∧
      0 ≤ Real.cos (p.rotation - oldRotation) ∧
      Affine.rotate p.rotation * Affine.scale p.scale.x p.scale.y =
        Affine.rotate angle * Affine.scale sx sy ∧
      |p.scale.x| = |sx| ∧ |p.scale.y| = |sy| ∧
      ((∃ k : ℤ, angle - oldRotation = k * Real.pi) →
        (p.rotation : Real.Angle) = oldRotation) := by
  have hbuilt : Affine.translate o.toVec * Affine.rotate angle = Affine.placement o.x o.y angle := rfl
  rw [hbuilt]
  obtain ⟨side, hsquare, horigin, hscale, hmem, hcos, hsin, hfaces⟩ :=
    exists_side_ofAffine hx o.x o.y angle sy oldRotation
  generalize ofAffine (Affine.placement o.x o.y angle * Affine.scale sx sy) oldRotation = p at *
  dsimp only
  have hcosSub : Real.cos (p.rotation - oldRotation) = side * Real.cos (angle - oldRotation) := by
    rw [Real.cos_sub, Real.cos_sub, hcos, hsin]
    ring
  have hsinSub : Real.sin (p.rotation - oldRotation) = side * Real.sin (angle - oldRotation) := by
    rw [Real.sin_sub, Real.sin_sub, hcos, hsin]
    ring
  have habs : |side| = 1 := (abs_eq zero_le_one).2 (mul_self_eq_one_iff.1 hsquare)
  refine ⟨horigin, hmem, hcosSub ▸ hfaces, ?_, ?_, ?_, ?_⟩
  · rw [hscale, Affine.rotate_eq, Affine.rotate_eq, hcos, hsin]
    ext <;> simp [Affine.scale]
    · linear_combination sx * Real.cos angle * hsquare
    · linear_combination sx * Real.sin angle * hsquare
    · linear_combination sy * Real.sin angle * hsquare
    · linear_combination sy * Real.cos angle * hsquare
  · rw [hscale, abs_mul, habs, one_mul]
  · rw [hscale, abs_mul, habs, one_mul]
  · rintro ⟨k, hk⟩
    -- the turn from the old rotation is a whole number of half turns, and not against it
    rw [hk, Real.sin_int_mul_pi, mul_zero] at hsinSub
    exact Angle.coe_eq_of_sin_sub hsinSub (hcosSub ▸ hfaces)

/-- A frame at (3, 4) that was mirrored, made larger and turned by half lies as it did before, with the
    mirroring along the other axis. -/
theorem ofAffine_decomposes_turned_by_half :
    Scalar.coordTolerance < |(-2 : ℝ)| ∧ (∃ k : ℤ, Real.pi - 0 = k * Real.pi) ∧
    ofAffine (Affine.translate (Point.toVec ⟨3, 4⟩) * Affine.rotate Real.pi * Affine.scale (-2) 5) 0 =
      ⟨⟨2, -5⟩, ⟨3, 4⟩, 0⟩ := by
  have hx : Scalar.coordTolerance < |(-2 : ℝ)| := by
    unfold Scalar.coordTolerance
    norm_num
  have hhalf : ∃ k : ℤ, Real.pi - 0 = k * Real.pi := ⟨1, by norm_num⟩
  refine ⟨hx, hhalf, ?_⟩
  obtain ⟨horigin, hmem, -, hmap, -, -, hsame⟩ := ofAffine_decomposes ⟨3, 4⟩ Real.pi hx 5 0
  replace hsame := hsame hhalf
  generalize ofAffine (Affine.translate (Point.toVec ⟨3, 4⟩) * Affine.rotate Real.pi *
    Affine.scale (-2) 5) 0 = p at *
  have hcos : Real.cos p.rotation = 1 := by
    rw [← Real.Angle.cos_coe, hsame, Real.Angle.cos_coe, Real.cos_zero]
  have hrotation : p.rotation = 0 := by
    refine (Real.cos_eq_one_iff_of_lt_of_lt ?_ hmem.2).1 hcos
    linarith [hmem.1, Real.two_pi_pos]
  rw [hrotation, Affine.rotate_zero, Affine.identity_mul, Affine.rotate_eq] at hmap
  have hscale : p.scale = ⟨2, -5⟩ := by
    ext
    · simpa [Affine.scale] using congrArg Affine.a hmap
    · simpa [Affine.scale] using congrArg Affine.d hmap
  exact congr (congrArg₂ Placement.mk hscale horigin) hrotation

end Placement

end CanvasTransform
