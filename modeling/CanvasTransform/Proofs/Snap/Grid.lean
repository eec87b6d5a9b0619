import Mathlib.Algebra.Order.Round
import Mathlib.Analysis.SpecialFunctions.Trigonometric.Angle
import CanvasTransform.Proofs.Geometry.Rigid
import CanvasTransform.Snap.Grid

set_option autoImplicit false

/-! # Rounding to multiples

Read exactly, a rounded value is a multiple of the step and no further than half a step away
(`Snap.exists_roundTo`), whatever the step and the sign of the value. A grid rounds the coordinates on
its axes (`Snap.coord_toGrid`). An angle step rounds the angle in degrees and drops whole turns, which
the direction does not see (`Snap.coe_toRadians_toIncrement`). -/

namespace CanvasTransform

namespace Scalar

theorem toRadians_eq (a : ℝ) : toRadians a = a * (Real.pi / 180) := by
  show a * (Real.pi / 180.0) = _
  norm_num

theorem toDegrees_eq (a : ℝ) : toDegrees a = a * (180 / Real.pi) := by
  show a * (180.0 / Real.pi) = _
  norm_num

end Scalar

namespace Snap

/-! ## Steps -/

/-- Rounding goes to an integer that is no further than a half. -/
theorem exists_round (a : ℝ) : ∃ k : ℤ, Scalar.round a = k ∧ |(k : ℝ) - a| ≤ 1 / 2 := by
  have hround : Scalar.round a = if a < 0 then -(⌊-a + 1 / 2⌋ : ℝ) else (⌊a + 1 / 2⌋ : ℝ) := rfl
  by_cases hneg : a < 0
  · refine ⟨-round (-a), by rw [hround, if_pos hneg, round_eq, Int.cast_neg], ?_⟩
    have hnear := abs_sub_round (-a)
    rwa [Int.cast_neg, neg_sub_comm]
  · refine ⟨round a, by rw [hround, if_neg hneg, round_eq], ?_⟩
    rw [abs_sub_comm]
    exact abs_sub_round a

/-- A rounded value is a multiple of the step, and at most half a step away. -/
theorem exists_roundTo (a : ℝ) {step : ℝ} (hstep : 0 < step) :
    ∃ k : ℤ, roundTo a step = k * step ∧ |roundTo a step - a| ≤ step / 2 := by
  obtain ⟨k, hk, hnear⟩ := exists_round (a / step)
  have hroundTo : roundTo a step = k * step := by rw [roundTo, hk]
  refine ⟨k, hroundTo, ?_⟩
  calc |roundTo a step - a| = |((k : ℝ) - a / step) * step| := by
        rw [hroundTo, sub_mul, div_mul_cancel₀ _ hstep.ne']
    _ = |(k : ℝ) - a / step| * step := by rw [abs_mul, abs_of_pos hstep]
    _ ≤ 1 / 2 * step := mul_le_mul_of_nonneg_right hnear hstep.le
    _ = step / 2 := by ring

theorem coord_toGrid (p : Point ℝ) {size : ℝ} (hsize : 0 < size) (axes : Axes) (axis : Axis) :
    axis.coord (toGrid p size axes) =
      if axes.enabled axis then roundTo (axis.coord p) size else axis.coord p := by
  rw [toGrid, if_neg hsize.not_ge]
  cases axis <;> rfl

/-! ## Angle steps -/

/-- Rounding an angle in degrees drops whole turns, which the direction does not see. -/
theorem coe_toRadians_toIncrement (degrees step : ℝ) :
    ((Scalar.toRadians (toIncrement degrees step) : ℝ) : Real.Angle) =
      (Scalar.toRadians (roundTo degrees step) : ℝ) := by
  have hrem : toIncrement degrees step =
      roundTo degrees step - 360 * ⌊roundTo degrees step / 360⌋ := by
    show roundTo degrees step - |(360.0 : ℝ)| * ⌊roundTo degrees step / |(360.0 : ℝ)|⌋ = _
    norm_num
  refine Real.Angle.angle_eq_iff_two_pi_dvd_sub.2 ⟨-⌊roundTo degrees step / 360⌋, ?_⟩
  rw [hrem, Scalar.toRadians_eq, Scalar.toRadians_eq, Int.cast_neg]
  ring

/-- An angle that is rounded in degrees goes to a multiple of the step in radians, and by no more than
    half of that. -/
theorem exists_toRadians_roundTo (angle : ℝ) {step : ℝ} (hstep : 0 < step) :
    ∃ k : ℤ, Scalar.toRadians (roundTo (Scalar.toDegrees angle) step) = k * Scalar.toRadians step ∧
      |k * Scalar.toRadians step - angle| ≤ Scalar.toRadians step / 2 := by
  have hunit : (0 : ℝ) < Real.pi / 180 := by positivity
  obtain ⟨k, hk, hnear⟩ := exists_roundTo (Scalar.toDegrees angle) hstep
  have hback : Scalar.toRadians (Scalar.toDegrees angle) = angle := by
    rw [Scalar.toRadians_eq, Scalar.toDegrees_eq]
    field_simp
  refine ⟨k, by rw [hk, Scalar.toRadians_eq, Scalar.toRadians_eq, mul_assoc], ?_⟩
  calc |k * Scalar.toRadians step - angle|
      = |(roundTo (Scalar.toDegrees angle) step - Scalar.toDegrees angle) * (Real.pi / 180)| := by
        rw [hk, sub_mul, ← Scalar.toRadians_eq, ← Scalar.toRadians_eq, hback, Scalar.toRadians_eq,
          Scalar.toRadians_eq, mul_assoc]
    _ = |roundTo (Scalar.toDegrees angle) step - Scalar.toDegrees angle| * (Real.pi / 180) := by
        rw [abs_mul, abs_of_pos hunit]
    _ ≤ step / 2 * (Real.pi / 180) := mul_le_mul_of_nonneg_right hnear hunit.le
    _ = Scalar.toRadians step / 2 := by rw [Scalar.toRadians_eq, div_mul_eq_mul_div]

end Snap

end CanvasTransform
