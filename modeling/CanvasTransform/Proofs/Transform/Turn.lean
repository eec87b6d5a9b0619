import CanvasTransform.Proofs.Snap.Grid
import CanvasTransform.Transform.Turn

set_option autoImplicit false

/-! # Turns by steps

With shift held, a rotation goes by steps: the rotation that the selection ends up with is a multiple
of the step. Three reductions are composed on the way there: rounding in degrees drops whole turns,
normalizing drops them in radians, and the shortest turn wraps at half a turn. None of them changes the
direction (`Angle.coe_delta`, `Snap.coe_toRadians_toIncrement`), so the selection lands on the step that
rounding chose, and of all turns that lead there the one that is made is the shortest
(`sweptAngle_lands`). -/

namespace CanvasTransform

/-! ## The shortest turn -/

namespace Angle

theorem coe_delta (a b : ℝ) : ((delta a b : ℝ) : Real.Angle) = a - b := by
  obtain ⟨n, hn⟩ := exists_delta_eq a b
  rw [← Real.Angle.coe_sub]
  refine Real.Angle.angle_eq_iff_two_pi_dvd_sub.2 ⟨-n, ?_⟩
  rw [hn, Int.cast_neg]
  ring

theorem delta_mem (a b : ℝ) : delta a b ∈ Set.Ioc (-Real.pi) Real.pi := by
  obtain ⟨-, hnonneg, hlt⟩ := normalize_eq (a - b)
  have hpi : (Scalar.pi : ℝ) = Real.pi := rfl
  rw [delta, Scalar.tau_eq, hpi]
  split_ifs with hfar
  · exact ⟨by linarith, by linarith⟩
  · exact ⟨by linarith [Real.pi_pos], not_lt.1 hfar⟩

/-- No other turn that leads to the same direction is shorter. -/
theorem abs_delta_le {a b turn : ℝ} (h : (turn : Real.Angle) = a - b) : |delta a b| ≤ |turn| := by
  have hwithin : |delta a b| ≤ Real.pi := abs_le.2 ⟨(delta_mem a b).1.le, (delta_mem a b).2⟩
  obtain ⟨k, hk⟩ := Real.Angle.angle_eq_iff_two_pi_dvd_sub.1 (h.trans (coe_delta a b).symm)
  by_cases hzero : k = 0
  · rw [hzero, Int.cast_zero, mul_zero, sub_eq_zero] at hk
    rw [hk]
  · -- the other turn goes round at least once more, and half of that is left whatever it started with
    have hround : 2 * Real.pi ≤ |turn - delta a b| := by
      have hone : (1 : ℝ) ≤ |(k : ℝ)| := by exact_mod_cast Int.one_le_abs hzero
      rw [hk, abs_mul, abs_of_pos Real.two_pi_pos]
      exact le_mul_of_one_le_right Real.two_pi_pos.le hone
    linarith [abs_sub turn (delta a b)]

end Angle

/-! ## Landing on a step -/

/-- The exact reading, with the direction in which each point is seen as given. -/
noncomputable abbrev Scalar.withDirection (direction : ℝ → ℝ → ℝ) : Scalar ℝ :=
  { (inferInstance : Scalar ℝ) with atan2 := direction }

/-- **A rotation by steps lands on a step by the shortest turn**, from any rotation, for any step and
    however far the pointer has swept. The step is at most half a step away from where the sweep alone
    would have led. -/
theorem sweptAngle_lands (direction : ℝ → ℝ → ℝ) (center start current : Point ℝ) (initial : ℝ)
    {step : ℝ} (hstep : 0 < step) :
    let swept := direction (current.y - center.y) (current.x - center.x) -
      direction (start.y - center.y) (start.x - center.x)
    let turn := @sweptAngle ℝ (.withDirection direction) center start current initial (some step)
    let increment := step * (Real.pi / 180)
    turn ∈ Set.Ioc (-Real.pi) Real.pi ∧
      (∃ k : ℤ, ((initial + turn : ℝ) : Real.Angle) = (k * increment : ℝ) ∧
        |k * increment - (initial + swept)| ≤ increment / 2) ∧
      ∀ other : ℝ, ((initial + other : ℝ) : Real.Angle) = (initial + turn : ℝ) → |turn| ≤ |other| := by
  intro swept turn increment
  set total := Scalar.toRadians (Snap.toIncrement (Scalar.toDegrees (initial + swept)) step)
  have hturn : turn = Angle.delta total initial := rfl
  have hincrement : increment = Scalar.toRadians step := (Scalar.toRadians_eq step).symm
  obtain ⟨k, hk, hnear⟩ := Snap.exists_toRadians_roundTo (initial + swept) hstep
  rw [hincrement, hturn]
  refine ⟨Angle.delta_mem _ _, ⟨k, ?_, hnear⟩, fun other hother => ?_⟩
  · calc ((initial + Angle.delta total initial : ℝ) : Real.Angle)
        = total := by rw [Real.Angle.coe_add, Angle.coe_delta, add_sub_cancel]
      _ = (k * Scalar.toRadians step : ℝ) := by rw [Snap.coe_toRadians_toIncrement, hk]
  · refine Angle.abs_delta_le ?_
    rw [Real.Angle.coe_add, Real.Angle.coe_add, add_right_inj, Angle.coe_delta] at hother
    exact hother

/-- From 350 degrees the pointer sweeps a right angle, in steps of 50 degrees, which do not divide a
    full turn. The ninth step, at 450 degrees, is the nearest, and 100 degrees lead there. -/
theorem sweptAngle_lands_past_full_turn :
    (0 : ℝ) < 50 ∧ sweptAngle (⟨0, 0⟩ : Point ℝ) ⟨1, 0⟩ ⟨0, 1⟩ (350 * (Real.pi / 180)) (some 50) =
      100 * (Real.pi / 180) := by
  have hstep : (0 : ℝ) < 50 := by norm_num
  have hunit : 0 < Real.pi / 180 := by positivity
  obtain ⟨hmem, ⟨k, hk, hnear⟩, -⟩ := sweptAngle_lands (fun y x => Complex.arg ⟨x, y⟩) ⟨0, 0⟩ ⟨1, 0⟩
    ⟨0, 1⟩ (350 * (Real.pi / 180)) hstep
  change sweptAngle (⟨0, 0⟩ : Point ℝ) ⟨1, 0⟩ ⟨0, 1⟩ _ _ ∈ _ at hmem
  change ((_ + sweptAngle (⟨0, 0⟩ : Point ℝ) ⟨1, 0⟩ ⟨0, 1⟩ _ _ : ℝ) : Real.Angle) = _ at hk
  have hstart : Complex.arg ⟨1, 0⟩ = 0 := Complex.arg_one
  have hcurrent : Complex.arg ⟨0, 1⟩ = 90 * (Real.pi / 180) := Complex.arg_I.trans (by ring)
  obtain rfl : k = 9 := by
    simp only [sub_zero, hstart, hcurrent, abs_le] at hnear
    have hlow : (8 : ℝ) < k := by nlinarith
    have hhigh : (k : ℝ) < 10 := by nlinarith
    have hlow : 8 < k := by exact_mod_cast hlow
    have hhigh : k < 10 := by exact_mod_cast hhigh
    omega
  -- the turn is the one within half a turn that leads from 350 to 450 degrees
  generalize sweptAngle (⟨0, 0⟩ : Point ℝ) ⟨1, 0⟩ ⟨0, 1⟩ _ _ = turn at *
  have hturn : (turn : Real.Angle) = (100 * (Real.pi / 180) : ℝ) := by
    rw [Real.Angle.coe_add, ← eq_sub_iff_add_eq', ← Real.Angle.coe_sub] at hk
    rw [hk]
    congr 1
    push_cast
    ring
  refine ⟨hstep, ?_⟩
  calc turn = (turn : Real.Angle).toReal := (Real.Angle.toReal_coe_eq_self_iff_mem_Ioc.2 hmem).symm
    _ = ((100 * (Real.pi / 180) : ℝ) : Real.Angle).toReal := by rw [hturn]
    _ = 100 * (Real.pi / 180) :=
      Real.Angle.toReal_coe_eq_self_iff_mem_Ioc.2 ⟨by linarith [Real.pi_pos], by linarith⟩

end CanvasTransform
