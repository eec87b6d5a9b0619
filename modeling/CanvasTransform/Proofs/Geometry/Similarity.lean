import CanvasTransform.Proofs.Transform.Decomposition

set_option autoImplicit false

/-! # Maps that keep proportions

A map that multiplies all lengths by one number (`Affine.Magnifies`) may turn and mirror, and does
not distort. Such maps compose, rigid maps are among them, and so is a scaling of the selection whose
factors have one magnitude, whatever their signs. Read off as a placement, at any angle, such a map
has factors of that magnitude along both axes (`Affine.Magnifies.abs_scale_ofAffine`). -/

namespace CanvasTransform

namespace Vec

/-- The square of the length. -/
noncomputable def normSq (v : Vec ℝ) : ℝ := v.dot v

theorem normSq_eq (v : Vec ℝ) : v.normSq = v.x * v.x + v.y * v.y := rfl

theorem length_eq_of_normSq {v w : Vec ℝ} {k : ℝ} (hk : 0 ≤ k) (h : v.normSq = k ^ 2 * w.normSq) :
    v.length = k * w.length := by
  show Real.sqrt v.normSq = k * Real.sqrt w.normSq
  rw [h, Real.sqrt_mul (sq_nonneg k), Real.sqrt_sq hk]

end Vec

namespace Affine

variable {s t p q : Affine ℝ} {k l : ℝ}

/-- The map multiplies all lengths by `k`. -/
def Magnifies (t : Affine ℝ) (k : ℝ) : Prop := ∀ v, (t.applyVec v).normSq = k ^ 2 * v.normSq

theorem Magnifies.mul (hs : s.Magnifies k) (ht : t.Magnifies l) : (s * t).Magnifies (k * l) := by
  intro v
  rw [applyVec_mul, hs, ht]
  ring

theorem IsRigid.magnifies (ht : t.IsRigid) : t.Magnifies 1 := by
  intro v
  simp only [applyVec, Vec.normSq_eq, ht.c_eq, ht.d_eq]
  linear_combination (v.x * v.x + v.y * v.y) * ht.norm

theorem magnifies_scale {sx sy : ℝ} (hx : |sx| = k) (hy : |sy| = k) :
    (scale sx sy).Magnifies k := by
  intro v
  have hxx : sx ^ 2 = k ^ 2 := by rw [← hx, sq_abs]
  have hyy : sy ^ 2 = k ^ 2 := by rw [← hy, sq_abs]
  simp only [applyVec, scale, Vec.normSq_eq]
  linear_combination v.x ^ 2 * hxx + v.y ^ 2 * hyy

theorem isRigid_rotate (angle : ℝ) : (rotate angle).IsRigid := by
  constructor
  · simp [rotate_eq]
  · simp [rotate_eq]
  · simp only [rotate_eq]
    linear_combination Real.cos_sq_add_sin_sq angle

/-- Between rigid maps, a map multiplies lengths as it does alone. -/
theorem Magnifies.between (ht : t.Magnifies k) (hp : p.IsRigid) (hq : q.IsRigid) :
    (p * t * q).Magnifies k := by
  have h := (hp.magnifies.mul ht).mul hq.magnifies
  rwa [one_mul, mul_one] at h

theorem magnifies_pageScale (box : OrientedBox ℝ) {sx sy : ℝ} (hx : |sx| = k) (hy : |sy| = k)
    (anchor : Point ℝ) : (box.pageScale ⟨⟨sx, sy⟩, anchor⟩).Magnifies k := by
  have hback := (isRigid_translate (-anchor.toVec)).mul (isRigid_rotate (-box.rotation))
  have h := (magnifies_scale hx hy).between
    ((isRigid_rotate box.rotation).mul (isRigid_translate anchor.toVec)) hback
  rwa [← Affine.mul_assoc] at h

/-- The images of the axes are as long as each other, and stay at right angles. -/
theorem Magnifies.axes (ht : t.Magnifies k) : t.a ^ 2 + t.b ^ 2 = k ^ 2 ∧
    t.c ^ 2 + t.d ^ 2 = k ^ 2 ∧ t.a * t.c + t.b * t.d = 0 := by
  have hx := ht ⟨1, 0⟩
  have hy := ht ⟨0, 1⟩
  have hxy := ht ⟨1, 1⟩
  simp only [applyVec, Vec.normSq_eq] at hx hy hxy
  exact ⟨by linear_combination hx, by linear_combination hy,
    by linear_combination (hxy - hx - hy) / 2⟩

/-- **Reading off a map that keeps proportions** finds factors of one magnitude. -/
theorem Magnifies.abs_scale_ofAffine (ht : t.Magnifies k) (hk : Scalar.coordTolerance < k)
    (oldRotation : ℝ) :
    |(Placement.ofAffine t oldRotation).scale.x| = k ∧
      |(Placement.ofAffine t oldRotation).scale.y| = k := by
  have hpos : 0 < k := Scalar.coordTolerance_pos.trans hk
  obtain ⟨hx, hy, hperp⟩ := ht.axes
  obtain ⟨side, hread⟩ := Placement.exists_isReadOff hk (by linear_combination hx) oldRotation
  have habs : |side| = 1 := (abs_eq zero_le_one).2 (mul_self_eq_one_iff.1 hread.side_mul_side)
  -- the image of the y axis lies across that of the x axis, and all its length counts
  have hdet : |t.determinant| = k * k := by
    refine (sq_eq_sq₀ (abs_nonneg _) (mul_self_nonneg k)).1 ?_
    rw [sq_abs, determinant]
    linear_combination (t.c ^ 2 + t.d ^ 2) * hx + k ^ 2 * hy - (t.a * t.c + t.b * t.d) * hperp
  constructor
  · rw [hread.scale_x, abs_mul, habs, one_mul, abs_of_pos hpos]
  · rw [hread.scale_y, abs_div, abs_mul, habs, one_mul, hdet, abs_of_pos hpos,
      mul_div_cancel_right₀ _ hpos.ne']

end Affine

end CanvasTransform
