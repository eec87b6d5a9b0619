import CanvasTransform.Proofs.Transform.Decomposition

set_option autoImplicit false

/-! # What resizing one shape comes to

A scaling of the selection stretches every frame if it is uniform, and it stretches the frames that
are turned against the selection by whole quarter turns (`OrientedBox.stretches_pageScale`).

Asked to follow a map that stretches its frame by some factors, a shape of any built-in kind keeps
its rotation, takes the factors into its form (`Shape.scaledForm`), and has its origin moved within
its frame where a factor mirrors it (`Shape.flipShift`). `Member.scale_eq_ok` puts this together for
a captured shape under a parent that was displaced: it always has an answer, and on the page the
shape ends up at the image of its old place. -/

namespace CanvasTransform

/-! ## Which frames a scaling stretches -/

/-- The linear part of a scaling of the selection. -/
theorem OrientedBox.pageScale_linear (box : OrientedBox ℝ) (sx sy : ℝ) (anchor : Point ℝ) :
    (box.pageScale ⟨⟨sx, sy⟩, anchor⟩).a =
      sx * Real.cos box.rotation ^ 2 + sy * Real.sin box.rotation ^ 2 ∧
    (box.pageScale ⟨⟨sx, sy⟩, anchor⟩).b =
      (sx - sy) * Real.cos box.rotation * Real.sin box.rotation ∧
    (box.pageScale ⟨⟨sx, sy⟩, anchor⟩).c =
      (sx - sy) * Real.cos box.rotation * Real.sin box.rotation ∧
    (box.pageScale ⟨⟨sx, sy⟩, anchor⟩).d =
      sx * Real.sin box.rotation ^ 2 + sy * Real.cos box.rotation ^ 2 := by
  simp only [pageScale, Affine.scaleAbout, Affine.rotate_eq, Real.cos_neg, Real.sin_neg,
    Affine.mul_a, Affine.mul_b, Affine.mul_c, Affine.mul_d, Affine.translate, Affine.scale]
  refine ⟨?_, ?_, ?_, ?_⟩ <;> ring

/-- **What a scaling of the selection does to frames.** It stretches every frame if it is uniform, and
    the frames that are turned against the selection by whole quarter turns in any case. -/
theorem OrientedBox.stretches_pageScale (box : OrientedBox ℝ) {p : Affine ℝ} (hp : p.IsRigid)
    (sx sy : ℝ) (anchor : Point ℝ)
    (h : sx = sy ∨ ∃ k : ℤ, p.rotation - box.rotation = k * (Real.pi / 2)) :
    ∃ factors : Vec ℝ, (factors = ⟨sx, sy⟩ ∨ factors = ⟨sy, sx⟩) ∧
      (box.pageScale ⟨⟨sx, sy⟩, anchor⟩).Stretches p factors := by
  have hunit := Real.cos_sq_add_sin_sq box.rotation
  have hcos : Real.cos (p.rotation - box.rotation) =
      p.a * Real.cos box.rotation + p.b * Real.sin box.rotation := by
    rw [Real.cos_sub, hp.cos_rotation, hp.sin_rotation]
  have hsin : Real.sin (p.rotation - box.rotation) =
      p.b * Real.cos box.rotation - p.a * Real.sin box.rotation := by
    rw [Real.sin_sub, hp.cos_rotation, hp.sin_rotation]
  obtain ⟨ha, hb, hc, hd⟩ := box.pageScale_linear sx sy anchor
  simp only [Affine.stretches_iff hp, ha, hb, hc, hd]
  clear ha hb hc hd
  generalize Real.cos box.rotation = c at *
  generalize Real.sin box.rotation = s at *
  rcases h with rfl | ⟨k, hk⟩
  · refine ⟨⟨sx, sx⟩, Or.inl rfl, ⟨?_, ?_⟩, ?_, ?_⟩
    · linear_combination sx * p.a * hunit
    · linear_combination sx * p.b * hunit
    · linear_combination -sx * p.b * hunit
    · linear_combination sx * p.a * hunit
  · obtain ⟨n, rfl | rfl⟩ := Int.even_or_odd' k
    · -- the axes lie along those of the selection
      have hzero : Real.sin (p.rotation - box.rotation) = 0 :=
        Real.sin_eq_zero_iff.2 ⟨n, by rw [hk]; push_cast; ring⟩
      rw [hsin] at hzero
      refine ⟨⟨sx, sy⟩, Or.inl rfl, ⟨?_, ?_⟩, ?_, ?_⟩
      · linear_combination sx * p.a * hunit + (sx - sy) * s * hzero
      · linear_combination sx * p.b * hunit + (sy - sx) * c * hzero
      · linear_combination -sy * p.b * hunit + (sy - sx) * c * hzero
      · linear_combination sy * p.a * hunit + (sy - sx) * s * hzero
    · -- the axes lie across those of the selection
      have hzero : Real.cos (p.rotation - box.rotation) = 0 :=
        Real.cos_eq_zero_iff.2 ⟨n, by rw [hk]; push_cast; ring⟩
      rw [hcos] at hzero
      refine ⟨⟨sy, sx⟩, Or.inr rfl, ⟨?_, ?_⟩, ?_, ?_⟩
      · linear_combination sy * p.a * hunit + (sx - sy) * c * hzero
      · linear_combination sy * p.b * hunit + (sx - sy) * s * hzero
      · linear_combination -sx * p.b * hunit + (sx - sy) * s * hzero
      · linear_combination sx * p.a * hunit + (sy - sx) * c * hzero

/-! ## The form and the origin, by kind -/

namespace Shape

/-- The factors along the axes of the shape, as a placement that leaves the shape where it is. -/
noncomputable def inPlace (s : Shape ℝ) (factors : Vec ℝ) : Placement ℝ :=
  ⟨factors, ⟨s.x, s.y⟩, s.rotation⟩

/-- The form of a shape that is scaled along its axes. -/
noncomputable def scaledForm (s : Shape ℝ) (factors : Vec ℝ) : Form ℝ :=
  let extent := (s.inPlace factors).scaledExtent s.extent
  match s.kind with
  | .rectangle | .ellipse | .frame => .box extent.x extent.y
  | .image =>
    match s.form with
    | .image _ _ flipX flipY =>
      .image extent.x extent.y (flipX ^^ decide (factors.x < 0)) (flipY ^^ decide (factors.y < 0))
    | _ => .box extent.x extent.y
  | .line => .line (s.form.points.map fun v => ⟨v.x * factors.x, v.y * factors.y⟩)
  | .text | .note | .group => s.form

/-- How far the origin of a shape moves within its frame when a factor mirrors the shape. -/
noncomputable def flipShift (s : Shape ℝ) (factors : Vec ℝ) : Vec ℝ :=
  let p := s.inPlace factors
  match s.kind with
  | .rectangle | .ellipse | .frame | .image => p.flipOffset (p.scaledExtent s.extent)
  | .text | .note => p.flipOffset s.extent
  | .line | .group => Vec.zero

end Shape

theorem Placement.patch_moveTo {p : Placement ℝ} {s : Shape ℝ}
    (h : Angle.same s.rotation p.rotation = true) (origin : Point ℝ) :
    p.moveTo s origin = Patch.position s.id origin.x origin.y := by
  rw [moveTo, if_pos h]

theorem Vec.rotate_congr {a b : ℝ} (hcos : Real.cos a = Real.cos b) (hsin : Real.sin a = Real.sin b)
    (v : Vec ℝ) : v.rotate a = v.rotate b := by
  have hcos' : (Scalar.cos a : ℝ) = Scalar.cos b := hcos
  have hsin' : (Scalar.sin a : ℝ) = Scalar.sin b := hsin
  rw [rotate, rotate, hcos', hsin']

/-- **What resizing a shape does to its record**, when the shape is not turned. -/
theorem Registry.patch_resize {p : Placement ℝ} {s : Shape ℝ}
    (hcos : Real.cos p.rotation = Real.cos s.rotation)
    (hsin : Real.sin p.rotation = Real.sin s.rotation) :
    s.patch (builtin.resize s p) =
      { s with
        x := p.origin.x + ((s.flipShift p.scale).rotate s.rotation).x
        y := p.origin.y + ((s.flipShift p.scale).rotate s.rotation).y
        form := s.scaledForm p.scale } := by
  have hsame := Angle.same_of_cos_sin hcos.symm hsin.symm
  have hrotate := Vec.rotate_congr hcos hsin
  obtain ⟨id, kind, parent, index, x, y, rotation, form⟩ := s
  -- each kind moves to the shifted origin and sets its form; lines and groups do not shift
  cases kind with
  | rectangle | ellipse | frame =>
    show Shape.patch _ (Behaviour.resizeBox _ p) = _
    rw [Behaviour.resizeBox, Placement.patch_moveTo hsame, Placement.boxOrigin, hrotate]
    rfl
  | text | note =>
    show Shape.patch _ (Behaviour.resizeFixed _ p) = _
    rw [Behaviour.resizeFixed, Placement.patch_moveTo hsame, Placement.boxOrigin, hrotate]
    rfl
  | image =>
    show Shape.patch _ (Behaviour.resizeImage _ p) = _
    cases form with
    | image w h flipX flipY =>
      simp only [Behaviour.resizeImage]
      rw [Placement.patch_moveTo hsame, Placement.boxOrigin, hrotate]
      rfl
    | _ =>
      simp only [Behaviour.resizeImage, Behaviour.resizeBox]
      rw [Placement.patch_moveTo hsame, Placement.boxOrigin, hrotate]
      rfl
  | line =>
    show Shape.patch _ (Behaviour.resizeLine _ p) = _
    rw [Behaviour.resizeLine, Placement.patch_moveTo hsame]
    simp [Shape.flipShift, Shape.scaledForm, Shape.patch, Patch.withForm, Patch.position, Vec.zero,
      Vec.rotate, Patch.empty]
  | group =>
    show Shape.patch _ (Behaviour.resizeGroup _ p) = _
    rw [Behaviour.resizeGroup, Placement.patch_moveTo hsame]
    simp [Shape.flipShift, Shape.scaledForm, Shape.patch, Patch.position, Vec.zero,
      Vec.rotate, Patch.empty]

/-! ## One captured shape -/

theorem Patch.isFinite_eq_true (p : Patch ℝ) : p.isFinite = true := by
  have hfinite : ∀ r : ℝ, Scalar.isFinite r = true := fun _ => rfl
  have hform : ∀ f : Form ℝ, f.isFinite = true := by
    intro f
    cases f <;> simp [Form.isFinite, hfinite]
  obtain ⟨_, x, y, rotation, form⟩ := p
  cases x <;> cases y <;> cases rotation <;> cases form <;> simp [isFinite, hfinite, hform]

namespace Member

variable {m : Member ℝ} {t : Affine ℝ} {factors : Vec ℝ}

/-- Where a scaled shape ends up on the page: its frame keeps its axes, moves along with the image of
    its origin, and shifts within itself where it is mirrored. -/
noncomputable def goal (m : Member ℝ) (t : Affine ℝ) (factors : Vec ℝ) : Affine ℝ :=
  Affine.translate (t.originShift m.pageTransform) * m.pageTransform *
    Affine.translate (m.shape.flipShift factors)

/-- **Scaling one captured shape.** Under a parent that was displaced, the scaling has an answer: the
    form takes the factors, the rotation stays, and the shape reaches its goal on the page. -/
theorem scale_eq_ok {w : Vec ℝ}
    (hparent : m.parentPageTransform.IsRigid)
    (hpage : m.pageTransform = m.parentPageTransform * m.shape.localTransform)
    (hx : Scalar.coordTolerance < |factors.x|) (h : t.Stretches m.pageTransform factors) :
    ∃ p, m.scale Registry.builtin t (Affine.translate w * m.parentPageTransform) = .ok p ∧
      (m.shape.patch p).rotation = m.shape.rotation ∧
      (m.shape.patch p).form = m.shape.scaledForm factors ∧
      Affine.translate w * m.parentPageTransform * (m.shape.patch p).localTransform =
        m.goal t factors := by
  have hrigid := (Affine.isRigid_translate w).mul hparent
  obtain ⟨u, hback⟩ := hrigid.exists_translate_mul (t.originShift m.pageTransform + -w)
  have hu : Affine.translate (t.originShift m.pageTransform) * m.pageTransform =
      Affine.translate w * m.parentPageTransform *
        (Affine.translate u * m.shape.localTransform) := by
    rw [← Affine.mul_assoc, ← hback, ← Affine.mul_assoc, Affine.translate_mul_translate, hpage,
      Affine.mul_assoc]
    congr 2
    ext <;> simp
  generalize Affine.translate w * m.parentPageTransform = q at hrigid hu ⊢
  -- relative to the new parent, the shape is displaced and then scaled
  have htarget : q.inverse * t * (m.parentPageTransform * m.shape.localTransform) =
      Affine.placement (m.shape.x + u.x) (m.shape.y + u.y) m.shape.rotation *
        Affine.scale factors.x factors.y := by
    rw [← hpage, Affine.mul_assoc, h.mul_eq, hu, Affine.mul_assoc q, ← Affine.mul_assoc,
      hrigid.inverse_mul, Affine.identity_mul, Shape.localTransform, Affine.translate_mul_placement]
  obtain ⟨angle, hplacement, hcos, hsin⟩ := Placement.ofAffine_placement_mul_scale
    (m.shape.x + u.x) (m.shape.y + u.y) m.shape.rotation hx
  have hpatch := Registry.patch_resize (s := m.shape)
    (p := ⟨factors, ⟨m.shape.x + u.x, m.shape.y + u.y⟩, angle⟩) hcos hsin
  refine ⟨_, ?_, by rw [hpatch], by rw [hpatch], ?_⟩
  · have hfinite : ∀ a : Affine ℝ, a.isFinite = true := fun _ => rfl
    simp only [scale, hrigid.isInvertible, hfinite, htarget, hplacement, Patch.isFinite_eq_true,
      if_true]
  · rw [hpatch, goal, hu, Affine.mul_assoc q, Shape.localTransform, Shape.localTransform,
      Affine.translate_mul_placement, Affine.placement_mul_translate]

/-- A goal is a displacement of the old place. -/
theorem goal_eq (m : Member ℝ) (t : Affine ℝ) (factors : Vec ℝ) :
    m.goal t factors = Affine.translate (t.originShift m.pageTransform +
      m.pageTransform.applyVec (m.shape.flipShift factors)) * m.pageTransform := by
  rw [goal, Affine.mul_assoc, Affine.mul_translate, ← Affine.mul_assoc,
    Affine.translate_mul_translate]

/-! ## What the goal says about each kind -/

/-- A point of the scaled shape lies at the image of an old point of it, if it is the scaled old point
    up to the shift of the origin. -/
theorem apply_goal (h : t.Stretches m.pageTransform factors) {p q : Point ℝ}
    (hx : q.x + (m.shape.flipShift factors).x = factors.x * p.x)
    (hy : q.y + (m.shape.flipShift factors).y = factors.y * p.y) :
    (m.goal t factors).apply q = t.apply (m.pageTransform.apply p) := by
  have hpoint : (Affine.translate (m.shape.flipShift factors)).apply q =
      (Affine.scale factors.x factors.y).apply p := by
    ext
    · simpa [Affine.apply, Affine.translate, Affine.scale] using hx
    · simpa [Affine.apply, Affine.translate, Affine.scale] using hy
  rw [← Affine.apply_mul, h.mul_eq, goal, Affine.apply_mul, hpoint, ← Affine.apply_mul]

end Member

/-- One side of a box that is scaled and brought back to the origin: where the ends of the new side
    come from. -/
theorem scaled_side (f e q : ℝ) :
    (q = 0 ∨ q = e * |f|) ↔
      ∃ p, (p = 0 ∨ p = e) ∧ q + (if f < 0 then -(e * |f|) else 0) = f * p := by
  split_ifs with hneg
  · -- a mirrored side: its ends change places
    rw [abs_of_neg hneg]
    constructor
    · rintro (rfl | rfl)
      · exact ⟨e, Or.inr rfl, by ring⟩
      · exact ⟨0, Or.inl rfl, by ring⟩
    · rintro ⟨p, rfl | rfl, h⟩
      · exact Or.inr (by linear_combination h)
      · exact Or.inl (by linear_combination h)
  · rw [abs_of_nonneg (not_lt.1 hneg)]
    constructor
    · rintro (rfl | rfl)
      · exact ⟨0, Or.inl rfl, by ring⟩
      · exact ⟨e, Or.inr rfl, by ring⟩
    · rintro ⟨p, rfl | rfl, h⟩
      · exact Or.inl (by linear_combination h)
      · exact Or.inr (by linear_combination h)

namespace Shape

/-- The kinds that are boxes, and take the factors into their size. -/
def IsBox (s : Shape ℝ) : Prop := s.kind ∈ [Kind.rectangle, .ellipse, .frame, .image]

variable {s : Shape ℝ}

theorem IsBox.extent_scaledForm (h : s.IsBox) (factors : Vec ℝ) :
    (s.scaledForm factors).extent = ⟨s.extent.x * |factors.x|, s.extent.y * |factors.y|⟩ := by
  simp only [IsBox, List.mem_cons, List.not_mem_nil, or_false] at h
  rcases h with hk | hk | hk | hk
  · simp only [scaledForm, hk]
    rfl
  · simp only [scaledForm, hk]
    rfl
  · simp only [scaledForm, hk]
    rfl
  · simp only [scaledForm, hk]
    cases s.form <;> rfl

theorem IsBox.flipShift_eq (h : s.IsBox) (factors : Vec ℝ) :
    s.flipShift factors = ⟨if factors.x < 0 then -(s.extent.x * |factors.x|) else 0,
      if factors.y < 0 then -(s.extent.y * |factors.y|) else 0⟩ := by
  simp only [IsBox, List.mem_cons, List.not_mem_nil, or_false] at h
  rcases h with hk | hk | hk | hk <;> simp only [flipShift, hk] <;> rfl

end Shape

namespace Member

variable {m : Member ℝ} {t : Affine ℝ} {factors : Vec ℝ}

/-- If the extent takes the magnitudes of the factors, and the origin moves to the other side where a
    factor mirrors, the new corners are the images of the old ones. -/
theorem mem_corners_goal_of_eq
    (hextent : (m.shape.scaledForm factors).extent =
      ⟨m.shape.extent.x * |factors.x|, m.shape.extent.y * |factors.y|⟩)
    (hshift : m.shape.flipShift factors =
      ⟨if factors.x < 0 then -(m.shape.extent.x * |factors.x|) else 0,
        if factors.y < 0 then -(m.shape.extent.y * |factors.y|) else 0⟩)
    (h : t.Stretches m.pageTransform factors) (q : Point ℝ) :
    (∃ p ∈ (Rect.mk 0 0 (m.shape.scaledForm factors).extent.x
        (m.shape.scaledForm factors).extent.y).corners, (m.goal t factors).apply p = q) ↔
      ∃ p ∈ (Behaviour.boxBounds m.shape).corners, t.apply (m.pageTransform.apply p) = q := by
  simp only [hextent, Rect.mem_corners_iff, Behaviour.boxBounds, scaled_side]
  constructor
  · rintro ⟨p, ⟨⟨x, hx, hpx⟩, y, hy, hpy⟩, rfl⟩
    refine ⟨⟨x, y⟩, ⟨hx, hy⟩, (apply_goal h ?_ ?_).symm⟩
    · rw [hshift]
      exact hpx
    · rw [hshift]
      exact hpy
  · rintro ⟨p, ⟨hx, hy⟩, rfl⟩
    refine ⟨⟨factors.x * p.x - (m.shape.flipShift factors).x,
      factors.y * p.y - (m.shape.flipShift factors).y⟩, ⟨⟨p.x, hx, ?_⟩, p.y, hy, ?_⟩, ?_⟩
    · rw [hshift]
      exact sub_add_cancel _ _
    · rw [hshift]
      exact sub_add_cancel _ _
    · exact apply_goal h (sub_add_cancel _ _) (sub_add_cancel _ _)

/-- The corners of a scaled box are the images of its old corners. -/
theorem mem_corners_goal (hbox : m.shape.IsBox) (h : t.Stretches m.pageTransform factors)
    (q : Point ℝ) :
    (∃ p ∈ (Rect.mk 0 0 (m.shape.scaledForm factors).extent.x
        (m.shape.scaledForm factors).extent.y).corners, (m.goal t factors).apply p = q) ↔
      ∃ p ∈ (Behaviour.boxBounds m.shape).corners, t.apply (m.pageTransform.apply p) = q :=
  mem_corners_goal_of_eq (hbox.extent_scaledForm factors) (hbox.flipShift_eq factors) h q

/-- The vertices of a scaled line are the images of its old vertices. -/
theorem map_points_goal (hk : m.shape.kind = .line) (h : t.Stretches m.pageTransform factors) :
    (m.shape.scaledForm factors).points.map (m.goal t factors).apply =
      m.shape.form.points.map fun p => t.apply (m.pageTransform.apply p) := by
  have hshift : m.shape.flipShift factors = Vec.zero := by simp [Shape.flipShift, hk]
  have hform : (m.shape.scaledForm factors).points =
      m.shape.form.points.map fun v => ⟨v.x * factors.x, v.y * factors.y⟩ := by
    simp [Shape.scaledForm, hk, Form.points]
  rw [hform, List.map_map]
  refine List.map_congr_left fun p _ => apply_goal h ?_ ?_ <;> rw [hshift]
  · show p.x * factors.x + 0 = factors.x * p.x
    ring
  · show p.y * factors.y + 0 = factors.y * p.y
    ring

/-- A shape of fixed size keeps its form, and the corner of it where its mirror image would begin
    lies at the image of its old origin. -/
theorem apply_goal_fixedSize (hk : m.shape.kind ∈ [Kind.text, .note])
    (h : t.Stretches m.pageTransform factors) :
    m.shape.scaledForm factors = m.shape.form ∧
      (m.goal t factors).apply ⟨if factors.x < 0 then m.shape.extent.x else 0,
        if factors.y < 0 then m.shape.extent.y else 0⟩ =
          t.apply (m.pageTransform.apply Point.origin) := by
  have hkind : m.shape.scaledForm factors = m.shape.form ∧ m.shape.flipShift factors =
      ⟨if factors.x < 0 then -m.shape.extent.x else 0,
        if factors.y < 0 then -m.shape.extent.y else 0⟩ := by
    simp only [List.mem_cons, List.not_mem_nil, or_false] at hk
    rcases hk with hk | hk <;> simp only [Shape.scaledForm, Shape.flipShift, hk] <;>
      exact ⟨trivial, rfl⟩
  refine ⟨hkind.1, apply_goal h ?_ ?_⟩ <;> rw [hkind.2, Point.origin]
  · split_ifs <;> simp
  · split_ifs <;> simp

end Member

end CanvasTransform
