import CanvasTransform.Proofs.Session.Aspect
import CanvasTransform.Proofs.Snap.Axes
import CanvasTransform.Proofs.Transform.Mirror

set_option autoImplicit false

/-! # The handle follows the pointer

A drag of a handle becomes factors along the axes of the selection, and the factors become a map of
the page. The two steps undo each other: the map takes the handle to where the pointer took it
(`OrientedBox.pageScale_follows`). In the selection frame this is one line, since a factor is the
ratio of two distances from the anchor, and the map multiplies distances from the anchor
(`OrientedBox.toAffine_apply_handle`). The turn of the frame drops out, because the map of the page is
the map of the frame seen through the turn (`OrientedBox.pageScale_apply_toPage`).

An edge moves one axis only, so its handle follows the part of the drag that lies along it. When the
aspect ratio is kept the handle cannot follow; what the factors are then is said against the factors
without that restriction (`Handle.Evens`). -/

namespace CanvasTransform

/-! ## Axes of the selection -/

/-- The axis that the handle of an edge moves. -/
def Edge.axis : Edge → Axis
  | .left | .right => .x
  | .top | .bottom => .y

namespace OrientedBox

/-- The direction of an axis of the selection on the page. -/
noncomputable def pageAxis (b : OrientedBox ℝ) (axis : Axis) : Vec ℝ :=
  (axis.vec 1).rotate b.rotation

variable (b : OrientedBox ℝ)

/-- A displacement on the page, seen from the selection frame and back. -/
theorem toPage_applyVec_rotate (v : Vec ℝ) : b.toPage.applyVec (v.rotate (-b.rotation)) = v := by
  have hframe : v.rotate (-b.rotation) = b.toFrame.applyVec v := by
    ext <;> simp [Vec.rotate, toFrame, Affine.rotate, Affine.applyVec] <;> ring
  rw [hframe, ← Affine.applyVec_mul, b.toPage_mul_toFrame, Affine.applyVec_identity]

/-- The component along an axis of the selection is what the axis measures on the page. -/
theorem component_rotate (axis : Axis) (v : Vec ℝ) :
    axis.component (v.rotate (-b.rotation)) = v.dot (b.pageAxis axis) := by
  have hcos : Scalar.cos (-b.rotation) = Scalar.cos b.rotation := Real.cos_neg _
  have hsin : Scalar.sin (-b.rotation) = -Scalar.sin b.rotation := Real.sin_neg _
  cases axis <;> simp [Axis.component, Axis.vec, pageAxis, Vec.rotate, Vec.dot, hcos, hsin]

theorem toPage_applyVec_vec (axis : Axis) (k : ℝ) :
    b.toPage.applyVec (axis.vec k) = (b.pageAxis axis).scale k := by
  cases axis <;> ext <;>
    simp [Axis.vec, pageAxis, toPage, Affine.rotate, Affine.applyVec, Vec.rotate, Vec.scale]

theorem toPage_apply_add (p : Point ℝ) (v : Vec ℝ) :
    b.toPage.apply (p + v) = b.toPage.apply p + b.toPage.applyVec v := by
  ext <;> simp [toPage, Affine.rotate, Affine.apply, Affine.applyVec] <;> ring

end OrientedBox

/-! ## The map of the frame and the map of the page -/

namespace FrameScale

variable (z : FrameScale ℝ)

/-- A scaling multiplies the displacement from the anchor by the factors. -/
theorem toAffine_apply (p : Point ℝ) :
    z.toAffine.apply p = ⟨z.anchor.x + z.factors.x * (p.x - z.anchor.x),
      z.anchor.y + z.factors.y * (p.y - z.anchor.y)⟩ := by
  rw [toAffine_eq]
  ext <;> simp only [Affine.apply] <;> ring

theorem toAffine_apply_anchor : z.toAffine.apply z.anchor = z.anchor := by
  rw [toAffine_apply]
  ext <;> simp

/-- An axis with the factor one is left alone. -/
theorem coord_toAffine_apply {axis : Axis} (h : axis.component z.factors = 1) (p : Point ℝ) :
    axis.coord (z.toAffine.apply p) = axis.coord p := by
  rw [toAffine_apply]
  cases axis with
  | x =>
      have hx : z.factors.x = 1 := h
      simp [Axis.coord, hx]
  | y =>
      have hy : z.factors.y = 1 := h
      simp [Axis.coord, hy]

end FrameScale

namespace OrientedBox

variable (b : OrientedBox ℝ) (z : FrameScale ℝ)

theorem toFrame_apply_pageScale (p : Point ℝ) :
    b.toFrame.apply ((b.pageScale z).apply p) = z.toAffine.apply (b.toFrame.apply p) := by
  rw [← Affine.apply_mul, toFrame_mul_pageScale, Affine.apply_mul]

theorem pageScale_apply_toPage (p : Point ℝ) :
    (b.pageScale z).apply (b.toPage.apply p) = b.toPage.apply (z.toAffine.apply p) := by
  rw [pageScale_eq, Affine.apply_mul, Affine.apply_mul, ← Affine.apply_mul b.toFrame,
    toFrame_mul_toPage, Affine.apply_identity]

/-! ## Factors without restriction -/

variable {h : Handle} {flags : Flags} {locked : Bool}

/-- A factor is the ratio of how far the handle is from the anchor now and was before. -/
theorem factors_resizeScale {α : Type} [Scalar α] {b : OrientedBox α} {delta : Vec α}
    (hfree : (locked || flags.shift) = false) :
    let start := h.positionOn b.rect
    let anchor := b.resizeAnchor h flags.alt
    let reach := start + delta.rotate (-b.rotation) - anchor
    (b.resizeScale h delta flags locked).factors =
      ⟨if h.movesX then reach.x / (start - anchor).x else 1,
        if h.movesY then reach.y / (start - anchor).y else 1⟩ := by
  simp only [resizeScale, hfree, Bool.false_eq_true, if_false]

/-- A distance from the anchor, multiplied by how many times as far the handle is now. -/
theorem anchor_add_ratio_mul {K : Type} [Field K] {start anchor d : K} (h : start - anchor ≠ 0) :
    anchor + (start + d - anchor) / (start - anchor) * (start - anchor) = start + d := by
  rw [div_mul_cancel₀ _ h]
  ring

variable {b} {delta : Vec ℝ}

/-- **In the selection frame the handle follows** the drag on the axes that it moves. -/
theorem toAffine_apply_handle (delta : Vec ℝ) (hfree : (locked || flags.shift) = false)
    (hwidth : h.movesX = true → b.rect.width ≠ 0) (hheight : h.movesY = true → b.rect.height ≠ 0) :
    (b.resizeScale h delta flags locked).toAffine.apply (h.positionOn b.rect) =
      h.positionOn b.rect + (⟨if h.movesX then (delta.rotate (-b.rotation)).x else 0,
        if h.movesY then (delta.rotate (-b.rotation)).y else 0⟩ : Vec ℝ) := by
  obtain ⟨hx, hy⟩ := b.handleExtent_ne_zero h flags.alt
  have hanchor : (b.resizeScale h delta flags locked).anchor = b.resizeAnchor h flags.alt := rfl
  rw [FrameScale.toAffine_apply, factors_resizeScale hfree, hanchor]
  ext
  · by_cases hmoves : h.movesX = true
    · simp only [if_pos hmoves, Point.add_x]
      exact anchor_add_ratio_mul (hx hmoves (hwidth hmoves))
    · simp only [if_neg hmoves, Point.add_x]
      ring
  · by_cases hmoves : h.movesY = true
    · simp only [if_pos hmoves, Point.add_y]
      exact anchor_add_ratio_mul (hy hmoves (hheight hmoves))
    · simp only [if_neg hmoves, Point.add_y]
      ring

/-! ## What a drag asks for -/

/-- The map takes the handle along with a drag: a corner by all of it, an edge by the part of it along
    the axis that the edge moves, with nothing happening on the other axis of the selection. -/
def Follows (b : OrientedBox ℝ) (h : Handle) (delta : Vec ℝ) (t : Affine ℝ) : Prop :=
  match h with
  | .corner _ => t.apply (b.handlePosition h) = b.handlePosition h + delta
  | .edge e =>
    t.apply (b.handlePosition h) =
        b.handlePosition h + (b.pageAxis e.axis).scale (delta.dot (b.pageAxis e.axis)) ∧
      ∀ p, e.axis.cross.coord (b.toFrame.apply (t.apply p)) =
        e.axis.cross.coord (b.toFrame.apply p)
  | .rotate => t = Affine.identity

/-- The map of the page that an unrestricted drag asks for takes the handle along with it. -/
theorem follows_resizeScale (hfree : (locked || flags.shift) = false)
    (hwidth : h.movesX = true → b.rect.width ≠ 0) (hheight : h.movesY = true → b.rect.height ≠ 0) :
    b.Follows h delta (b.pageScale (b.resizeScale h delta flags locked)) := by
  have hhandle := toAffine_apply_handle delta hfree hwidth hheight
  have hfactors : (b.resizeScale h delta flags locked).factors = _ := factors_resizeScale hfree
  have hpage : (b.pageScale (b.resizeScale h delta flags locked)).apply (b.handlePosition h) =
      b.handlePosition h + b.toPage.applyVec ⟨if h.movesX then (delta.rotate (-b.rotation)).x else 0,
        if h.movesY then (delta.rotate (-b.rotation)).y else 0⟩ := by
    rw [handlePosition, pageScale_apply_toPage, hhandle, toPage_apply_add]
  cases h with
  | corner c => exact hpage.trans (congrArg (b.handlePosition _ + ·) (b.toPage_applyVec_rotate delta))
  | edge e =>
      have hmoved : (⟨if (Handle.edge e).movesX then (delta.rotate (-b.rotation)).x else 0,
          if (Handle.edge e).movesY then (delta.rotate (-b.rotation)).y else 0⟩ : Vec ℝ) =
          e.axis.vec (delta.dot (b.pageAxis e.axis)) := by
        rw [← b.component_rotate]
        cases e <;> rfl
      refine ⟨by rw [hpage, hmoved, toPage_applyVec_vec], fun p => ?_⟩
      rw [toFrame_apply_pageScale]
      refine FrameScale.coord_toAffine_apply _ ?_ _
      rw [hfactors]
      cases e <;> rfl
  | rotate =>
      have hstill : (b.resizeScale .rotate delta flags locked).toAffine = Affine.identity := by
        rw [FrameScale.toAffine_eq, hfactors]
        ext <;> simp [Affine.identity, Handle.movesX, Handle.movesY]
      rw [Follows, pageScale_eq, hstill, Affine.mul_identity, toPage_mul_toFrame]

end OrientedBox

/-- The factors of a drag that keeps the aspect ratio are evened out from what they would be without
    that. Both have the same magnitude. A corner takes the larger of the two magnitudes and keeps
    the signs, where zero counts as positive; an edge keeps its own factor, and the other axis takes
    the magnitude of it. -/
def Handle.Evens (h : Handle) (free factors : Vec ℝ) : Prop :=
  |factors.x| = |factors.y| ∧
    match h with
    | .corner _ => ∀ axis : Axis, axis.component factors =
        if axis.component free < 0 then -max |free.x| |free.y| else max |free.x| |free.y|
    | .edge e => e.axis.component factors = e.axis.component free ∧
        e.axis.cross.component factors = |e.axis.component free|
    | .rotate => factors = free

/-- Evened out, a factor is the larger magnitude with the sign that it had. -/
theorem Vec.component_equalize (v : Vec ℝ) (axis : Axis) : axis.component v.equalize =
    if axis.component v < 0 then -max |v.x| |v.y| else max |v.x| |v.y| := by
  have hlarger : Scalar.max (Scalar.abs v.x) (Scalar.abs v.y) = max |v.x| |v.y| := Scalar.max_eq _ _
  have hnonneg : 0 ≤ max |v.x| |v.y| := (abs_nonneg v.x).trans (le_max_left _ _)
  have hsign : ∀ a : ℝ, Scalar.copysign (max |v.x| |v.y|) a =
      if a < 0 then -max |v.x| |v.y| else max |v.x| |v.y| := by
    intro a
    show (if a < 0 then -abs (max |v.x| |v.y|) else abs (max |v.x| |v.y|)) = _
    rw [abs_of_nonneg hnonneg]
  cases axis <;> simp only [Axis.component, equalize, hlarger, hsign] <;> rfl

namespace OrientedBox

variable {b : OrientedBox ℝ} {h : Handle} {delta : Vec ℝ} {flags : Flags} {locked : Bool}

/-- What a drag asks for when the aspect ratio is kept. -/
theorem evens_resizeScale (hkept : (locked || flags.shift) = true) :
    h.Evens (b.resizeScale h delta { flags with shift := false } false).factors
      (b.resizeScale h delta flags locked).factors := by
  cases h with
  | corner c =>
      generalize hfree :
        (b.resizeScale (.corner c) delta { flags with shift := false } false).factors = free
      have hfactors : (b.resizeScale (.corner c) delta flags locked).factors = free.equalize := by
        simp only [resizeScale, Bool.or_false, Bool.false_eq_true, if_false] at hfree
        simp only [resizeScale, hkept, if_true, hfree]
      obtain ⟨hx, hy⟩ := free.abs_equalize_eq
      rw [hfactors]
      exact ⟨hx.trans hy.symm, free.component_equalize⟩
  | edge e =>
      cases e with
      | left | right =>
          simp only [resizeScale, hkept, if_true]
          exact ⟨(abs_abs _).symm, rfl, rfl⟩
      | top | bottom =>
          simp only [resizeScale, hkept, if_true]
          exact ⟨abs_abs _, rfl, rfl⟩
  | rotate =>
      simp only [resizeScale, hkept, if_true]
      exact ⟨rfl, rfl⟩

/-- **The handle follows the pointer and the anchor stays.** -/
theorem pageScale_follows (b : OrientedBox ℝ) (h : Handle) (delta : Vec ℝ) (flags : Flags)
    (locked : Bool) (hwidth : h.movesX = true → b.rect.width ≠ 0)
    (hheight : h.movesY = true → b.rect.height ≠ 0) :
    let s := b.resizeScale h delta flags locked
    let t := b.pageScale s
    let anchor := if flags.alt then b.pageCenter else b.handlePosition h.opposite
    t.apply anchor = anchor ∧
      ((locked || flags.shift) = false → b.Follows h delta t) ∧
      ((locked || flags.shift) = true →
        h.Evens (b.resizeScale h delta { flags with shift := false } false).factors s.factors) := by
  intro s t anchor
  refine ⟨?_, fun hfree => follows_resizeScale hfree hwidth hheight, evens_resizeScale⟩
  have hanchor : anchor = b.toPage.apply s.anchor := by
    show (if flags.alt then b.pageCenter else b.handlePosition h.opposite) =
      b.toPage.apply (if flags.alt then _ else _)
    split <;> rfl
  rw [hanchor, pageScale_apply_toPage, FrameScale.toAffine_apply_anchor]

/-- A turned box: a corner dragged with the center held, an edge dragged, and the same edge with the
    aspect ratio kept. -/
theorem pageScale_follows_turned_box :
    let b : OrientedBox ℝ := ⟨⟨0, 0, 10, 20⟩, 1⟩
    let flags : Flags := ⟨false, false, false⟩
    let corner := b.pageScale (b.resizeScale (.corner .topLeft) ⟨-3, 4⟩ { flags with alt := true } false)
    let edge := b.pageScale (b.resizeScale (.edge .left) ⟨-3, 4⟩ flags false)
    let kept := b.resizeScale (.edge .left) ⟨-3, 4⟩ flags true
    (b.rect.width ≠ 0 ∧ b.rect.height ≠ 0) ∧
      (corner.apply b.pageCenter = b.pageCenter ∧
        corner.apply (b.handlePosition (.corner .topLeft)) =
          b.handlePosition (.corner .topLeft) + (⟨-3, 4⟩ : Vec ℝ)) ∧
      (edge.apply (b.handlePosition (.edge .right)) = b.handlePosition (.edge .right) ∧
        edge.apply (b.handlePosition (.edge .left)) = b.handlePosition (.edge .left) +
          (b.pageAxis .x).scale ((⟨-3, 4⟩ : Vec ℝ).dot (b.pageAxis .x))) ∧
      kept.factors.y = |kept.factors.x| := by
  intro b flags corner edge kept
  have hwidth : b.rect.width ≠ 0 := by norm_num [b, Rect.width]
  have hheight : b.rect.height ≠ 0 := by norm_num [b, Rect.height]
  obtain ⟨hcenter, hcorner, -⟩ := b.pageScale_follows (.corner .topLeft) ⟨-3, 4⟩
    { flags with alt := true } false (fun _ => hwidth) (fun _ => hheight)
  obtain ⟨hopposite, hedge, -⟩ := b.pageScale_follows (.edge .left) ⟨-3, 4⟩ flags false
    (fun _ => hwidth) (fun _ => hheight)
  obtain ⟨-, -, hkept⟩ := b.pageScale_follows (.edge .left) ⟨-3, 4⟩ flags true
    (fun _ => hwidth) (fun _ => hheight)
  obtain ⟨-, hown, hother⟩ := hkept rfl
  exact ⟨⟨hwidth, hheight⟩, ⟨hcenter, hcorner rfl⟩, ⟨hopposite, (hedge rfl).1⟩,
    hother.trans (congrArg abs hown.symm)⟩

end OrientedBox

end CanvasTransform
