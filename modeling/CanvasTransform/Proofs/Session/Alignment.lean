import Mathlib.Data.Real.Basic
import CanvasTransform.Proofs.Snap.Lines
import CanvasTransform.Proofs.Transform.Drag

set_option autoImplicit false

/-! # The lines of a resize

A resize snaps the handle first: the drag is nudged so that the handle would come to a coordinate of
some candidate, and the lines show the handle there (`Snap.Justified`). Only then does the drag become
factors, and these need not take the handle there. When the aspect ratio is kept, a corner gives up
the smaller of its two factors for the larger, and an edge of a box that is only nearly upright moves
along its own axis, not along that of the page. What the handle misses by is `OrientedBox.miss`, and a
line that was published is true of the resize exactly if the miss along its axis is within the
tolerance (`Session.resize_lines`).

In a box that is upright the miss is nothing for edges, with the aspect ratio kept or not, and for
corners that are free. A corner that keeps the aspect ratio misses along the axis with the smaller
factor by what the two factors differ, and the line on that axis is false
(`Session.exists_missed_line`). -/

namespace CanvasTransform

/-- The axes that a handle moves. -/
def Handle.axes (h : Handle) : Axes := ⟨h.movesX, h.movesY⟩

namespace OrientedBox

/-- The factors that a drag would have if nothing kept the aspect ratio. -/
noncomputable def freeFactors (b : OrientedBox ℝ) (h : Handle) (delta : Vec ℝ) (flags : Flags) :
    Vec ℝ :=
  (b.resizeScale h delta { flags with shift := false } false).factors

/-- By how much the map of a resize misses the place that the drag takes the handle to. On an axis that
    the handle moves it is what the factor has more than the free one; on the other it is all of the
    drag. -/
noncomputable def miss (b : OrientedBox ℝ) (h : Handle) (delta : Vec ℝ) (flags : Flags) (locked : Bool) :
    Vec ℝ :=
  let free := b.freeFactors h delta flags
  let factors := (b.resizeScale h delta flags locked).factors
  let extent := b.handleExtent h flags.alt
  let turned := delta.rotate (-b.rotation)
  b.toPage.applyVec
    ⟨(factors.x - free.x) * extent.x - (if h.movesX then 0 else turned.x),
      (factors.y - free.y) * extent.y - (if h.movesY then 0 else turned.y)⟩

variable {b : OrientedBox ℝ} {h : Handle} {delta : Vec ℝ} {flags : Flags} {locked : Bool}

/-- The map of a resize takes the handle to where the drag takes it, but for the miss. -/
theorem pageScale_apply_handle (flags : Flags) (locked : Bool) (delta : Vec ℝ)
    (hwidth : h.movesX = true → b.rect.width ≠ 0) (hheight : h.movesY = true → b.rect.height ≠ 0) :
    (b.pageScale (b.resizeScale h delta flags locked)).apply (b.handlePosition h) =
      b.handlePosition h + delta + b.miss h delta flags locked := by
  -- The free factors take the handle there on the axes that it moves, and leave it on the other.
  have hfree : (b.resizeScale h delta { flags with shift := false } false).toAffine.apply
      (h.positionOn b.rect) =
        h.positionOn b.rect + (⟨if h.movesX then (delta.rotate (-b.rotation)).x else 0,
          if h.movesY then (delta.rotate (-b.rotation)).y else 0⟩ : Vec ℝ) :=
    toAffine_apply_handle delta rfl hwidth hheight
  rw [FrameScale.toAffine_apply] at hfree
  have hframe : (b.resizeScale h delta flags locked).toAffine.apply (h.positionOn b.rect) =
      h.positionOn b.rect + delta.rotate (-b.rotation) + (⟨
        ((b.resizeScale h delta flags locked).factors.x - (b.freeFactors h delta flags).x) *
            (b.handleExtent h flags.alt).x -
          (if h.movesX then 0 else (delta.rotate (-b.rotation)).x),
        ((b.resizeScale h delta flags locked).factors.y - (b.freeFactors h delta flags).y) *
            (b.handleExtent h flags.alt).y -
          (if h.movesY then 0 else (delta.rotate (-b.rotation)).y)⟩ : Vec ℝ) := by
    rw [FrameScale.toAffine_apply]
    have hx := congrArg Point.x hfree
    have hy := congrArg Point.y hfree
    generalize (b.resizeScale h delta flags locked).factors = factors
    have hanchor : (b.resizeScale h delta { flags with shift := false } false).anchor =
        (b.resizeScale h delta flags locked).anchor := rfl
    have hextent : b.handleExtent h flags.alt =
        h.positionOn b.rect - (b.resizeScale h delta flags locked).anchor := rfl
    simp only [hanchor, Point.add_x, Point.add_y] at hx hy
    rw [hextent, freeFactors]
    generalize (b.resizeScale h delta flags locked).anchor = anchor at hx hy ⊢
    ext
    · simp only [Point.add_x, Point.sub_x]
      split_ifs at hx ⊢ <;> linear_combination hx
    · simp only [Point.add_y, Point.sub_y]
      split_ifs at hy ⊢ <;> linear_combination hy
  rw [handlePosition, pageScale_apply_toPage, hframe, toPage_apply_add, toPage_apply_add,
    b.toPage_applyVec_rotate]
  rfl

/-- A free corner misses nothing. -/
theorem miss_of_free {c : Corner} (hfree : (locked || flags.shift) = false) :
    b.miss (.corner c) delta flags locked = Vec.zero := by
  have hfactors : (b.resizeScale (.corner c) delta flags locked).factors =
      b.freeFactors (.corner c) delta flags := by
    simp only [freeFactors, resizeScale, hfree, Bool.or_self]
  rw [miss, hfactors]
  ext <;> simp [Affine.applyVec, Handle.movesX, Handle.movesY, Vec.zero]

/-- Along the axis that it moves, an edge has its free factor. -/
theorem component_factors_edge (e : Edge) :
    e.axis.component (b.resizeScale (.edge e) delta flags locked).factors =
      e.axis.component (b.freeFactors (.edge e) delta flags) := by
  cases hkept : locked || flags.shift with
  | true =>
      have hevens : (Handle.edge e).Evens (b.freeFactors (.edge e) delta flags)
          (b.resizeScale (.edge e) delta flags locked).factors := evens_resizeScale hkept
      exact hevens.2.1
  | false => simp only [freeFactors, resizeScale, hkept, Bool.or_self]

/-- A factor that is evened out is larger in magnitude by what it is short of the larger one. -/
theorem abs_component_sub_of_evens {c : Corner} {free factors : Vec ℝ}
    (h : (Handle.corner c).Evens free factors) (axis : Axis) :
    |axis.component factors - axis.component free| =
      max |free.x| |free.y| - |axis.component free| := by
  have hle : |axis.component free| ≤ max |free.x| |free.y| := by
    cases axis with
    | x => exact le_max_left _ _
    | y => exact le_max_right _ _
  rw [h.2 axis]
  split_ifs with hneg
  · rw [abs_of_neg hneg] at hle ⊢
    rw [abs_of_nonpos (by linarith)]
    ring
  · rw [abs_of_nonneg (not_lt.1 hneg)] at hle ⊢
    exact abs_of_nonneg (by linarith)

/-- In an upright box, the miss along an axis that the handle moves: there is one only for a corner that
    keeps the aspect ratio, on the axis with the smaller factor. -/
theorem abs_component_miss (hrotation : b.rotation = 0) {axis : Axis}
    (hmoves : h.axes.enabled axis = true) :
    let free := b.freeFactors h delta flags
    |axis.component (b.miss h delta flags locked)| =
      if (locked || flags.shift) && !h.isEdge then
        (max |free.x| |free.y| - |axis.component free|) *
          |axis.component (b.handleExtent h flags.alt)|
      else 0 := by
  intro free
  have hpage : ∀ v, b.toPage.applyVec v = v := by
    intro v
    have hcos : (Scalar.cos 0 : ℝ) = 1 := Real.cos_zero
    have hsin : (Scalar.sin 0 : ℝ) = 0 := Real.sin_zero
    ext <;> simp [toPage, Affine.rotate, Affine.applyVec, hrotation, hcos, hsin]
  have hmiss : axis.component (b.miss h delta flags locked) =
      (axis.component (b.resizeScale h delta flags locked).factors - axis.component free) *
        axis.component (b.handleExtent h flags.alt) := by
    rw [miss, hpage]
    cases axis with
    | x =>
        have hx : h.movesX = true := hmoves
        simp only [Axis.component, hx, if_true, sub_zero, free]
    | y =>
        have hy : h.movesY = true := hmoves
        simp only [Axis.component, hy, if_true, sub_zero, free]
  cases h with
  | corner c =>
      cases hkept : locked || flags.shift with
      | true =>
          have hevens : (Handle.corner c).Evens free
              (b.resizeScale (.corner c) delta flags locked).factors := evens_resizeScale hkept
          rw [hmiss, abs_mul, abs_component_sub_of_evens hevens]
          rfl
      | false =>
          rw [miss_of_free hkept]
          cases axis <;> exact abs_zero
  | edge e =>
      have haxis : axis = e.axis := by
        cases axis <;> cases e <;> first | rfl | exact absurd hmoves Bool.false_ne_true
      rw [hmiss, haxis, component_factors_edge, sub_self, zero_mul, abs_zero, Handle.isEdge,
        Bool.not_true, Bool.and_false, if_neg Bool.false_ne_true]
  | rotate => cases axis <;> exact absurd hmoves Bool.false_ne_true

end OrientedBox

namespace Session

open Snap

variable {s : Session ℝ} {config : Config ℝ} {zoom : ℝ} {h : Handle}

/-- While the key for snapping is held, the handle of an upright box snaps as a point does. -/
theorem snappedHandleDrag_of_ctrl (config : Config ℝ) (zoom : ℝ) (h : Handle)
    (hsnap : s.flags.ctrl = true) (hupright : s.snapshot.box.isUpright = true) :
    let snap := Snap.point (s.snapshot.box.handlePosition h + s.drag) s.snapshot.candidates
      (config.snapDistance / zoom) h.axes
    s.snappedHandleDrag config zoom h = (s.drag + snap.nudge, snap.lines) := by
  simp only [snappedHandleDrag, hsnap, hupright, if_true]
  rfl

/-- **What the lines of a resize are worth.** The update scales the selection by the map `t`. Each line
    through points was drawn for the handle as it snapped, on an axis that the handle moves; `t` takes
    the handle there but for the miss. A free corner misses nothing, and in a box without rotation
    nothing but a corner that keeps the aspect ratio does. -/
theorem resize_lines (c : Canvas ℝ) (hkind : s.kind = .resize h) (hsnap : s.flags.ctrl = true)
    (hupright : s.snapshot.box.isUpright = true) (hwidth : s.snapshot.box.rect.width ≠ 0)
    (hheight : s.snapshot.box.rect.height ≠ 0) :
    let box := s.snapshot.box
    let delta := (s.snappedHandleDrag config zoom h).1
    let snapped := box.handlePosition h + delta
    let t := box.pageScale (box.resizeScale h delta s.flags s.snapshot.aspectLocked)
    let miss := box.miss h delta s.flags s.snapshot.aspectLocked
    let free := box.freeFactors h delta s.flags
    let update := s.update c config zoom
    update.outcome = s.snapshot.scale c t ∧
    (∀ ps, .points ps ∈ update.lines →
      (∃ axis, h.axes.enabled axis = true ∧
        Through [snapped] s.snapshot.candidates axis (axis.coord snapped) ps) ∧
      ∀ axis value, Through [snapped] s.snapshot.candidates axis value ps →
        axis.coord (t.apply (box.handlePosition h)) - value = axis.component miss) ∧
    (∀ corner, h = .corner corner → (s.snapshot.aspectLocked || s.flags.shift) = false →
      miss = Vec.zero) ∧
    (box.rotation = 0 → ∀ axis, h.axes.enabled axis = true →
      |axis.component miss| =
        if (s.snapshot.aspectLocked || s.flags.shift) && !h.isEdge then
          (max |free.x| |free.y| - |axis.component free|) *
            |axis.component (box.handleExtent h s.flags.alt)|
        else 0) := by
  intro box delta snapped t miss free update
  have hdrag := snappedHandleDrag_of_ctrl config zoom h hsnap hupright
  have hlines : update.lines = (s.snappedHandleDrag config zoom h).2 := by
    simp only [update, Session.update, resizeUpdate, hkind]
  have hsnapped : snapped = box.handlePosition h + s.drag +
      (Snap.point (box.handlePosition h + s.drag) s.snapshot.candidates
        (config.snapDistance / zoom) h.axes).nudge := by
    simp only [snapped, delta, hdrag]
    ext <;> simp only [Point.add_x, Point.add_y, Vec.add_x, Vec.add_y, add_assoc] <;> rfl
  obtain ⟨⟨-, htruthful, -⟩, -⟩ := justified_point (box.handlePosition h + s.drag)
    s.snapshot.candidates (config.snapDistance / zoom) h.axes
  rw [← hsnapped] at htruthful
  refine ⟨outcome_of_kind hkind c config zoom, fun ps hps => ⟨?_, fun axis value hthrough => ?_⟩,
    fun corner hcorner hfree => ?_, fun hrotation axis hmoves => OrientedBox.abs_component_miss hrotation
      hmoves⟩
  · rw [hlines, hdrag] at hps
    obtain ⟨axis, value, hsnaps, hthrough⟩ := htruthful ps hps
    exact ⟨axis, hsnaps.active, hthrough.value_eq ▸ hthrough⟩
  · rw [hthrough.value_eq, OrientedBox.pageScale_apply_handle s.flags s.snapshot.aspectLocked delta
      (fun _ => hwidth) fun _ => hheight, Axis.coord_add]
    exact add_sub_cancel_left _ _
  · subst hcorner
    exact OrientedBox.miss_of_free hfree

/-! ## A corner next to another square -/

/-- A square of 100 by 100 is resized by its bottom right corner, next to a square with the top side at
    150. The pointer was dragged to (180, 147). -/
noncomputable def cornerDrag (shift : Bool) : Session ℝ :=
  let square : Member ℝ := ⟨Shape.rectangle 1 0 0 100 100, Affine.identity, Affine.identity, []⟩
  let snapshot : Snapshot ℝ :=
    { topLevel := [1]
      members := Std.TreeMap.empty.insert 1 square
      box := ⟨⟨0, 0, 100, 100⟩, 0⟩
      aspectLocked := false
      pageBounds := ⟨0, 0, 100, 100⟩
      candidates := .ofShapes [.ofBounds 2 ⟨400, 150, 450, 200⟩] }
  (Session.start (.resize (.corner .bottomRight)) ⟨100, 100⟩ ⟨shift, false, true⟩ snapshot).moveTo
    ⟨180, 147⟩ ⟨shift, false, true⟩

section
variable (shift : Bool)

theorem extent_cornerDrag :
    (cornerDrag shift).snapshot.box.rect.width ≠ 0 ∧ (cornerDrag shift).snapshot.box.rect.height ≠ 0 := by
  constructor <;> norm_num [cornerDrag, Session.start, moveTo, Rect.width, Rect.height]

theorem isUpright_cornerDrag : (cornerDrag shift).snapshot.box.isUpright = true :=
  Angle.same_of_cos_sin rfl rfl

theorem handlePosition_cornerDrag :
    (cornerDrag shift).snapshot.box.handlePosition (.corner .bottomRight) = ⟨100, 100⟩ := by
  have hcos : (Scalar.cos 0 : ℝ) = 1 := Real.cos_zero
  have hsin : (Scalar.sin 0 : ℝ) = 0 := Real.sin_zero
  ext <;> simp [cornerDrag, Session.start, moveTo, OrientedBox.handlePosition, OrientedBox.toPage,
    Affine.rotate, Affine.apply, Handle.positionOn, Handle.unit, Rect.position, Rect.width,
    Rect.height, hcos, hsin]

/-- What the other square offers for alignment. -/
theorem mem_points_cornerDrag {c : Point ℝ} (hc : c ∈ (cornerDrag shift).snapshot.candidates.points) :
    (c.x = 400 ∨ c.x = 450 ∨ c.x = 425) ∧ (c.y = 150 ∨ c.y = 200 ∨ c.y = 175) := by
  have hpoints : (cornerDrag shift).snapshot.candidates.points =
      (⟨400, 150, 450, 200⟩ : Rect ℝ).snapPoints := by
    simp [cornerDrag, Session.start, moveTo, Candidates.points, Candidates.ofShapes,
      Candidate.ofBounds]
  rw [hpoints, Rect.snapPoints, List.mem_append, Rect.mem_corners_iff, List.mem_singleton] at hc
  rcases hc with ⟨hx, hy⟩ | rfl
  · exact ⟨by tauto, by tauto⟩
  · constructor <;> norm_num [Rect.center]

/-- The corner snaps to the top side, and a line shows it there. -/
theorem snaps_cornerDrag :
    let drag := (cornerDrag shift).snappedHandleDrag Config.standard 1 (.corner .bottomRight)
    drag.1 = ⟨80, 50⟩ ∧ ∃ ps, .points ps ∈ drag.2 ∧
      Through [⟨180, 150⟩] (cornerDrag shift).snapshot.candidates .y 150 ps := by
  intro drag
  have hthreshold : (Config.standard : Config ℝ).snapDistance / 1 = 8 := by norm_num [Config.standard]
  have htarget : (cornerDrag shift).snapshot.box.handlePosition (.corner .bottomRight) +
      (cornerDrag shift).drag = ⟨180, 147⟩ := by
    rw [handlePosition_cornerDrag]
    ext <;> norm_num [cornerDrag, Session.start, moveTo, Session.drag]
  have hdrag : drag = _ := snappedHandleDrag_of_ctrl _ _ _ rfl (isUpright_cornerDrag shift)
  rw [htarget, hthreshold] at hdrag
  generalize hcs : (cornerDrag shift).snapshot.candidates = cs at hdrag ⊢
  have hpoints : ∀ c ∈ cs.points,
      (c.x = 400 ∨ c.x = 450 ∨ c.x = 425) ∧ (c.y = 150 ∨ c.y = 200 ∨ c.y = 175) :=
    fun c hc => mem_points_cornerDrag shift (hcs ▸ hc)
  have hcases := Snap.point_cases ⟨180, 147⟩ cs 8 (Handle.corner .bottomRight).axes
  obtain ⟨hjustified, hgaps⟩ := justified_point ⟨180, 147⟩ cs 8 (Handle.corner .bottomRight).axes
  generalize Snap.point ⟨180, 147⟩ cs 8 (Handle.corner .bottomRight).axes = snap at *
  have hx : snap.nudge.x = 0 := by
    rcases hcases .x with ⟨hzero, -⟩ | ⟨-, -, -, hlt, c, hc, hcoord⟩
    · exact hzero
    · have hlt : |snap.nudge.x| < 8 := hlt
      have hcoord : 180 + snap.nudge.x = c.x := hcoord
      obtain ⟨hcx, -⟩ := hpoints c hc
      rw [abs_lt] at hlt
      rcases hcx with h | h | h <;> linarith
  have hsnaps : PointSnaps ⟨180, 147⟩ cs 8 (Handle.corner .bottomRight).axes .y := by
    refine ⟨rfl, ⟨400, 150⟩, ?_, ?_⟩
    · rw [← hcs]
      exact List.mem_flatMap.2 ⟨_, .head _, .head _⟩
    · norm_num [Axis.coord]
  have hy : snap.nudge.y = 3 := by
    rcases hcases .y with ⟨-, -, hnone⟩ | ⟨-, -, -, hlt, c, hc, hcoord⟩
    · exact absurd hsnaps hnone
    · have hlt : |snap.nudge.y| < 8 := hlt
      have hcoord : 147 + snap.nudge.y = c.y := hcoord
      obtain ⟨-, hcy⟩ := hpoints c hc
      rw [abs_lt] at hlt
      rcases hcy with h | h | h <;> linarith
  have hmoved : (⟨180, 147⟩ : Point ℝ) + snap.nudge = ⟨180, 150⟩ := by
    ext
    · rw [Point.add_x, hx, add_zero]
    · rw [Point.add_y, hy]
      norm_num
  rw [hdrag]
  constructor
  · ext <;> norm_num [hx, hy, cornerDrag, Session.start, moveTo, Session.drag]
  · rcases hjustified.shown .y hsnaps with ⟨value, ps, hps, hthrough⟩ | ⟨gaps, hline⟩
    · rw [hmoved] at hthrough
      have hvalue : value = 150 := hthrough.value_eq
      exact ⟨ps, hps, hvalue ▸ hthrough⟩
    · exact absurd hline (hgaps _ _)

end

/-- Without shift the corner ends on the line that is shown. -/
theorem resize_lines_corner :
    let s := cornerDrag false
    let box := s.snapshot.box
    let t := box.pageScale (box.resizeScale (.corner .bottomRight) ⟨80, 50⟩ s.flags false)
    (s.flags.ctrl = true ∧ box.isUpright = true ∧ box.rect.width ≠ 0 ∧ box.rect.height ≠ 0) ∧
      ∃ ps, .points ps ∈ (s.update ⟨Document.empty, Registry.builtin⟩ Config.standard 1).lines ∧
        Through [⟨180, 150⟩] s.snapshot.candidates .y 150 ps ∧ (t.apply ⟨100, 100⟩).y = 150 := by
  intro s box t
  obtain ⟨hwidth, hheight⟩ := extent_cornerDrag false
  obtain ⟨hdrag, ps, hps, hthrough⟩ := snaps_cornerDrag false
  obtain ⟨-, hlines, hfree, -⟩ := @resize_lines s Config.standard 1 (.corner .bottomRight)
    ⟨Document.empty, Registry.builtin⟩ rfl rfl (isUpright_cornerDrag false) hwidth hheight
  have hupdate : .points ps ∈
      (s.update ⟨Document.empty, Registry.builtin⟩ Config.standard 1).lines := hps
  have hmoved : (⟨100, 100⟩ : Point ℝ) + (⟨80, 50⟩ : Vec ℝ) = ⟨180, 150⟩ := by ext <;> norm_num
  have hmiss := (hlines ps hupdate).2 .y 150
  rw [hfree .bottomRight rfl rfl, hdrag, handlePosition_cornerDrag, hmoved] at hmiss
  refine ⟨⟨rfl, isUpright_cornerDrag false, hwidth, hheight⟩, ps, hupdate, hthrough, ?_⟩
  exact sub_eq_zero.1 (hmiss hthrough)

/-- **A line that the resize makes false.** With shift the corner goes on to (180, 180), since the
    factor of the height gives way to that of the width. The line that shows it at 150 is published all
    the same. -/
theorem exists_missed_line :
    let s := cornerDrag true
    let box := s.snapshot.box
    let h : Handle := .corner .bottomRight
    let delta := (s.snappedHandleDrag Config.standard 1 h).1
    let t := box.pageScale (box.resizeScale h delta s.flags s.snapshot.aspectLocked)
    let update := s.update ⟨Document.empty, Registry.builtin⟩ Config.standard 1
    (s.kind = .resize h ∧ s.flags.ctrl = true ∧ box.isUpright = true ∧ box.rotation = 0 ∧
      box.rect.width ≠ 0 ∧ box.rect.height ≠ 0) ∧
    update.outcome = s.snapshot.scale ⟨Document.empty, Registry.builtin⟩ t ∧
    ∃ ps, .points ps ∈ update.lines ∧ ¬ ∃ axis value,
      Through [box.handlePosition h + delta] s.snapshot.candidates axis value ps ∧
        |axis.coord (t.apply (box.handlePosition h)) - value| ≤ Scalar.coordTolerance := by
  intro s box h delta t update
  obtain ⟨hwidth, hheight⟩ := extent_cornerDrag true
  obtain ⟨hdrag, ps, hps, -⟩ := snaps_cornerDrag true
  have hdelta : delta = ⟨80, 50⟩ := hdrag
  have hsnapped : box.handlePosition h + delta = ⟨180, 150⟩ := by
    rw [hdelta, show box.handlePosition h = ⟨100, 100⟩ from handlePosition_cornerDrag true]
    ext <;> norm_num
  refine ⟨⟨rfl, rfl, isUpright_cornerDrag true, rfl, hwidth, hheight⟩,
    outcome_of_kind rfl _ _ _, ps, hps, ?_⟩
  have htolerance : (Scalar.coordTolerance : ℝ) < 1 := by norm_num [Scalar.coordTolerance]
  rintro ⟨axis, value, hthrough, hnear⟩
  have hvalue := hthrough.value_eq
  cases axis with
  | x =>
      -- No candidate point is above or below the corner.
      obtain ⟨c, hc, hshared⟩ := hthrough.shared
      obtain ⟨hx, -⟩ := mem_points_cornerDrag true hc
      rw [hsnapped] at hvalue
      have hvalue : value = 180 := hvalue
      have hshared : |c.x - value| ≤ Scalar.coordTolerance := hshared
      rw [abs_le] at hshared
      rcases hx with hx | hx | hx <;> linarith
  | y =>
      have hmiss : |Axis.y.component (box.miss h delta s.flags s.snapshot.aspectLocked)| = 30 := by
        have hcos : (Scalar.cos 0 : ℝ) = 1 := Real.cos_zero
        have hsin : (Scalar.sin 0 : ℝ) = 0 := Real.sin_zero
        have hextent : box.handleExtent h s.flags.alt = ⟨100, 100⟩ := by
          ext <;> simp [box, s, h, cornerDrag, Session.start, moveTo, OrientedBox.handleExtent,
            OrientedBox.resizeAnchor, Handle.positionOn, Handle.unit, Handle.opposite, Rect.position,
            Rect.width, Rect.height]
        have hfree : box.freeFactors h delta s.flags = ⟨9 / 5, 3 / 2⟩ := by
          rw [hdelta]
          ext <;> norm_num [box, s, h, cornerDrag, Session.start, moveTo, OrientedBox.freeFactors,
            OrientedBox.resizeScale, OrientedBox.resizeAnchor, Handle.positionOn, Handle.unit,
            Handle.opposite, Handle.movesX, Handle.movesY, Rect.position, Rect.width, Rect.height,
            Vec.rotate, hcos, hsin]
        rw [OrientedBox.abs_component_miss rfl rfl, hfree, hextent]
        norm_num [s, h, cornerDrag, Session.start, moveTo, Handle.isEdge, Axis.component]
      have hapart := OrientedBox.pageScale_apply_handle s.flags s.snapshot.aspectLocked delta
        (h := h) (fun _ => hwidth) fun _ => hheight
      rw [hvalue, show t.apply (box.handlePosition h) = _ from hapart, Axis.coord_add,
        add_sub_cancel_left, hmiss] at hnear
      linarith

end Session

end CanvasTransform
