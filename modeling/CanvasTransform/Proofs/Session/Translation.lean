import Mathlib.Data.Real.Basic
import CanvasTransform.Proofs.Snap.Grid
import CanvasTransform.Proofs.Snap.Lines
import CanvasTransform.Proofs.Transform.Motion

set_option autoImplicit false

/-! # A translation moves the selection by one displacement

What a drag comes to goes through three stages: shift locks the axis along which the pointer has moved
less, then other shapes or the grid attract, and then each top-level shape gets the displacement in the
frame of its parent. Each stage keeps the lock of the first: a locked axis is neither moved along, nor
snapped on, nor rounded, and brings no lines (`Session.Lawful`). The last stage sees a displacement
only, so it is the same one for the whole selection (`Session.translate_lawful`). -/

namespace CanvasTransform

/-! ## Locking an axis -/

namespace Axis

theorem component_add (axis : Axis) (v w : Vec ℝ) :
    axis.component (v + w) = axis.component v + axis.component w := by
  cases axis <;> rfl

theorem component_sub (axis : Axis) (p q : Point ℝ) :
    axis.component (p - q) = axis.coord p - axis.coord q := by
  cases axis <;> rfl

theorem component_onAxes (axis : Axis) (v : Vec ℝ) (axes : Axes) :
    axis.component (v.onAxes axes) = if axes.enabled axis then axis.component v else 0 := by
  cases axis <;> rfl

theorem coord_origin_add (axis : Axis) (r : Rect ℝ) (v : Vec ℝ) :
    axis.coord (r + v).origin = axis.coord r.origin + axis.component v := by
  cases axis <;> rfl

end Axis

/-- The axis along which a displacement is the smaller; of two that are equal, the horizontal one. -/
noncomputable def Vec.minorAxis (v : Vec ℝ) : Axis := if |v.x| ≤ |v.y| then .x else .y

/-- A lock leaves every axis but the minor one. -/
theorem enabled_dragAxes {delta : Vec ℝ} {locked : Bool} {axis : Axis} :
    (dragAxes delta locked).enabled axis = true ↔ (locked = true → axis ≠ delta.minorAxis) := by
  have hlt : Scalar.abs delta.y < Scalar.abs delta.x ↔ ¬ |delta.x| ≤ |delta.y| := not_le.symm
  unfold dragAxes Vec.minorAxis
  by_cases hle : |delta.x| ≤ |delta.y| <;>
    cases locked <;> cases axis <;> simp [hlt, hle, Axes.enabled, Axes.both]

/-! ## The axis of a line -/

namespace Snap

/-- The line is for the axis: it shows points of the box and of candidates that share a coordinate on
    the axis, or gaps along the axis. -/
def LineFor (moved : List (Point ℝ)) (cs : Candidates ℝ) (axis : Axis) : SnapLine ℝ → Prop
  | .points ps => ∃ value, Through moved cs axis value ps
  | .gaps direction _ => direction = axis.direction

/-- Each line of a box is for an axis on which the box has snapped. -/
theorem exists_lineFor_of_mem_box {enabled : Bool} {moving : Rect ℝ} {cs : Candidates ℝ} {threshold : ℝ}
    {axes : Axes} {line : SnapLine ℝ} (h : line ∈ (box enabled moving cs threshold axes).lines) :
    ∃ axis, BoxSnaps enabled moving cs threshold axes axis ∧
      LineFor (moving + (box enabled moving cs threshold axes).nudge).snapPoints cs axis line := by
  obtain ⟨axis, d, hchosen, hline⟩ := mem_box_lines_iff.1 h
  refine ⟨axis, (of_chosen hchosen).1, ?_⟩
  rcases List.mem_append.1 hline with hpoints | hgaps
  · cases line with
    | points ps => exact through_of_mem_pointLines hpoints
    | gaps direction gaps =>
        obtain ⟨value, -, hgaps⟩ := List.mem_map.1 hpoints
        cases hgaps
  · obtain ⟨o, -, rfl⟩ := List.mem_map.1 hgaps
    rfl

/-- On an axis a box stays or is nudged by less than the threshold, and on one that is off it stays. -/
theorem component_nudge_box (enabled : Bool) (moving : Rect ℝ) (cs : Candidates ℝ) (threshold : ℝ)
    (axes : Axes) (axis : Axis) :
    let nudge := (box enabled moving cs threshold axes).nudge
    (axis.component nudge = 0 ∨ |axis.component nudge| < threshold) ∧
      (axes.enabled axis = false → axis.component nudge = 0) := by
  intro nudge
  rcases box_cases enabled moving cs threshold axes axis with
    ⟨hzero, -, -⟩ | ⟨d, hd, -, hactive, hnearest⟩
  · exact ⟨Or.inl hzero, fun _ => hzero⟩
  · refine ⟨Or.inr (hnearest.abs_lt hd), fun hoff => ?_⟩
    rw [hoff, Bool.and_false] at hactive
    exact Bool.noConfusion hactive

end Snap

/-! ## What a drag comes to -/

namespace Session

variable {s : Session ℝ} {config : Config ℝ} {zoom : ℝ} {axis : Axis}

/-- The axis is not locked. With shift, the one along which the pointer has moved less is. -/
def Unlocked (s : Session ℝ) (axis : Axis) : Prop := s.flags.shift = true → axis ≠ s.drag.minorAxis

/-- The displacement and the lines are what the modifiers and the configuration make of a drag. -/
structure Lawful (s : Session ℝ) (config : Config ℝ) (zoom : ℝ) (d : Vec ℝ)
    (lines : List (SnapLine ℝ)) : Prop where
  /-- The selection does not move along a locked axis. -/
  locked : s.flags.shift = true → s.drag.minorAxis.component d = 0
  /-- No line is for a locked axis. -/
  lines_for : ∀ line ∈ lines, ∃ axis, s.Unlocked axis ∧
    Snap.LineFor (s.snapshot.pageBounds + d).snapPoints s.snapshot.candidates axis line
  /-- The key for snapping lets other shapes attract, from less than the snap distance. -/
  attracted : s.flags.ctrl = true → ∀ axis, s.Unlocked axis →
    axis.component d = axis.component s.drag ∨
      |axis.component d - axis.component s.drag| < config.snapDistance / zoom
  /-- Without it the grid, when there is one, rounds the corner to its nearest lines. -/
  rounded : s.flags.ctrl = false → config.grid.enabled = true → 0 < config.grid.size →
    lines = [] ∧ ∀ axis, s.Unlocked axis →
      (∃ k : ℤ, axis.coord (s.snapshot.pageBounds + d).origin = k * config.grid.size) ∧
      |axis.coord (s.snapshot.pageBounds + d).origin -
        axis.coord (s.snapshot.pageBounds + s.drag).origin| ≤ config.grid.size / 2
  /-- Otherwise nothing attracts. -/
  plain : s.flags.ctrl = false → (config.grid.enabled = true → config.grid.size ≤ 0) →
    lines = [] ∧ ∀ axis, s.Unlocked axis → axis.component d = axis.component s.drag

/-- The drag without its locked axis. -/
noncomputable def lockedDrag (s : Session ℝ) : Vec ℝ := s.drag.onAxes (dragAxes s.drag s.flags.shift)

theorem component_lockedDrag (h : s.Unlocked axis) :
    axis.component s.lockedDrag = axis.component s.drag := by
  rw [lockedDrag, axis.component_onAxes, if_pos (enabled_dragAxes.2 h)]

theorem not_enabled_minorAxis (h : s.flags.shift = true) :
    (dragAxes s.drag s.flags.shift).enabled s.drag.minorAxis = false := by
  rw [Bool.eq_false_iff]
  intro henabled
  exact enabled_dragAxes.1 henabled h rfl

theorem component_lockedDrag_minorAxis (h : s.flags.shift = true) :
    s.drag.minorAxis.component s.lockedDrag = 0 := by
  rw [lockedDrag, Axis.component_onAxes, not_enabled_minorAxis h]
  exact if_neg Bool.false_ne_true

theorem lawful_of_ctrl (hctrl : s.flags.ctrl = true) :
    let snap := Snap.box true (s.snapshot.pageBounds + s.lockedDrag) s.snapshot.candidates
      (config.snapDistance / zoom) (dragAxes s.drag s.flags.shift)
    s.Lawful config zoom (s.lockedDrag + snap.nudge) snap.lines := by
  intro snap
  have hnudge := Snap.component_nudge_box true (s.snapshot.pageBounds + s.lockedDrag)
    s.snapshot.candidates (config.snapDistance / zoom) (dragAxes s.drag s.flags.shift)
  have hmoved : s.snapshot.pageBounds + (s.lockedDrag + snap.nudge) =
      s.snapshot.pageBounds + s.lockedDrag + snap.nudge := by
    ext <;> simp only [Rect.add_x0, Rect.add_y0, Rect.add_x1, Rect.add_y1, Vec.add_x, Vec.add_y,
      add_assoc]
  constructor
  case locked =>
    intro hshift
    rw [Axis.component_add, component_lockedDrag_minorAxis hshift,
      (hnudge _).2 (not_enabled_minorAxis hshift), add_zero]
  case lines_for =>
    intro line hline
    obtain ⟨axis, hsnaps, hfor⟩ := Snap.exists_lineFor_of_mem_box hline
    rw [hmoved]
    exact ⟨axis, enabled_dragAxes.1 hsnaps.active, hfor⟩
  case attracted =>
    intro _ axis haxis
    rw [axis.component_add, component_lockedDrag haxis, add_sub_cancel_left, add_eq_left]
    exact (hnudge axis).1
  case rounded | plain =>
    intro hoff
    rw [hctrl] at hoff
    exact Bool.noConfusion hoff

theorem lawful_of_grid (hctrl : s.flags.ctrl = false) (hgrid : config.grid.enabled = true)
    (hsize : 0 < config.grid.size) :
    let corner := (s.snapshot.pageBounds + s.lockedDrag).origin
    s.Lawful config zoom (s.lockedDrag +
      (Snap.toGrid corner config.grid.size (dragAxes s.drag s.flags.shift) - corner)) [] := by
  intro corner
  set axes := dragAxes s.drag s.flags.shift with haxes
  have hcomponent (axis : Axis) :
      axis.component (s.lockedDrag + (Snap.toGrid corner config.grid.size axes - corner)) =
        axis.component s.lockedDrag +
          (axis.coord (Snap.toGrid corner config.grid.size axes) - axis.coord corner) := by
    rw [axis.component_add, axis.component_sub]
  constructor
  case locked =>
    intro hshift
    rw [hcomponent, Snap.coord_toGrid corner hsize, haxes, not_enabled_minorAxis hshift,
      component_lockedDrag_minorAxis hshift, if_neg Bool.false_ne_true, sub_self, add_zero]
  case lines_for => exact fun line hline => absurd hline List.not_mem_nil
  case rounded =>
    intro _ _ _
    refine ⟨rfl, fun axis haxis => ?_⟩
    have hcorner : axis.coord corner = axis.coord (s.snapshot.pageBounds + s.drag).origin := by
      rw [axis.coord_origin_add, axis.coord_origin_add, component_lockedDrag haxis]
    have hcoord : axis.coord (s.snapshot.pageBounds +
        (s.lockedDrag + (Snap.toGrid corner config.grid.size axes - corner))).origin =
          Snap.roundTo (axis.coord corner) config.grid.size := by
      have htarget : axis.coord (Snap.toGrid corner config.grid.size axes) =
          Snap.roundTo (axis.coord corner) config.grid.size := by
        rw [Snap.coord_toGrid corner hsize, if_pos (enabled_dragAxes.2 haxis)]
      rw [axis.coord_origin_add, hcomponent, htarget, ← add_assoc, ← axis.coord_origin_add,
        add_sub_cancel]
    obtain ⟨k, hk, hnear⟩ := Snap.exists_roundTo (axis.coord corner) hsize
    rw [hcoord, ← hcorner]
    exact ⟨⟨k, hk⟩, hnear⟩
  case attracted =>
    intro hon
    rw [hctrl] at hon
    exact Bool.noConfusion hon
  case plain =>
    intro _ hnone
    exact absurd (hnone hgrid) hsize.not_ge

theorem lawful_of_plain (hgrid : config.grid.enabled = true → config.grid.size ≤ 0) :
    s.Lawful config zoom s.lockedDrag [] := by
  constructor
  case locked => exact component_lockedDrag_minorAxis
  case lines_for => exact fun line hline => absurd hline List.not_mem_nil
  case attracted => exact fun _ axis haxis => Or.inl (component_lockedDrag haxis)
  case rounded => exact fun _ henabled hsize => absurd (hgrid henabled) hsize.not_ge
  case plain => exact fun _ _ => ⟨rfl, fun axis haxis => component_lockedDrag haxis⟩

/-- Whatever attracts, what a drag comes to is lawful. -/
theorem lawful_snappedShift (s : Session ℝ) (config : Config ℝ) (zoom : ℝ) :
    s.Lawful config zoom (s.snappedShift config zoom).1 (s.snappedShift config zoom).2 := by
  unfold snappedShift
  cases hctrl : s.flags.ctrl with
  | true => exact lawful_of_ctrl hctrl
  | false =>
      cases hgrid : config.grid.enabled with
      | false => exact lawful_of_plain (by simp [hgrid])
      | true =>
          by_cases hsize : config.grid.size ≤ 0
          · -- a grid of no size leaves the corner where it is
            have hstays (p : Point ℝ) :
                s.lockedDrag + (Snap.toGrid p config.grid.size (dragAxes s.drag s.flags.shift) - p) =
                  s.lockedDrag := by
              rw [Snap.toGrid, if_pos hsize]
              ext <;> simp
            have hplain : s.Lawful config zoom s.lockedDrag [] := lawful_of_plain fun _ => hsize
            rw [← hstays (s.snapshot.pageBounds + s.lockedDrag).origin] at hplain
            exact hplain
          · exact lawful_of_grid hctrl hgrid (not_le.1 hsize)

end Session

/-! ## One displacement for the whole selection -/

/-- A displacement seen from within a frame that is not flat, and seen from outside again. -/
theorem Affine.applyVec_inverse {t : Affine ℝ} (h : t.determinant ≠ 0) (v : Vec ℝ) :
    t.applyVec (t.inverse.applyVec v) = v := by
  have hdet : t.a * t.d - t.b * t.c ≠ 0 := h
  ext <;> simp only [applyVec, inverse, determinant] <;> field_simp <;> ring

namespace Member

/-- A displacement of the page, in the frame of the parent. -/
noncomputable def inward (m : Member ℝ) (d : Vec ℝ) : Vec ℝ := m.parentPageTransform.inverse.applyVec d

/-- The patch that takes the shape to where it was captured and on by the displacement of the page. -/
noncomputable def shifted (m : Member ℝ) (d : Vec ℝ) : Patch ℝ :=
  .position m.shape.id (m.shape.x + (m.inward d).x) (m.shape.y + (m.inward d).y)

theorem shift_eq (m : Member ℝ) (d : Vec ℝ) : m.shift d = .ok (m.shifted d) := by
  simp only [shift, Patch.isFinite_eq_true, if_true]
  rfl

end Member

/-- A shift asks for one patch for each top-level shape that is still there. -/
theorem Snapshot.updates_shift (s : Snapshot ℝ) (document : Document ℝ) (d : Vec ℝ) :
    (s.shift document d).updates = s.topLevel.filterMap fun id =>
      if document.contains id then (s.get? id).map (·.shifted d) else none := by
  rw [shift, Outcome.updates_concat, List.flatMap_map, List.filterMap_eq_flatMap_toList]
  congr 1
  funext id
  cases s.get? id with
  | none => cases document.contains id <;> rfl
  | some m =>
      simp only [m.shift_eq]
      cases document.contains id <;> rfl

namespace Session

variable {s : Session ℝ}

/-- **A translation moves the whole selection by one lawful displacement.** Every top-level shape that
    is still there goes to where it was captured and on by the same displacement, as its parent sees
    it. Seen from the page again it is that displacement, for every parent that can be inverted. -/
theorem translate_lawful (hkind : s.kind = .translate) (c : Canvas ℝ) (config : Config ℝ) (zoom : ℝ) :
    let update := s.update c config zoom
    ∃ d : Vec ℝ, s.Lawful config zoom d update.lines ∧
      update.outcome.updates = s.snapshot.topLevel.filterMap (fun id =>
        if c.document.contains id then (s.snapshot.get? id).map (·.shifted d) else none) ∧
      ∀ id m, s.snapshot.get? id = some m → m.parentPageTransform.determinant ≠ 0 →
        m.parentPageTransform.applyVec (m.inward d) = d := by
  intro update
  have hupdate : update = s.translateUpdate c.document config zoom := by
    simp only [update, Session.update, hkind]
  rw [hupdate]
  exact ⟨(s.snappedShift config zoom).1, lawful_snappedShift s config zoom,
    Snapshot.updates_shift _ _ _, fun id m _ hdet => Affine.applyVec_inverse hdet _⟩

/-- A rectangle at (3, 0) is dragged by (10, 4) with shift held, on a grid with lines 20 apart. It goes
    to the line at 20 and does not move down. -/
theorem translate_lawful_grid :
    let m : Member ℝ := ⟨Shape.rectangle 1 3 0 10 10, Affine.translate ⟨3, 0⟩, Affine.identity, []⟩
    let snapshot : Snapshot ℝ :=
      { topLevel := [1]
        members := Std.TreeMap.empty.insert 1 m
        box := ⟨⟨3, 0, 13, 10⟩, 0⟩
        aspectLocked := false
        pageBounds := ⟨3, 0, 13, 10⟩
        candidates := ⟨[], [], []⟩ }
    let s := (start .translate ⟨0, 0⟩ ⟨true, false, false⟩ snapshot).moveTo ⟨10, 4⟩
      ⟨true, false, false⟩
    let config : Config ℝ := { Config.standard with grid := ⟨true, 20⟩ }
    let update := s.update ⟨Document.empty.put m.shape, Registry.builtin⟩ config 1
    s.kind = .translate ∧ update.outcome.updates = [.position 1 20 0] ∧ update.lines = [] := by
  intro m snapshot s config update
  obtain ⟨d, hlawful, hupdates, hpage⟩ := translate_lawful (s := s) rfl
    ⟨Document.empty.put m.shape, Registry.builtin⟩ config 1
  have hdrag : s.drag = ⟨10, 4⟩ := by
    ext <;> simp [s, drag, moveTo, start]
  have hminor : s.drag.minorAxis = .y := by
    rw [hdrag, Vec.minorAxis]
    norm_num
  have hy : d.y = 0 := by
    have hlocked := hlawful.locked rfl
    rwa [hminor] at hlocked
  obtain ⟨hlines, hrounded⟩ := hlawful.rounded rfl rfl (by norm_num [config])
  have hx : d.x = 17 := by
    obtain ⟨⟨k, hk⟩, hnear⟩ := hrounded .x fun _ => by simp [hminor]
    have hplace : 3 + d.x = k * 20 := hk
    have hnear : |3 + d.x - (3 + s.drag.x)| ≤ 20 / 2 := hnear
    rw [hdrag, abs_le] at hnear
    -- the corner would come to 13, and the only line within 10 of that is the first one
    have hpos : 0 < k := by exact_mod_cast (by linarith : (0 : ℝ) < k)
    have hlt : k < 2 := by exact_mod_cast (by linarith : (k : ℝ) < 2)
    obtain rfl : k = 1 := by omega
    rw [Int.cast_one] at hplace
    linarith
  have hget : s.snapshot.get? 1 = some m := rfl
  have hcontains : (Document.empty.put m.shape).contains 1 = true := rfl
  have hinward : m.inward d = d := by
    have hdet : m.parentPageTransform.determinant ≠ 0 := by
      simp [m, Affine.determinant, Affine.identity]
    have hseen := hpage 1 m hget hdet
    rwa [show m.parentPageTransform = Affine.identity from rfl, Affine.applyVec_identity] at hseen
  have hshifted : m.shifted d = .position 1 20 0 := by
    rw [Member.shifted, hinward, hx, hy]
    show Patch.position 1 (3 + 17) (0 + 0) = Patch.position 1 20 0
    rw [show (3 : ℝ) + 17 = 20 by norm_num, add_zero]
  refine ⟨rfl, ?_, hlines⟩
  rw [hupdates]
  refine List.filterMap_cons_some ?_
  show (if (Document.empty.put m.shape).contains 1 then _ else _) = _
  rw [if_pos hcontains, hget, Option.map_some, hshifted]

end Session

end CanvasTransform
