import CanvasTransform.Proofs.Snap.Nearest

set_option autoImplicit false

/-! # The lines through points

Lines are found once the box is nudged, by tolerance: each coordinate of the moved box that some
candidate point shares gives a line, unless an earlier coordinate is as good, and the line goes through
all points within the tolerance of it. Both lists are thinned while they are gone through, and what
thinning leaves stands for all that was there: a coordinate that is not kept is within the tolerance of
one that is (`exists_mem_sharedCoords`), and so is a point (`exists_mem_dropRepeatsAfter`). So the lines
say nothing false and leave nothing out (`Snap.Justified`).

That an axis that has snapped has a line is a matter of exact numbers. A nudge by the offset of a
point brings that point onto the coordinate of the candidate, and a nudge by the offset of a place next
to a gap shows the gap. -/

namespace CanvasTransform

theorem Scalar.near_iff {a b tolerance : ℝ} :
    Scalar.near a b tolerance = true ↔ |a - b| ≤ tolerance := decide_eq_true_iff

/-- Every value is within the tolerance of itself. -/
theorem Scalar.abs_sub_self_le (a : ℝ) : |a - a| ≤ Scalar.coordTolerance := by
  rw [sub_self, abs_zero]
  exact Scalar.coordTolerance_pos.le

theorem Point.distance_self (p : Point ℝ) : p.distance p = 0 := by
  show Real.sqrt ((p.x - p.x) * (p.x - p.x) + (p.y - p.y) * (p.y - p.y)) = 0
  simp only [sub_self, mul_zero, add_zero, Real.sqrt_zero]

theorem Axis.coord_add (axis : Axis) (p : Point ℝ) (v : Vec ℝ) :
    axis.coord (p + v) = axis.coord p + axis.component v := by
  cases axis <;> rfl

theorem Rect.snapPoints_add (r : Rect ℝ) (v : Vec ℝ) :
    (r + v).snapPoints = r.snapPoints.map fun p : Point ℝ => p + v := by
  have hcenter : (r + v).center = r.center + v := by
    ext <;> simp only [Rect.center, Rect.add_x0, Rect.add_x1, Rect.add_y0, Rect.add_y1, Point.add_x,
      Point.add_y] <;> ring
  rw [Rect.snapPoints, hcenter, Rect.snapPoints, List.map_append]
  rfl

namespace Snap

variable {axis : Axis} {moved : List (Point ℝ)} {cs : Candidates ℝ} {value : ℝ} {m c p : Point ℝ}

/-! ## What lines say -/

/-- What a line shows: the points `ps` that have the coordinate `value` on the axis. -/
structure Through (moved : List (Point ℝ)) (cs : Candidates ℝ) (axis : Axis) (value : ℝ)
    (ps : List (Point ℝ)) : Prop where
  /-- The coordinate is that of a moved point. -/
  own : ∃ m ∈ moved, axis.coord m = value
  /-- A candidate point shares it. -/
  shared : ∃ c ∈ cs.points, |axis.coord c - value| ≤ Scalar.coordTolerance
  /-- The line shows only points that have it. -/
  only : ∀ p ∈ ps, p ∈ moved ++ cs.points ∧ |axis.coord p - value| ≤ Scalar.coordTolerance
  /-- It passes by none of them. -/
  all : ∀ p ∈ moved ++ cs.points, |axis.coord p - value| ≤ Scalar.coordTolerance →
    ∃ q ∈ ps, p.distance q ≤ Scalar.coordTolerance
  sorted : ps.Pairwise fun p q => axis.cross.coord p ≤ axis.cross.coord q
  /-- No point coincides with the one before it. -/
  apart : ps.IsChain fun p q => Scalar.coordTolerance < q.distance p

/-- The coordinate of a line of a single point is that of the point. -/
theorem Through.value_eq {ps : List (Point ℝ)} (h : Through [p] cs axis value ps) :
    value = axis.coord p := by
  obtain ⟨m, hm, hvalue⟩ := h.own
  rw [← hvalue, List.mem_singleton.1 hm]

/-- The lines justify a snap of the points, now at `moved`, along the axes that `snaps` holds of, and
    claim nothing false. -/
structure Justified (snaps : Axis → Prop) (moved : List (Point ℝ)) (cs : Candidates ℝ)
    (lines : List (SnapLine ℝ)) : Prop where
  /-- Each axis that has snapped has a line. -/
  shown : ∀ axis, snaps axis →
    (∃ value ps, .points ps ∈ lines ∧ Through moved cs axis value ps) ∨
      ∃ gaps, .gaps axis.direction gaps ∈ lines
  /-- Each line through points shows a coordinate on an axis that has snapped. -/
  truthful : ∀ ps, .points ps ∈ lines → ∃ axis value, snaps axis ∧ Through moved cs axis value ps
  /-- On an axis that has snapped, no alignment of a moved point with a candidate point is left out. -/
  complete : ∀ axis, snaps axis → ∀ m ∈ moved, ∀ c ∈ cs.points,
    |axis.coord c - axis.coord m| ≤ Scalar.coordTolerance →
    ∃ value ps, .points ps ∈ lines ∧ Through moved cs axis value ps ∧
      |axis.coord m - value| ≤ Scalar.coordTolerance

/-! ## The coordinates -/

/-- Looking at one more moved point: its coordinate is kept if a candidate point shares it and no
    coordinate that is kept already is as good. -/
theorem sharedCoords_concat (moved : List (Point ℝ)) (m : Point ℝ) (cs : Candidates ℝ) (axis : Axis) :
    sharedCoords (moved ++ [m]) cs axis = sharedCoords moved cs axis ++ [axis.coord m] ∧
        (∃ c ∈ cs.points, |axis.coord c - axis.coord m| ≤ Scalar.coordTolerance) ∨
      sharedCoords (moved ++ [m]) cs axis = sharedCoords moved cs axis ∧
        ∀ c ∈ cs.points, |axis.coord c - axis.coord m| ≤ Scalar.coordTolerance →
          ∃ v ∈ sharedCoords moved cs axis, |v - axis.coord m| ≤ Scalar.coordTolerance := by
  have hstep : sharedCoords (moved ++ [m]) cs axis =
      if cs.points.any (fun c => Scalar.near (axis.coord c) (axis.coord m) Scalar.coordTolerance) &&
          !(sharedCoords moved cs axis).any
            (fun v => Scalar.near v (axis.coord m) Scalar.coordTolerance) then
        sharedCoords moved cs axis ++ [axis.coord m]
      else sharedCoords moved cs axis := by
    rw [sharedCoords, List.map_append, List.foldl_append]
    rfl
  have hshared := List.any_eq_true (l := cs.points)
    (p := fun c => Scalar.near (axis.coord c) (axis.coord m) Scalar.coordTolerance)
  have hkept := List.any_eq_true (l := sharedCoords moved cs axis)
    (p := fun v => Scalar.near v (axis.coord m) Scalar.coordTolerance)
  simp only [Scalar.near_iff] at hshared hkept
  rw [hstep]
  split_ifs with h
  · exact Or.inl ⟨rfl, hshared.1 (Bool.and_eq_true_iff.1 h).1⟩
  · refine Or.inr ⟨rfl, fun c hc hnear => hkept.1 ?_⟩
    by_contra hnone
    exact h (Bool.and_eq_true_iff.2
      ⟨hshared.2 ⟨c, hc, hnear⟩, by rw [Bool.eq_false_iff.2 hnone, Bool.not_false]⟩)

/-- A coordinate that is kept is one of a moved point, and a candidate point shares it. -/
theorem of_mem_sharedCoords (h : value ∈ sharedCoords moved cs axis) :
    (∃ m ∈ moved, axis.coord m = value) ∧
      ∃ c ∈ cs.points, |axis.coord c - value| ≤ Scalar.coordTolerance := by
  induction moved using List.reverseRecOn with
  | nil => cases h
  | append_singleton moved m ih =>
      have hearlier : value ∈ sharedCoords moved cs axis →
          (∃ m' ∈ moved ++ [m], axis.coord m' = value) ∧
            ∃ c ∈ cs.points, |axis.coord c - value| ≤ Scalar.coordTolerance := by
        intro hv
        obtain ⟨⟨m', hm', hvalue⟩, hshared⟩ := ih hv
        exact ⟨⟨m', List.mem_append_left _ hm', hvalue⟩, hshared⟩
      rcases sharedCoords_concat moved m cs axis with ⟨heq, hshared⟩ | ⟨heq, -⟩
      · rw [heq] at h
        rcases List.mem_append.1 h with hv | hv
        · exact hearlier hv
        · rw [List.mem_singleton.1 hv]
          exact ⟨⟨m, List.mem_append_right _ (.head _), rfl⟩, hshared⟩
      · rw [heq] at h
        exact hearlier h

/-- For each coordinate of a moved point that a candidate point shares, one is kept that is as good. -/
theorem exists_mem_sharedCoords (hm : m ∈ moved) (hc : c ∈ cs.points)
    (h : |axis.coord c - axis.coord m| ≤ Scalar.coordTolerance) :
    ∃ v ∈ sharedCoords moved cs axis, |axis.coord m - v| ≤ Scalar.coordTolerance := by
  induction moved using List.reverseRecOn with
  | nil => cases hm
  | append_singleton moved m' ih =>
      have hmono : ∀ v ∈ sharedCoords moved cs axis, v ∈ sharedCoords (moved ++ [m']) cs axis := by
        intro v hv
        rcases sharedCoords_concat moved m' cs axis with ⟨heq, -⟩ | ⟨heq, -⟩
        · rw [heq]
          exact List.mem_append_left _ hv
        · rwa [heq]
      rcases List.mem_append.1 hm with hm | hm
      · obtain ⟨v, hv, hnear⟩ := ih hm
        exact ⟨v, hmono v hv, hnear⟩
      · rw [← List.mem_singleton.1 hm] at hmono ⊢
        rcases sharedCoords_concat moved m cs axis with ⟨heq, -⟩ | ⟨heq, hkept⟩
        · refine ⟨axis.coord m, ?_, Scalar.abs_sub_self_le _⟩
          rw [heq]
          exact List.mem_append_right _ (.head _)
        · obtain ⟨v, hv, hnear⟩ := hkept c hc h
          exact ⟨v, hmono v hv, by rwa [abs_sub_comm]⟩

/-! ## The points -/

theorem dropRepeatsAfter_sublist (kept : Point ℝ) (l : List (Point ℝ)) :
    (dropRepeatsAfter kept l).Sublist l := by
  induction l generalizing kept with
  | nil => exact .slnil
  | cons p rest ih =>
      rw [dropRepeatsAfter]
      split_ifs with hrepeat
      · exact (ih kept).cons p
      · exact (ih p).cons_cons p

theorem isChain_dropRepeatsAfter (kept : Point ℝ) (l : List (Point ℝ)) :
    (kept :: dropRepeatsAfter kept l).IsChain fun p q => Scalar.coordTolerance < q.distance p := by
  induction l generalizing kept with
  | nil => exact .singleton _
  | cons p rest ih =>
      rw [dropRepeatsAfter]
      split_ifs with hrepeat
      · exact ih kept
      · exact .cons_cons (not_le.1 hrepeat) (ih p)

/-- A point that is dropped coincides with one that is kept. -/
theorem exists_mem_dropRepeatsAfter {kept : Point ℝ} {l : List (Point ℝ)} (hp : p ∈ kept :: l) :
    ∃ q ∈ kept :: dropRepeatsAfter kept l, p.distance q ≤ Scalar.coordTolerance := by
  have hself : ∀ p : Point ℝ, p.distance p ≤ Scalar.coordTolerance := fun p => by
    rw [p.distance_self]
    exact Scalar.coordTolerance_pos.le
  induction l generalizing kept with
  | nil =>
      rw [List.mem_singleton.1 hp]
      exact ⟨kept, .head _, hself kept⟩
  | cons r rest ih =>
      rw [dropRepeatsAfter]
      rcases List.mem_cons.1 hp with rfl | hp
      · exact ⟨p, .head _, hself p⟩
      split_ifs with hrepeat
      · rcases List.mem_cons.1 hp with rfl | hp
        · exact ⟨kept, .head _, hrepeat⟩
        · exact ih (.tail _ hp)
      · obtain ⟨q, hq, hnear⟩ := ih hp
        exact ⟨q, .tail _ hq, hnear⟩

/-- **A line shows the points that have its coordinate**, sorted and without repeats. -/
theorem exists_through (h : value ∈ sharedCoords moved cs axis) :
    ∃ ps, lineThrough moved cs axis value = .points ps ∧ Through moved cs axis value ps := by
  refine ⟨_, rfl, ?_⟩
  generalize hon : ((moved ++ cs.points).filter fun p =>
    Scalar.near (axis.coord p) value Scalar.coordTolerance) = on
  have hmem : ∀ p, p ∈ on ↔
      p ∈ moved ++ cs.points ∧ |axis.coord p - value| ≤ Scalar.coordTolerance := fun p => by
    rw [← hon, List.mem_filter, Scalar.near_iff]
  generalize hline : (on.mergeSort fun p q =>
    Scalar.totalLe (axis.cross.coord p) (axis.cross.coord q)) = line
  have hperm : line.Perm on := hline ▸ List.mergeSort_perm _ _
  have hsorted : line.Pairwise fun p q => axis.cross.coord p ≤ axis.cross.coord q := by
    rw [← hline]
    let le (p q : Point ℝ) : Bool := Scalar.totalLe (axis.cross.coord p) (axis.cross.coord q)
    have htrans : ∀ p q r, le p q = true → le q r = true → le p r = true := fun _ _ _ =>
      Scalar.LawfulOrder.totalLe_trans
    have htotal : ∀ p q, (le p q || le q p) = true := fun _ _ =>
      Scalar.LawfulOrder.totalLe_total _ _
    exact (List.pairwise_mergeSort htrans htotal on).imp of_decide_eq_true
  obtain ⟨hown, hshared⟩ := of_mem_sharedCoords h
  cases line with
  | nil =>
      obtain ⟨m, hm, hvalue⟩ := hown
      rw [← hvalue] at hmem
      exact absurd (hperm.mem_iff.2 ((hmem m).2
        ⟨List.mem_append_left _ hm, Scalar.abs_sub_self_le _⟩)) List.not_mem_nil
  | cons first rest =>
      have hsub : (first :: dropRepeatsAfter first rest).Sublist (first :: rest) :=
        (dropRepeatsAfter_sublist first rest).cons_cons first
      exact ⟨hown, hshared, fun p hp => (hmem p).1 (hperm.mem_iff.1 (hsub.subset hp)),
        fun p hp hnear => exists_mem_dropRepeatsAfter (hperm.mem_iff.2 ((hmem p).2 ⟨hp, hnear⟩)),
        hsorted.sublist hsub, isChain_dropRepeatsAfter first rest⟩

theorem through_of_mem_pointLines {ps : List (Point ℝ)} (h : .points ps ∈ pointLines moved cs axis) :
    ∃ value, Through moved cs axis value ps := by
  obtain ⟨value, hvalue, hline⟩ := List.mem_map.1 h
  obtain ⟨qs, heq, hthrough⟩ := exists_through hvalue
  rw [heq] at hline
  cases hline
  exact ⟨value, hthrough⟩

/-- An alignment of a moved point with a candidate point is shown. -/
theorem exists_mem_pointLines (hm : m ∈ moved) (hc : c ∈ cs.points)
    (h : |axis.coord c - axis.coord m| ≤ Scalar.coordTolerance) :
    ∃ value ps, .points ps ∈ pointLines moved cs axis ∧ Through moved cs axis value ps ∧
      |axis.coord m - value| ≤ Scalar.coordTolerance := by
  obtain ⟨value, hvalue, hnear⟩ := exists_mem_sharedCoords hm hc h
  obtain ⟨ps, hline, hthrough⟩ := exists_through hvalue
  exact ⟨value, ps, hline ▸ List.mem_map_of_mem hvalue, hthrough, hnear⟩

/-- A moved point on the coordinate of a candidate point is shown on a line. -/
theorem exists_line_of_coord_eq (hm : m ∈ moved) (hc : c ∈ cs.points)
    (h : axis.coord m = axis.coord c) :
    ∃ value ps, .points ps ∈ pointLines moved cs axis ∧ Through moved cs axis value ps := by
  have hnear : |axis.coord c - axis.coord m| ≤ Scalar.coordTolerance := h ▸ Scalar.abs_sub_self_le _
  obtain ⟨value, ps, hline, hthrough, -⟩ := exists_mem_pointLines hm hc hnear
  exact ⟨value, ps, hline, hthrough⟩

/-! ## Snapping -/

section
variable {enabled : Bool} {moving : Rect ℝ} {threshold d : ℝ} {axes : Axes}

/-- A box snaps on an axis where it may and has an offset within the threshold. -/
structure BoxSnaps (enabled : Bool) (moving : Rect ℝ) (cs : Candidates ℝ) (threshold : ℝ) (axes : Axes)
    (axis : Axis) : Prop where
  on : enabled = true
  nonempty : cs.shapes ≠ []
  active : axes.enabled axis = true
  offset : ∃ d, Offset moving cs axis d ∧ |d| < threshold

/-- A point snaps on an axis where it may and has a candidate point within the threshold. -/
structure PointSnaps (p : Point ℝ) (cs : Candidates ℝ) (threshold : ℝ) (axes : Axes) (axis : Axis) :
    Prop where
  active : axes.enabled axis = true
  offset : ∃ c ∈ cs.points, |axis.coord c - axis.coord p| < threshold

theorem BoxSnaps.exists_chosen (h : BoxSnaps enabled moving cs threshold axes axis) :
    ∃ d, chosen? enabled moving cs threshold axes axis = some d := by
  obtain ⟨henabled, hshapes, haxis, d, hd, hlt⟩ := h
  rcases box_cases enabled moving cs threshold axes axis with ⟨-, -, hnone⟩ | ⟨e, -, he, -, -⟩
  · refine absurd hlt (hnone d ?_ hd)
    simp only [henabled, haxis, Candidates.isEmpty, List.isEmpty_eq_false_iff.2 hshapes,
      Bool.not_false, Bool.and_self]
  · exact ⟨e, he⟩

/-- Along an axis where an offset is chosen the box goes by that offset. -/
theorem of_chosen (h : chosen? enabled moving cs threshold axes axis = some d) :
    BoxSnaps enabled moving cs threshold axes axis ∧ Offset moving cs axis d ∧
      axis.component (box enabled moving cs threshold axes).nudge = d := by
  rcases box_cases enabled moving cs threshold axes axis with
    ⟨-, hnone, -⟩ | ⟨e, hnudge, he, hactive, hnearest⟩
  · rw [hnone] at h
    cases h
  · rw [he] at h
    cases h
    simp only [Bool.and_eq_true, Bool.not_eq_true'] at hactive
    exact ⟨⟨hactive.1.1, List.isEmpty_eq_false_iff.1 hactive.1.2, hactive.2, d, hnearest.offset,
      hnearest.within⟩, hnearest.offset, Scalar.eq_of_beq hnudge⟩

/-- The lines of a box justify its nudge. -/
theorem justified_box (enabled : Bool) (moving : Rect ℝ) (cs : Candidates ℝ) (threshold : ℝ)
    (axes : Axes) :
    let outcome := box enabled moving cs threshold axes
    Justified (BoxSnaps enabled moving cs threshold axes) (moving + outcome.nudge).snapPoints cs
      outcome.lines := by
  intro outcome
  refine ⟨fun axis hsnaps => ?_, fun ps hps => ?_, fun axis hsnaps m hm c hc hnear => ?_⟩
  · obtain ⟨d, hchosen⟩ := hsnaps.exists_chosen
    obtain ⟨-, hoffset, hnudge⟩ := of_chosen hchosen
    cases hoffset with
    | @point m c hm hc =>
        have hmoved : m + outcome.nudge ∈ (moving + outcome.nudge).snapPoints := by
          rw [Rect.snapPoints_add]
          exact List.mem_map_of_mem hm
        have hcoord : axis.coord (m + outcome.nudge) = axis.coord c := by
          rw [axis.coord_add, hnudge, add_sub_cancel]
        obtain ⟨value, ps, hps, hthrough⟩ := exists_line_of_coord_eq hmoved hc hcoord
        exact Or.inl ⟨value, ps, mem_box_lines_iff.2 ⟨axis, _, hchosen, List.mem_append_left _ hps⟩, hthrough⟩
    | @gap g place hg hfaces hroom =>
        exact Or.inr ⟨_, gaps_mem_lines_iff.2 ⟨_, ⟨g, place, place.offset moving axis g⟩,
          mem_gapOffsets_iff.2 ⟨hg, hfaces, hroom, rfl⟩, hchosen,
          Scalar.near_iff.2 (Scalar.abs_sub_self_le _), rfl⟩⟩
  · obtain ⟨axis, d, hchosen, hline⟩ := mem_box_lines_iff.1 hps
    rcases List.mem_append.1 hline with hline | hline
    · obtain ⟨value, hthrough⟩ := through_of_mem_pointLines hline
      exact ⟨axis, value, (of_chosen hchosen).1, hthrough⟩
    · obtain ⟨o, -, hgaps⟩ := List.mem_map.1 hline
      cases hgaps
  · obtain ⟨d, hchosen⟩ := hsnaps.exists_chosen
    obtain ⟨value, ps, hps, hthrough, hvalue⟩ := exists_mem_pointLines hm hc hnear
    exact ⟨value, ps, mem_box_lines_iff.2 ⟨axis, d, hchosen, List.mem_append_left _ hps⟩, hthrough, hvalue⟩

/-! ### A point -/

/-- The offset by which a point snaps on an axis. -/
noncomputable def pointChosen? (p : Point ℝ) (cs : Candidates ℝ) (threshold : ℝ) (axes : Axes)
    (axis : Axis) : Option ℝ :=
  if axes.enabled axis then nearest? threshold (pointOffsets [p] cs axis) else none

theorem mem_pointOffsets_iff : d ∈ pointOffsets [p] cs axis ↔
    ∃ c ∈ cs.points, axis.coord c - axis.coord p = d := by
  simp only [pointOffsets, List.flatMap_cons, List.flatMap_nil, List.append_nil, List.mem_map]

theorem point_eq (p : Point ℝ) (cs : Candidates ℝ) (threshold : ℝ) (axes : Axes) :
    let nudge := nudgeOf (found (pointChosen? p cs threshold axes))
    point p cs threshold axes =
      ⟨nudge, [Axis.x, Axis.y].flatMap fun axis =>
        (pointChosen? p cs threshold axes axis).elim [] fun _ => pointLines [p + nudge] cs axis⟩ := by
  intro nudge
  rw [← flatMap_found (pointChosen? p cs threshold axes) fun axis _ => pointLines [p + nudge] cs axis]
  simp only [point, winners_eq]
  rfl

/-- What a point snaps to on an axis: on one where it does not snap it stays, and on any other it goes
    onto the coordinate of a candidate point. -/
theorem point_cases (p : Point ℝ) (cs : Candidates ℝ) (threshold : ℝ) (axes : Axes) (axis : Axis) :
    let nudge := (point p cs threshold axes).nudge
    let chosen := pointChosen? p cs threshold axes axis
    (axis.component nudge = 0 ∧ chosen = none ∧ ¬ PointSnaps p cs threshold axes axis) ∨
    ∃ d, chosen = some d ∧ PointSnaps p cs threshold axes axis ∧ |axis.component nudge| < threshold ∧
      ∃ c ∈ cs.points, axis.coord (p + nudge) = axis.coord c := by
  intro nudge chosen
  have hnudge : nudge = nudgeOf (found (pointChosen? p cs threshold axes)) := by
    show (point p cs threshold axes).nudge = _
    rw [point_eq]
  have hbest := isBest_nearest? threshold (pointOffsets [p] cs axis)
  have hchosen : chosen =
      if axes.enabled axis then nearest? threshold (pointOffsets [p] cs axis) else none := rfl
  rw [hnudge]
  cases hd : chosen with
  | none =>
      refine Or.inl ⟨component_nudgeOf_of_none hd, rfl, ?_⟩
      rintro ⟨haxis, c, hc, hlt⟩
      rw [hd, if_pos haxis] at hchosen
      rw [← hchosen] at hbest
      exact hbest _ (mem_pointOffsets_iff.2 ⟨c, hc, rfl⟩) hlt
  | some d =>
      rw [hd] at hchosen
      split_ifs at hchosen with haxis
      rw [← hchosen] at hbest
      obtain ⟨c, hc, hoffset⟩ := mem_pointOffsets_iff.1 hbest.offset
      have halong : axis.component (nudgeOf (found (pointChosen? p cs threshold axes))) = d :=
        Scalar.eq_of_beq (component_nudgeOf_of_some hd (le_refl (α := ℝ) _))
      refine Or.inr ⟨d, rfl, ⟨haxis, c, hc, hoffset ▸ hbest.within⟩, ?_, c, hc, ?_⟩
      · rw [halong]
        exact hbest.within
      · rw [axis.coord_add, halong, ← hoffset, add_sub_cancel]

/-- The lines of a point justify its nudge. All of them are lines through points. -/
theorem justified_point (p : Point ℝ) (cs : Candidates ℝ) (threshold : ℝ) (axes : Axes) :
    let outcome := point p cs threshold axes
    Justified (PointSnaps p cs threshold axes) [p + outcome.nudge] cs outcome.lines ∧
      ∀ direction gaps, .gaps direction gaps ∉ outcome.lines := by
  intro outcome
  have hlines : ∀ line, line ∈ outcome.lines ↔
      ∃ axis d, pointChosen? p cs threshold axes axis = some d ∧
        line ∈ pointLines [p + outcome.nudge] cs axis := fun line => by
    simp only [outcome, point_eq, mem_lines_iff]
  have hcases := point_cases p cs threshold axes
  refine ⟨⟨fun axis hsnaps => ?_, fun ps hps => ?_, fun axis hsnaps m hm c hc hnear => ?_⟩, ?_⟩
  · rcases hcases axis with ⟨-, -, hnone⟩ | ⟨d, hchosen, -, -, c, hc, hcoord⟩
    · exact absurd hsnaps hnone
    · obtain ⟨value, ps, hps, hthrough⟩ := exists_line_of_coord_eq (.head _) hc hcoord
      exact Or.inl ⟨value, ps, (hlines _).2 ⟨axis, d, hchosen, hps⟩, hthrough⟩
  · obtain ⟨axis, d, hchosen, hline⟩ := (hlines _).1 hps
    obtain ⟨value, hthrough⟩ := through_of_mem_pointLines hline
    rcases hcases axis with ⟨-, hnone, -⟩ | ⟨-, -, hsnaps, -⟩
    · cases hnone.symm.trans hchosen
    · exact ⟨axis, value, hsnaps, hthrough⟩
  · rcases hcases axis with ⟨-, -, hnone⟩ | ⟨d, hchosen, -⟩
    · exact absurd hsnaps hnone
    · obtain ⟨value, ps, hps, hthrough, hvalue⟩ := exists_mem_pointLines hm hc hnear
      exact ⟨value, ps, (hlines _).2 ⟨axis, d, hchosen, hps⟩, hthrough, hvalue⟩
  · intro direction gaps h
    obtain ⟨axis, d, -, hline⟩ := (hlines _).1 h
    obtain ⟨value, -, hgaps⟩ := List.mem_map.1 hline
    cases hgaps

end

/-- **The lines justify every snap and claim nothing false**, for a box and for a point. -/
theorem lines_justified :
    (∀ (enabled : Bool) (moving : Rect ℝ) (cs : Candidates ℝ) (threshold : ℝ) (axes : Axes),
      let outcome := box enabled moving cs threshold axes
      Justified (BoxSnaps enabled moving cs threshold axes) (moving + outcome.nudge).snapPoints cs
        outcome.lines) ∧
    ∀ (p : Point ℝ) (cs : Candidates ℝ) (threshold : ℝ) (axes : Axes),
      let outcome := point p cs threshold axes
      Justified (PointSnaps p cs threshold axes) [p + outcome.nudge] cs outcome.lines ∧
        ∀ direction gaps, .gaps direction gaps ∉ outcome.lines :=
  ⟨justified_box, justified_point⟩

end Snap

end CanvasTransform
