import CanvasTransform.Proofs.Snap.Rows

set_option autoImplicit false

/-! # The sides of a shown gap face each other

A box takes a place next to a gap only if it meets the gap across the axis, but that is asked of the
box as it stands, and on the other axis it may still be nudged. It does not lose what it meets: a side
of the box that comes up to a side of a candidate is at an offset of the candidate, since the corners
of the candidate are among its points, and a nearest offset never passes another one
(`Snap.abs_nudge_le`). So the moved box meets what the box met (`Snap.Meets.moved`), and each gap
that is shown has a breadth. -/

namespace CanvasTransform

/-- The edges of the gap face each other: across the axis they span the same range, which is in
    order. -/
structure GapIndicator.Facing {α : Type} [Scalar α] (axis : Axis) (i : GapIndicator α) : Prop where
  ordered : axis.cross.coord i.startEdge.1 ≤ axis.cross.coord i.startEdge.2
  low : axis.cross.coord i.endEdge.1 = axis.cross.coord i.startEdge.1
  high : axis.cross.coord i.endEdge.2 = axis.cross.coord i.startEdge.2

namespace Snap

variable {axis : Axis} {moving r s : Rect ℝ} {cs : Candidates ℝ} {g : Gap ℝ}

/-- Along the axis the ranges of the two boxes overlap or touch. -/
def Meets (axis : Axis) (r s : Rect ℝ) : Prop :=
  axis.near r ≤ axis.far s ∧ axis.near s ≤ axis.far r

theorem Meets.symm (h : Meets axis r s) : Meets axis s r := ⟨h.2, h.1⟩

/-- The gap between two boxes has a breadth if they meet across the axis. -/
theorem facing_between (h : Meets axis.cross r s) : (GapIndicator.between axis r s).Facing axis := by
  refine ⟨?_, ?_, ?_⟩
  · simp only [GapIndicator.between, Axis.cross_coord_point, Scalar.max_eq, Scalar.min_eq]
    exact max_le (le_min (axis.cross.near_le_far r.isNumeric) h.1)
      (le_min h.2 (axis.cross.near_le_far s.isNumeric))
  · simp only [GapIndicator.between, Axis.cross_coord_point]
  · simp only [GapIndicator.between, Axis.cross_coord_point]

/-! ## Gaps -/

section
variable {all : List (Candidate ℝ)} {a b : Candidate ℝ}

/-- The two sides of a gap meet across the axis. -/
theorem meets_of_isFree (h : Gap.IsFree axis all a b) : Meets axis.cross a.bounds b.bounds := by
  have hmeets := not_lt.1 h.meets
  simp only [Gap.spanning, Scalar.max_eq, Scalar.min_eq] at hmeets
  exact ⟨(le_max_left _ _).trans (hmeets.trans (min_le_right _ _)),
    (le_max_right _ _).trans (hmeets.trans (min_le_left _ _))⟩

/-- A box that faces a gap meets both sides of it across the axis. -/
theorem meets_of_faces (h : Faces moving axis (Gap.spanning axis a b)) :
    Meets axis.cross moving a.bounds ∧ Meets axis.cross moving b.bounds := by
  obtain ⟨hnear, hfar⟩ := h
  simp only [Gap.spanning, Scalar.max_eq, Scalar.min_eq] at hnear hfar
  exact ⟨⟨hnear.trans (min_le_left _ _), (le_max_left _ _).trans hfar⟩,
    ⟨hnear.trans (min_le_right _ _), (le_max_right _ _).trans hfar⟩⟩

end

/-! ## The nudge -/

section
variable {enabled : Bool} {threshold d : ℝ} {axes : Axes} {c : Candidate ℝ}

/-- The nudge never takes a box past an offset. -/
theorem abs_nudge_le (hd : Offset moving cs axis d) :
    |axis.component (box enabled moving cs threshold axes).nudge| ≤ |d| := by
  rcases box_cases enabled moving cs threshold axes axis with ⟨hzero, -⟩ | ⟨e, he, -, -, hnearest⟩
  · rw [hzero, abs_zero]
    exact abs_nonneg d
  · rw [Scalar.eq_of_beq he]
    by_contra hlt
    exact hlt (hnearest.least d hd ((not_le.1 hlt).trans hnearest.within))

/-- **The moved box still meets every candidate that the box met**, if the corners of candidates are
    among their points. -/
theorem Meets.moved (h : Meets axis moving c.bounds) (hc : c ∈ cs.shapes)
    (hcorners : ∀ p ∈ c.bounds.corners, p ∈ c.points) :
    Meets axis (moving + (box enabled moving cs threshold axes).nudge) c.bounds := by
  generalize hv : (box enabled moving cs threshold axes).nudge = v
  have hbound : ∀ m ∈ moving.corners, ∀ p ∈ c.bounds.corners,
      |axis.component v| ≤ |axis.coord p - axis.coord m| := by
    intro m hm p hp
    rw [← hv]
    exact abs_nudge_le
      (.point (List.mem_append_left _ hm) (List.mem_flatMap.2 ⟨c, hc, hcorners p hp⟩))
  -- The sides that could pass each other are sides of corners, near against far and far against near.
  obtain ⟨m, hm, hmnear⟩ := axis.exists_corner_near moving
  obtain ⟨m', hm', hmfar⟩ := axis.exists_corner_far moving
  obtain ⟨p, hp, hpnear⟩ := axis.exists_corner_near c.bounds
  obtain ⟨p', hp', hpfar⟩ := axis.exists_corner_far c.bounds
  have hfar : |axis.component v| ≤ axis.far c.bounds - axis.near moving := by
    rw [← abs_of_nonneg (sub_nonneg.2 h.1), ← hmnear, ← hpfar]
    exact hbound m hm p' hp'
  have hnear : |axis.component v| ≤ axis.far moving - axis.near c.bounds := by
    rw [← abs_of_nonneg (sub_nonneg.2 h.2), abs_sub_comm, ← hmfar, ← hpnear]
    exact hbound m' hm' p hp
  constructor
  · rw [axis.near_add]
    linarith [le_abs_self (axis.component v)]
  · rw [axis.far_add]
    linarith [neg_abs_le (axis.component v)]

end

/-! ## Lines -/

/-- **The gaps that are shown face each other**: the moved box overlaps or touches the shapes that it is
    spaced against. -/
theorem facing_of_gaps_mem {shapes : List (Candidate ℝ)}
    (hcorners : ∀ c ∈ shapes, ∀ p ∈ c.bounds.corners, p ∈ c.points) (enabled : Bool) (moving : Rect ℝ)
    (threshold : ℝ) (axes : Axes) {axis : Axis} {indicators : List (GapIndicator ℝ)}
    (h : .gaps axis.direction indicators ∈
      (box enabled moving (.ofShapes shapes) threshold axes).lines) :
    ∀ i ∈ indicators, i.Facing axis := by
  obtain ⟨d, ⟨g, place, offset⟩, ho, -, -, hshown⟩ := gaps_mem_lines_iff.1 h
  obtain ⟨-, rfl⟩ := SnapLine.gaps.inj hshown
  obtain ⟨hg, hfaces, -, -⟩ := mem_gapOffsets_iff.1 ho
  simp only [Candidates.gaps_ofShapes] at hg ⊢
  have hgap : ∀ h ∈ Gap.findAll axis shapes,
      (GapIndicator.between axis h.startBounds h.stopBounds).Facing axis := by
    intro h hh
    obtain ⟨a, -, b, -, hfree, rfl⟩ := mem_gaps_iff.1 hh
    exact facing_between (meets_of_isFree hfree)
  generalize hmoved : moving + (box enabled moving (.ofShapes shapes) threshold axes).nudge = moved
  have hmeets : Meets axis.cross moved g.startBounds ∧ Meets axis.cross moved g.stopBounds := by
    obtain ⟨a, ha, b, hb, -, rfl⟩ := mem_gaps_iff.1 hg
    obtain ⟨hstart, hstop⟩ := meets_of_faces hfaces
    rw [← hmoved]
    exact ⟨hstart.moved ha (hcorners a ha), hstop.moved hb (hcorners b hb)⟩
  intro i hi
  cases place with
  | between =>
      rcases List.mem_pair.1 hi with rfl | rfl
      · exact facing_between hmeets.1.symm
      · exact facing_between hmeets.2
  | after =>
      rcases List.mem_append.1 hi with hi | hi
      · obtain ⟨h, hh, rfl⟩ := List.mem_map.1 hi
        exact hgap h (mem_of_mem_rowUpTo (List.mem_reverse.1 hh))
      · rcases List.mem_pair.1 hi with rfl | rfl
        · exact hgap g hg
        · exact facing_between hmeets.2.symm
  | before =>
      rcases List.mem_append.1 hi with hi | hi
      · rcases List.mem_pair.1 hi with rfl | rfl
        · exact facing_between hmeets.1
        · exact hgap g hg
      · obtain ⟨h, hh, rfl⟩ := List.mem_map.1 hi
        exact hgap h (mem_of_mem_rowFrom hh)

/-- The gaps that are shown for a box in the place next to a gap that is three too low for it. -/
theorem facing_of_two_boxes :
    let first : Candidate ℝ := .ofBounds 1 ⟨0, 0, 50, 50⟩
    let second : Candidate ℝ := .ofBounds 2 ⟨100, 0, 150, 50⟩
    (∀ c ∈ [first, second], ∀ p ∈ c.bounds.corners, p ∈ c.points) ∧
      ∃ indicators, .gaps Axis.x.direction indicators ∈
          (box true ⟨200, 3, 250, 53⟩ (.ofShapes [first, second]) 8 .both).lines ∧
        ∀ i ∈ indicators, i.Facing .x := by
  intro first second
  have hcorners : ∀ c ∈ [first, second], ∀ p ∈ c.bounds.corners, p ∈ c.points := by
    intro c hc p hp
    rcases List.mem_pair.1 hc with rfl | rfl <;> exact List.mem_append_left _ hp
  obtain ⟨indicators, hline⟩ := exists_gaps_line
  exact ⟨hcorners, indicators, hline,
    facing_of_gaps_mem hcorners true ⟨200, 3, 250, 53⟩ 8 .both hline⟩

end Snap

end CanvasTransform
