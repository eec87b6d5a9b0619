import CanvasTransform.Proofs.Numbers.Doubles
import CanvasTransform.Proofs.Snap.Gaps
import CanvasTransform.Snap.Align

set_option autoImplicit false

/-! # Snapping takes the nearest offset

On each axis a box may snap by any of its *offsets* (`Snap.Offset`): those that bring one of its points
onto a candidate point, and those that bring it to a place next to a gap. The two are searched as one
list; that searching them apart and then choosing comes to the same is proved in `Snap.Search`. The
invariant of the search is that what has been kept is the best of what has been looked at
(`Snap.IsBest`), or that nothing was within the threshold.

The axes do not see each other: the nudge along an axis is what was found on that axis, up to the sign
of a zero, and each axis brings its own lines (`Snap.box_eq`). Nothing here computes with offsets but
by comparing their magnitudes, so all of it holds in double precision as it does exactly. -/

namespace CanvasTransform

open Scalar.LawfulOrder

theorem Axis.direction_injective : Function.Injective Axis.direction := by
  intro a b h
  cases a <;> cases b <;> first | rfl | cases h

namespace Snap

variable {α : Type} [Scalar α]

/-! ## The search -/

/-- `d` is one of the offsets within the threshold, and none of those is nearer. -/
structure IsNearest (offsets : α → Prop) (threshold d : α) : Prop where
  offset : offsets d
  within : Scalar.abs d < threshold
  least : ∀ e, offsets e → Scalar.abs e < threshold → Scalar.abs d ≤ Scalar.abs e

/-- What a search among the offsets finds: a nearest one, if there is one within the threshold. -/
def IsBest (offsets : α → Prop) (threshold : α) : Option α → Prop
  | none => ∀ d, offsets d → ¬ Scalar.abs d < threshold
  | some d => IsNearest offsets threshold d

variable [Scalar.LawfulOrder α] {threshold d : α} {offsets : List α} {best : Option α}

/-- Looking at one more offset. -/
theorem IsBest.nearer (h : IsBest (· ∈ offsets) threshold best) :
    IsBest (· ∈ offsets ++ [d]) threshold (Snap.nearer threshold best d) := by
  have hmem : ∀ {e}, e ∈ offsets ++ [d] ↔ e ∈ offsets ∨ e = d := by simp
  cases best with
  | none =>
      show IsBest _ threshold (if Scalar.abs d < threshold then some d else none)
      split_ifs with hd
      · refine ⟨hmem.2 (Or.inr rfl), hd, fun e he hwithin => ?_⟩
        rcases hmem.1 he with he | rfl
        · exact absurd hwithin (h e he)
        · exact (Scalar.isNumber_of_lt hd).1
      · intro e he
        rcases hmem.1 he with he | rfl
        · exact h e he
        · exact hd
  | some b =>
      show IsBest _ threshold (if Scalar.abs d < Scalar.abs b then some d else some b)
      split_ifs with hd
      · refine ⟨hmem.2 (Or.inr rfl),
          Scalar.lt_of_lt_of_le hd (Scalar.le_of_lt h.within), fun e he hwithin => ?_⟩
        rcases hmem.1 he with he | rfl
        · exact le_trans (Scalar.le_of_lt hd) (h.least e he hwithin)
        · exact (Scalar.isNumber_of_lt hd).1
      · refine ⟨hmem.2 (Or.inl h.offset), h.within, fun e he hwithin => ?_⟩
        rcases hmem.1 he with he | rfl
        · exact h.least e he hwithin
        · exact Scalar.le_of_not_lt (Scalar.isNumber_of_lt hwithin).1
            (Scalar.isNumber_of_lt h.within).1 hd

/-- **The search finds a nearest offset** within the threshold, unless there is none. -/
theorem isBest_nearest? (threshold : α) (offsets : List α) :
    IsBest (· ∈ offsets) threshold (nearest? threshold offsets) := by
  -- From the end of the list: the offset looked at last is compared with the best of all others.
  induction offsets using List.reverseRecOn with
  | nil => exact fun d hd => absurd hd List.not_mem_nil
  | append_singleton offsets d ih =>
      rw [nearest?, List.foldl_append]
      exact ih.nearer

/-- Two nearest offsets are equally near. -/
theorem IsNearest.abs_beq_abs {p : α → Prop} {e : α} (hd : IsNearest p threshold d)
    (he : IsNearest p threshold e) : (Scalar.abs d == Scalar.abs e) = true :=
  beq_iff.2 ⟨hd.least e he.offset he.within, he.least d hd.offset hd.within⟩

theorem IsNearest.abs_lt {p : α → Prop} {a : α} (hd : IsNearest p threshold d)
    (ha : (a == d) = true) : Scalar.abs a < threshold :=
  Scalar.lt_of_le_of_lt (beq_iff.1 (Scalar.abs_beq_abs ha)).1 hd.within

/-! ## The offsets -/

omit [Scalar.LawfulOrder α]

variable {moving : Rect α} {cs cs' : Candidates α} {axis : Axis} {gaps : List (Gap α)}

/-- The box overlaps or touches the gap across the axis. -/
def Faces (moving : Rect α) (axis : Axis) (g : Gap α) : Prop :=
  axis.cross.near moving ≤ g.breadth.2 ∧ g.breadth.1 ≤ axis.cross.far moving

/-- There is room for the box in the place next to a gap. -/
def GapPlace.HasRoom (place : GapPlace) (moving : Rect α) (axis : Axis) (g : Gap α) : Prop :=
  match place with
  | .between => axis.far moving - axis.near moving < g.length
  | .after | .before => True

/-- The offset that brings the box to the place next to a gap. -/
def GapPlace.offset (place : GapPlace) (moving : Rect α) (axis : Axis) (g : Gap α) : α :=
  match place with
  | .between =>
    axis.far g.startBounds + (g.length - (axis.far moving - axis.near moving)) / 2.0 -
      axis.near moving
  | .after => axis.far g.stopBounds + g.length - axis.near moving
  | .before => axis.near g.startBounds - g.length - axis.far moving

/-- The offsets by which a box may snap on an axis. -/
inductive Offset (moving : Rect α) (cs : Candidates α) (axis : Axis) : α → Prop
  /-- Bring one of the five points of the box onto the coordinate of a candidate point. -/
  | point {m c : Point α} (hm : m ∈ moving.snapPoints) (hc : c ∈ cs.points) :
      Offset moving cs axis (axis.coord c - axis.coord m)
  /-- Bring the box to a place next to a gap that it faces. -/
  | gap {g : Gap α} (place : GapPlace) (hg : g ∈ cs.gaps axis) (hfaces : Faces moving axis g)
      (hroom : place.HasRoom moving axis g) : Offset moving cs axis (place.offset moving axis g)

theorem mem_gapOffsetsOf_iff {o : GapOffset α} {g : Gap α} : o ∈ gapOffsetsOf moving axis g ↔
    o.gap = g ∧ Faces moving axis g ∧ o.place.HasRoom moving axis g ∧
      o.offset = o.place.offset moving axis g := by
  have hmeets : Scalar.rangesMeet (axis.cross.near moving) (axis.cross.far moving) g.breadth.1
      g.breadth.2 = true ↔ Faces moving axis g := by
    simp only [Scalar.rangesMeet, Bool.and_eq_true, decide_eq_true_eq, Faces]
  rw [gapOffsetsOf]
  constructor
  · intro ho
    split_ifs at ho with hfaces hroom
    · simp only [List.cons_append, List.nil_append, List.mem_cons, List.not_mem_nil, or_false] at ho
      rcases ho with rfl | rfl | rfl
      · exact ⟨rfl, hmeets.1 hfaces, hroom, rfl⟩
      · exact ⟨rfl, hmeets.1 hfaces, trivial, rfl⟩
      · exact ⟨rfl, hmeets.1 hfaces, trivial, rfl⟩
    · rcases List.mem_pair.1 ho with rfl | rfl
      · exact ⟨rfl, hmeets.1 hfaces, trivial, rfl⟩
      · exact ⟨rfl, hmeets.1 hfaces, trivial, rfl⟩
    · cases ho
  · obtain ⟨g', place, offset⟩ := o
    intro ⟨hg, hfaces, hroom, hoffset⟩
    obtain rfl : g' = g := hg
    obtain rfl : offset = place.offset moving axis g' := hoffset
    rw [if_pos (hmeets.2 hfaces)]
    cases place with
    | between =>
        have hroom : axis.far moving - axis.near moving < g'.length := hroom
        rw [if_pos hroom]
        exact .head _
    | after => exact List.mem_append_right _ (.head _)
    | before => exact List.mem_append_right _ (.tail _ (.head _))

theorem mem_gapOffsets_iff {o : GapOffset α} : o ∈ gapOffsets moving gaps axis ↔
    o.gap ∈ gaps ∧ Faces moving axis o.gap ∧ o.place.HasRoom moving axis o.gap ∧
      o.offset = o.place.offset moving axis o.gap := by
  simp only [gapOffsets, List.mem_flatMap, mem_gapOffsetsOf_iff]
  constructor
  · rintro ⟨g, hg, rfl, hplace⟩
    exact ⟨hg, hplace⟩
  · rintro ⟨hg, hplace⟩
    exact ⟨o.gap, hg, rfl, hplace⟩

/-- The search on an axis looks at the offsets of that axis. -/
theorem mem_offsets_iff {d : α} : d ∈ pointOffsets moving.snapPoints cs axis ++
    (gapOffsets moving (cs.gaps axis) axis).map (·.offset) ↔ Offset moving cs axis d := by
  simp only [pointOffsets, List.mem_append, List.mem_flatMap, List.mem_map, mem_gapOffsets_iff]
  constructor
  · rintro (⟨m, hm, c, hc, rfl⟩ | ⟨o, ⟨hg, hfaces, hroom, ho⟩, rfl⟩)
    · exact .point hm hc
    · exact ho ▸ .gap o.place hg hfaces hroom
  · rintro (⟨hm, hc⟩ | ⟨place, hg, hfaces, hroom⟩)
    · exact Or.inl ⟨_, hm, _, hc, rfl⟩
    · exact Or.inr ⟨⟨_, place, _⟩, ⟨hg, hfaces, hroom, rfl⟩, rfl⟩

/-- The offsets depend on which candidates and gaps there are, and not on their order. -/
theorem offset_congr (hshapes : ∀ c, c ∈ cs.shapes ↔ c ∈ cs'.shapes)
    (hgaps : ∀ g, g ∈ cs.gaps axis ↔ g ∈ cs'.gaps axis) {d : α} (h : Offset moving cs axis d) :
    Offset moving cs' axis d := by
  cases h with
  | point hm hc =>
      obtain ⟨s, hs, hc⟩ := List.mem_flatMap.1 hc
      exact .point hm (List.mem_flatMap.2 ⟨s, (hshapes s).1 hs, hc⟩)
  | gap place hg hfaces hroom => exact .gap place ((hgaps _).1 hg) hfaces hroom

/-! ## Two axes -/

/-- The offset by which a box snaps on an axis, if it snaps on that axis. -/
def chosen? (enabled : Bool) (moving : Rect α) (cs : Candidates α) (threshold : α) (axes : Axes)
    (axis : Axis) : Option α :=
  if enabled && !cs.isEmpty && axes.enabled axis then boxOffset? moving cs threshold axis else none

/-- The lines that a box brings that has snapped on an axis and now stands at `moved`. -/
def linesOn (moving moved : Rect α) (cs : Candidates α) (axis : Axis) (offset : α) :
    List (SnapLine α) :=
  pointLines moved.snapPoints cs axis ++
    ((gapOffsets moving (cs.gaps axis) axis).filter fun o =>
      Scalar.near o.offset offset Scalar.coordTolerance).map
        fun o => gapLine o moved (cs.gaps axis) axis

/-- The axes with an offset, and the offset of each. -/
def found (chosen : Axis → Option α) : List (Axis × α) :=
  [Axis.x, Axis.y].filterMap fun axis => (chosen axis).map fun offset => (axis, offset)

omit [Scalar α] in
theorem winners_eq (axes : Axes) (offset? : Axis → Option α) :
    winners axes offset? = found fun axis => if axes.enabled axis then offset? axis else none := by
  rw [winners, List.filterMap_filter]
  refine List.filterMap_congr fun axis _ => ?_
  cases h : axes.enabled axis <;>
    simp only [h, Bool.false_eq_true, if_true, if_false, Option.map_none]

omit [Scalar α] in
theorem found_eq (chosen : Axis → Option α) : found chosen =
    (chosen .x).toList.map (fun d => (Axis.x, d)) ++ (chosen .y).toList.map fun d => (Axis.y, d) := by
  cases hx : chosen .x <;> cases hy : chosen .y <;> simp [found, hx, hy]

omit [Scalar α] in
theorem flatMap_found {β : Type} (chosen : Axis → Option α) (f : Axis → α → List β) :
    (found chosen).flatMap (fun w => f w.1 w.2) =
      [Axis.x, Axis.y].flatMap fun axis => (chosen axis).elim [] (f axis) := by
  cases hx : chosen .x <;> cases hy : chosen .y <;> simp [found_eq, hx, hy]

omit [Scalar α] in
/-- The lines are those of the axes on which an offset was chosen. -/
theorem mem_lines_iff {chosen : Axis → Option α} {f : Axis → α → List (SnapLine α)}
    {line : SnapLine α} :
    line ∈ [Axis.x, Axis.y].flatMap (fun axis => (chosen axis).elim [] (f axis)) ↔
      ∃ axis d, chosen axis = some d ∧ line ∈ f axis d := by
  simp only [List.mem_flatMap, Axis.mem_both, true_and]
  refine exists_congr fun axis => ?_
  cases chosen axis <;> simp

/-- **A box snaps by what was found on each axis**, and each axis brings its own lines. -/
theorem box_eq (enabled : Bool) (moving : Rect α) (cs : Candidates α) (threshold : α) (axes : Axes) :
    let chosen := chosen? enabled moving cs threshold axes
    let nudge := nudgeOf (found chosen)
    box enabled moving cs threshold axes =
      ⟨nudge, [Axis.x, Axis.y].flatMap fun axis =>
        (chosen axis).elim [] (linesOn moving (moving + nudge) cs axis)⟩ := by
  intro chosen nudge
  have hoff : (!enabled || cs.isEmpty) = !(enabled && !cs.isEmpty) := by simp
  have hchosen : chosen = fun axis => if enabled && !cs.isEmpty then
      if axes.enabled axis then boxOffset? moving cs threshold axis else none else none := by
    funext axis
    simp only [chosen, chosen?, Bool.and_eq_true, ite_and]
  rw [← flatMap_found chosen (linesOn moving (moving + nudge) cs), box, hoff]
  cases hon : enabled && !cs.isEmpty with
  | false =>
      have hnone : found chosen = [] := by
        rw [hchosen, hon]
        rfl
      rw [show nudge = nudgeOf (found chosen) from rfl, hnone]
      rfl
  | true =>
      have hwinners : winners axes (boxOffset? moving cs threshold) = found chosen := by
        rw [winners_eq, hchosen, hon]
        rfl
      simp only [hwinners]
      rfl

/-- The lines of a box are those of the axes on which it has snapped. -/
theorem mem_box_lines_iff {enabled : Bool} {threshold : α} {axes : Axes} {line : SnapLine α} :
    line ∈ (box enabled moving cs threshold axes).lines ↔
      ∃ axis d, chosen? enabled moving cs threshold axes axis = some d ∧
        line ∈ linesOn moving (moving + (box enabled moving cs threshold axes).nudge) cs axis d := by
  simp only [box_eq, mem_lines_iff]

/-- A line of gaps is shown for each place next to a gap that is within the tolerance of the offset by
    which the box has snapped. -/
theorem gaps_mem_lines_iff {indicators : List (GapIndicator α)} {enabled : Bool} {threshold : α}
    {axes : Axes} :
    .gaps axis.direction indicators ∈ (box enabled moving cs threshold axes).lines ↔
      ∃ d, ∃ o ∈ gapOffsets moving (cs.gaps axis) axis,
        chosen? enabled moving cs threshold axes axis = some d ∧
        Scalar.near o.offset d Scalar.coordTolerance = true ∧
        .gaps axis.direction indicators =
          gapLine o (moving + (box enabled moving cs threshold axes).nudge) (cs.gaps axis) axis := by
  rw [mem_box_lines_iff]
  constructor
  · rintro ⟨axis', d, hchosen, h⟩
    rcases List.mem_append.1 h with hpoints | hgaps
    · obtain ⟨value, -, hline⟩ := List.mem_map.1 hpoints
      cases hline
    · obtain ⟨o, ho, hline⟩ := List.mem_map.1 hgaps
      obtain ⟨ho, hnear⟩ := List.mem_filter.1 ho
      obtain rfl : axis' = axis := Axis.direction_injective (SnapLine.gaps.inj hline).1
      exact ⟨d, o, ho, hchosen, hnear, hline.symm⟩
  · rintro ⟨d, o, ho, hchosen, hnear, hline⟩
    refine ⟨axis, d, hchosen, ?_⟩
    rw [hline]
    exact List.mem_append_right _ (List.mem_map_of_mem (List.mem_filter.2 ⟨ho, hnear⟩))

/-- On an axis that may snap, the best of its offsets is found, and on any other nothing. -/
theorem isBest_chosen? [Scalar.LawfulOrder α] (enabled : Bool) (moving : Rect α) (cs : Candidates α)
    (threshold : α) (axes : Axes) (axis : Axis) :
    IsBest (fun d => (enabled && !cs.isEmpty && axes.enabled axis) = true ∧ Offset moving cs axis d)
      threshold (chosen? enabled moving cs threshold axes axis) := by
  unfold chosen?
  cases hon : enabled && !cs.isEmpty && axes.enabled axis with
  | false => exact fun d hd => absurd hd.1 Bool.false_ne_true
  | true =>
      have hbest := isBest_nearest? threshold (pointOffsets moving.snapPoints cs axis ++
        (gapOffsets moving (cs.gaps axis) axis).map (·.offset))
      simp only [mem_offsets_iff] at hbest
      simp only [true_and]
      exact hbest

/-! ## The nudge -/

section
variable [Scalar.LawfulOrder α] {chosen : Axis → Option α} {d : α}

/-- An axis on which nothing was found is not moved along. -/
theorem component_nudgeOf_of_none (h : chosen axis = none) :
    axis.component (nudgeOf (found chosen)) = 0 := by
  have hzero : (0 : α) + 0 = 0 := zero_add_zero
  rw [found_eq]
  cases axis with
  | x =>
      rw [h]
      cases chosen .y with
      | none => rfl
      | some e => exact hzero
  | y =>
      rw [h]
      cases chosen .x with
      | none => rfl
      | some e => exact hzero

/-- Along an axis the nudge is the offset that was found there. -/
theorem component_nudgeOf_of_some (h : chosen axis = some d) (hd : Scalar.IsNumber d) :
    (axis.component (nudgeOf (found chosen)) == d) = true := by
  have halone : (0 + d == d) = true := zero_add hd
  rw [found_eq]
  cases axis with
  | x =>
      rw [h]
      cases chosen .y with
      | none => exact halone
      | some e => exact Scalar.beq_trans (add_zero (isNumber_of_le (beq_iff.1 halone).1).1) halone
  | y =>
      rw [h]
      cases chosen .x with
      | none => exact halone
      | some e =>
          have hzero : (0 : α) + 0 = 0 := zero_add_zero
          show (0 + 0 + d == d) = true
          rwa [hzero]

variable {enabled : Bool} {axes : Axes} {threshold : α}

/-- What a box snaps to on an axis: on one where it may not snap, or has nothing within the threshold,
    it stays and shows no lines; on any other it goes by a nearest offset. -/
theorem box_cases (enabled : Bool) (moving : Rect α) (cs : Candidates α) (threshold : α) (axes : Axes)
    (axis : Axis) :
    let nudge := (box enabled moving cs threshold axes).nudge
    let chosen := chosen? enabled moving cs threshold axes axis
    let active := (enabled && !cs.isEmpty && axes.enabled axis) = true
    (axis.component nudge = 0 ∧ chosen = none ∧
      ∀ d, active → Offset moving cs axis d → ¬ Scalar.abs d < threshold) ∨
    ∃ d, (axis.component nudge == d) = true ∧ chosen = some d ∧ active ∧
      IsNearest (Offset moving cs axis) threshold d := by
  intro nudge chosen active
  have hbest := isBest_chosen? enabled moving cs threshold axes axis
  have hnudge : nudge = nudgeOf (found (chosen? enabled moving cs threshold axes)) := by
    show (box enabled moving cs threshold axes).nudge = _
    rw [box_eq]
  rw [hnudge]
  cases hchosen : chosen? enabled moving cs threshold axes axis with
  | none =>
      rw [hchosen] at hbest
      exact Or.inl ⟨component_nudgeOf_of_none hchosen, hchosen,
        fun d hactive hd => hbest d ⟨hactive, hd⟩⟩
  | some d =>
      rw [hchosen] at hbest
      have hnumber := isNumber_of_abs (Scalar.isNumber_of_lt hbest.within).1
      exact Or.inr ⟨d, component_nudgeOf_of_some hchosen hnumber, hchosen, hbest.offset.1,
        hbest.offset.2, hbest.within, fun e he => hbest.least e ⟨hbest.offset.1, he⟩⟩

/-- A box is nudged by less than the threshold. -/
theorem abs_nudge_lt (hpos : 0 < threshold) (axis : Axis) :
    Scalar.abs (axis.component (box enabled moving cs threshold axes).nudge) < threshold := by
  rcases box_cases enabled moving cs threshold axes axis with
    ⟨hzero, -, -⟩ | ⟨d, hnudge, -, -, hnearest⟩
  · rw [hzero, Scalar.LawfulOrder.abs_zero]
    exact hpos
  · exact hnearest.abs_lt hnudge

/-- How far a box is nudged depends on which candidates and gaps there are, and not on their order. -/
theorem abs_nudge_congr (hshapes : cs.shapes.Perm cs'.shapes)
    (hgaps : ∀ g, g ∈ cs.gaps axis ↔ g ∈ cs'.gaps axis) :
    (Scalar.abs (axis.component (box enabled moving cs threshold axes).nudge) ==
      Scalar.abs (axis.component (box enabled moving cs' threshold axes).nudge)) = true := by
  have hempty : cs'.isEmpty = cs.isEmpty := hshapes.isEmpty_eq.symm
  have hoffset : Offset moving cs' axis = Offset moving cs axis := funext fun d =>
    propext ⟨offset_congr (fun c => hshapes.mem_iff.symm) fun g => (hgaps g).symm,
      offset_congr (fun c => hshapes.mem_iff) hgaps⟩
  have hcases := box_cases enabled moving cs' threshold axes axis
  simp only [hempty, hoffset] at hcases
  rcases box_cases enabled moving cs threshold axes axis with
    ⟨hzero, -, hnone⟩ | ⟨d, hd, -, hactive, hnearest⟩
  · rcases hcases with ⟨hzero', -, -⟩ | ⟨e, -, -, hactive, hnearest⟩
    · rw [hzero, hzero', Scalar.LawfulOrder.abs_zero]
      exact beq_iff.2 ⟨isNumber_zero, isNumber_zero⟩
    · exact absurd hnearest.within (hnone e hactive hnearest.offset)
  · rcases hcases with ⟨-, -, hnone⟩ | ⟨e, he, -, -, hnearest'⟩
    · exact absurd hnearest.within (hnone d hactive hnearest.offset)
    · have hback := Scalar.abs_beq_abs (beq_iff.2 (beq_iff.1 he).symm)
      exact Scalar.beq_trans (Scalar.abs_beq_abs hd)
        (Scalar.beq_trans (hnearest.abs_beq_abs hnearest') hback)

/-- **A box snaps to the nearest alignment on each axis.** Where snapping is off, there are no
    candidates, the axis is masked or nothing is within the threshold, the box stays on that axis and
    shows no lines for it. Elsewhere it goes by a nearest offset, which is less than the threshold; so it
    never goes as far as a positive threshold. How far does not depend on the order of the candidates. -/
theorem box_nearest (enabled : Bool) (moving : Rect α) (cs : Candidates α) (threshold : α)
    (axes : Axes) :
    let nudge := (box enabled moving cs threshold axes).nudge
    (∃ chosen : Axis → Option α,
      (box enabled moving cs threshold axes).lines = [Axis.x, Axis.y].flatMap (fun axis =>
        (chosen axis).elim [] (linesOn moving (moving + nudge) cs axis)) ∧
      ∀ axis,
        (enabled = false ∨ cs.shapes = [] ∨ axes.enabled axis = false ∨
            (∀ d, Offset moving cs axis d → ¬ Scalar.abs d < threshold) →
          axis.component nudge = 0 ∧ chosen axis = none) ∧
        (enabled = true → cs.shapes ≠ [] → axes.enabled axis = true →
            (∃ d, Offset moving cs axis d ∧ Scalar.abs d < threshold) →
          ∃ d, chosen axis = some d ∧ IsNearest (Offset moving cs axis) threshold d ∧
            (axis.component nudge == d) = true ∧ Scalar.abs (axis.component nudge) < threshold)) ∧
    (0 < threshold → ∀ axis : Axis, Scalar.abs (axis.component nudge) < threshold) ∧
    (∀ cs' : Candidates α, cs.shapes.Perm cs'.shapes →
      (∀ axis, (cs.gaps axis).Perm (cs'.gaps axis)) → ∀ axis : Axis,
        (Scalar.abs (axis.component nudge) ==
          Scalar.abs (axis.component (box enabled moving cs' threshold axes).nudge)) = true) ∧
    ∀ shapes shapes' : List (Candidate α), cs = .ofShapes shapes → shapes.Perm shapes' →
      (∀ c ∈ shapes, c.bounds.IsNumeric) → ∀ axis : Axis,
        (Scalar.abs (axis.component nudge) == Scalar.abs
          (axis.component (box enabled moving (.ofShapes shapes') threshold axes).nudge)) = true := by
  intro nudge
  have hcases := box_cases enabled moving cs threshold axes
  refine ⟨⟨chosen? enabled moving cs threshold axes, ?_, fun axis => ⟨fun hnone => ?_,
    fun henabled hshapes haxis hd => ?_⟩⟩, abs_nudge_lt, fun cs' hshapes hgaps axis =>
    abs_nudge_congr hshapes fun g => (hgaps axis).mem_iff, ?_⟩
  · simp only [nudge, box_eq]
  · rcases hcases axis with ⟨hzero, hchosen, -⟩ | ⟨d, -, -, hactive, hnearest⟩
    · exact ⟨hzero, hchosen⟩
    · simp only [Bool.and_eq_true, Bool.not_eq_true'] at hactive
      rcases hnone with h | h | h | h
      · exact absurd (h.symm.trans hactive.1.1) Bool.false_ne_true
      · exact absurd (hactive.1.2.symm.trans (List.isEmpty_iff.2 h)) Bool.false_ne_true
      · exact absurd (h.symm.trans hactive.2) Bool.false_ne_true
      · exact absurd hnearest.within (h d hnearest.offset)
  · rcases hcases axis with ⟨-, -, hnone⟩ | ⟨d, hnudge, hchosen, -, hnearest⟩
    · obtain ⟨d, hoffset, hlt⟩ := hd
      refine absurd hlt (hnone d ?_ hoffset)
      simp only [henabled, haxis, Candidates.isEmpty, List.isEmpty_eq_false_iff.2 hshapes,
        Bool.not_false, Bool.and_self]
    · exact ⟨d, hchosen, hnearest, hnudge, hnearest.abs_lt hnudge⟩
  · rintro shapes shapes' rfl hperm hnumeric axis
    refine abs_nudge_congr hperm fun g => ?_
    rw [Candidates.gaps_ofShapes, Candidates.gaps_ofShapes]
    exact Gap.mem_findAll_perm hnumeric hperm

end

/-- In double precision, a box whose right side is five short of the left side of another: it goes by
    five along the horizontal axis and stays on the other, whichever candidate comes first. -/
theorem box_nearest_doubles :
    let moving : Rect Binary64 := ⟨95.0, 30.0, 195.0, 130.0⟩
    let close : Candidate Binary64 := .ofBounds 1 ⟨200.0, 0.0, 300.0, 100.0⟩
    let distant : Candidate Binary64 := .ofBounds 2 ⟨400.0, 500.0, 410.0, 510.0⟩
    let cs : Candidates Binary64 := .ofShapes [close, distant]
    let nudge := (box true moving cs 8.0 .both).nudge
    (∃ d, IsNearest (Offset moving cs .x) 8.0 d ∧ (nudge.x == d) = true) ∧ nudge.y = 0 ∧
      (Scalar.abs nudge.x ==
        Scalar.abs (box true moving (.ofShapes [distant, close]) 8.0 .both).nudge.x) = true := by
  intro moving close distant cs nudge
  obtain ⟨⟨chosen, -, haxis⟩, -, -, horder⟩ := box_nearest true moving cs 8.0 .both
  have hnumeric : ∀ c ∈ [close, distant], c.bounds.IsNumeric := by
    intro c hc
    rcases List.mem_pair.1 hc with rfl | rfl <;> exact ⟨by decide, by decide, by decide, by decide⟩
  have hx : Offset moving cs .x (200.0 - 195.0) :=
    .point (m := ⟨195.0, 30.0⟩) (c := ⟨200.0, 0.0⟩) (.tail _ (.head _)) (.head _)
  have hpoints : ∀ m ∈ moving.snapPoints, ∀ c ∈ cs.points,
      ¬ Scalar.abs (Axis.y.coord c - Axis.y.coord m) < 8.0 := by decide +kernel
  have hy : ∀ d, Offset moving cs .y d → ¬ Scalar.abs d < 8.0 := by
    rintro _ (⟨hm, hc⟩ | ⟨place, hg, -, -⟩)
    · exact hpoints _ hm _ hc
    · rw [Candidates.gaps_ofShapes, Gap.mem_findAll_iff hnumeric] at hg
      obtain ⟨s, hs, e, he, hfree, -⟩ := hg
      rcases List.mem_pair.1 hs with rfl | rfl <;> rcases List.mem_pair.1 he with rfl | rfl
      · exact absurd (by decide +kernel) hfree.apart
      · exact absurd (by decide +kernel) hfree.meets
      · exact absurd (by decide +kernel) hfree.apart
      · exact absurd (by decide +kernel) hfree.apart
  obtain ⟨d, -, hnearest, hd, -⟩ := (haxis .x).2 rfl (by decide) rfl ⟨_, hx, by decide⟩
  exact ⟨⟨d, hnearest, hd⟩, ((haxis .y).1 (Or.inr (Or.inr (Or.inr hy)))).1,
    horder _ _ rfl (.swap distant close []) hnumeric .x⟩

end Snap

end CanvasTransform
