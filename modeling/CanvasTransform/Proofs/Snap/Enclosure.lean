import CanvasTransform.Proofs.Numbers.Differences
import CanvasTransform.Proofs.Snap.Gaps

set_option autoImplicit false

/-! # Which candidates enclose a gap

Gaps are found by comparing the sides of boxes. Said through the coordinates that boxes cover, two
candidates enclose a gap when the first ends before the second begins, some coordinate across the axis
is covered by both, and no third candidate that enters the space between covers such a coordinate as
well (`Gap.Encloses`). The comparisons come to the same because all of these are ranges between
numbers: ranges that share a coordinate share an end of one of them. So what is found are exactly
the pairs that enclose a gap, each once, for exact numbers and for doubles. -/

namespace CanvasTransform

open Scalar.LawfulOrder

variable {α : Type} [Scalar α]

namespace Axis

/-- Along the axis, the rectangle extends over the coordinate `x`. -/
def Covers (axis : Axis) (r : Rect α) (x : α) : Prop := axis.near r ≤ x ∧ x ≤ axis.far r

/-- Along the axis, the rectangle reaches into the space between `start` and `stop`. -/
def Enters (axis : Axis) (r : Rect α) (start stop : α) : Prop :=
  axis.near r < stop ∧ start < axis.far r

/-- Exactly read, a rectangle that reaches into a space covers a coordinate strictly inside of it.
    Two doubles may have none between them. -/
theorem enters_iff_exists (axis : Axis) (r : Rect ℝ) {start stop : ℝ} (h : start < stop) :
    axis.Enters r start stop ↔ ∃ x, start < x ∧ x < stop ∧ axis.Covers r x := by
  have hr := axis.near_le_far r.isNumeric
  constructor
  · rintro ⟨hnear, hfar⟩
    obtain ⟨x, hlow, hhigh⟩ := exists_between (max_lt h hnear)
    rcases le_total x (axis.far r) with hle | hle
    · exact ⟨x, (le_max_left _ _).trans_lt hlow, hhigh, (le_max_right _ _).trans hlow.le, hle⟩
    · exact ⟨axis.far r, hfar, hle.trans_lt hhigh, hr, le_refl (α := ℝ) _⟩
  · rintro ⟨x, hlow, hhigh, hnear, hfar⟩
    exact ⟨lt_of_le_of_lt hnear hhigh, lt_of_lt_of_le hlow hfar⟩

variable [Scalar.LawfulOrder α] (axis : Axis) {r : Rect α}

theorem isNumber_near (h : r.IsNumeric) : Scalar.IsNumber (axis.near r) :=
  (isNumber_of_le (axis.near_le_far h)).1

theorem isNumber_far (h : r.IsNumeric) : Scalar.IsNumber (axis.far r) :=
  (isNumber_of_le (axis.near_le_far h)).2

end Axis

namespace Gap

variable {axis : Axis} {all shapes shapes' : List (Candidate α)} {s e c : Candidate α} {g : Gap α}

/-- `s` and `e` enclose free space along the axis. -/
structure Encloses (axis : Axis) (shapes : List (Candidate α)) (s e : Candidate α) : Prop where
  /-- The far side of `s` is ahead of the near side of `e`. -/
  ahead : axis.far s.bounds < axis.near e.bounds
  /-- Across the axis, the two overlap or touch. -/
  facing : ∃ x, axis.cross.Covers s.bounds x ∧ axis.cross.Covers e.bounds x
  /-- No third candidate in the space between overlaps or touches what the two share. -/
  clear : ¬ ∃ c ∈ shapes, c.id ≠ s.id ∧ c.id ≠ e.id ∧
    axis.Enters c.bounds (axis.far s.bounds) (axis.near e.bounds) ∧
    ∃ x, axis.cross.Covers s.bounds x ∧ axis.cross.Covers e.bounds x ∧ axis.cross.Covers c.bounds x

/-! ## Ranges -/

section
variable [Scalar.LawfulOrder α]

/-- The breadth of a gap is what its two sides share across the axis. -/
theorem breadth_iff (hs : s.bounds.IsNumeric) (he : e.bounds.IsNumeric) (x : α) :
    (spanning axis s e).breadth.1 ≤ x ∧ x ≤ (spanning axis s e).breadth.2 ↔
      axis.cross.Covers s.bounds x ∧ axis.cross.Covers e.bounds x := by
  simp only [spanning, Axis.Covers,
    Scalar.max_le_iff (axis.cross.isNumber_near hs) (axis.cross.isNumber_near he),
    Scalar.le_min_iff (axis.cross.isNumber_far hs) (axis.cross.isNumber_far he)]
  exact and_and_and_comm

/-- Ranges between numbers that are in order share a number if neither is ahead of the other. -/
theorem rangesMeet_iff {a₀ a₁ b₀ b₁ : α} (ha : a₀ ≤ a₁) (hb : b₀ ≤ b₁) :
    Scalar.rangesMeet a₀ a₁ b₀ b₁ = true ↔ ∃ x, (b₀ ≤ x ∧ x ≤ b₁) ∧ a₀ ≤ x ∧ x ≤ a₁ := by
  simp only [Scalar.rangesMeet, Bool.and_eq_true, decide_eq_true_eq]
  constructor
  · rintro ⟨hab, hba⟩
    rcases le_total (isNumber_of_le ha).1 (isNumber_of_le hb).1 with h | h
    · exact ⟨b₀, ⟨(isNumber_of_le hb).1, hb⟩, h, hba⟩
    · exact ⟨a₀, ⟨h, hab⟩, (isNumber_of_le ha).1, ha⟩
  · rintro ⟨x, ⟨hlow, hhigh⟩, hnear, hfar⟩
    exact ⟨le_trans hnear hhigh, le_trans hlow hfar⟩

/-- An end of the breadth is a side of a candidate, so it is a number. -/
theorem isNumber_breadth (hs : s.bounds.IsNumeric) (he : e.bounds.IsNumeric) :
    Scalar.IsNumber (spanning axis s e).breadth.1 ∧
      Scalar.IsNumber (spanning axis s e).breadth.2 := by
  simp only [spanning, Scalar.max, Scalar.min]
  constructor
  · split_ifs <;> exact axis.cross.isNumber_near (by assumption)
  · split_ifs <;> exact axis.cross.isNumber_far (by assumption)

/-- The breadth is in order exactly if the two candidates overlap or touch across the axis. -/
theorem ordered_breadth_iff (hs : s.bounds.IsNumeric) (he : e.bounds.IsNumeric) :
    (spanning axis s e).breadth.1 ≤ (spanning axis s e).breadth.2 ↔
      ∃ x, axis.cross.Covers s.bounds x ∧ axis.cross.Covers e.bounds x := by
  simp only [← breadth_iff hs he]
  exact ⟨fun h => ⟨_, (isNumber_breadth hs he).1, h⟩, fun ⟨_, hlow, hhigh⟩ => le_trans hlow hhigh⟩

/-- A third candidate blocks the gap between two that overlap or touch across the axis exactly if it
    enters the space between them and overlaps or touches what they share. -/
theorem blocks_iff (hs : s.bounds.IsNumeric) (he : e.bounds.IsNumeric) (hc : c.bounds.IsNumeric)
    (hordered : (spanning axis s e).breadth.1 ≤ (spanning axis s e).breadth.2) :
    blocks axis (axis.far s.bounds) (axis.near e.bounds) (spanning axis s e).breadth c = true ↔
      axis.Enters c.bounds (axis.far s.bounds) (axis.near e.bounds) ∧
      ∃ x, axis.cross.Covers s.bounds x ∧ axis.cross.Covers e.bounds x ∧
        axis.cross.Covers c.bounds x := by
  rw [blocks, Bool.and_eq_true, Bool.and_eq_true, decide_eq_true_eq, decide_eq_true_eq,
    rangesMeet_iff (axis.cross.near_le_far hc) hordered]
  simp only [breadth_iff hs he, Axis.Enters, Axis.Covers, and_assoc]

/-- The comparisons of sides say which candidates enclose a gap. -/
theorem isFree_iff (hall : ∀ c ∈ all, c.bounds.IsNumeric) (hs : s.bounds.IsNumeric)
    (he : e.bounds.IsNumeric) : IsFree axis all s e ↔ Encloses axis all s e := by
  have hnumbers : Scalar.IsNumber (spanning axis s e).breadth.1 ∧
      Scalar.IsNumber (spanning axis s e).breadth.2 := isNumber_breadth hs he
  constructor
  · rintro ⟨hapart, hmeets, hclear⟩
    have hordered := Scalar.le_of_not_lt hnumbers.2 hnumbers.1 hmeets
    refine ⟨Scalar.lt_of_not_le (axis.isNumber_near he) (axis.isNumber_far hs) hapart,
      (ordered_breadth_iff hs he).1 hordered, ?_⟩
    rintro ⟨c, hc, hcs, hce, hthird⟩
    exact Bool.eq_false_iff.1 (hclear c hc hcs hce)
      ((blocks_iff hs he (hall c hc) hordered).2 hthird)
  · rintro ⟨hahead, hfacing, hclear⟩
    have hordered := (ordered_breadth_iff hs he).2 hfacing
    refine ⟨(lt_iff.1 hahead).2, fun h => (lt_iff.1 h).2 hordered, fun c hc hcs hce => ?_⟩
    rw [Bool.eq_false_iff]
    exact fun hthird => hclear ⟨c, hc, hcs, hce, (blocks_iff hs he (hall c hc) hordered).1 hthird⟩

end

/-! ## Each pair once -/

section
variable {β γ : Type} {l : List β}

theorem pairs_map (f : β → γ) : pairs (l.map f) = (pairs l).map (Prod.map f f) := by
  induction l with
  | nil => rfl
  | cons a rest ih =>
      rw [List.map_cons, pairs, pairs, ih, List.map_append, List.map_map, List.map_map]
      rfl

theorem nodup_pairs (h : l.Nodup) : (pairs l).Nodup := by
  induction l with
  | nil => exact List.nodup_nil
  | cons a rest ih =>
      obtain ⟨ha, hrest⟩ := List.nodup_cons.1 h
      refine (hrest.map (Prod.mk_right_injective a)).append (ih hrest) ?_
      rintro ⟨b, c⟩ hfirst hlater
      obtain ⟨d, -, hd⟩ := List.mem_map.1 hfirst
      cases hd
      exact ha (mem_of_mem_pairs hlater).1

end

theorem nodup_findAll (hids : (shapes.map (·.id)).Nodup) (axis : Axis) :
    ((findAll axis shapes).map fun g => (g.start, g.stop)).Nodup := by
  unfold findAll
  generalize hsorted : shapes.mergeSort _ = sorted
  have hnodup : ((pairs sorted).map (Prod.map (·.id) (·.id))).Nodup := by
    rw [← pairs_map]
    refine nodup_pairs ((List.Perm.nodup_iff ?_).2 hids)
    rw [← hsorted]
    exact (List.mergeSort_perm _ _).map _
  rw [List.Nodup, List.pairwise_map] at hnodup ⊢
  refine hnodup.filterMap _ ?_
  intro p q hne g hg h hh heq
  obtain ⟨-, rfl⟩ := between?_eq_some_iff.1 hg
  obtain ⟨-, rfl⟩ := between?_eq_some_iff.1 hh
  exact hne heq

end Gap

namespace Candidates

variable [Scalar.LawfulOrder α] [Scalar.LawfulDifference α]

/-- **The gaps are those between the candidates that enclose one**, each once: there is a gap from `s`
    to `e` exactly if `s` and `e` enclose one. It is as long as the way from the far side of `s` to the
    near side of `e`, which is positive, and as broad as what the two share. The order of the
    candidates does not matter. -/
theorem gaps_enclosed {shapes : List (Candidate α)} (hids : (shapes.map (·.id)).Nodup)
    (hnumeric : ∀ c ∈ shapes, c.bounds.IsNumeric) (axis : Axis) :
    let gaps := (ofShapes shapes).gaps axis
    (∀ s ∈ shapes, ∀ e ∈ shapes,
      (∃ g ∈ gaps, g.start = s.id ∧ g.stop = e.id) ↔ Gap.Encloses axis shapes s e) ∧
    (gaps.map fun g => (g.start, g.stop)).Nodup ∧
    (∀ g ∈ gaps, ∃ s ∈ shapes, ∃ e ∈ shapes, Gap.Encloses axis shapes s e ∧
      g.start = s.id ∧ g.stop = e.id ∧ g.startBounds = s.bounds ∧ g.stopBounds = e.bounds ∧
      g.length = axis.near e.bounds - axis.far s.bounds ∧ 0 < g.length ∧
      ∀ x, g.breadth.1 ≤ x ∧ x ≤ g.breadth.2 ↔
        axis.cross.Covers s.bounds x ∧ axis.cross.Covers e.bounds x) ∧
    ∀ shapes', shapes.Perm shapes' → gaps.Perm ((ofShapes shapes').gaps axis) := by
  intro gaps
  have hgaps : gaps = Gap.findAll axis shapes := gaps_ofShapes shapes axis
  have hencloses : ∀ s ∈ shapes, ∀ e ∈ shapes,
      (Gap.IsFree axis shapes s e ↔ Gap.Encloses axis shapes s e) := fun s hs e he =>
    Gap.isFree_iff hnumeric (hnumeric s hs) (hnumeric e he)
  have hinjective : ∀ s ∈ shapes, ∀ t ∈ shapes, s.id = t.id → s = t := fun s hs t ht h =>
    List.inj_on_of_nodup_map hids hs ht h
  have honce := Gap.nodup_findAll hids axis
  rw [hgaps]
  refine ⟨fun s hs e he => ⟨?_, fun h => ?_⟩, honce, fun g hg => ?_, fun shapes' hperm => ?_⟩
  · rintro ⟨g, hg, hstart, hstop⟩
    obtain ⟨t, ht, f, hf, hfree, rfl⟩ := (Gap.mem_findAll_iff hnumeric).1 hg
    obtain rfl := hinjective t ht s hs hstart
    obtain rfl := hinjective f hf e he hstop
    exact (hencloses t hs f he).1 hfree
  · exact ⟨Gap.spanning axis s e,
      (Gap.mem_findAll_iff hnumeric).2 ⟨s, hs, e, he, (hencloses s hs e he).2 h, rfl⟩, rfl, rfl⟩
  · obtain ⟨s, hs, e, he, hfree, rfl⟩ := (Gap.mem_findAll_iff hnumeric).1 hg
    have h := (hencloses s hs e he).1 hfree
    exact ⟨s, hs, e, he, h, rfl, rfl, rfl, rfl, rfl, Scalar.LawfulDifference.sub_pos h.ahead,
      Gap.breadth_iff (hnumeric s hs) (hnumeric e he)⟩
  · have honce' := Gap.nodup_findAll ((hperm.map (·.id)).nodup_iff.1 hids) axis
    rw [gaps_ofShapes]
    exact (List.perm_ext_iff_of_nodup honce.of_map honce'.of_map).2 fun g =>
      Gap.mem_findAll_perm hnumeric hperm

/-- In double precision, two boxes that touch the same horizontal line, and a third one between them. -/
theorem gaps_enclosed_touching :
    let first : Candidate Binary64 := .ofBounds 1 ⟨0.0, 0.0, 50.0, 50.0⟩
    let second : Candidate Binary64 := .ofBounds 2 ⟨150.0, 90.0, 100.0, 50.0⟩
    let third : Candidate Binary64 := .ofBounds 3 ⟨60.0, 10.0, 90.0, 60.0⟩
    (∃ g ∈ (ofShapes [second, first]).gaps .x, g.start = first.id ∧ g.stop = second.id) ∧
      ¬ ∃ g ∈ (ofShapes [second, third, first]).gaps .x, g.start = first.id ∧ g.stop = second.id := by
  intro first second third
  have hnumeric : ∀ c ∈ [second, third, first], c.bounds.IsNumeric := by
    intro c hc
    simp only [List.mem_cons, List.not_mem_nil, or_false] at hc
    rcases hc with rfl | rfl | rfl <;> exact ⟨by decide, by decide, by decide, by decide⟩
  have hnumeric' : ∀ c ∈ [second, first], c.bounds.IsNumeric := fun c hc =>
    hnumeric c (List.Sublist.subset (by decide) hc)
  have hshared : Axis.x.cross.Covers first.bounds 50.0 ∧ Axis.x.cross.Covers second.bounds 50.0 ∧
      Axis.x.cross.Covers third.bounds 50.0 := by
    refine ⟨⟨?_, ?_⟩, ⟨?_, ?_⟩, ⟨?_, ?_⟩⟩ <;> decide +kernel
  constructor
  · refine ((gaps_enclosed (by decide) hnumeric' .x).1 first (by simp) second (by simp)).2
      ⟨by decide +kernel, ⟨50.0, hshared.1, hshared.2.1⟩, ?_⟩
    rintro ⟨c, hc, hfirst, hsecond, -⟩
    rcases List.mem_pair.1 hc with rfl | rfl
    · exact hsecond rfl
    · exact hfirst rfl
  · intro h
    refine (((gaps_enclosed (by decide) hnumeric .x).1 first (by simp) second (by simp)).1 h).clear
      ⟨third, by simp, by decide, by decide, ⟨by decide +kernel, by decide +kernel⟩, 50.0, hshared⟩

end Candidates

end CanvasTransform
