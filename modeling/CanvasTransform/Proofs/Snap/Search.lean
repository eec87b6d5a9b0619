import CanvasTransform.Proofs.Snap.Nearest

set_option autoImplicit false

/-! # The search in stages

The offset by which a box snaps on an axis can be searched in three stages: a nearest offset of a
point; of the offsets of gaps that are within the threshold, the first that sorts first by its
magnitude; and of these two the one of the gap, if it is strictly nearer (`Snap.stagedOffset?`).
`Snap.boxOffset?` looks at all offsets in one go.

Both find the same offset (`Snap.stagedOffset?_eq`). Each keeps what it has unless something is
strictly nearer, so that among equally near offsets those of points come first, and then the earlier
of two gaps. And what the second stage sorts are numbers, since nothing else is within a threshold:
among magnitudes of numbers, sorting follows `≤` (`Scalar.LawfulMagnitude`). -/

namespace CanvasTransform.Snap

open Scalar.LawfulOrder

variable {α : Type} [Scalar α]

/-! ## Three stages -/

/-- Keep the offset that sorts first by its magnitude, the earlier one if neither does. -/
def keepFirst (best : Option α) (d : α) : Option α :=
  match best with
  | some b => if Scalar.totalLe (Scalar.abs b) (Scalar.abs d) then some b else some d
  | none => some d

/-- The first of the offsets that sort first by their magnitude. -/
def first? (offsets : List α) : Option α := offsets.foldl keepFirst none

/-- Of an offset of a point and one of a gap, the one of the gap if it is strictly nearer. -/
def preferPoint (point? gap? : Option α) : Option α :=
  match point?, gap? with
  | some p, some g => some (if Scalar.abs g < Scalar.abs p then g else p)
  | p, g => p.or g

/-- The offset by which a moving box snaps on one axis, found in three stages. -/
def stagedOffset? (moving : Rect α) (cs : Candidates α) (threshold : α) (axis : Axis) : Option α :=
  let point? := nearest? threshold (pointOffsets moving.snapPoints cs axis)
  let gap? := first? <| ((gapOffsets moving (cs.gaps axis) axis).map (·.offset)).filter
    fun d => Scalar.abs d < threshold
  preferPoint point? gap?

theorem first?_concat (offsets : List α) (d : α) :
    first? (offsets ++ [d]) = keepFirst (first? offsets) d := by
  rw [first?, List.foldl_append]
  rfl

theorem mem_of_first? {offsets : List α} {d : α} (h : first? offsets = some d) : d ∈ offsets := by
  induction offsets using List.reverseRecOn generalizing d with
  | nil => cases h
  | append_singleton offsets e ih =>
      rw [first?_concat] at h
      cases hbest : first? offsets with
      | none =>
          rw [hbest] at h
          exact Option.some.inj h ▸ List.mem_append_right _ (List.mem_singleton_self _)
      | some b =>
          simp only [hbest, keepFirst] at h
          split_ifs at h
          · exact List.mem_append_left _ (Option.some.inj h ▸ ih hbest)
          · exact Option.some.inj h ▸ List.mem_append_right _ (List.mem_singleton_self _)

/-! ## The same offset -/

variable [Scalar.LawfulMagnitude α] {threshold : α}

/-- Within the threshold, what sorts first is what is nearer. -/
theorem keepFirst_eq {b d : α} (hb : Scalar.abs b < threshold) (hd : Scalar.abs d < threshold) :
    keepFirst (some b) d = if Scalar.abs d < Scalar.abs b then some d else some b := by
  rw [keepFirst]
  by_cases hnear : Scalar.abs d < Scalar.abs b
  · simp only [totalLe_of_lt hnear, if_pos hnear, Bool.false_eq_true, if_false]
  · have hle : Scalar.abs b ≤ Scalar.abs d :=
      Scalar.le_of_not_lt (Scalar.isNumber_of_lt hd).1 (Scalar.isNumber_of_lt hb).1 hnear
    simp only [Scalar.LawfulMagnitude.totalLe_abs hle, if_neg hnear, if_true]

/-- What is not within the threshold is passed over. -/
theorem nearer_of_not_lt {best : Option α} {d : α}
    (hbest : ∀ b, best = some b → Scalar.abs b < threshold) (hd : ¬ Scalar.abs d < threshold) :
    nearer threshold best d = best := by
  cases best with
  | none => exact if_neg hd
  | some b =>
      exact if_neg fun hlt => hd (Scalar.lt_of_lt_of_le hlt (Scalar.le_of_lt (hbest b rfl)))

omit [Scalar.LawfulMagnitude α] in
theorem preferPoint_lt {point? gap? : Option α} {d : α}
    (hp : ∀ p, point? = some p → Scalar.abs p < threshold)
    (hg : ∀ g, gap? = some g → Scalar.abs g < threshold) (h : preferPoint point? gap? = some d) :
    Scalar.abs d < threshold := by
  cases point? with
  | none => exact hg d h
  | some p =>
      cases gap? with
      | none => exact hp d h
      | some g =>
          obtain rfl := Option.some.inj h
          split_ifs
          · exact hg g rfl
          · exact hp p rfl

/-- **One offset more**: the search in one go and the second stage, followed by the third, take it or
    pass it over together. -/
theorem nearer_preferPoint {point? gap? : Option α} {d : α}
    (hp : ∀ p, point? = some p → Scalar.abs p < threshold)
    (hg : ∀ g, gap? = some g → Scalar.abs g < threshold) (hd : Scalar.abs d < threshold) :
    nearer threshold (preferPoint point? gap?) d = preferPoint point? (keepFirst gap? d) := by
  cases gap? with
  | none =>
      cases point? with
      | none => exact if_pos hd
      | some p => exact (apply_ite some _ _ _).symm
  | some g =>
      rw [keepFirst_eq (hg g rfl) hd]
      cases point? with
      | none => exact (apply_ite (preferPoint none) _ _ _).symm
      | some p =>
          have hnumber := (Scalar.isNumber_of_lt (hg g rfl)).1
          by_cases hgp : Scalar.abs g < Scalar.abs p <;> by_cases hdg : Scalar.abs d < Scalar.abs g
          · have hdp := Scalar.lt_of_lt_of_le hdg (Scalar.le_of_lt hgp)
            simp only [preferPoint, nearer, if_pos hgp, if_pos hdg, if_pos hdp]
          · simp only [preferPoint, nearer, if_pos hgp, if_neg hdg]
          · simp only [preferPoint, nearer, if_neg hgp, if_pos hdg, apply_ite some]
          · -- the point is as near as the gap, which is as near as the offset looked at
            have hpg := Scalar.le_of_not_lt hnumber (Scalar.isNumber_of_lt (hp p rfl)).1 hgp
            have hdp : ¬ Scalar.abs d < Scalar.abs p := fun hdp =>
              hdg (Scalar.lt_of_lt_of_le hdp hpg)
            simp only [preferPoint, nearer, if_neg hgp, if_neg hdg, if_neg hdp]

/-- Searching on among further offsets is the second stage followed by the third. -/
theorem foldl_nearer {point? : Option α} (hp : ∀ p, point? = some p → Scalar.abs p < threshold)
    (offsets : List α) : offsets.foldl (nearer threshold) point? =
      preferPoint point? (first? (offsets.filter fun d => Scalar.abs d < threshold)) := by
  induction offsets using List.reverseRecOn with
  | nil => cases point? <;> rfl
  | append_singleton offsets d ih =>
      have hg : ∀ g, first? (offsets.filter fun d => Scalar.abs d < threshold) = some g →
          Scalar.abs g < threshold := fun g hg =>
        of_decide_eq_true (List.mem_filter.1 (mem_of_first? hg)).2
      rw [List.foldl_append, List.foldl_cons, List.foldl_nil, ih, List.filter_append]
      by_cases hd : Scalar.abs d < threshold
      · have hkept : [d].filter (fun d => Scalar.abs d < threshold) = [d] := by simp [hd]
        rw [hkept, first?_concat, nearer_preferPoint hp hg hd]
      · have hpassed : [d].filter (fun d => Scalar.abs d < threshold) = [] := by simp [hd]
        rw [hpassed, List.append_nil, nearer_of_not_lt (fun b => preferPoint_lt hp hg) hd]

/-- **The search in three stages finds what the search in one go finds**, whatever is to be snapped
    and however many offsets are equally near. -/
theorem stagedOffset?_eq (moving : Rect α) (cs : Candidates α) (threshold : α) (axis : Axis) :
    stagedOffset? moving cs threshold axis = boxOffset? moving cs threshold axis := by
  have hpoint : ∀ p, nearest? threshold (pointOffsets moving.snapPoints cs axis) = some p →
      Scalar.abs p < threshold := by
    intro p hp
    have hbest := isBest_nearest? threshold (pointOffsets moving.snapPoints cs axis)
    rw [hp] at hbest
    exact hbest.within
  rw [boxOffset?, nearest?, List.foldl_append, ← nearest?, foldl_nearer hpoint]
  rfl

end CanvasTransform.Snap
