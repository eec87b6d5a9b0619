import CanvasTransform.Proofs.Snap.Nearest

set_option autoImplicit false

/-! # Rows of equal spacing

The line that is shown for a place next to a gap goes on through the row of equal gaps that the place
extends. The row is found by walking from gap to gap, each time to one that starts or stops at the
candidate just reached (`Snap.walk`). With distinct identifiers a walk only ever advances along the axis,
so it never comes back to a gap, and its bound of one step for each gap is never reached
(`Snap.length_walk_lt`): it ends because there is no gap to go on with, which makes the row maximal. -/

namespace CanvasTransform

/-- Where the gap begins along the axis. -/
def GapIndicator.startAlong {α : Type} [Scalar α] (axis : Axis) (i : GapIndicator α) : α :=
  axis.coord i.startEdge.1

/-- How wide the gap is along the axis. -/
def GapIndicator.length {α : Type} [Scalar α] (axis : Axis) (i : GapIndicator α) : α :=
  axis.coord i.endEdge.1 - axis.coord i.startEdge.1

namespace Snap

/-! ## Walks -/

section
variable {β : Type} {next? : β → Option β} {b c : β} {l : List β} {n m : ℕ}

/-- Where `next?` leads from `b`, in at most `n` steps. -/
def walk (next? : β → Option β) : ℕ → β → List β
  | 0, _ => []
  | n + 1, b =>
    match next? b with
    | some c => c :: walk next? n c
    | none => []

theorem walk_succ_of_none (h : next? b = none) : walk next? (n + 1) b = [] := by
  rw [walk, h]

theorem walk_succ_of_some (h : next? b = some c) : walk next? (n + 1) b = c :: walk next? n c := by
  rw [walk, h]

/-- A walk that ends before its bound ends where there is nowhere to go. -/
theorem next?_getLast_of_length_lt (h : (walk next? n b).length < n) :
    next? ((walk next? n b).getLastD b) = none := by
  induction n generalizing b with
  | zero => exact absurd h (Nat.not_lt_zero _)
  | succ n ih =>
      cases hnext : next? b with
      | none =>
          rw [walk_succ_of_none hnext]
          exact hnext
      | some c =>
          rw [walk_succ_of_some hnext] at h ⊢
          rw [List.getLastD_cons]
          exact ih (Nat.lt_of_succ_lt_succ h)

/-- A walk that ends before its bound does not depend on the bound. -/
theorem walk_eq_of_length_lt (h : (walk next? n b).length < n) (hm : n ≤ m) :
    walk next? m b = walk next? n b := by
  induction n generalizing b m with
  | zero => exact absurd h (Nat.not_lt_zero _)
  | succ n ih =>
      obtain ⟨m, rfl⟩ : ∃ k, m = k + 1 := ⟨m - 1, by omega⟩
      cases hnext : next? b with
      | none => rw [walk_succ_of_none hnext, walk_succ_of_none hnext]
      | some c =>
          rw [walk_succ_of_some hnext] at h
          rw [walk_succ_of_some hnext, walk_succ_of_some hnext,
            ih (Nat.lt_of_succ_lt_succ h) (Nat.le_of_succ_le_succ hm)]

theorem mem_of_mem_walk (hmem : ∀ b c, next? b = some c → c ∈ l) (hc : c ∈ walk next? n b) :
    c ∈ l := by
  induction n generalizing b with
  | zero => cases hc
  | succ n ih =>
      cases hnext : next? b with
      | none =>
          rw [walk_succ_of_none hnext] at hc
          cases hc
      | some d =>
          rw [walk_succ_of_some hnext] at hc
          rcases List.mem_cons.1 hc with rfl | hc
          · exact hmem b c hnext
          · exact ih hc

/-- Along a walk on which `height` only falls, everything is higher than all that comes after it. -/
theorem pairwise_walk (height : β → ℝ) (hb : b ∈ l) (hmem : ∀ b c, next? b = some c → c ∈ l)
    (hfalls : ∀ b ∈ l, ∀ c, next? b = some c → height c < height b) (n : ℕ) :
    (b :: walk next? n b).Pairwise fun c d => height d < height c := by
  induction n generalizing b with
  | zero => exact List.pairwise_singleton _ _
  | succ n ih =>
      cases hnext : next? b with
      | none =>
          rw [walk_succ_of_none hnext]
          exact List.pairwise_singleton _ _
      | some c =>
          have hpairs := ih (hmem b c hnext)
          have hfirst := hfalls b hb c hnext
          rw [walk_succ_of_some hnext]
          refine List.pairwise_cons.2 ⟨fun d hd => ?_, hpairs⟩
          rcases List.mem_cons.1 hd with rfl | hd
          · exact hfirst
          · exact ((List.pairwise_cons.1 hpairs).1 d hd).trans hfirst

/-- A walk among finitely many on which `height` only falls ends before its bound. -/
theorem length_walk_lt (height : β → ℝ) (hb : b ∈ l) (hmem : ∀ b c, next? b = some c → c ∈ l)
    (hfalls : ∀ b ∈ l, ∀ c, next? b = some c → height c < height b) :
    (walk next? l.length b).length < l.length := by
  have hnodup : (b :: walk next? l.length b).Nodup :=
    (pairwise_walk height hb hmem hfalls l.length).imp fun h heq => absurd (heq ▸ h) (lt_irrefl _)
  exact hnodup.length_le_of_subset
    (List.forall_mem_cons.2 ⟨hb, fun c hc => mem_of_mem_walk hmem hc⟩)

end

/-! ## Going on from a gap -/

section
variable {α : Type} [Scalar α]

/-- The first gap of the given length that is entered where `g` is left. -/
def adjoining? (leave enter : Gap α → ShapeId) (gaps : List (Gap α)) (length : α) (g : Gap α) :
    Option (Gap α) :=
  gaps.find? fun h => enter h == leave g && sameLength h.length length

theorem rowUpTo_eq_walk (gaps : List (Gap α)) (length : α) (n : ℕ) (g : Gap α) :
    rowUpTo gaps length n g = walk (adjoining? Gap.start Gap.stop gaps length) n g := by
  induction n generalizing g with
  | zero => rfl
  | succ n ih =>
      rw [rowUpTo, walk, adjoining?]
      cases gaps.find? fun h => h.stop == g.start && sameLength h.length length with
      | none => rfl
      | some h => exact congrArg (h :: ·) (ih h)

theorem rowFrom_eq_walk (gaps : List (Gap α)) (length : α) (n : ℕ) (g : Gap α) :
    rowFrom gaps length n g = walk (adjoining? Gap.stop Gap.start gaps length) n g := by
  induction n generalizing g with
  | zero => rfl
  | succ n ih =>
      rw [rowFrom, walk, adjoining?]
      cases gaps.find? fun h => h.start == g.stop && sameLength h.length length with
      | none => rfl
      | some h => exact congrArg (h :: ·) (ih h)

theorem mem_of_mem_rowUpTo {gaps : List (Gap α)} {length : α} {n : ℕ} {g h : Gap α}
    (hh : h ∈ rowUpTo gaps length n g) : h ∈ gaps := by
  rw [rowUpTo_eq_walk] at hh
  exact mem_of_mem_walk (fun _ _ => List.mem_of_find?_eq_some) hh

theorem mem_of_mem_rowFrom {gaps : List (Gap α)} {length : α} {n : ℕ} {g h : Gap α}
    (hh : h ∈ rowFrom gaps length n g) : h ∈ gaps := by
  rw [rowFrom_eq_walk] at hh
  exact mem_of_mem_walk (fun _ _ => List.mem_of_find?_eq_some) hh

end

variable {axis : Axis} {shapes : List (Candidate ℝ)} {s e : Candidate ℝ} {g h : Gap ℝ} {length : ℝ}

theorem sameLength_iff {a b : ℝ} : sameLength a b = true ↔ |a - b| ≤ Scalar.coordTolerance :=
  decide_eq_true_iff

/-- The gap from `s` to `e` is one of the gaps between candidates, and as long as `length`. -/
def Spaced (shapes : List (Candidate ℝ)) (axis : Axis) (length : ℝ) (s e : Candidate ℝ) : Prop :=
  Gap.spanning axis s e ∈ Gap.findAll axis shapes ∧
    |(Gap.spanning axis s e).length - length| ≤ Scalar.coordTolerance

theorem spaced_self (hg : Gap.spanning axis s e ∈ Gap.findAll axis shapes) :
    Spaced shapes axis (Gap.spanning axis s e).length s e := by
  refine ⟨hg, ?_⟩
  rw [sub_self, abs_zero]
  exact Scalar.coordTolerance_pos.le

theorem mem_gaps_iff : g ∈ Gap.findAll axis shapes ↔
    ∃ s ∈ shapes, ∃ e ∈ shapes, Gap.IsFree axis shapes s e ∧ g = Gap.spanning axis s e :=
  Gap.mem_findAll_iff fun c _ => c.bounds.isNumeric

section
variable {leave enter : Gap ℝ → ShapeId} {gaps : List (Gap ℝ)}

theorem of_adjoining?_eq_some (hsome : adjoining? leave enter gaps length g = some h) :
    h ∈ gaps ∧ enter h = leave g ∧ |h.length - length| ≤ Scalar.coordTolerance := by
  have hfits := List.find?_some hsome
  rw [Bool.and_eq_true, beq_iff_eq, sameLength_iff] at hfits
  exact ⟨List.mem_of_find?_eq_some hsome, hfits⟩

theorem not_close_of_adjoining? (hnone : adjoining? leave enter gaps length g = none) (hh : h ∈ gaps)
    (hmeet : enter h = leave g) : ¬ |h.length - length| ≤ Scalar.coordTolerance := by
  have hfits := List.find?_eq_none.1 hnone h hh
  rw [Bool.and_eq_true, beq_iff_eq, sameLength_iff] at hfits
  exact fun hclose => hfits ⟨hmeet, hclose⟩

end

/-- Past a gap candidates end further along the axis. -/
theorem far_lt_far (h : Gap.spanning axis s e ∈ Gap.findAll axis shapes) :
    axis.far s.bounds < axis.far e.bounds := by
  obtain ⟨r, -, t, -, hfree, heq⟩ := mem_gaps_iff.1 h
  have hs : s.bounds = r.bounds := congrArg Gap.startBounds heq
  have he : e.bounds = t.bounds := congrArg Gap.stopBounds heq
  rw [hs, he]
  exact (not_le.1 hfree.apart).trans_le (axis.near_le_far t.bounds.isNumeric)

section
variable (hids : (shapes.map (·.id)).Nodup)
include hids

theorem exists_of_ahead (hs : s ∈ shapes)
    (h : adjoining? Gap.start Gap.stop (Gap.findAll axis shapes) length (Gap.spanning axis s e) =
      some g) : ∃ r ∈ shapes, g = Gap.spanning axis r s ∧ Spaced shapes axis length r s := by
  obtain ⟨hg, hmeet, hclose⟩ := of_adjoining?_eq_some h
  obtain ⟨r, hr, t, ht, -, rfl⟩ := mem_gaps_iff.1 hg
  obtain rfl : t = s := List.inj_on_of_nodup_map hids ht hs hmeet
  exact ⟨r, hr, rfl, hg, hclose⟩

theorem exists_of_past (he : e ∈ shapes)
    (h : adjoining? Gap.stop Gap.start (Gap.findAll axis shapes) length (Gap.spanning axis s e) =
      some g) : ∃ t ∈ shapes, g = Gap.spanning axis e t ∧ Spaced shapes axis length e t := by
  obtain ⟨hg, hmeet, hclose⟩ := of_adjoining?_eq_some h
  obtain ⟨r, hr, t, ht, -, rfl⟩ := mem_gaps_iff.1 hg
  obtain rfl : r = e := List.inj_on_of_nodup_map hids hr he hmeet
  exact ⟨t, ht, rfl, hg, hclose⟩

/-- A walk ahead of a gap, where candidates end nearer and nearer, ends before its bound. -/
theorem length_walk_ahead_lt (length : ℝ) (hg : g ∈ Gap.findAll axis shapes) :
    (walk (adjoining? Gap.start Gap.stop (Gap.findAll axis shapes) length)
      (Gap.findAll axis shapes).length g).length < (Gap.findAll axis shapes).length := by
  refine length_walk_lt (fun g => axis.far g.startBounds) hg
    (fun _ _ h => (of_adjoining?_eq_some h).1) fun b hb c hc => ?_
  obtain ⟨s, hs, e, -, -, rfl⟩ := mem_gaps_iff.1 hb
  obtain ⟨r, -, rfl, hspaced⟩ := exists_of_ahead hids hs hc
  exact far_lt_far hspaced.1

/-- A walk past a gap, where candidates end further and further, ends before its bound. -/
theorem length_walk_past_lt (length : ℝ) (hg : g ∈ Gap.findAll axis shapes) :
    (walk (adjoining? Gap.stop Gap.start (Gap.findAll axis shapes) length)
      (Gap.findAll axis shapes).length g).length < (Gap.findAll axis shapes).length := by
  refine length_walk_lt (fun g => -axis.far g.stopBounds) hg
    (fun _ _ h => (of_adjoining?_eq_some h).1) fun b hb c hc => ?_
  obtain ⟨s, -, e, he, -, rfl⟩ := mem_gaps_iff.1 hb
  obtain ⟨t, -, rfl, hspaced⟩ := exists_of_past hids he hc
  exact neg_lt_neg (far_lt_far hspaced.1)

/-- **The bound never cuts a row short**: a larger one gives the same row. -/
theorem row_eq_of_le (length : ℝ) (hg : g ∈ Gap.findAll axis shapes) {n : ℕ}
    (hn : (Gap.findAll axis shapes).length ≤ n) :
    rowUpTo (Gap.findAll axis shapes) length n g =
        rowUpTo (Gap.findAll axis shapes) length (Gap.findAll axis shapes).length g ∧
      rowFrom (Gap.findAll axis shapes) length n g =
        rowFrom (Gap.findAll axis shapes) length (Gap.findAll axis shapes).length g := by
  simp only [rowUpTo_eq_walk, rowFrom_eq_walk]
  exact ⟨walk_eq_of_length_lt (length_walk_ahead_lt hids length hg) hn,
    walk_eq_of_length_lt (length_walk_past_lt hids length hg) hn⟩

end

/-! ## The spaces of a row -/

/-- The spaces between each of the boxes and the next. -/
def spaces {α : Type} [Scalar α] (axis : Axis) (boxes : List (Rect α)) : List (GapIndicator α) :=
  List.zipWith (GapIndicator.between axis) boxes boxes.tail

theorem spaces_append (axis : Axis) (boxes : List (Rect ℝ)) (a b : Rect ℝ) :
    spaces axis (boxes ++ [a, b]) = spaces axis (boxes ++ [a]) ++ [GapIndicator.between axis a b] := by
  induction boxes with
  | nil => rfl
  | cons c rest ih =>
      cases rest with
      | nil => rfl
      | cons d rest => exact congrArg (GapIndicator.between axis c d :: ·) ih

/-- The row of candidates that a walk ahead of the gap from `s` to `e` passes. -/
theorem exists_row_ahead (hids : (shapes.map (·.id)).Nodup) (length : ℝ) (n : ℕ)
    (hs : s ∈ shapes) (e : Candidate ℝ) :
    let gaps := walk (adjoining? Gap.start Gap.stop (Gap.findAll axis shapes) length) n
      (Gap.spanning axis s e)
    ∃ row : List (Candidate ℝ), (∀ c ∈ row, c ∈ shapes) ∧
      (row ++ [s]).IsChain (Spaced shapes axis length) ∧
      gaps.reverse.map (fun g => GapIndicator.between axis g.startBounds g.stopBounds) =
        spaces axis ((row ++ [s]).map (·.bounds)) ∧
      ∀ first ∈ (row ++ [s]).head?, (gaps.getLastD (Gap.spanning axis s e)).start = first.id := by
  intro gaps
  induction n generalizing s e with
  | zero => exact ⟨[], nofun, .singleton s, rfl, by rintro _ ⟨⟩; rfl⟩
  | succ n ih =>
      cases hnext : adjoining? Gap.start Gap.stop (Gap.findAll axis shapes) length
          (Gap.spanning axis s e) with
      | none =>
          have hgaps : gaps = [] := walk_succ_of_none hnext
          rw [hgaps]
          exact ⟨[], nofun, .singleton s, rfl, by rintro _ ⟨⟩; rfl⟩
      | some g =>
          obtain ⟨r, hr, rfl, hspaced⟩ := exists_of_ahead hids hs hnext
          obtain ⟨row, hrow, hchain, hlines, hfirst⟩ := ih hr s
          have hgaps : gaps = _ := walk_succ_of_some hnext
          rw [hgaps]
          -- The walk meets the nearest gap first, and the row has it last.
          refine ⟨row ++ [r], ?_, ?_, ?_, ?_⟩
          · intro c hc
            rcases List.mem_append.1 hc with hc | hc
            · exact hrow c hc
            · exact List.mem_singleton.1 hc ▸ hr
          · rw [List.append_assoc]
            exact List.isChain_append_cons_cons.2 ⟨hchain, hspaced, .singleton s⟩
          · rw [List.reverse_cons, List.map_append, hlines]
            simp only [List.map_append, List.map_cons, List.map_nil, List.append_assoc]
            exact (spaces_append _ _ _ _).symm
          · intro first hfirst'
            rw [List.getLastD_cons]
            refine hfirst first ?_
            rwa [List.head?_append_of_ne_nil _ (by simp)] at hfirst'

/-- The row of candidates that a walk past the gap from `s` to `e` passes. -/
theorem exists_row_past (hids : (shapes.map (·.id)).Nodup) (length : ℝ) (n : ℕ)
    (he : e ∈ shapes) (s : Candidate ℝ) :
    let gaps := walk (adjoining? Gap.stop Gap.start (Gap.findAll axis shapes) length) n
      (Gap.spanning axis s e)
    ∃ row : List (Candidate ℝ), (∀ c ∈ row, c ∈ shapes) ∧
      (e :: row).IsChain (Spaced shapes axis length) ∧
      gaps.map (fun g => GapIndicator.between axis g.startBounds g.stopBounds) =
        spaces axis ((e :: row).map (·.bounds)) ∧
      ∀ last ∈ (e :: row).getLast?, (gaps.getLastD (Gap.spanning axis s e)).stop = last.id := by
  intro gaps
  induction n generalizing s e with
  | zero => exact ⟨[], nofun, .singleton e, rfl, by rintro _ ⟨⟩; rfl⟩
  | succ n ih =>
      cases hnext : adjoining? Gap.stop Gap.start (Gap.findAll axis shapes) length
          (Gap.spanning axis s e) with
      | none =>
          have hgaps : gaps = [] := walk_succ_of_none hnext
          rw [hgaps]
          exact ⟨[], nofun, .singleton e, rfl, by rintro _ ⟨⟩; rfl⟩
      | some g =>
          obtain ⟨t, ht, rfl, hspaced⟩ := exists_of_past hids he hnext
          obtain ⟨row, hrow, hchain, hlines, hlast⟩ := ih ht e
          have hgaps : gaps = _ := walk_succ_of_some hnext
          rw [hgaps]
          refine ⟨t :: row, ?_, ?_, ?_, ?_⟩
          · exact List.forall_mem_cons.2 ⟨ht, hrow⟩
          · exact .cons_cons hspaced hchain
          · exact congrArg (GapIndicator.between axis e.bounds t.bounds :: ·) hlines
          · intro last hlast'
            rw [List.getLastD_cons]
            exact hlast last hlast'

/-! ## Along a row -/

theorem startAlong_between (axis : Axis) (r s : Rect ℝ) :
    (GapIndicator.between axis r s).startAlong axis = axis.far r := axis.coord_point _ _

theorem length_between (axis : Axis) (r s : Rect ℝ) :
    (GapIndicator.between axis r s).length axis = axis.near s - axis.far r := by
  simp only [GapIndicator.length, GapIndicator.between, Axis.coord_point]

/-- Each gap of a line begins at the far side of a box. -/
theorem startAlong_spaces (axis : Axis) (boxes : List (Rect ℝ)) :
    (spaces axis boxes).map (·.startAlong axis) = boxes.dropLast.map axis.far := by
  induction boxes with
  | nil => rfl
  | cons a rest ih =>
      cases rest with
      | nil => rfl
      | cons b rest =>
          show (GapIndicator.between axis a b).startAlong axis :: (spaces axis (b :: rest)).map _ = _
          rw [startAlong_between, ih]
          rfl

/-- Along a row candidates end further and further. -/
theorem pairwise_far {row : List (Candidate ℝ)} (h : row.IsChain (Spaced shapes axis length)) :
    (row.map fun c => axis.far c.bounds).Pairwise (· < ·) :=
  List.isChain_iff_pairwise.1
    (List.isChain_map_of_isChain _ (fun _ _ hspaced => far_lt_far hspaced.1) h)

theorem nodup_of_isChain {row : List (Candidate ℝ)} (h : row.IsChain (Spaced shapes axis length)) :
    row.Nodup :=
  .of_map _ ((pairwise_far h).imp ne_of_lt)

/-- In a row all gaps are as long as the first. -/
theorem abs_length_sub_of_mem_spaces {row : List (Candidate ℝ)}
    (h : row.IsChain (Spaced shapes axis length)) {i : GapIndicator ℝ}
    (hi : i ∈ spaces axis (row.map (·.bounds))) :
    |i.length axis - length| ≤ Scalar.coordTolerance := by
  induction row with
  | nil => cases hi
  | cons c rest ih =>
      cases rest with
      | nil => cases hi
      | cons d rest =>
          obtain ⟨hspaced, hrest⟩ := List.isChain_cons_cons.1 h
          rcases List.mem_cons.1 hi with rfl | hi
          · rw [length_between]
            exact hspaced.2
          · exact ih hrest hi

/-! ## Lines -/

/-- The boxes along a line of gaps: the candidates of a row, with the moved box in its place. -/
def GapPlace.seat {α : Type} (place : GapPlace) (moved : Rect α) (row : List (Candidate α)) :
    List (Rect α) :=
  match place with
  | .between => (row.take 1).map (·.bounds) ++ moved :: (row.drop 1).map (·.bounds)
  | .after => row.map (·.bounds) ++ [moved]
  | .before => moved :: row.map (·.bounds)

/-- Where the two candidates of the snapped gap stand in the row that a line shows. -/
def GapPlace.Bounds {α : Type} (place : GapPlace) (row : List (Candidate α)) (s e : Candidate α) :
    Prop :=
  match place with
  | .between => row = [s, e]
  | .after => [s, e] <:+ row
  | .before => [s, e] <+: row

/-- The row cannot go on past the end that is away from the moved box. -/
def GapPlace.Maximal (place : GapPlace) (gaps : List (Gap ℝ)) (length : ℝ)
    (row : List (Candidate ℝ)) : Prop :=
  match place with
  | .between => True
  | .after => ∀ first ∈ row.head?, ∀ h ∈ gaps, h.stop = first.id →
      ¬ |h.length - length| ≤ Scalar.coordTolerance
  | .before => ∀ last ∈ row.getLast?, ∀ h ∈ gaps, h.start = last.id →
      ¬ |h.length - length| ≤ Scalar.coordTolerance

/-- The gaps of a line are the spaces of a maximal row of equal spacing, with the moved box in the
    place next to the gap `g`. -/
structure IsRow (shapes : List (Candidate ℝ)) (axis : Axis) (moved : Rect ℝ) (g : Gap ℝ)
    (place : GapPlace) (row : List (Candidate ℝ)) (indicators : List (GapIndicator ℝ)) : Prop where
  mem : ∀ c ∈ row, c ∈ shapes
  nodup : row.Nodup
  bounds : ∃ s e, g = Gap.spanning axis s e ∧ place.Bounds row s e
  shown : indicators = spaces axis (place.seat moved row)
  increasing : 2 * Scalar.coordTolerance < g.length →
    (indicators.map (·.startAlong axis)).Pairwise (· < ·)
  equal : ∀ i ∈ indicators, ∀ j ∈ indicators,
    |i.length axis - j.length axis| ≤ 2 * Scalar.coordTolerance
  close : place ≠ .between → ∀ i ∈ indicators, |i.length axis - g.length| ≤ Scalar.coordTolerance
  maximal : place.Maximal (Gap.findAll axis shapes) g.length row

/-- The walk ahead of a gap finds a maximal row that ends with it. -/
theorem exists_maximal_row_ahead (hids : (shapes.map (·.id)).Nodup)
    (hg : Gap.spanning axis s e ∈ Gap.findAll axis shapes) (hs : s ∈ shapes) (he : e ∈ shapes) :
    let g := Gap.spanning axis s e
    let gaps := Gap.findAll axis shapes
    ∃ row : List (Candidate ℝ), (∀ c ∈ row, c ∈ shapes) ∧ [s, e] <:+ row ∧
      row.IsChain (Spaced shapes axis g.length) ∧ GapPlace.after.Maximal gaps g.length row ∧
      (rowUpTo gaps g.length gaps.length g).reverse.map
          (fun h => GapIndicator.between axis h.startBounds h.stopBounds) ++
        [GapIndicator.between axis g.startBounds g.stopBounds] = spaces axis (row.map (·.bounds)) := by
  intro g gaps
  obtain ⟨row, hrow, hchain, hlines, hfirst⟩ := exists_row_ahead hids g.length gaps.length hs e
  refine ⟨row ++ [s, e], ?_, ⟨row, rfl⟩,
    List.isChain_append_cons_cons.2 ⟨hchain, spaced_self hg, .singleton e⟩, ?_, ?_⟩
  · intro c hc
    rcases List.mem_append.1 hc with hc | hc
    · exact hrow c hc
    · rcases List.mem_pair.1 hc with rfl | rfl
      · exact hs
      · exact he
  · intro first hhead h hh hstop
    refine not_close_of_adjoining? (next?_getLast_of_length_lt
      (length_walk_ahead_lt hids g.length hg)) hh (hstop.trans (hfirst first ?_).symm)
    rwa [List.append_cons, List.head?_append_of_ne_nil _ (by simp)] at hhead
  · rw [rowUpTo_eq_walk, hlines]
    simp only [List.map_append, List.map_cons, List.map_nil, spaces_append]
    rfl

/-- The walk past a gap finds a maximal row that begins with it. -/
theorem exists_maximal_row_past (hids : (shapes.map (·.id)).Nodup)
    (hg : Gap.spanning axis s e ∈ Gap.findAll axis shapes) (hs : s ∈ shapes) (he : e ∈ shapes) :
    let g := Gap.spanning axis s e
    let gaps := Gap.findAll axis shapes
    ∃ row : List (Candidate ℝ), (∀ c ∈ row, c ∈ shapes) ∧ [s, e] <+: row ∧
      row.IsChain (Spaced shapes axis g.length) ∧ GapPlace.before.Maximal gaps g.length row ∧
      GapIndicator.between axis g.startBounds g.stopBounds ::
        (rowFrom gaps g.length gaps.length g).map
          (fun h => GapIndicator.between axis h.startBounds h.stopBounds) =
        spaces axis (row.map (·.bounds)) := by
  intro g gaps
  obtain ⟨row, hrow, hchain, hlines, hlast⟩ := exists_row_past hids g.length gaps.length he s
  refine ⟨s :: e :: row, List.forall_mem_cons.2 ⟨hs, List.forall_mem_cons.2 ⟨he, hrow⟩⟩, ⟨row, rfl⟩,
    .cons_cons (spaced_self hg) hchain, ?_, ?_⟩
  · intro last hend h hh hstart
    refine not_close_of_adjoining? (next?_getLast_of_length_lt
      (length_walk_past_lt hids g.length hg)) hh (hstart.trans (hlast last ?_).symm)
    rwa [List.getLast?_cons_cons] at hend
  · rw [rowFrom_eq_walk, hlines]
    rfl

section
variable {moving : Rect ℝ} {v : Vec ℝ}

theorem abs_sub_le_of_close {a b length : ℝ} (ha : |a - length| ≤ Scalar.coordTolerance)
    (hb : |b - length| ≤ Scalar.coordTolerance) : |a - b| ≤ 2 * Scalar.coordTolerance :=
  calc |a - b| ≤ |a - length| + |length - b| := abs_sub_le _ _ _
    _ ≤ 2 * Scalar.coordTolerance := by
      rw [abs_sub_comm length b, two_mul]
      exact add_le_add ha hb

/-- Centered between two candidates the moved box makes a row of the three. -/
theorem isRow_between (hg : Gap.spanning axis s e ∈ Gap.findAll axis shapes) (hs : s ∈ shapes)
    (he : e ∈ shapes) (hnear : |GapPlace.between.offset moving axis (Gap.spanning axis s e) -
      axis.component v| ≤ Scalar.coordTolerance) :
    IsRow shapes axis (moving + v) (Gap.spanning axis s e) .between [s, e]
      [GapIndicator.between axis s.bounds (moving + v),
        GapIndicator.between axis (moving + v) e.bounds] := by
  have hlt := far_lt_far hg
  have hsize := axis.near_le_far moving.isNumeric
  have hhalf : (2.0 : ℝ) = 2 := by norm_num
  have hoffset : |axis.far s.bounds + (axis.near e.bounds - axis.far s.bounds -
      (axis.far moving - axis.near moving)) / 2 - axis.near moving - axis.component v| ≤
      Scalar.coordTolerance := hhalf ▸ hnear
  obtain ⟨hlow, hhigh⟩ := abs_le.1 hoffset
  have hne : s ≠ e := fun h => hlt.ne (h ▸ rfl)
  refine ⟨by simp [hs, he], by simpa using hne, ⟨s, e, rfl, rfl⟩, rfl, fun hlong => ?_, ?_,
    fun h => absurd rfl h, trivial⟩
  · have hlong : 2 * Scalar.coordTolerance < axis.near e.bounds - axis.far s.bounds := hlong
    simp only [List.map_cons, List.map_nil, startAlong_between, List.pairwise_pair, axis.far_add]
    linarith
  · have hends : |(axis.near (moving + v) - axis.far s.bounds) - (axis.near e.bounds -
        axis.far (moving + v))| ≤ 2 * Scalar.coordTolerance := by
      rw [axis.near_add, axis.far_add, abs_le]
      constructor <;> linarith
    have hsame : ∀ a : ℝ, |a - a| ≤ 2 * Scalar.coordTolerance := fun a => by
      rw [sub_self, abs_zero]
      exact mul_nonneg two_pos.le Scalar.coordTolerance_pos.le
    intro i hi j hj
    rcases List.mem_pair.1 hi with rfl | rfl <;> rcases List.mem_pair.1 hj with rfl | rfl
    · exact hsame _
    · rwa [length_between, length_between]
    · rwa [length_between, length_between, abs_sub_comm]
    · exact hsame _

variable {row : List (Candidate ℝ)}

/-- Past a gap the moved box ends a row of equal gaps that leads up to it. -/
theorem isRow_after (hrow : ∀ c ∈ row, c ∈ shapes) (hends : [s, e] <:+ row)
    (hchain : row.IsChain (Spaced shapes axis (Gap.spanning axis s e).length))
    (hmaximal : GapPlace.after.Maximal (Gap.findAll axis shapes) (Gap.spanning axis s e).length row)
    (hnear : |GapPlace.after.offset moving axis (Gap.spanning axis s e) - axis.component v| ≤
      Scalar.coordTolerance) :
    IsRow shapes axis (moving + v) (Gap.spanning axis s e) .after row
      (spaces axis (row.map (·.bounds)) ++ [GapIndicator.between axis e.bounds (moving + v)]) := by
  generalize hg : Gap.spanning axis s e = g at *
  have hlast : |axis.near (moving + v) - axis.far e.bounds - g.length| ≤ Scalar.coordTolerance := by
    have hoffset : |axis.far e.bounds + g.length - axis.near moving - axis.component v| ≤
      Scalar.coordTolerance := by rwa [← hg] at hnear ⊢
    obtain ⟨hlow, hhigh⟩ := abs_le.1 hoffset
    rw [axis.near_add, abs_le]
    constructor <;> linarith
  have hclose : ∀ i ∈ spaces axis (row.map (·.bounds)) ++
      [GapIndicator.between axis e.bounds (moving + v)],
      |i.length axis - g.length| ≤ Scalar.coordTolerance := by
    intro i hi
    rcases List.mem_append.1 hi with hi | hi
    · exact abs_length_sub_of_mem_spaces hchain hi
    · rw [List.mem_singleton.1 hi, length_between]
      exact hlast
  have hshown : spaces axis (row.map (·.bounds)) ++ [GapIndicator.between axis e.bounds (moving + v)] =
      spaces axis (GapPlace.after.seat (moving + v) row) := by
    obtain ⟨rest, rfl⟩ := hends
    have happend := spaces_append axis ((rest ++ [s]).map (·.bounds)) e.bounds (moving + v)
    simpa only [GapPlace.seat, List.map_append, List.map_cons, List.map_nil, List.append_assoc,
      List.cons_append, List.nil_append] using happend.symm
  refine ⟨hrow, nodup_of_isChain hchain, ⟨s, e, hg.symm, hends⟩, hshown, fun _ => ?_,
    fun i hi j hj => abs_sub_le_of_close (hclose i hi) (hclose j hj), fun _ => hclose, hmaximal⟩
  rw [hshown, startAlong_spaces, GapPlace.seat, List.dropLast_concat, List.map_map]
  exact pairwise_far hchain

/-- Ahead of a gap the moved box begins a row of equal gaps that goes on from it. -/
theorem isRow_before (hrow : ∀ c ∈ row, c ∈ shapes) (hends : [s, e] <+: row)
    (hchain : row.IsChain (Spaced shapes axis (Gap.spanning axis s e).length))
    (hmaximal : GapPlace.before.Maximal (Gap.findAll axis shapes) (Gap.spanning axis s e).length row)
    (hnear : |GapPlace.before.offset moving axis (Gap.spanning axis s e) - axis.component v| ≤
      Scalar.coordTolerance) :
    IsRow shapes axis (moving + v) (Gap.spanning axis s e) .before row
      (GapIndicator.between axis (moving + v) s.bounds :: spaces axis (row.map (·.bounds))) := by
  generalize hg : Gap.spanning axis s e = g at *
  have hoffset : |axis.near s.bounds - g.length - axis.far moving - axis.component v| ≤
    Scalar.coordTolerance := by rwa [← hg] at hnear ⊢
  obtain ⟨hlow, hhigh⟩ := abs_le.1 hoffset
  have hfirst : |axis.near s.bounds - axis.far (moving + v) - g.length| ≤ Scalar.coordTolerance := by
    rw [axis.far_add, abs_le]
    constructor <;> linarith
  have hclose : ∀ i ∈ GapIndicator.between axis (moving + v) s.bounds ::
      spaces axis (row.map (·.bounds)), |i.length axis - g.length| ≤ Scalar.coordTolerance := by
    intro i hi
    rcases List.mem_cons.1 hi with rfl | hi
    · rw [length_between]
      exact hfirst
    · exact abs_length_sub_of_mem_spaces hchain hi
  have hshown : GapIndicator.between axis (moving + v) s.bounds :: spaces axis (row.map (·.bounds)) =
      spaces axis (GapPlace.before.seat (moving + v) row) := by
    obtain ⟨rest, rfl⟩ := hends
    rfl
  refine ⟨hrow, nodup_of_isChain hchain, ⟨s, e, hg.symm, hends⟩, hshown, fun hlong => ?_,
    fun i hi j hj => abs_sub_le_of_close (hclose i hi) (hclose j hj), fun _ => hclose, hmaximal⟩
  have hmoved : axis.far (moving + v) < axis.far s.bounds := by
    have hside := axis.near_le_far s.bounds.isNumeric
    have htol := Scalar.coordTolerance_pos
    rw [axis.far_add]
    linarith
  have hfar := pairwise_far hchain
  -- The moved box ends before the first candidate does, though its end is only known within the
  -- tolerance.
  have hall : ((GapPlace.before.seat (moving + v) row).map axis.far).Pairwise (· < ·) := by
    obtain ⟨rest, rfl⟩ := hends
    rw [GapPlace.seat, List.map_cons, List.map_map]
    refine List.pairwise_cons.2 ⟨fun x hx => ?_, hfar⟩
    rcases List.mem_cons.1 hx with rfl | hx
    · exact hmoved
    · exact hmoved.trans ((List.pairwise_cons.1 hfar).1 x hx)
  rw [hshown, startAlong_spaces]
  exact hall.sublist ((List.dropLast_sublist _).map _)

end

/-- **A line of gaps shows a maximal row of equal spacing** with the moved box in one place of it, and
    the walks that find the row are never cut short. -/
theorem exists_row_of_gaps_mem {shapes : List (Candidate ℝ)} (hids : (shapes.map (·.id)).Nodup)
    (enabled : Bool) (moving : Rect ℝ) (threshold : ℝ) (axes : Axes) :
    let cs := Candidates.ofShapes shapes
    let outcome := box enabled moving cs threshold axes
    (∀ axis, ∀ g ∈ cs.gaps axis, ∀ (length : ℝ) (n : ℕ), (cs.gaps axis).length ≤ n →
      rowUpTo (cs.gaps axis) length n g = rowUpTo (cs.gaps axis) length (cs.gaps axis).length g ∧
        rowFrom (cs.gaps axis) length n g =
          rowFrom (cs.gaps axis) length (cs.gaps axis).length g) ∧
      ∀ (axis : Axis) (indicators : List (GapIndicator ℝ)),
        .gaps axis.direction indicators ∈ outcome.lines →
        ∃ o ∈ gapOffsets moving (cs.gaps axis) axis,
          |o.offset - axis.component outcome.nudge| ≤ Scalar.coordTolerance ∧
          ∃ row, IsRow shapes axis (moving + outcome.nudge) o.gap o.place row indicators := by
  intro cs outcome
  refine ⟨fun axis g hg length n hn => ?_, fun axis indicators hline => ?_⟩
  · simp only [cs, Candidates.gaps_ofShapes] at hg hn ⊢
    exact row_eq_of_le hids length hg hn
  · obtain ⟨d, ⟨g, place, offset⟩, ho, hchosen, hnear, hshown⟩ := gaps_mem_lines_iff.1 hline
    obtain ⟨-, rfl⟩ := SnapLine.gaps.inj hshown
    obtain ⟨hg, -, -, hoffset⟩ := mem_gapOffsets_iff.1 ho
    have hplace : |place.offset moving axis g - axis.component outcome.nudge| ≤
        Scalar.coordTolerance := by
      rcases box_cases enabled moving cs threshold axes axis with ⟨-, hnone, -⟩ | ⟨d', hd, hsome, -, -⟩
      · exact absurd (hchosen.symm.trans hnone) nofun
      · obtain rfl : d = d' := Option.some.inj (hchosen.symm.trans hsome)
        rw [Scalar.eq_of_beq hd, ← hoffset]
        exact of_decide_eq_true hnear
    refine ⟨_, ho, hoffset ▸ hplace, ?_⟩
    simp only [cs, Candidates.gaps_ofShapes] at hg ⊢
    obtain ⟨s, hs, e, he, -, rfl⟩ := mem_gaps_iff.1 hg
    cases place with
    | between => exact ⟨_, isRow_between hg hs he hplace⟩
    | after =>
        obtain ⟨row, hrow, hends, hchain, hmaximal, hlines⟩ := exists_maximal_row_ahead hids hg hs he
        have h := isRow_after hrow hends hchain hmaximal hplace
        rw [← hlines, List.append_assoc] at h
        exact ⟨row, h⟩
    | before =>
        obtain ⟨row, hrow, hends, hchain, hmaximal, hlines⟩ := exists_maximal_row_past hids hg hs he
        have h := isRow_before hrow hends hchain hmaximal hplace
        rw [← hlines] at h
        exact ⟨row, h⟩

/-- Two boxes in a row and a third one that repeats the gap between them, three too low: the gaps are
    shown. -/
theorem exists_gaps_line :
    let first : Candidate ℝ := .ofBounds 1 ⟨0, 0, 50, 50⟩
    let second : Candidate ℝ := .ofBounds 2 ⟨100, 0, 150, 50⟩
    ∃ indicators, .gaps Axis.x.direction indicators ∈
      (box true ⟨200, 3, 250, 53⟩ (.ofShapes [first, second]) 8 .both).lines := by
  intro first second
  let moving : Rect ℝ := ⟨200, 3, 250, 53⟩
  let g := Gap.spanning .x first second
  have hfree : Gap.IsFree .x [first, second] first second := by
    refine ⟨?_, ?_, fun c hc hfirst hsecond => ?_⟩
    · norm_num [first, second, Candidate.ofBounds, Axis.near, Axis.far, Rect.minX, Rect.maxX,
        Scalar.min_eq, Scalar.max_eq]
    · norm_num [first, second, Candidate.ofBounds, Gap.spanning, Axis.cross, Axis.near, Axis.far,
        Rect.minY, Rect.maxY, Scalar.min_eq, Scalar.max_eq]
    · rcases List.mem_pair.1 hc with rfl | rfl
      · exact absurd rfl hfirst
      · exact absurd rfl hsecond
  have hg : g ∈ Gap.findAll .x [first, second] :=
    mem_gaps_iff.2 ⟨first, by simp, second, by simp, hfree, rfl⟩
  have hoffset : GapPlace.after.offset moving .x g = 0 := by
    norm_num [moving, g, first, second, Candidate.ofBounds, GapPlace.offset, Gap.spanning, Axis.near,
      Axis.far, Rect.minX, Rect.maxX, Scalar.min_eq, Scalar.max_eq]
  have hfaces : Faces moving .x g := by
    norm_num [moving, g, first, second, Candidate.ofBounds, Faces, Gap.spanning, Axis.cross, Axis.near,
      Axis.far, Rect.minY, Rect.maxY, Scalar.min_eq, Scalar.max_eq]
  have hzero : Offset moving (.ofShapes [first, second]) .x 0 :=
    hoffset ▸ .gap .after hg hfaces trivial
  have hwithin : Scalar.abs (0 : ℝ) < 8 := by norm_num [Scalar.abs]
  rcases box_cases true moving (.ofShapes [first, second]) 8 .both .x with
    ⟨-, -, hnone⟩ | ⟨d, -, hchosen, -, hnearest⟩
  · exact absurd hwithin (hnone 0 rfl hzero)
  · obtain rfl : d = 0 := abs_nonpos_iff.1 ((hnearest.least 0 hzero hwithin).trans_eq abs_zero)
    refine ⟨_, gaps_mem_lines_iff.2 ⟨0, ⟨g, .after, 0⟩,
      mem_gapOffsets_iff.2 ⟨hg, hfaces, trivial, hoffset.symm⟩, hchosen, ?_, rfl⟩⟩
    exact decide_eq_true (by norm_num [Scalar.abs, Scalar.coordTolerance_pos.le])

/-- Two boxes in a row and a third one that repeats the gap between them. -/
theorem exists_row_of_two_boxes :
    let first : Candidate ℝ := .ofBounds 1 ⟨0, 0, 50, 50⟩
    let second : Candidate ℝ := .ofBounds 2 ⟨100, 0, 150, 50⟩
    let moving : Rect ℝ := ⟨200, 3, 250, 53⟩
    let cs := Candidates.ofShapes [first, second]
    let outcome := box true moving cs 8 .both
    ([first, second].map (·.id)).Nodup ∧
      ∃ indicators, .gaps Axis.x.direction indicators ∈ outcome.lines ∧
        ∃ o ∈ gapOffsets moving (cs.gaps .x) .x,
          ∃ row, IsRow [first, second] .x (moving + outcome.nudge) o.gap o.place row indicators := by
  intro first second moving cs outcome
  have hids : ([first, second].map (·.id)).Nodup := by decide
  obtain ⟨indicators, hline⟩ := exists_gaps_line
  obtain ⟨-, hrows⟩ := exists_row_of_gaps_mem hids true moving 8 .both
  obtain ⟨o, ho, -, hrow⟩ := hrows .x indicators hline
  exact ⟨hids, indicators, hline, o, ho, hrow⟩

end Snap

end CanvasTransform
