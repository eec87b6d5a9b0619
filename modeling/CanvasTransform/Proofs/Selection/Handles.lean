import Mathlib.Data.Real.Basic
import CanvasTransform.Proofs.Transform.Drag
import CanvasTransform.Selection.HitTest

set_option autoImplicit false

/-! # What is grabbed where

Handles are laid out on the page, and edges are looked for in the selection frame. Seen from the
frame both are one search (`OrientedBox.handleAt?_eq`): each handle has a region, a disc or a strip
along an edge, and the first handle whose region holds the point is the answer. A turn keeps
distances, so the answer depends on the box and on the point in its frame only.

Regions meet, and the order of the search decides there. At its own place every handle wins
(`OrientedBox.handleAt?_toPage_place`), because no region of a handle before it reaches that far: a
region is narrow along the axes that its handle moves (`Handle.abs_sub_le_of_mem_region`), and along
one of them two places on the box differ by at least half of a side (`Handle.exists_half_le_unit`).
-/

namespace CanvasTransform

/-! ## Distances -/

namespace Point

theorem distance_eq (p q : Point ℝ) : p.distance q = Real.sqrt ((p - q).normSq) := rfl

theorem distance_le_iff {p q : Point ℝ} {t : ℝ} (ht : 0 ≤ t) :
    p.distance q ≤ t ↔ (p - q).normSq ≤ t * t := by
  rw [distance_eq, Real.sqrt_le_iff, sq, and_iff_right ht]

theorem normSq_sub_eq (axis : Axis) (p q : Point ℝ) : (p - q).normSq =
    (axis.coord p - axis.coord q) ^ 2 + (axis.cross.coord p - axis.cross.coord q) ^ 2 := by
  rw [Vec.normSq_eq]
  cases axis <;> simp only [Axis.coord, Axis.cross, sub_x, sub_y] <;> ring

theorem abs_sub_le_distance (axis : Axis) (p q : Point ℝ) :
    |axis.coord p - axis.coord q| ≤ p.distance q := by
  refine Real.abs_le_sqrt ?_
  show _ ≤ (p - q).normSq
  rw [normSq_sub_eq axis]
  exact le_add_of_nonneg_right (sq_nonneg _)

/-- The distance between two points that lie straight across from each other. -/
theorem distance_of_cross_eq {axis : Axis} {p q : Point ℝ}
    (h : axis.cross.coord q = axis.cross.coord p) :
    p.distance q = |axis.coord p - axis.coord q| := by
  rw [distance_eq, normSq_sub_eq axis, h, sub_self, sq (0 : ℝ), zero_mul, add_zero,
    Real.sqrt_sq_eq_abs]

end Point

/-! ## Strips along edges -/

namespace Edge

/-- The coordinate that the points of the edge share. -/
def side (e : Edge) (r : Rect ℝ) : ℝ :=
  match e with
  | top => r.y0
  | right => r.x1
  | bottom => r.y1
  | left => r.x0

/-- The coordinates of the points of the edge along it, drawn out by `t` at both ends. -/
def reach (e : Edge) (r : Rect ℝ) (t : ℝ) : Set ℝ :=
  match e with
  | top | bottom => Set.Icc (r.x0 - t) (r.x1 + t)
  | left | right => Set.Icc (r.y0 - t) (r.y1 + t)

/-- The points no farther than `t` from a point straight across on the edge, drawn out by `t` at
    both ends. -/
def strip (e : Edge) (r : Rect ℝ) (t : ℝ) : Set (Point ℝ) :=
  {p | ∃ q, e.axis.coord q = e.side r ∧ e.axis.cross.coord q ∈ e.reach r t ∧
    e.axis.cross.coord q = e.axis.cross.coord p ∧ p.distance q ≤ t}

theorem mem_strip_iff {e : Edge} {r : Rect ℝ} {t : ℝ} {p : Point ℝ} : p ∈ e.strip r t ↔
    e.axis.cross.coord p ∈ e.reach r t ∧ |e.axis.coord p - e.side r| ≤ t := by
  constructor
  · rintro ⟨q, hside, hreach, hcross, hdistance⟩
    rw [Point.distance_of_cross_eq hcross, hside] at hdistance
    exact ⟨hcross ▸ hreach, hdistance⟩
  · rintro ⟨hreach, hacross⟩
    have hcoord := e.axis.coord_point (e.side r) (e.axis.cross.coord p)
    have hcross := e.axis.cross_coord_point (e.side r) (e.axis.cross.coord p)
    refine ⟨_, hcoord, by rwa [hcross], hcross, ?_⟩
    rwa [Point.distance_of_cross_eq hcross, hcoord]

/-- The edges in the order in which they are looked for. -/
def searchOrder : List Edge := [top, bottom, left, right]

theorem mem_searchOrder (e : Edge) : e ∈ searchOrder := by
  cases e <;> simp [searchOrder]

end Edge

open Classical in
/-- The search for an edge finds the first one whose strip holds the point. -/
theorem OrientedBox.edgeAt?_eq (r : Rect ℝ) (p : Point ℝ) (t : ℝ) :
    edgeAt? r p t = Edge.searchOrder.find? fun e => decide (p ∈ e.strip r t) := by
  have hnear : ∀ a b : ℝ, Scalar.near a b t = decide (|a - b| ≤ t) := fun _ _ => rfl
  simp only [Edge.searchOrder, List.find?_cons, List.find?_nil, Edge.mem_strip_iff, Edge.axis,
    Edge.reach, Edge.side, Axis.cross, Axis.coord, Set.mem_Icc, Bool.decide_and]
  unfold edgeAt?
  simp only [hnear]
  split_ifs with htop hbottom hleft hright
  · rw [htop]
  · rw [Bool.eq_false_iff.2 htop, hbottom]
  · rw [Bool.eq_false_iff.2 htop, Bool.eq_false_iff.2 hbottom, hleft]
  · rw [Bool.eq_false_iff.2 htop, Bool.eq_false_iff.2 hbottom, Bool.eq_false_iff.2 hleft, hright]
  · rw [Bool.eq_false_iff.2 htop, Bool.eq_false_iff.2 hbottom, Bool.eq_false_iff.2 hleft,
      Bool.eq_false_iff.2 hright]

/-! ## Places and regions of the handles -/

namespace Handle

/-- The place of a handle in the selection frame. The rotate handle stands `offset` above the middle
    of the top edge. -/
noncomputable def place (h : Handle) (r : Rect ℝ) (offset : ℝ) : Point ℝ :=
  match h with
  | rotate => ⟨(rotate.positionOn r).x, (rotate.positionOn r).y - offset⟩
  | h => h.positionOn r

/-- The points of the selection frame at which a handle can be grabbed: a disc around its place, or
    the strip along its edge. -/
def region (h : Handle) (r : Rect ℝ) (t offset : ℝ) : Set (Point ℝ) :=
  match h with
  | edge e => e.strip r t
  | h => {p | p.distance (h.place r offset) ≤ t}

/-- The handles in the order in which they are looked for. -/
def searchOrder : List Handle := corners ++ [rotate] ++ Edge.searchOrder.map edge

theorem mem_searchOrder (h : Handle) : h ∈ searchOrder := by
  rcases h with c | e | _
  · cases c <;> simp [searchOrder, corners]
  · simp [searchOrder, e.mem_searchOrder]
  · simp [searchOrder]

/-- Edges are looked for last. -/
theorem pairwise_searchOrder :
    searchOrder.Pairwise fun k h => k ≠ h ∧ (k.isEdge = true → h.isEdge = true) := by
  decide

/-- Whether dragging the handle changes what the box measures along the axis. -/
def moves (h : Handle) : Axis → Bool
  | .x => h.movesX
  | .y => h.movesY

variable {h k : Handle} {r : Rect ℝ} {t offset : ℝ}

theorem region_of_not_isEdge (hedge : h.isEdge = false) :
    h.region r t offset = {p | p.distance (h.place r offset) ≤ t} := by
  cases h with
  | edge e => exact absurd hedge nofun
  | corner c => rfl
  | rotate => rfl

theorem place_of_ne_rotate (h : Handle) (hresize : h ≠ rotate) (r : Rect ℝ) (offset : ℝ) :
    h.place r offset = h.positionOn r := by
  cases h with
  | rotate => exact absurd rfl hresize
  | corner c => rfl
  | edge e => rfl

theorem coord_positionOn (axis : Axis) (h : Handle) (r : Rect ℝ) :
    axis.coord (h.positionOn r) = axis.coord r.origin +
      axis.component (h.unit : Vec ℝ) * axis.component (⟨r.width, r.height⟩ : Vec ℝ) := by
  cases axis <;> rfl

theorem side_eq (e : Edge) (r : Rect ℝ) : e.side r = e.axis.coord ((edge e).positionOn r) := by
  rw [coord_positionOn]
  cases e <;> simp [Edge.side, Edge.axis, Axis.coord, Axis.component, Rect.origin, unit, Rect.width,
    Rect.height]

/-- A region is narrow along the axes that its handle moves. -/
theorem abs_sub_le_of_mem_region {p : Point ℝ} {axis : Axis} (hresize : k ≠ rotate)
    (hp : p ∈ k.region r t offset) (hmoves : k.moves axis = true) :
    |axis.coord p - axis.coord (k.positionOn r)| ≤ t := by
  rcases k with c | e | _
  · exact (Point.abs_sub_le_distance axis p _).trans hp
  · have haxis : axis = e.axis := by
      cases e <;> cases axis <;> first | rfl | exact absurd hmoves (by decide)
    rw [haxis, ← side_eq]
    exact (Edge.mem_strip_iff.1 hp).2
  · exact absurd rfl hresize

theorem half_le_unit_corner {c : Corner} (hne : h ≠ corner c) :
    (1 / 2 ≤ |(h.unit : Vec ℝ).x - ((corner c).unit : Vec ℝ).x|) ∨
      h ≠ rotate ∧ 1 / 2 ≤ |(h.unit : Vec ℝ).y - ((corner c).unit : Vec ℝ).y| := by
  rcases h with c' | e | _
  · refine Or.imp_right (fun hy => ⟨by simp, hy⟩) ?_
    cases c <;> cases c' <;> first | exact absurd rfl hne | norm_num [unit]
  · refine Or.imp_right (fun hy => ⟨by simp, hy⟩) ?_
    cases c <;> cases e <;> norm_num [unit]
  · left
    cases c <;> norm_num [unit]

theorem half_le_unit_edge {e e' : Edge} (hne : e' ≠ e) : 1 / 2 ≤
    |e.axis.component ((edge e').unit : Vec ℝ) - e.axis.component ((edge e).unit : Vec ℝ)| := by
  cases e <;> cases e' <;> first | exact absurd rfl hne | norm_num [Axis.component, Edge.axis, unit]

/-- On an axis that a corner moves every other handle is at least half of a side away, and on the
    axis that an edge moves every other edge is. -/
theorem exists_half_le_unit (hne : h ≠ k) (hresize : k ≠ rotate)
    (hedge : k.isEdge = true → h.isEdge = true) :
    ∃ axis, k.moves axis = true ∧ (h = rotate → axis = .x) ∧
      1 / 2 ≤ |axis.component (h.unit : Vec ℝ) - axis.component (k.unit : Vec ℝ)| := by
  rcases k with c | e | _
  · rcases half_le_unit_corner hne with hx | ⟨hrotate, hy⟩
    · exact ⟨.x, rfl, fun _ => rfl, hx⟩
    · exact ⟨.y, rfl, fun h => absurd h hrotate, hy⟩
  · rcases h with c | e' | _
    · exact absurd (hedge rfl) nofun
    · have hne' : e' ≠ e := fun h => hne (congrArg edge h)
      exact ⟨e.axis, by cases e <;> rfl, nofun, half_le_unit_edge hne'⟩
    · exact absurd (hedge rfl) nofun
  · exact absurd rfl hresize

theorem place_mem_region (ht : 0 ≤ t) (hwidth : 0 ≤ r.width) (hheight : 0 ≤ r.height) :
    h.place r offset ∈ h.region r t offset := by
  have hdisc : (h.place r offset).distance (h.place r offset) ≤ t := by
    rw [@Point.distance_of_cross_eq .x _ _ rfl, sub_self, abs_zero]
    exact ht
  rcases h with c | e | _
  · exact hdisc
  · refine Edge.mem_strip_iff.2 ⟨?_, ?_⟩
    · unfold Rect.width at hwidth
      unfold Rect.height at hheight
      cases e <;> simp only [place, positionOn, Rect.position, unit, Edge.axis, Axis.cross,
        Axis.coord, Edge.reach, Rect.width, Rect.height] <;> constructor <;> linarith
    · rw [side_eq, place_of_ne_rotate (edge e) (by simp), sub_self, abs_zero]
      exact ht
  · exact hdisc

/-- The place of a handle is outside of the regions before its own. -/
theorem place_notMem_region (ht : 0 ≤ t) (hwidth : 2 * t < r.width) (hheight : 2 * t < r.height)
    (hoffset : t < offset) (hne : h ≠ k) (hedge : k.isEdge = true → h.isEdge = true) :
    h.place r offset ∉ k.region r t offset := by
  intro hmem
  by_cases hrotate : k = rotate
  · -- all handles of the box are on it, and the rotate handle is above it
    subst hrotate
    have hy := (Point.abs_sub_le_distance .y _ _).trans hmem
    rw [place_of_ne_rotate h hne, coord_positionOn] at hy
    have hunit : (0 : ℝ) ≤ (h.unit : Vec ℝ).y := by
      rcases h with c | e | _
      · cases c <;> norm_num [unit]
      · cases e <;> norm_num [unit]
      · exact absurd rfl hne
    have hbelow : 0 ≤ (h.unit : Vec ℝ).y * r.height := mul_nonneg hunit (by linarith)
    have hplace : Axis.y.coord (rotate.place r offset) = r.y0 - offset := by
      simp [place, positionOn, Rect.position, unit, Axis.coord]
    rw [hplace] at hy
    have hle := (abs_le.1 hy).2
    simp only [Axis.coord, Axis.component, Rect.origin] at hle
    linarith
  · obtain ⟨axis, hmoves, hx, hhalf⟩ := exists_half_le_unit hne hrotate hedge
    have hnear := abs_sub_le_of_mem_region hrotate hmem hmoves
    have hplace : axis.coord (h.place r offset) = axis.coord (h.positionOn r) := by
      by_cases hh : h = rotate
      · rw [hx hh, hh]
        rfl
      · rw [place_of_ne_rotate h hh]
    have hextent : 2 * t < axis.component (⟨r.width, r.height⟩ : Vec ℝ) := by
      cases axis
      · exact hwidth
      · exact hheight
    rw [hplace, coord_positionOn, coord_positionOn, add_sub_add_left_eq_sub, ← sub_mul, abs_mul,
      abs_of_pos (by linarith : 0 < axis.component (⟨r.width, r.height⟩ : Vec ℝ))] at hnear
    have hle := mul_le_mul_of_nonneg_right hhalf
      (by linarith : 0 ≤ axis.component (⟨r.width, r.height⟩ : Vec ℝ))
    linarith

end Handle

/-! ## The search -/

namespace OrientedBox

variable (b : OrientedBox ℝ) {t offset : ℝ}

theorem toFrame_apply_toPage (p : Point ℝ) : b.toFrame.apply (b.toPage.apply p) = p := by
  rw [← Affine.apply_mul, toFrame_mul_toPage, Affine.apply_identity]

theorem toPage_apply_toFrame (p : Point ℝ) : b.toPage.apply (b.toFrame.apply p) = p := by
  rw [← Affine.apply_mul, toPage_mul_toFrame, Affine.apply_identity]

/-- Every handle is laid out, at its place. -/
theorem handles_eq (offset : ℝ) : b.handles offset =
    (Handle.corners ++ Handle.edges ++ [Handle.rotate]).map fun h =>
      ⟨b.toPage.apply (h.place b.rect offset), h⟩ := by
  rw [List.map_append]
  rfl

theorem mem_handles_iff {placed : PlacedHandle ℝ} : placed ∈ b.handles offset ↔
    placed.position = b.toPage.apply (placed.handle.place b.rect offset) := by
  obtain ⟨position, h⟩ := placed
  have hmem : h ∈ Handle.corners ++ Handle.edges ++ [Handle.rotate] := by
    rcases h with c | e | _
    · cases c <;> simp [Handle.corners]
    · cases e <;> simp [Handle.edges]
    · simp
  rw [handles_eq, List.mem_map]
  constructor
  · rintro ⟨k, -, hk⟩
    cases hk
    rfl
  · intro hposition
    exact ⟨h, hmem, by rw [← hposition]⟩

/-- A turn keeps distances. -/
theorem distance_toPage_apply (p q : Point ℝ) :
    p.distance (b.toPage.apply q) = (b.toFrame.apply p).distance q := by
  have hvec : p - b.toPage.apply q = b.toPage.applyVec (b.toFrame.apply p - q) := by
    have hp := b.toPage_apply_toFrame p
    calc p - b.toPage.apply q = b.toPage.apply (b.toFrame.apply p) - b.toPage.apply q := by rw [hp]
      _ = b.toPage.applyVec (b.toFrame.apply p - q) := by
        ext <;> simp only [Affine.apply, Affine.applyVec, Point.sub_x, Point.sub_y] <;> ring
  have hrigid : b.toPage.IsRigid := Affine.isRigid_rotate b.rotation
  rw [Point.distance_eq, hvec, hrigid.magnifies, one_pow, one_mul, Point.distance_eq]

open Classical in
/-- **The hit test is one search**: it answers with the first handle whose region holds the point,
    seen from the selection frame. -/
theorem handleAt?_eq (ht : 0 ≤ t) (p : Point ℝ) : b.handleAt? p t offset =
    Handle.searchOrder.find? fun h => decide (b.toFrame.apply p ∈ h.region b.rect t offset) := by
  have hdisc : ∀ h : Handle, (!h.isEdge && Handle.hits (b.toPage.apply (h.place b.rect offset)) p t) =
      (!h.isEdge && decide (b.toFrame.apply p ∈ h.region b.rect t offset)) := by
    intro h
    cases hedge : h.isEdge with
    | true => rfl
    | false =>
        rw [Handle.region_of_not_isEdge hedge, Set.mem_ofPred_eq, ← b.distance_toPage_apply]
        simp only [Point.distance_le_iff ht]
        rfl
  have hdiscs : ((Handle.corners ++ Handle.edges ++ [Handle.rotate]).find? fun h =>
      !h.isEdge && decide (b.toFrame.apply p ∈ h.region b.rect t offset)) =
      (Handle.corners ++ [Handle.rotate]).find? fun h =>
        decide (b.toFrame.apply p ∈ h.region b.rect t offset) := by
    simp [Handle.corners, Handle.edges, List.find?_cons, Handle.isEdge]
  have hedges : (Edge.searchOrder.map Handle.edge).find? (fun h =>
      decide (b.toFrame.apply p ∈ h.region b.rect t offset)) =
      (edgeAt? b.rect (b.toFrame.apply p) t).map .edge := by
    rw [edgeAt?_eq, List.find?_map]
    rfl
  rw [Handle.searchOrder, List.find?_append, hedges, handleAt?, handles_eq, List.find?_map]
  simp only [Function.comp_def, hdisc, hdiscs]
  cases (Handle.corners ++ [Handle.rotate]).find? fun h =>
    decide (b.toFrame.apply p ∈ h.region b.rect t offset) <;> rfl

/-- Every handle is found at its place. -/
theorem handleAt?_toPage_place (ht : 0 ≤ t) (hwidth : 2 * t < b.rect.width)
    (hheight : 2 * t < b.rect.height) (hoffset : t < offset) (h : Handle) :
    b.handleAt? (b.toPage.apply (h.place b.rect offset)) t offset = some h := by
  classical
  rw [handleAt?_eq b ht, toFrame_apply_toPage, List.find?_eq_some_iff_append]
  obtain ⟨before, after, hall⟩ := List.append_of_mem h.mem_searchOrder
  have hpairwise := Handle.pairwise_searchOrder
  rw [hall, List.pairwise_append] at hpairwise
  refine ⟨decide_eq_true ?_, before, after, hall, fun k hk => ?_⟩
  · exact Handle.place_mem_region ht (by linarith) (by linarith)
  · obtain ⟨hne, hedge⟩ := hpairwise.2.2 k hk h List.mem_cons_self
    rw [decide_eq_false (Handle.place_notMem_region ht hwidth hheight hoffset hne.symm hedge)]
    rfl

/-- Nothing is found exactly where no region is. -/
theorem handleAt?_eq_none_iff (ht : 0 ≤ t) (p : Point ℝ) : b.handleAt? p t offset = none ↔
    (∀ placed ∈ b.handles offset, placed.handle.isEdge = false → t < p.distance placed.position) ∧
      ∀ e : Edge, b.toFrame.apply p ∉ e.strip b.rect t := by
  classical
  rw [handleAt?_eq b ht, List.find?_eq_none]
  simp only [decide_eq_true_eq]
  constructor
  · intro hnone
    refine ⟨fun placed hplaced hdisc => ?_, fun e => hnone (.edge e) (Handle.mem_searchOrder _)⟩
    have hfar := hnone placed.handle placed.handle.mem_searchOrder
    rw [Handle.region_of_not_isEdge hdisc, Set.mem_ofPred_eq, not_le,
      ← b.distance_toPage_apply] at hfar
    rwa [b.mem_handles_iff.1 hplaced]
  · rintro ⟨hfar, hstrip⟩ h -
    cases hedge : h.isEdge with
    | true =>
        cases h with
        | edge e => exact hstrip e
        | corner c => exact absurd hedge nofun
        | rotate => exact absurd hedge nofun
    | false =>
        have hplaced := hfar ⟨b.toPage.apply (h.place b.rect offset), h⟩
          (b.mem_handles_iff.2 rfl) hedge
        rw [Handle.region_of_not_isEdge hedge, Set.mem_ofPred_eq, not_le, ← b.distance_toPage_apply]
        exact hplaced

/-- Turning the box and the point leaves the point where it is in the frame. -/
theorem toFrame_apply_rotate (angle : ℝ) (p : Point ℝ) :
    (⟨b.rect, b.rotation + angle⟩ : OrientedBox ℝ).toFrame.apply ((Affine.rotate angle).apply p) =
      b.toFrame.apply p := by
  have hmul : Affine.rotate (-(b.rotation + angle)) * Affine.rotate angle =
      Affine.rotate (-b.rotation) := by
    have hunit := Real.cos_sq_add_sin_sq angle
    ext <;> simp only [Affine.rotate_eq, Affine.mul_a, Affine.mul_b, Affine.mul_c, Affine.mul_d,
      Affine.mul_e, Affine.mul_f, Real.cos_neg, Real.sin_neg, Real.cos_add, Real.sin_add]
    · linear_combination Real.cos b.rotation * hunit
    · linear_combination -Real.sin b.rotation * hunit
    · linear_combination Real.sin b.rotation * hunit
    · linear_combination Real.cos b.rotation * hunit
    · ring
    · ring
  show (Affine.rotate _).apply _ = (Affine.rotate _).apply p
  rw [← Affine.apply_mul, hmul]

/-- **The layout of the handles and the hit test agree.** On a box whose sides are longer than two
    tolerances, with the rotate handle more than one tolerance above it, every handle is laid out
    and found where it is. A point that gives an edge lies in the strip along it. A point gives
    nothing exactly when it is farther than the tolerance from every handle other than the edges and
    in no strip. Turning the box and the point together changes nothing. -/
theorem handleAt?_of_handles (ht : 0 ≤ t) (hwidth : 2 * t < b.rect.width)
    (hheight : 2 * t < b.rect.height) (hoffset : t < offset) :
    (∀ h, ∃ placed ∈ b.handles offset, placed.handle = h) ∧
    (∀ placed ∈ b.handles offset, b.handleAt? placed.position t offset = some placed.handle) ∧
    (∀ p e, b.handleAt? p t offset = some (.edge e) → b.toFrame.apply p ∈ e.strip b.rect t) ∧
    (∀ p, b.handleAt? p t offset = none ↔
      (∀ placed ∈ b.handles offset, placed.handle.isEdge = false →
        t < p.distance placed.position) ∧
      ∀ e : Edge, b.toFrame.apply p ∉ e.strip b.rect t) ∧
    ∀ angle p, (⟨b.rect, b.rotation + angle⟩ : OrientedBox ℝ).handleAt?
      ((Affine.rotate angle).apply p) t offset = b.handleAt? p t offset := by
  classical
  refine ⟨?_, ?_, ?_, b.handleAt?_eq_none_iff ht, ?_⟩
  · intro h
    exact ⟨⟨b.toPage.apply (h.place b.rect offset), h⟩, b.mem_handles_iff.2 rfl, rfl⟩
  · intro placed hplaced
    rw [b.mem_handles_iff.1 hplaced]
    exact b.handleAt?_toPage_place ht hwidth hheight hoffset placed.handle
  · intro p e hedge
    rw [handleAt?_eq b ht] at hedge
    have hregion := List.find?_some hedge
    exact of_decide_eq_true hregion
  · intro angle p
    rw [handleAt?_eq _ ht, handleAt?_eq b ht, toFrame_apply_rotate]

/-- On a box of 100 by 60 that is turned by a quarter, the bottom right corner lies at `(-60, 100)`
    and the rotate handle at `(24, 50)`. -/
theorem handleAt?_of_handles_quarter :
    let b : OrientedBox ℝ := ⟨⟨0, 0, 100, 60⟩, Real.pi / 2⟩
    b.handleAt? ⟨-60, 100⟩ 6 24 = some (.corner .bottomRight) ∧
      b.handleAt? ⟨24, 50⟩ 6 24 = some .rotate := by
  intro b
  obtain ⟨-, hfound, -⟩ := @handleAt?_of_handles b 6 24 (by norm_num)
    (by norm_num [b, Rect.width]) (by norm_num [b, Rect.height]) (by norm_num)
  constructor
  · refine hfound ⟨⟨-60, 100⟩, .corner .bottomRight⟩ (b.mem_handles_iff.2 ?_)
    ext <;> norm_num [b, toPage, Affine.rotate_eq, Affine.apply, Handle.place, Handle.positionOn,
      Handle.unit, Rect.position, Rect.width, Rect.height]
  · refine hfound ⟨⟨24, 50⟩, .rotate⟩ (b.mem_handles_iff.2 ?_)
    ext <;> norm_num [b, toPage, Affine.rotate_eq, Affine.apply, Handle.place, Handle.positionOn,
      Handle.unit, Rect.position, Rect.width, Rect.height]

end OrientedBox

end CanvasTransform
