import CanvasTransform.Proofs.Geometry.Exact

set_option autoImplicit false

/-! # The rectangle around a set of points

Boxes are built in several ways: point by point, rectangle by rectangle, and from the corners of a
rectangle under a map. Each of them is the smallest rectangle around some points, and there is only
one such rectangle (`Rect.Spans.eq`), so that boxes can be compared through the points alone. It has
all of the points in it, and lies in every other box that has (`Rect.Spans.region_subset`).

An affine map takes no point of a rectangle out of a box that it takes the corners into
(`Rect.contains_apply`), however it turns and shears.

A map that takes the axes to multiples of themselves takes the smallest rectangle around some points
to the smallest rectangle around their images (`Rect.Spans.image`), corner by corner
(`Rect.corners_image`). -/

namespace CanvasTransform

namespace Rect

variable {r s : Rect ℝ} {S T : Set (Point ℝ)}

/-- The rectangle is the smallest one around the points. -/
structure Spans (r : Rect ℝ) (S : Set (Point ℝ)) : Prop where
  left : IsLeast (Point.x '' S) r.x0
  top : IsLeast (Point.y '' S) r.y0
  right : IsGreatest (Point.x '' S) r.x1
  bottom : IsGreatest (Point.y '' S) r.y1

namespace Spans

/-- There is one smallest rectangle. -/
theorem eq (hr : r.Spans S) (hs : s.Spans S) : r = s := by
  ext
  · exact hr.left.unique hs.left
  · exact hr.top.unique hs.top
  · exact hr.right.unique hs.right
  · exact hr.bottom.unique hs.bottom

theorem nonempty (h : r.Spans S) : S.Nonempty := h.left.nonempty.of_image

theorem x0_le_x1 (h : r.Spans S) : r.x0 ≤ r.x1 := h.left.2 h.right.1

theorem y0_le_y1 (h : r.Spans S) : r.y0 ≤ r.y1 := h.top.2 h.bottom.1

theorem union (hr : r.Spans S) (hs : s.Spans T) : (r.union s).Spans (S ∪ T) := by
  constructor <;> simp only [Set.image_union, Rect.union, Scalar.min_eq, Scalar.max_eq]
  · exact hr.left.union hs.left
  · exact hr.top.union hs.top
  · exact hr.right.union hs.right
  · exact hr.bottom.union hs.bottom

end Spans

/-! ## Boxes that are built -/

theorem spans_point (p : Point ℝ) : (Rect.mk p.x p.y p.x p.y).Spans {p} := by
  constructor <;> rw [Set.image_singleton]
  · exact isLeast_singleton
  · exact isLeast_singleton
  · exact isGreatest_singleton
  · exact isGreatest_singleton

theorem spans_ofPoints (p q : Point ℝ) : (ofPoints p q).Spans {p, q} := by
  rw [← Set.singleton_union]
  exact (spans_point p).union (spans_point q)

theorem Spans.unionPoint (h : r.Spans S) (p : Point ℝ) : (r.unionPoint p).Spans (insert p S) := by
  rw [← Set.union_singleton]
  exact h.union (spans_point p)

theorem spans_transformedBounds (r : Rect ℝ) (t : Affine ℝ) :
    (r.transformedBounds t).Spans (t.apply '' {p | p ∈ r.corners}) := by
  have hcorners : t.apply '' {p | p ∈ r.corners} = insert (t.apply ⟨r.x0, r.y1⟩)
      (insert (t.apply ⟨r.x1, r.y0⟩) {t.apply ⟨r.x0, r.y0⟩, t.apply ⟨r.x1, r.y1⟩}) := by
    ext q
    simp only [corners, List.mem_cons, List.not_mem_nil, or_false, Set.mem_image,
      Set.mem_ofPred_eq, Set.mem_insert_iff, Set.mem_singleton_iff, or_and_right, exists_or,
      exists_eq_left, eq_comm (a := q)]
    tauto
  rw [hcorners]
  exact ((spans_ofPoints _ _).unionPoint _).unionPoint _

theorem spans_foldl_unionPoint (h : r.Spans S) (ps : List (Point ℝ)) :
    (ps.foldl unionPoint r).Spans (S ∪ {p | p ∈ ps}) := by
  induction ps generalizing r S with
  | nil => simpa using h
  | cons p ps ih =>
      have hrest : S ∪ {q | q ∈ p :: ps} = insert p S ∪ {q | q ∈ ps} := by
        ext q
        simp only [Set.mem_union, Set.mem_ofPred_eq, List.mem_cons, Set.mem_insert_iff]
        tauto
      rw [hrest]
      exact ih (h.unionPoint p)

/-- A list of points has a box if it is not empty, and it is the smallest one around them. -/
theorem boundsOf?_eq_some_iff {ps : List (Point ℝ)} :
    boundsOf? ps = some r ↔ r.Spans {p | p ∈ ps} := by
  cases ps with
  | nil => exact iff_of_false nofun fun h => by simpa using h.nonempty
  | cons p ps =>
      have hspans := spans_foldl_unionPoint (spans_ofPoints p p) ps
      have hset : ({p, p} : Set (Point ℝ)) ∪ {q | q ∈ ps} = {q | q ∈ p :: ps} := by
        ext q
        simp
      rw [hset] at hspans
      rw [boundsOf?, Option.some_inj]
      exact ⟨fun h => h ▸ hspans, hspans.eq⟩

theorem spans_foldl_union {ι : Type} {f : ι → Rect ℝ} {points : ι → Set (Point ℝ)} {l : List ι}
    (h : r.Spans S) (hf : ∀ i ∈ l, (f i).Spans (points i)) :
    ((l.map f).foldl Rect.union r).Spans (S ∪ {p | ∃ i ∈ l, p ∈ points i}) := by
  induction l generalizing r S with
  | nil => simpa using h
  | cons i l ih =>
      have hrest : S ∪ {p | ∃ j ∈ i :: l, p ∈ points j} =
          S ∪ points i ∪ {p | ∃ j ∈ l, p ∈ points j} := by
        ext q
        simp [or_assoc]
      rw [hrest]
      exact ih (h.union (hf i List.mem_cons_self)) fun j hj => hf j (List.mem_cons_of_mem _ hj)

/-- A list of boxes has a box around them if it is not empty, and it is the smallest one around all
    the points. -/
theorem unionAll?_map_eq_some_iff {ι : Type} {f : ι → Rect ℝ} {points : ι → Set (Point ℝ)}
    {l : List ι} (hf : ∀ i ∈ l, (f i).Spans (points i)) :
    unionAll? (l.map f) = some r ↔ r.Spans {p | ∃ i ∈ l, p ∈ points i} := by
  cases l with
  | nil => exact iff_of_false nofun fun h => by simpa using h.nonempty
  | cons i l =>
      have hspans := spans_foldl_union (hf i List.mem_cons_self)
        fun j hj => hf j (List.mem_cons_of_mem _ hj)
      have hset : points i ∪ {p | ∃ j ∈ l, p ∈ points j} =
          {p | ∃ j ∈ i :: l, p ∈ points j} := by
        ext q
        simp
      rw [hset] at hspans
      rw [List.map_cons, unionAll?, Option.some_inj]
      exact ⟨fun h => h ▸ hspans, hspans.eq⟩

/-- The same where some entries have neither a box nor points. -/
theorem unionAll?_filterMap_eq_some_iff {ι : Type} {f : ι → Option (Rect ℝ)}
    {points : ι → Set (Point ℝ)} {l : List ι}
    (hsome : ∀ i ∈ l, ∀ r, f i = some r → r.Spans (points i))
    (hnone : ∀ i ∈ l, f i = none → points i = ∅) :
    unionAll? (l.filterMap f) = some r ↔ r.Spans {p | ∃ i ∈ l, p ∈ points i} := by
  have hmap : l.filterMap f =
      (l.filter fun i => (f i).isSome).map fun i => (f i).getD Rect.zero := by
    induction l with
    | nil => rfl
    | cons i l ih =>
        have ih := ih (fun j hj => hsome j (List.mem_cons_of_mem _ hj))
          fun j hj => hnone j (List.mem_cons_of_mem _ hj)
        cases hi : f i <;> simp [hi, ih]
  have hset : {p | ∃ i ∈ l, p ∈ points i} =
      {p | ∃ i ∈ l.filter fun i => (f i).isSome, p ∈ points i} := by
    ext p
    constructor
    · rintro ⟨i, hi, hp⟩
      refine ⟨i, List.mem_filter.2 ⟨hi, ?_⟩, hp⟩
      cases hf : f i with
      | none => rw [hnone i hi hf] at hp; exact absurd hp (Set.notMem_empty p)
      | some r => rfl
    · rintro ⟨i, hi, hp⟩
      exact ⟨i, (List.mem_filter.1 hi).1, hp⟩
  rw [hmap, hset]
  refine unionAll?_map_eq_some_iff fun i hi => ?_
  obtain ⟨hi, hisSome⟩ := List.mem_filter.1 hi
  obtain ⟨r, hr⟩ := Option.isSome_iff_exists.1 hisSome
  rw [hr]
  exact hsome i hi r hr

end Rect

/-! ## Points of a rectangle -/

namespace Rect

variable {r b : Rect ℝ} {S : Set (Point ℝ)} {p : Point ℝ}

theorem contains_iff : r.contains p = true ↔ p.x ∈ Set.uIcc r.x0 r.x1 ∧ p.y ∈ Set.uIcc r.y0 r.y1 := by
  simp only [contains, minX, maxX, minY, maxY, Scalar.min_eq, Scalar.max_eq, Bool.and_eq_true,
    decide_eq_true_eq, Set.uIcc, Set.mem_Icc, and_assoc]

theorem contains_of_mem_corners (h : p ∈ r.corners) : r.contains p = true := by
  obtain ⟨hx, hy⟩ := (r.mem_corners_iff p).1 h
  refine contains_iff.2 ⟨?_, ?_⟩
  · rcases hx with hx | hx <;> rw [hx]
    · exact Set.left_mem_uIcc
    · exact Set.right_mem_uIcc
  · rcases hy with hy | hy <;> rw [hy]
    · exact Set.left_mem_uIcc
    · exact Set.right_mem_uIcc

/-- A linear function takes no number out of a range that it takes the ends into. -/
theorem linear_mem_uIcc {a k x x₀ x₁ lo hi : ℝ} (h₀ : a * x₀ + k ∈ Set.uIcc lo hi)
    (h₁ : a * x₁ + k ∈ Set.uIcc lo hi) (hx : x ∈ Set.uIcc x₀ x₁) : a * x + k ∈ Set.uIcc lo hi := by
  refine Set.ordConnected_uIcc.uIcc_subset h₀ h₁ ?_
  rcases le_total 0 a with ha | ha
  · have hmono : Monotone fun x => a * x + k := fun x y hxy =>
      add_le_add_left (mul_le_mul_of_nonneg_left hxy ha) k
    exact hmono.mapsTo_uIcc hx
  · have hanti : Antitone fun x => a * x + k := fun x y hxy =>
      add_le_add_left (mul_le_mul_of_nonpos_left hxy ha) k
    exact hanti.mapsTo_uIcc hx

/-- **Rectangles are convex**: an affine map that takes the corners of a rectangle into a box takes
    all of its points there. -/
theorem contains_apply {t : Affine ℝ} (h : ∀ q ∈ r.corners, b.contains (t.apply q) = true)
    (hp : r.contains p = true) : b.contains (t.apply p) = true := by
  have hcorner : ∀ x y, (x = r.x0 ∨ x = r.x1) → (y = r.y0 ∨ y = r.y1) →
      t.a * x + (t.c * y + t.e) ∈ Set.uIcc b.x0 b.x1 ∧
        t.b * x + (t.d * y + t.f) ∈ Set.uIcc b.y0 b.y1 := by
    intro x y hx hy
    have hq := contains_iff.1 (h ⟨x, y⟩ ((r.mem_corners_iff _).2 ⟨hx, hy⟩))
    simpa only [Affine.apply, add_assoc] using hq
  obtain ⟨hpx, hpy⟩ := contains_iff.1 hp
  -- first along the two sides that run across, then from one to the other
  have hside : ∀ y, (y = r.y0 ∨ y = r.y1) →
      t.c * y + (t.a * p.x + t.e) ∈ Set.uIcc b.x0 b.x1 ∧
        t.d * y + (t.b * p.x + t.f) ∈ Set.uIcc b.y0 b.y1 := by
    intro y hy
    obtain ⟨hx₀, hy₀⟩ := hcorner r.x0 y (Or.inl rfl) hy
    obtain ⟨hx₁, hy₁⟩ := hcorner r.x1 y (Or.inr rfl) hy
    rw [add_left_comm, add_left_comm (t.d * y)]
    exact ⟨linear_mem_uIcc hx₀ hx₁ hpx, linear_mem_uIcc hy₀ hy₁ hpx⟩
  obtain ⟨hx₀, hy₀⟩ := hside r.y0 (Or.inl rfl)
  obtain ⟨hx₁, hy₁⟩ := hside r.y1 (Or.inr rfl)
  have hx := linear_mem_uIcc hx₀ hx₁ hpy
  have hy := linear_mem_uIcc hy₀ hy₁ hpy
  rw [← add_assoc, add_comm (t.c * p.y)] at hx
  rw [← add_assoc, add_comm (t.d * p.y)] at hy
  exact contains_iff.2 ⟨hx, hy⟩

/-- The points of the rectangle. -/
def region (r : Rect ℝ) : Set (Point ℝ) := {p | r.contains p = true}

theorem spans_corners (hwidth : r.x0 ≤ r.x1) (hheight : r.y0 ≤ r.y1) :
    r.Spans {p | p ∈ r.corners} := by
  have h := r.spans_transformedBounds Affine.identity
  simpa [transformedBounds, Affine.apply_identity, ofPoints, unionPoint, Scalar.min_eq, Scalar.max_eq,
    hwidth, hheight] using h

theorem Spans.contains (h : r.Spans S) (hp : p ∈ S) : r.contains p = true := by
  refine contains_iff.2 ⟨?_, ?_⟩
  · exact Set.Icc_subset_uIcc ⟨h.left.2 ⟨p, hp, rfl⟩, h.right.2 ⟨p, hp, rfl⟩⟩
  · exact Set.Icc_subset_uIcc ⟨h.top.2 ⟨p, hp, rfl⟩, h.bottom.2 ⟨p, hp, rfl⟩⟩

/-- A box that has the points in it has the smallest rectangle around them in it. -/
theorem Spans.region_subset (h : r.Spans S) (hb : ∀ p ∈ S, b.contains p = true) :
    r.region ⊆ b.region := by
  have hsub : Set.uIcc r.x0 r.x1 ⊆ Set.uIcc b.x0 b.x1 ∧ Set.uIcc r.y0 r.y1 ⊆ Set.uIcc b.y0 b.y1 := by
    obtain ⟨⟨p, hp, hx₀⟩, -⟩ := h.left
    obtain ⟨⟨q, hq, hx₁⟩, -⟩ := h.right
    obtain ⟨⟨u, hu, hy₀⟩, -⟩ := h.top
    obtain ⟨⟨v, hv, hy₁⟩, -⟩ := h.bottom
    rw [← hx₀, ← hx₁, ← hy₀, ← hy₁]
    exact ⟨Set.ordConnected_uIcc.uIcc_subset (contains_iff.1 (hb p hp)).1 (contains_iff.1 (hb q hq)).1,
      Set.ordConnected_uIcc.uIcc_subset (contains_iff.1 (hb u hu)).2 (contains_iff.1 (hb v hv)).2⟩
  intro p hp
  obtain ⟨hx, hy⟩ := contains_iff.1 hp
  exact contains_iff.2 ⟨hsub.1 hx, hsub.2 hy⟩

end Rect

/-! ## Maps that keep the axes -/

/-- The map takes the axes to multiples of themselves. -/
structure Affine.KeepsAxes (t : Affine ℝ) : Prop where
  b_eq : t.b = 0
  c_eq : t.c = 0

namespace Affine.KeepsAxes

variable {s t : Affine ℝ}

theorem mul (hs : s.KeepsAxes) (ht : t.KeepsAxes) : (s * t).KeepsAxes := by
  constructor
  · simp [hs.b_eq, ht.b_eq]
  · simp [hs.c_eq, ht.c_eq]

theorem apply_eq (ht : t.KeepsAxes) (p : Point ℝ) :
    t.apply p = ⟨t.a * p.x + t.e, t.d * p.y + t.f⟩ := by
  simp [apply, ht.b_eq, ht.c_eq]

end Affine.KeepsAxes

theorem Affine.keepsAxes_translate (v : Vec ℝ) : (translate v).KeepsAxes := ⟨rfl, rfl⟩

theorem Affine.keepsAxes_scale (sx sy : ℝ) : (scale sx sy).KeepsAxes := ⟨rfl, rfl⟩

/-- The ends of a range are taken to the ends of its image, in the order that the slope says. -/
theorem isLeast_isGreatest_image (a e : ℝ) {X : Set ℝ} {lo hi : ℝ} (hlo : IsLeast X lo)
    (hhi : IsGreatest X hi) :
    IsLeast ((fun x => a * x + e) '' X) (min (a * lo + e) (a * hi + e)) ∧
      IsGreatest ((fun x => a * x + e) '' X) (max (a * lo + e) (a * hi + e)) := by
  have hle : lo ≤ hi := hlo.2 hhi.1
  rcases le_total 0 a with ha | ha
  · have hmono : Monotone fun x => a * x + e := fun x y hxy => by
      have := mul_le_mul_of_nonneg_left hxy ha
      dsimp only
      linarith
    rw [min_eq_left (hmono hle), max_eq_right (hmono hle)]
    exact ⟨hmono.map_isLeast hlo, hmono.map_isGreatest hhi⟩
  · have hanti : Antitone fun x => a * x + e := fun x y hxy => by
      have := mul_le_mul_of_nonpos_left hxy ha
      dsimp only
      linarith
    rw [min_eq_right (hanti hle), max_eq_left (hanti hle)]
    exact ⟨hanti.map_isGreatest hhi, hanti.map_isLeast hlo⟩

namespace Rect

variable {r : Rect ℝ} {S : Set (Point ℝ)} {t : Affine ℝ}

/-- The rectangle between the images of two opposite corners. -/
noncomputable def image (r : Rect ℝ) (t : Affine ℝ) : Rect ℝ :=
  ofPoints (t.apply ⟨r.x0, r.y0⟩) (t.apply ⟨r.x1, r.y1⟩)

theorem image_eq (ht : t.KeepsAxes) (r : Rect ℝ) :
    r.image t = ⟨min (t.a * r.x0 + t.e) (t.a * r.x1 + t.e),
      min (t.d * r.y0 + t.f) (t.d * r.y1 + t.f), max (t.a * r.x0 + t.e) (t.a * r.x1 + t.e),
      max (t.d * r.y0 + t.f) (t.d * r.y1 + t.f)⟩ := by
  simp only [image, ofPoints, ht.apply_eq, Scalar.min_eq, Scalar.max_eq]

/-- **Boxes follow their points** under a map that keeps the axes. -/
theorem Spans.image (h : r.Spans S) (ht : t.KeepsAxes) : (r.image t).Spans (t.apply '' S) := by
  have hx : Point.x '' (t.apply '' S) = (fun x => t.a * x + t.e) '' (Point.x '' S) := by
    simp only [Set.image_image, ht.apply_eq]
  have hy : Point.y '' (t.apply '' S) = (fun y => t.d * y + t.f) '' (Point.y '' S) := by
    simp only [Set.image_image, ht.apply_eq]
  obtain ⟨hleft, hright⟩ := isLeast_isGreatest_image t.a t.e h.left h.right
  obtain ⟨htop, hbottom⟩ := isLeast_isGreatest_image t.d t.f h.top h.bottom
  rw [image_eq ht]
  exact ⟨hx ▸ hleft, hy ▸ htop, hx ▸ hright, hy ▸ hbottom⟩

theorem eq_min_or_eq_max_iff {a b c : ℝ} : c = min a b ∨ c = max a b ↔ c = a ∨ c = b := by
  rcases le_total a b with h | h
  · rw [min_eq_left h, max_eq_right h]
  · rw [min_eq_right h, max_eq_left h, or_comm]

/-- The corners of the image are the images of the corners. -/
theorem corners_image (ht : t.KeepsAxes) (r : Rect ℝ) :
    {p | p ∈ (r.image t).corners} = t.apply '' {p | p ∈ r.corners} := by
  ext p
  simp only [image_eq ht, Set.mem_ofPred_eq, Set.mem_image, mem_corners_iff, eq_min_or_eq_max_iff,
    ht.apply_eq]
  constructor
  · rintro ⟨hx | hx, hy | hy⟩
    · exact ⟨⟨r.x0, r.y0⟩, ⟨Or.inl rfl, Or.inl rfl⟩, Point.ext hx.symm hy.symm⟩
    · exact ⟨⟨r.x0, r.y1⟩, ⟨Or.inl rfl, Or.inr rfl⟩, Point.ext hx.symm hy.symm⟩
    · exact ⟨⟨r.x1, r.y0⟩, ⟨Or.inr rfl, Or.inl rfl⟩, Point.ext hx.symm hy.symm⟩
    · exact ⟨⟨r.x1, r.y1⟩, ⟨Or.inr rfl, Or.inr rfl⟩, Point.ext hx.symm hy.symm⟩
  · rintro ⟨q, ⟨hx, hy⟩, rfl⟩
    exact ⟨hx.imp (fun h => by rw [h]) fun h => by rw [h],
      hy.imp (fun h => by rw [h]) fun h => by rw [h]⟩

/-- The box around points follows them. -/
theorem boundsOf?_map (ht : t.KeepsAxes) (ps : List (Point ℝ)) :
    boundsOf? (ps.map t.apply) = (boundsOf? ps).map (·.image t) := by
  cases ps with
  | nil => rfl
  | cons p ps =>
      have himage : t.apply '' {q | q ∈ p :: ps} = {q | q ∈ (p :: ps).map t.apply} := by
        ext q
        simp [eq_comm]
      have hr : boundsOf? (p :: ps) = some (ps.foldl unionPoint (ofPoints p p)) := rfl
      rw [hr, Option.map_some, boundsOf?_eq_some_iff, ← himage]
      exact (boundsOf?_eq_some_iff.1 hr).image ht

theorem image_zero (sx sy : ℝ) : zero.image (Affine.scale sx sy) = zero := by
  rw [image_eq (Affine.keepsAxes_scale sx sy)]
  simp [zero, Affine.scale]

end Rect

end CanvasTransform
