import CanvasTransform.Proofs.Document.Frames
import CanvasTransform.Proofs.Document.Visit
import CanvasTransform.Proofs.Selection.Capture

set_option autoImplicit false

/-! # What a selection can snap to

The candidates of a snapshot are collected on one walk from the page that leaves out what is captured.
That comes to the shapes that are outside of the selection: a captured shape that the walk would come to
has everything beneath it captured, and so a shape is cut off from the page by what is captured only if
it is captured itself (`Canvas.not_cut_off_iff`). The shapes around the selection and the
groups are passed through and not taken. What is left is taken if it shows in the viewport, so the
candidates are the eligible shapes (`Canvas.candidates_eligible`). -/

namespace CanvasTransform

namespace Canvas

variable {α : Type} [Scalar α] {c : Canvas α} {viewport : Rect α} {id : ShapeId}

/-- The shape is of a kind that others align with, and its bounds on the page overlap or touch the
    viewport. -/
structure Shows (c : Canvas α) (viewport : Rect α) (id : ShapeId) : Prop where
  kind : ∃ shape, c.document.get? id = some shape ∧ shape.kind ≠ .group
  visible : ∃ bounds, c.pageBounds id = .ok bounds ∧ ∀ axis : Axis,
    axis.near bounds ≤ axis.far viewport ∧ axis.near viewport ≤ axis.far bounds

/-- A shape that a selection with these top-level shapes can snap to. -/
structure Eligible (c : Canvas α) (topLevel : List ShapeId) (viewport : Rect α) (id : ShapeId) :
    Prop where
  shows : c.Shows viewport id
  /-- It is neither a top-level shape nor inside one. -/
  outside : ∀ top ∈ topLevel, ¬ c.document.Inside top id
  /-- It is not around a top-level shape. -/
  notAround : ∀ top ∈ topLevel, id ∉ c.document.ancestors top

/-! ## One shape -/

theorem overlaps_iff {bounds : Rect α} : bounds.overlaps viewport = true ↔
    ∀ axis : Axis, axis.near bounds ≤ axis.far viewport ∧ axis.near viewport ≤ axis.far bounds := by
  simp only [Rect.overlaps, Bool.and_eq_true, decide_eq_true_eq]
  constructor
  · rintro ⟨⟨⟨hx, hx'⟩, hy⟩, hy'⟩ axis
    cases axis with
    | x => exact ⟨hx, hx'⟩
    | y => exact ⟨hy, hy'⟩
  · intro h
    exact ⟨⟨⟨(h .x).1, (h .x).2⟩, (h .y).1⟩, (h .y).2⟩

theorem exists_pageSnapPoints {bounds : Rect α} (h : c.pageBounds id = .ok bounds) :
    ∃ points, c.pageSnapPoints id = .ok points := by
  obtain ⟨shape, page, hshape, hpage, -⟩ := pageBounds_eq_ok_iff.1 h
  refine ⟨bounds.snapPoints ++ (c.registry.snapPoints shape).map page.apply, ?_⟩
  rw [pageSnapPoints, h, pageTransform_eq_ok hpage, Canvas.shape, hshape]
  rfl

theorem candidate?_eq_some_iff {k : Candidate α} : c.candidate? viewport id = some k ↔
    k.id = id ∧ c.pageBounds id = .ok k.bounds ∧ c.pageSnapPoints id = .ok k.points ∧
      k.bounds.overlaps viewport = true := by
  have hok : ∀ {β : Type} (e : Except TransformError β) (b : β), e.toOption = some b ↔ e = .ok b := by
    intro β e b
    cases e with
    | error _ => exact iff_of_false nofun nofun
    | ok _ => exact ⟨fun h => congrArg _ (Option.some.inj h), fun h => congrArg _ (Except.ok.inj h)⟩
  simp only [candidate?, Option.bind_eq_bind, Option.bind_eq_some_iff, hok]
  constructor
  · rintro ⟨bounds, hbounds, points, hpoints, h⟩
    split_ifs at h with hoverlaps
    cases h
    exact ⟨rfl, hbounds, hpoints, hoverlaps⟩
  · rintro ⟨rfl, hbounds, hpoints, hoverlaps⟩
    exact ⟨k.bounds, hbounds, k.points, hpoints, if_pos hoverlaps⟩

/-- A shape is offered for alignment if its bounds on the page overlap or touch the viewport. -/
theorem exists_candidate?_iff : (∃ k, c.candidate? viewport id = some k) ↔
    ∃ bounds, c.pageBounds id = .ok bounds ∧ ∀ axis : Axis,
      axis.near bounds ≤ axis.far viewport ∧ axis.near viewport ≤ axis.far bounds := by
  simp only [candidate?_eq_some_iff, overlaps_iff]
  constructor
  · rintro ⟨k, -, hbounds, -, hvisible⟩
    exact ⟨k.bounds, hbounds, hvisible⟩
  · rintro ⟨bounds, hbounds, hvisible⟩
    obtain ⟨points, hpoints⟩ := exists_pageSnapPoints hbounds
    exact ⟨⟨id, bounds, points⟩, rfl, hbounds, hpoints, hvisible⟩

omit [Scalar α] in
theorem isGroup_eq_false_iff {shape : Shape α} (h : c.document.get? id = some shape) :
    c.isGroup id = false ↔ shape.kind ≠ .group := by
  rw [isGroup, h]
  exact beq_eq_false_iff_ne

/-! ## The walk -/

variable {selection : List ShapeId} {camera : Camera α} {s : Snapshot α}

/-- The candidates of a snapshot, as they are collected. -/
theorem shapes_capture? (h : c.capture? selection camera = some s) : s.candidates.shapes =
    ((c.document.frontToBack s.contains).filter fun id =>
      !(s.topLevel.flatMap c.document.ancestors).contains id && !c.isGroup id).filterMap
        (c.candidate? camera.viewportBounds) := by
  simp only [capture?, Option.bind_eq_bind, Option.bind_eq_some_iff, Option.pure_def,
    Option.some.injEq] at h
  obtain ⟨box, -, pageBounds, -, rfl⟩ := h
  have hcontains : ∀ members : Std.TreeMap ShapeId (Member α) compare,
      members.contains = fun id => (members[id]?).isSome := fun members => by
    funext id
    exact Std.TreeMap.contains_eq_isSome_getElem?
  show (candidatesFor _ _ _ _).shapes = _
  rw [hcontains]
  rfl

/-- Nothing that is captured is on the way from the page to a shape if and only if the shape is neither
    a top-level shape nor inside one. -/
theorem not_cut_off_iff (hkeyed : c.document.Keyed) (hshallow : c.document.Shallow)
    (h : c.capture? selection camera = some s) (hrooted : c.document.Rooted (.shape id)) :
    (∀ b, c.document.Inside b id → s.contains b = false) ↔
      ∀ top ∈ s.topLevel, ¬ c.document.Inside top id := by
  have htop : s.topLevel = c.document.topLevel selection := (get?_capture? h id).1
  simp only [← Bool.not_eq_true, contains_iff_captured hkeyed hshallow h, htop]
  constructor
  · intro hopen top htop hinside
    refine hopen top hinside ⟨?_, top, htop, Document.Inside.refl _ top⟩
    rcases hinside with rfl | hmem
    · exact hrooted
    · exact hrooted.above (hshallow.above_iff.2 hmem)
  · rintro hout b hb ⟨-, top, htop, hinside⟩
    exact hout top htop (hshallow.inside_trans hinside hb)

/-- The candidates come in the order in which the walk meets them. -/
theorem sublist_candidates (h : c.capture? selection camera = some s) :
    (s.candidates.shapes.map (·.id)).Sublist (c.document.frontToBack s.contains) := by
  have hsublist : ∀ ids : List ShapeId,
      ((ids.filterMap (c.candidate? camera.viewportBounds)).map (·.id)).Sublist ids := by
    intro ids
    induction ids with
    | nil => exact .slnil
    | cons id ids ih =>
        rw [List.filterMap_cons]
        cases hk : c.candidate? camera.viewportBounds id with
        | none => exact ih.cons id
        | some k =>
            rw [List.map_cons, (candidate?_eq_some_iff.1 hk).1]
            exact ih.cons_cons id
  rw [shapes_capture? h]
  exact (hsublist _).trans List.filter_sublist

/-- **Which shapes are candidates.** -/
theorem mem_candidates_iff (hkeyed : c.document.Keyed) (hshallow : c.document.Shallow)
    (h : c.capture? selection camera = some s) : id ∈ s.candidates.shapes.map (·.id) ↔
      c.Eligible s.topLevel camera.viewportBounds id := by
  have hmem : id ∈ s.candidates.shapes.map (·.id) ↔ id ∈ c.document.frontToBack s.contains ∧
      (∀ top ∈ s.topLevel, id ∉ c.document.ancestors top) ∧ c.isGroup id = false ∧
        ∃ k, c.candidate? camera.viewportBounds id = some k := by
    simp only [shapes_capture? h, List.mem_map, List.mem_filterMap, List.mem_filter,
      Bool.and_eq_true, Bool.not_eq_true', ← Bool.not_eq_true, List.contains_iff_mem,
      List.mem_flatMap, not_exists, not_and]
    constructor
    · rintro ⟨k, ⟨x, ⟨hx, haround, hgroup⟩, hk⟩, rfl⟩
      obtain rfl := (candidate?_eq_some_iff.1 hk).1
      exact ⟨hx, haround, hgroup, k, hk⟩
    · rintro ⟨hx, haround, hgroup, k, hk⟩
      exact ⟨k, ⟨id, ⟨hx, haround, hgroup⟩, hk⟩, (candidate?_eq_some_iff.1 hk).1⟩
  rw [hmem, hshallow.mem_frontToBack_iff hkeyed, exists_candidate?_iff]
  constructor
  · rintro ⟨⟨hrooted, hopen⟩, haround, hgroup, hvisible⟩
    obtain ⟨shape, hshape⟩ := Document.contains_iff.1 hrooted.contains
    exact ⟨⟨⟨shape, hshape, (isGroup_eq_false_iff hshape).1 hgroup⟩, hvisible⟩,
      (not_cut_off_iff hkeyed hshallow h hrooted).1 hopen, haround⟩
  · rintro ⟨⟨⟨shape, hshape, hkind⟩, hvisible⟩, hout, haround⟩
    have hrooted : c.document.Rooted (.shape id) := by
      obtain ⟨bounds, hbounds, -⟩ := hvisible
      obtain ⟨-, page, -, hpage, -⟩ := pageBounds_eq_ok_iff.1 hbounds
      exact hshallow.rooted_iff.2 ⟨page, hpage⟩
    exact ⟨⟨hrooted, (not_cut_off_iff hkeyed hshallow h hrooted).2 hout⟩, haround,
      (isGroup_eq_false_iff hshape).2 hkind, hvisible⟩

/-! ## What is near the selection -/

omit [Scalar α] in
/-- A child of a shape outside of the selection is outside of it, unless it is itself selected. -/
theorem outside_of_parentId? (hshallow : c.document.Shallow) {topLevel : List ShapeId}
    {parent child : ShapeId} (hp : c.document.parentId? child = some parent)
    (hparent : ∀ top ∈ topLevel, ¬ c.document.Inside top parent) (hchild : child ∉ topLevel) :
    ∀ top ∈ topLevel, ¬ c.document.Inside top child := by
  rintro top htop (rfl | hmem)
  · exact hchild htop
  · obtain ⟨parent', hp', hor⟩ := hshallow.mem_ancestors_iff.1 hmem
    obtain rfl := Option.some.inj (hp'.symm.trans hp)
    exact hparent top htop (hor.imp_left Eq.symm)

omit [Scalar α] in
/-- A shape with the same parent as a top-level shape is outside of the selection, unless it is itself
    selected. -/
theorem outside_of_sibling (hshallow : c.document.Shallow) {top sibling : ShapeId}
    (htop : top ∈ c.document.topLevel selection)
    (hp : c.document.parentId? sibling = c.document.parentId? top)
    (hsibling : sibling ∉ c.document.topLevel selection) :
    ∀ top' ∈ c.document.topLevel selection, ¬ c.document.Inside top' sibling := by
  rintro top' htop' (rfl | hmem)
  · exact hsibling htop'
  · -- what is around the sibling is around the top-level shape, and no selected shape is
    obtain ⟨parent, hparent, hor⟩ := hshallow.mem_ancestors_iff.1 hmem
    have haround : top' ∈ c.document.ancestors top :=
      hshallow.mem_ancestors_iff.2 ⟨parent, hp ▸ hparent, hor⟩
    exact (Document.mem_topLevel_iff.1 htop).2.2 top' haround (Document.mem_topLevel_iff.1 htop').1

/-- **The candidates are the eligible shapes**, each once, with the bounds and points that they have on
    the page. They are collected on a walk that comes to an end. Among them are the children of groups
    outside of the selection and the siblings of the top-level shapes, as far as these show, are not
    top-level shapes themselves and are not around one. -/
theorem candidates_eligible (hkeyed : c.document.Keyed) (hshallow : c.document.Shallow)
    (h : c.capture? selection camera = some s) :
    let ids := s.candidates.shapes.map (·.id)
    let d := c.document
    (∀ id, id ∈ ids ↔ c.Eligible s.topLevel camera.viewportBounds id) ∧
    ids.Nodup ∧
    (∀ k ∈ s.candidates.shapes,
      c.pageBounds k.id = .ok k.bounds ∧ c.pageSnapPoints k.id = .ok k.points) ∧
    (∃ turns met, ids.Sublist met ∧ ∀ m, turns ≤ m →
      (Document.Search.step d s.contains)^[m] (.start d) = ⟨met, []⟩) ∧
    ∀ id, c.Shows camera.viewportBounds id → id ∉ s.topLevel →
      (∀ top ∈ s.topLevel, id ∉ d.ancestors top) →
      ((∃ group, d.parentId? id = some group ∧ c.isGroup group = true ∧
          ∀ top ∈ s.topLevel, ¬ d.Inside top group) ∨
        ∃ top ∈ s.topLevel, d.parentId? id = d.parentId? top) →
      id ∈ ids := by
  intro ids d
  have hmem : ∀ id, id ∈ ids ↔ c.Eligible s.topLevel camera.viewportBounds id := fun id =>
    mem_candidates_iff hkeyed hshallow h
  have hsublist : ids.Sublist (d.frontToBack s.contains) := sublist_candidates h
  obtain ⟨turns, hturns⟩ := hshallow.search_ends hkeyed s.contains
  refine ⟨hmem, (hshallow.nodup_frontToBack hkeyed).sublist hsublist, fun k hk => ?_,
    ⟨turns, _, hsublist, hturns⟩, fun id hshows htop haround hnear => ?_⟩
  · rw [shapes_capture? h] at hk
    obtain ⟨id, -, hk⟩ := List.mem_filterMap.1 hk
    obtain ⟨rfl, hbounds, hpoints, -⟩ := candidate?_eq_some_iff.1 hk
    exact ⟨hbounds, hpoints⟩
  · refine (hmem id).2 ⟨hshows, ?_, haround⟩
    rcases hnear with ⟨group, hgroup, -, hout⟩ | ⟨top, htop', hp⟩
    · exact outside_of_parentId? hshallow hgroup hout htop
    · have htopLevel : s.topLevel = d.topLevel selection := (get?_capture? h top).1
      rw [htopLevel] at htop htop' ⊢
      exact outside_of_sibling hshallow htop' hp htop

end Canvas

theorem Camera.viewportBounds_initial : (initial : Camera ℝ).viewportBounds = ⟨0, 0, 1280, 800⟩ := by
  simp only [viewportBounds, screenToPage, inverseTransform, initial, Rect.ofPoints, Affine.apply,
    Affine.mul_a, Affine.mul_b, Affine.mul_c, Affine.mul_d, Affine.mul_e, Affine.mul_f, Affine.scale,
    Affine.translate, Vec.zero, Vec.neg_x, Vec.neg_y, Point.origin, Scalar.min_eq, Scalar.max_eq]
  norm_num

/-- In a group, a shape beside the selected one is a candidate, and neither the selected shape nor the
    group is. -/
theorem Canvas.candidates_eligible_sibling :
    let d : Document ℝ := ((Document.empty.put (Shape.group 1 0 0)).put
      ((Shape.rectangle 2 0 0 10 10).withParent (.shape 1))).put
        ((Shape.rectangle 3 200 0 20 20).withParent (.shape 1))
    let c : Canvas ℝ := ⟨d, Registry.builtin⟩
    d.Keyed ∧ d.Shallow ∧ ∃ s, c.capture? [2] Camera.initial = some s ∧
      let ids := s.candidates.shapes.map (·.id)
      3 ∈ ids ∧ 1 ∉ ids ∧ 2 ∉ ids := by
  intro d c
  have hcaptured : ((c.capture? [2] Camera.initial).map (·.topLevel)) = some [2] := by
    decide +kernel +revert
  have hkeyed : d.Keyed := ((Document.keyed_empty.put _).put _).put _
  have hshallow : d.Shallow := hkeyed.shallow (by clear hcaptured hkeyed c; decide +kernel +revert)
  have hparent : d.ancestors 2 = [1] ∧ d.parentId? 3 = d.parentId? 2 := by
    clear hcaptured hkeyed hshallow c
    decide +kernel +revert
  obtain ⟨s, hcapture, htop⟩ := Option.map_eq_some_iff.1 hcaptured
  obtain ⟨hmem, -, -, -, hnear⟩ := candidates_eligible (c := c) hkeyed hshallow hcapture
  simp only [htop, List.mem_singleton, forall_eq] at hmem hnear
  have hget : ∀ id, d.get? id = if 3 = id then
        some ((Shape.rectangle 3 200 0 20 20).withParent (.shape 1))
      else if 2 = id then some ((Shape.rectangle 2 0 0 10 10).withParent (.shape 1))
      else if 1 = id then some (Shape.group 1 0 0) else none := by
    intro id
    rw [Document.get?_put, Document.get?_put, Document.get?_put, Document.get?_empty]
    rfl
  have hgroup : d.pageTransform? 1 = some (Affine.placement 0 0 0) := by
    rw [hshallow.pageTransform?_eq, hget, if_neg (by decide), if_neg (by decide), if_pos rfl]
    rfl
  have hpage : d.pageTransform? 3 = some (Affine.placement 0 0 0 * Affine.placement 200 0 0) := by
    rw [hshallow.pageTransform?_eq, hget, if_pos rfl]
    simp only [Option.bind_some, Shape.withParent, hgroup, Option.map_some]
    rfl
  have hshown : c.Shows Camera.initial.viewportBounds 3 := by
    refine ⟨⟨_, (hget 3).trans (if_pos rfl), nofun⟩, _,
      pageBounds_eq_ok_iff.2 ⟨_, _, (hget 3).trans (if_pos rfl), hpage, rfl⟩, ?_⟩
    have hbounds : (c.registry.bounds d ((Shape.rectangle 3 200 0 20 20).withParent
        (.shape 1))).transformedBounds (Affine.placement 0 0 0 * Affine.placement 200 0 0) =
          ⟨200, 0, 220, 20⟩ := by
      show (Rect.mk 0 0 20 20).transformedBounds _ = _
      simp only [Rect.transformedBounds, Rect.ofPoints, Rect.unionPoint, Affine.apply,
        Affine.placement, Affine.translate, Affine.rotate_eq, Affine.mul_a, Affine.mul_b,
        Affine.mul_c, Affine.mul_d, Affine.mul_e, Affine.mul_f, Real.cos_zero, Real.sin_zero,
        Scalar.min_eq, Scalar.max_eq]
      norm_num
    rw [hbounds, Camera.viewportBounds_initial]
    rintro (_ | _) <;>
      norm_num [Axis.near, Axis.far, Rect.minX, Rect.maxX, Rect.minY, Rect.maxY, Scalar.min_eq,
        Scalar.max_eq]
  have haround : 3 ∉ d.ancestors 2 ∧ 1 ∈ d.ancestors 2 := by
    rw [hparent.1]
    decide
  refine ⟨hkeyed, hshallow, s, hcapture, ?_, fun h => ?_, fun h => ?_⟩
  · exact hnear 3 hshown (by decide) haround.1 (Or.inr ⟨2, rfl, hparent.2⟩)
  · exact ((hmem 1).1 h).notAround 2 List.mem_cons_self haround.2
  · exact ((hmem 2).1 h).outside 2 List.mem_cons_self (Document.Inside.refl d 2)

end CanvasTransform
