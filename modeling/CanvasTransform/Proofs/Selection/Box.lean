import CanvasTransform.Proofs.Group.Bounds
import CanvasTransform.Proofs.Selection.Members

set_option autoImplicit false

/-! # What the box around a selection depends on

Read exactly, the box around a selection depends on two things (`Canvas.selectionBox?_eq_some_iff`):
on the rotations of the selected shapes, which say how it is turned, and on where their corners lie
on the page, which span it in the frame that is turned so. A selection with a box can be captured
(`Canvas.exists_capture?`). -/

namespace CanvasTransform

theorem Document.exists_get?_of_pageTransform? {d : Document ℝ} {id : ShapeId} {page : Affine ℝ}
    (h : d.pageTransform? id = some page) : ∃ s, d.get? id = some s := by
  obtain ⟨s, hs, -⟩ := Option.bind_eq_some_iff.1 h
  exact ⟨s, hs⟩

namespace Canvas

variable {c : Canvas ℝ} {ids : List ShapeId} {id : ShapeId} {box : OrientedBox ℝ}

/-- A shape without a place on the page shows no corners. -/
theorem cornerSet_eq_empty (h : c.document.pageTransform? id = none) : c.cornerSet id = ∅ := by
  have herror : c.pageCorners id = .error (.shapeNotFound id) := by
    rw [pageCorners, pageTransform, h]
    rfl
  ext p
  simp [cornerSet, herror]

/-- A shape either has no place on the page and no bounds in any frame, or its bounds in a frame are
    spanned by its corners. -/
theorem boundsInFrame_cases (c : Canvas ℝ) (id : ShapeId) (r : ℝ) :
    (c.boundsInFrame id r).toOption = none ∧ c.cornerSet id = ∅ ∨
      ∃ b, (c.boundsInFrame id r).toOption = some b ∧
        b.Spans ((Affine.rotate (-r)).apply '' c.cornerSet id) := by
  cases hpage : c.document.pageTransform? id with
  | none =>
      refine Or.inl ⟨?_, cornerSet_eq_empty hpage⟩
      rw [boundsInFrame, pageCorners, pageTransform, hpage]
      rfl
  | some page =>
      obtain ⟨s, hs⟩ := Document.exists_get?_of_pageTransform? hpage
      have hcorners := pageCorners_eq hs hpage
      generalize hps : (c.registry.bounds c.document s).corners.map page.apply = ps at hcorners
      obtain ⟨b, hb⟩ : ∃ b, Rect.boundsOf? (ps.map (Affine.rotate (-r)).apply) = some b := by
        rw [← hps]
        exact ⟨_, rfl⟩
      refine Or.inr ⟨b, ?_, ?_⟩
      · simp only [boundsInFrame, hcorners, Bind.bind, Except.bind, hb]
        rfl
      · have hset : (Affine.rotate (-r)).apply '' c.cornerSet id =
            {p | p ∈ ps.map (Affine.rotate (-r)).apply} := by
          rw [cornerSet_eq_of_ok hcorners]
          ext p
          simp
        rw [hset]
        exact Rect.boundsOf?_eq_some_iff.1 hb

/-- How the box around the selection is turned, if any selected shape has a place on the page. -/
noncomputable def turn? (c : Canvas ℝ) (ids : List ShapeId) : Option ℝ :=
  let rotations := ids.filterMap fun id => (c.pageRotation id).toOption
  rotations.head?.map fun first => if rotations.all (Angle.same · first) then first else 0

/-- **What the box depends on**: how the shapes are turned, and where their corners lie. -/
theorem selectionBox?_eq_some_iff : c.selectionBox? ids = some box ↔
    c.turn? ids = some box.rotation ∧
      box.rect.Spans (box.toFrame.apply '' {p | ∃ id ∈ ids, p ∈ c.cornerSet id}) := by
  have hrect : ∀ (r : ℝ) (b : Rect ℝ),
      Rect.unionAll? (ids.filterMap fun id => (c.boundsInFrame id r).toOption) = some b ↔
        b.Spans ((Affine.rotate (-r)).apply '' {p | ∃ id ∈ ids, p ∈ c.cornerSet id}) := by
    intro r b
    have hsome : ∀ id ∈ ids, ∀ b, (c.boundsInFrame id r).toOption = some b →
        b.Spans ((Affine.rotate (-r)).apply '' c.cornerSet id) := by
      intro id _ b hb
      obtain ⟨hnone, -⟩ | ⟨b', hsome, hspans⟩ := c.boundsInFrame_cases id r
      · rw [hnone] at hb
        exact nomatch hb
      · rw [hsome] at hb
        exact Option.some.inj hb ▸ hspans
    have hnone : ∀ id ∈ ids, (c.boundsInFrame id r).toOption = none →
        (Affine.rotate (-r)).apply '' c.cornerSet id = ∅ := by
      intro id _ hb
      obtain ⟨-, hempty⟩ | ⟨b', hsome, -⟩ := c.boundsInFrame_cases id r
      · rw [hempty, Set.image_empty]
      · rw [hsome] at hb
        exact nomatch hb
    have hset : {p | ∃ id ∈ ids, p ∈ (Affine.rotate (-r)).apply '' c.cornerSet id} =
        (Affine.rotate (-r)).apply '' {p | ∃ id ∈ ids, p ∈ c.cornerSet id} := by
      ext p
      constructor
      · rintro ⟨id, hid, q, hq, rfl⟩
        exact ⟨q, ⟨id, hid, hq⟩, rfl⟩
      · rintro ⟨q, ⟨id, hid, hq⟩, rfl⟩
        exact ⟨id, hid, q, hq, rfl⟩
    rw [Rect.unionAll?_filterMap_eq_some_iff hsome hnone, hset]
  simp only [selectionBox?, turn?, Option.bind_eq_bind, Option.bind_eq_some_iff, Option.pure_def,
    Option.some.injEq, Option.map_eq_some_iff, hrect]
  constructor
  · rintro ⟨first, hfirst, rect, hspans, rfl⟩
    exact ⟨⟨first, hfirst, rfl⟩, hspans⟩
  · rintro ⟨⟨first, hfirst, hrotation⟩, hspans⟩
    refine ⟨first, hfirst, box.rect, ?_, ?_⟩
    · rw [hrotation]
      exact hspans
    · rw [hrotation]

/-- There is a box as soon as one of the shapes has a place on the page. -/
theorem exists_selectionBox?_iff : (∃ box, c.selectionBox? ids = some box) ↔
    ∃ id ∈ ids, ∃ page, c.document.pageTransform? id = some page := by
  constructor
  · rintro ⟨box, hbox⟩
    obtain ⟨_, p, ⟨id, hid, hp⟩, -⟩ := (selectionBox?_eq_some_iff.1 hbox).2.nonempty
    refine ⟨id, hid, Option.ne_none_iff_exists'.1 fun hpage => ?_⟩
    rw [cornerSet_eq_empty hpage] at hp
    exact hp
  · rintro ⟨id, hid, page, hpage⟩
    have hrotation : page.rotation ∈ ids.filterMap fun id => (c.pageRotation id).toOption := by
      refine List.mem_filterMap.2 ⟨id, hid, ?_⟩
      rw [pageRotation, pageTransform_eq_ok hpage]
      rfl
    have hrect : ∀ r, ∃ rect, Rect.unionAll? (ids.filterMap fun id =>
        (c.boundsInFrame id r).toOption) = some rect := by
      intro r
      obtain ⟨-, hempty⟩ | ⟨b, hb, -⟩ := c.boundsInFrame_cases id r
      · obtain ⟨s, hs⟩ := Document.exists_get?_of_pageTransform? hpage
        rw [cornerSet_eq hs hpage, Set.image_eq_empty] at hempty
        exact absurd hempty (Set.nonempty_iff_ne_empty.1 ⟨_, List.mem_cons_self⟩)
      · have hmem : b ∈ ids.filterMap fun id => (c.boundsInFrame id r).toOption :=
          List.mem_filterMap.2 ⟨id, hid, hb⟩
        cases hl : ids.filterMap fun id => (c.boundsInFrame id r).toOption with
        | nil =>
            rw [hl] at hmem
            exact absurd hmem List.not_mem_nil
        | cons r rs => exact ⟨_, rfl⟩
    obtain ⟨first, hfirst⟩ :=
      Option.isSome_iff_exists.1 (List.isSome_head?.2 (List.ne_nil_of_mem hrotation))
    simp only [selectionBox?, hfirst, Option.bind_eq_bind, Option.bind_some]
    obtain ⟨rect, hrect⟩ := hrect (if (ids.filterMap fun id => (c.pageRotation id).toOption).all
      (Angle.same · first) then first else 0)
    rw [hrect]
    exact ⟨_, rfl⟩

/-- The box around one shape that is neither turned nor moved on the page is that of its bounds. -/
theorem selectionBox?_of_identity {s : Shape ℝ} {r : Rect ℝ} (hs : c.document.get? id = some s)
    (hpage : c.document.pageTransform? id = some Affine.identity)
    (hbounds : c.registry.bounds c.document s = r) (hwidth : r.x0 ≤ r.x1) (hheight : r.y0 ≤ r.y1)
    (hbox : c.selectionBox? [id] = some box) : box = ⟨r, 0⟩ := by
  have hrotation : box.rotation = 0 :=
    (rotation_selectionBox? hpage hbox).trans Affine.rotation_identity
  have hspans := (selectionBox?_eq_some_iff.1 hbox).2
  have hframe : box.toFrame = Affine.identity := by
    rw [OrientedBox.toFrame, hrotation, neg_zero, Affine.rotate_zero]
  have hcorners : box.toFrame.apply '' {p | ∃ id' ∈ [id], p ∈ c.cornerSet id'} =
      {p | p ∈ r.corners} := by
    ext p
    simp [hframe, cornerSet_eq hs hpage, hbounds]
  rw [hcorners] at hspans
  rw [← hspans.eq (Rect.spans_corners hwidth hheight), ← hrotation]

/-- A selection with a box can be captured. -/
theorem exists_capture? {selection : List ShapeId}
    (h : c.selectionBox? (c.document.topLevel selection) = some box) (camera : Camera ℝ) :
    ∃ s, c.capture? selection camera = some s := by
  -- a shape that shows in the box shows upright bounds too
  obtain ⟨-, -, ⟨p, ⟨id, hid, hp⟩, -⟩⟩ :=
    And.imp_right Rect.Spans.nonempty (selectionBox?_eq_some_iff.1 h)
  have hbounds : ∃ b, c.pageBounds id = .ok b := by
    cases hpage : c.document.pageTransform? id with
    | none =>
        rw [cornerSet_eq_empty hpage] at hp
        exact absurd hp (Set.notMem_empty p)
    | some page =>
        obtain ⟨s, hs⟩ := Document.exists_get?_of_pageTransform? hpage
        exact ⟨_, pageBounds_eq_ok_iff.2 ⟨s, page, hs, hpage, rfl⟩⟩
  obtain ⟨b, hb⟩ := hbounds
  have hmem : b ∈ (c.document.topLevel selection).filterMap fun id => (c.pageBounds id).toOption :=
    List.mem_filterMap.2 ⟨id, hid, by rw [hb]; rfl⟩
  simp only [capture?, h, Option.bind_eq_bind, Option.bind_some]
  cases hall : (c.document.topLevel selection).filterMap fun id => (c.pageBounds id).toOption with
  | nil =>
      rw [hall] at hmem
      exact absurd hmem List.not_mem_nil
  | cons r rs => exact ⟨_, rfl⟩

end Canvas

end CanvasTransform
