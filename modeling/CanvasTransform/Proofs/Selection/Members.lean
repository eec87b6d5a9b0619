import CanvasTransform.Proofs.Document.Frames
import CanvasTransform.Proofs.Selection.Capture

set_option autoImplicit false

/-! # Which shapes a snapshot holds

A snapshot of a shallow document reflects it (`Snapshot.Reflects`): every member is a shape of the
document with its place on the page, what hangs below a member is a member, and above a member there
are members up to a top-level shape and none beyond. -/

namespace CanvasTransform

variable {α : Type} [Scalar α]

/-- The members of the snapshot are shapes of the document, and form whole subtrees of it below the
    top-level shapes. -/
structure Snapshot.Reflects (s : Snapshot α) (d : Document α) : Prop where
  shape : ∀ id m, s.get? id = some m → d.get? id = some m.shape
  page : ∀ id m, s.get? id = some m → d.pageTransform? id = some m.pageTransform
  children : ∀ id m, s.get? id = some m → m.children = d.children (.shape id)
  parentPage_page : ∀ id m, s.get? id = some m → d.parentId? id = none →
    m.parentPageTransform = Affine.identity
  parentPage_shape : ∀ id m, s.get? id = some m → ∀ parent, d.parentId? id = some parent →
    d.pageTransform? parent = some m.parentPageTransform
  below : ∀ parent m, s.get? parent = some m → ∀ id, d.parentId? id = some parent →
    ∃ m', s.get? id = some m'
  above : ∀ id m, s.get? id = some m → id ∈ s.topLevel ∨
    ∃ parent m', d.parentId? id = some parent ∧ s.get? parent = some m'
  top : ∀ id ∈ s.topLevel, ∀ parent, d.parentId? id = some parent → s.get? parent = none
  nodup : s.topLevel.Nodup

theorem Snapshot.Reflects.keyed {s : Snapshot α} {d : Document α} (hs : s.Reflects d)
    (hkeyed : d.Keyed) : s.Keyed := fun id m hm => hkeyed id m.shape (hs.shape id m hm)

theorem Snapshot.Reflects.isRigid_parentPageTransform {s : Snapshot ℝ} {d : Document ℝ}
    {id : ShapeId} {m : Member ℝ} (hs : s.Reflects d) (hshallow : d.Shallow)
    (hm : s.get? id = some m) : m.parentPageTransform.IsRigid := by
  cases hp : d.parentId? id with
  | none =>
      rw [hs.parentPage_page id m hm hp]
      exact Affine.isRigid_identity
  | some parent => exact hshallow.isRigid_pageTransform? (hs.parentPage_shape id m hm parent hp)

namespace Canvas

section
variable {id : ShapeId} {c : Canvas ℝ}

/-- The box around one shape is turned like the shape. -/
theorem rotation_selectionBox? {box : OrientedBox ℝ} {page : Affine ℝ}
    (hpage : c.document.pageTransform? id = some page) (h : c.selectionBox? [id] = some box) :
    box.rotation = page.rotation := by
  have hrotation : c.pageRotation id = .ok page.rotation := by
    rw [pageRotation, pageTransform_eq_ok hpage]
    rfl
  have hsame : Angle.same page.rotation page.rotation = true := Angle.same_of_cos_sin rfl rfl
  simp only [selectionBox?, List.filterMap_cons, List.filterMap_nil, hrotation, Except.toOption,
    List.head?_cons, Option.bind_eq_bind, Option.bind_some, List.all_cons, hsame, List.all_nil,
    Bool.and_self, if_true, Option.bind_eq_some_iff, Option.pure_def, Option.some.injEq] at h
  obtain ⟨rect, -, rfl⟩ := h
  rfl

/-- The box around one shape is centered where the middle of the shape's bounds lies. -/
theorem pageCenter_selectionBox? {box : OrientedBox ℝ} {page : Affine ℝ} {shape : Shape ℝ}
    (hs : c.document.get? id = some shape) (hpage : c.document.pageTransform? id = some page)
    (hrigid : page.IsRigid) (h : c.selectionBox? [id] = some box) :
    box.pageCenter = page.apply (c.registry.bounds c.document shape).center := by
  have hrotation := rotation_selectionBox? hpage h
  obtain ⟨v, hframe, hback⟩ := hrigid.exists_rotate_neg_mul
  simp only [selectionBox?, Option.bind_eq_bind, Option.bind_eq_some_iff, Option.pure_def,
    Option.some.injEq] at h
  obtain ⟨first, -, rect, hrect, rfl⟩ := h
  dsimp only at hrotation
  rw [hrotation] at hrect ⊢
  have hcorners := pageCorners_eq hs hpage
  -- in the frame of the box, the bounds are only displaced
  have hmap : ∀ p, (Affine.rotate (-page.rotation)).apply (page.apply p) = p + v := fun p => by
    rw [← Affine.apply_mul, hframe, Affine.apply_translate]
  have hbounds : Rect.boundsOf? ((c.registry.bounds c.document shape).corners.map
      fun p => (p + v : Point ℝ)) = some rect := by
    simp only [List.filterMap_cons, boundsInFrame, hcorners, Bind.bind, Except.bind, List.map_map,
      Function.comp_def, hmap] at hrect
    cases hbox : Rect.boundsOf? ((c.registry.bounds c.document shape).corners.map
        fun p => (p + v : Point ℝ)) with
    | none => rw [hbox] at hrect; exact absurd hrect.symm (Option.some_ne_none rect)
    | some box => rw [hbox] at hrect; exact hrect
  rw [OrientedBox.pageCenter, OrientedBox.toPage, Rect.center_of_boundsOf?_corners _ _ hbounds,
    ← Affine.apply_translate, ← Affine.apply_mul, hback]

end

/-- **A snapshot reflects the document that it is taken of.** -/
theorem reflects_capture? {c : Canvas α} {selection : List ShapeId} {camera : Camera α}
    {s : Snapshot α} (hkeyed : c.document.Keyed) (hshallow : c.document.Shallow)
    (h : c.capture? selection camera = some s) : s.Reflects c.document := by
  have htop : ∀ id, id ∈ s.topLevel ↔ id ∈ selection ∧ c.document.contains id = true ∧
      ∀ a ∈ c.document.ancestors id, a ∉ selection := by
    intro id
    rw [(get?_capture? h id).1]
    exact Document.mem_topLevel_iff
  have hget : ∀ id m, s.get? id = some m ↔
      (∃ top ∈ s.topLevel, c.document.Inside top id) ∧ c.member? id = some m :=
    fun _ _ => get?_eq_some_iff hkeyed hshallow h
  have hmember : ∀ id m, s.get? id = some m → c.member? id = some m := fun id m hm =>
    member?_of_capture? h hm
  have hparentPage : ∀ id m, s.get? id = some m →
      (c.document.parentId? id).elim (some Affine.identity) c.document.pageTransform? =
        some m.parentPageTransform := by
    intro id m hm
    obtain ⟨hshape, -, hparent, -⟩ := member?_eq_some_iff.1 (hmember id m hm)
    exact (parentPageTransform_toOption hshape).symm.trans hparent
  constructor
  case shape => exact fun id m hm => (member?_eq_some_iff.1 (hmember id m hm)).1
  case page => exact fun id m hm => (member?_eq_some_iff.1 (hmember id m hm)).2.1
  case children => exact fun id m hm => (member?_eq_some_iff.1 (hmember id m hm)).2.2.2
  case parentPage_page =>
    intro id m hm hp
    have := hparentPage id m hm
    rw [hp] at this
    exact (Option.some.inj this).symm
  case parentPage_shape =>
    intro id m hm parent hp
    have := hparentPage id m hm
    rwa [hp] at this
  case below =>
    intro parent m hm id hp
    -- a child of a shape with a place on the page has one too, so it was captured along
    obtain ⟨⟨top, htopLevel, hor⟩, hm⟩ := (hget parent m).1 hm
    obtain ⟨m', hm'⟩ := (exists_member?_iff hshallow).2
      (((exists_member?_iff hshallow).1 ⟨m, hm⟩).child hp)
    exact ⟨m', (hget id m').2 ⟨⟨top, htopLevel, Or.inr (hshallow.mem_ancestors_iff.2
      ⟨parent, hp, hor.imp_left Eq.symm⟩)⟩, hm'⟩⟩
  case above =>
    intro id m hm
    obtain ⟨⟨top, htopLevel, rfl | hmem⟩, hm⟩ := (hget id m).1 hm
    · exact Or.inl htopLevel
    · obtain ⟨parent, hp, hor⟩ := hshallow.mem_ancestors_iff.1 hmem
      obtain ⟨m', hm'⟩ := (exists_member?_iff hshallow).2
        (((exists_member?_iff hshallow).1 ⟨m, hm⟩).above (.parent hp))
      exact Or.inr ⟨parent, m', hp, (hget parent m').2 ⟨⟨top, htopLevel, hor.imp_left Eq.symm⟩, hm'⟩⟩
  case nodup =>
    rw [(get?_capture? h 0).1]
    exact Document.nodup_topLevel _ _
  case top =>
    intro id hid parent hp
    cases hm : s.get? parent with
    | none => rfl
    | some m =>
        -- a selected shape would lie above the top-level one
        obtain ⟨⟨top, htopLevel, hor⟩, -⟩ := (hget parent m).1 hm
        have hmem : top ∈ c.document.ancestors id :=
          hshallow.mem_ancestors_iff.2 ⟨parent, hp, hor.imp_left Eq.symm⟩
        exact absurd ((htop top).1 htopLevel).1 (((htop id).1 hid).2.2 top hmem)

end Canvas

end CanvasTransform
