import CanvasTransform.Proofs.Transform.Resize
import CanvasTransform.Proofs.Group.Fit
import CanvasTransform.Proofs.Transform.Walk

set_option autoImplicit false

/-! # A resize is the scaling of the page on every captured shape

The walk of a resize hands every captured shape the new page transform of its parent. Where the
scaling stretches the frames of all captured shapes, that transform is a displacement of the old one
(`Snapshot.exists_scaledParent`), so no shape is skipped and every one reaches its goal on the page,
whatever is above it (`Snapshot.pageTransform?_scale`). The groups that react when the batch is
committed move nothing on the page, so the store shows the scaled shapes. -/

namespace CanvasTransform

variable {s : Snapshot ℝ} {d : Document ℝ} {t : Affine ℝ} {factors : ShapeId → Vec ℝ}
  {id : ShapeId} {m : Member ℝ}

namespace Snapshot

/-! ## The parents of captured shapes -/

/-- The map stretches the frames of all captured shapes, by factors that are not too small to be
    read back. -/
def Stretched (s : Snapshot ℝ) (t : Affine ℝ) (factors : ShapeId → Vec ℝ) : Prop :=
  ∀ id m, s.get? id = some m →
    Scalar.coordTolerance < |(factors id).x| ∧ Scalar.coordTolerance < |(factors id).y| ∧
      t.Stretches m.pageTransform (factors id)

/-- The page transform of a captured shape's parent after the resize. A parent that is not captured
    itself stays where it is. -/
noncomputable def scaledParent (s : Snapshot ℝ) (d : Document ℝ) (t : Affine ℝ)
    (factors : ShapeId → Vec ℝ) (id : ShapeId) (m : Member ℝ) : Affine ℝ :=
  match d.parentId? id with
  | none => m.parentPageTransform
  | some parent =>
    match s.get? parent with
    | none => m.parentPageTransform
    | some p => p.goal t (factors parent)

theorem scaledParent_of_parent {parent : ShapeId} {p : Member ℝ} (hp : d.parentId? id = some parent)
    (hget : s.get? parent = some p) :
    s.scaledParent d t factors id m = p.goal t (factors parent) := by
  simp [scaledParent, hp, hget]

theorem scaledParent_of_top (hs : s.Reflects d) (hid : id ∈ s.topLevel) :
    s.scaledParent d t factors id m = m.parentPageTransform := by
  unfold scaledParent
  cases hp : d.parentId? id with
  | none => rfl
  | some parent => simp [hs.top id hid parent hp]

/-- A resize displaces the parents of captured shapes, and does nothing else to them. -/
theorem exists_scaledParent (hs : s.Reflects d) (hm : s.get? id = some m) :
    ∃ w : Vec ℝ, s.scaledParent d t factors id m = Affine.translate w * m.parentPageTransform := by
  have hstay : ∃ w : Vec ℝ, m.parentPageTransform = Affine.translate w * m.parentPageTransform :=
    ⟨Vec.zero, by simp⟩
  unfold scaledParent
  cases hp : d.parentId? id with
  | none => exact hstay
  | some parent =>
      cases hget : s.get? parent with
      | none => simpa only [hget] using hstay
      | some p =>
          simp only [hget]
          have hpage := hs.parentPage_shape id m hm parent hp
          rw [hs.page parent p hget, Option.some.injEq] at hpage
          rw [← hpage]
          exact ⟨_, p.goal_eq t (factors parent)⟩

namespace Reflects

theorem pageTransform_eq (hs : s.Reflects d) (hshallow : d.Shallow) (hm : s.get? id = some m) :
    m.pageTransform = m.parentPageTransform * m.shape.localTransform := by
  have hpage := hs.page id m hm
  rw [hshallow.pageTransform?_eq, hs.shape id m hm] at hpage
  cases hp : m.shape.parent with
  | page =>
      have hparent := Document.parentId?_eq_none (hs.shape id m hm) hp
      rw [hs.parentPage_page id m hm hparent, Affine.identity_mul]
      simpa [hp] using hpage.symm
  | shape parent =>
      have hparent : d.parentId? id = some parent :=
        Document.parentId?_eq_some_iff.2 ⟨m.shape, hs.shape id m hm, hp⟩
      simpa [hp, hs.parentPage_shape id m hm parent hparent] using hpage.symm

end Reflects

/-! ## The walk -/

/-- The patch of a captured shape, under what its parent has become. -/
def IsScaling (s : Snapshot ℝ) (d : Document ℝ) (t : Affine ℝ) (factors : ShapeId → Vec ℝ)
    (id : ShapeId) (p : Patch ℝ) : Prop :=
  ∃ m, s.get? id = some m ∧
    m.scale Registry.builtin t (s.scaledParent d t factors id m) = .ok p

theorem exists_isScaling (hs : s.Reflects d) (hshallow : d.Shallow) (ht : s.Stretched t factors)
    (hm : s.get? id = some m) :
    ∃ p, m.scale Registry.builtin t (s.scaledParent d t factors id m) = .ok p ∧
      (m.shape.patch p).rotation = m.shape.rotation ∧
      (m.shape.patch p).form = m.shape.scaledForm (factors id) ∧
      s.scaledParent d t factors id m * (m.shape.patch p).localTransform =
        m.goal t (factors id) := by
  obtain ⟨w, hw⟩ := s.exists_scaledParent hs hm
  rw [hw]
  exact Member.scale_eq_ok (hs.isRigid_parentPageTransform hshallow hm)
    (hs.pageTransform_eq hshallow hm) (ht id m hm).1 (ht id m hm).2.2

/-- The walk below a captured shape skips nothing, and gives every shape its patch. -/
theorem scaleSubtree_spec (hs : s.Reflects d) (hkeyed : d.Keyed) (hshallow : d.Shallow)
    (ht : s.Stretched t factors) (n : Nat) (hm : s.get? id = some m) :
    (s.scaleSubtree ⟨d, Registry.builtin⟩ t n id (s.scaledParent d t factors id m)).skipped = [] ∧
    ∀ p ∈ (s.scaleSubtree ⟨d, Registry.builtin⟩ t n id
      (s.scaledParent d t factors id m)).updates, ∃ id', s.IsScaling d t factors id' p := by
  induction n generalizing id m with
  | zero => exact ⟨rfl, nofun⟩
  | succ n ih =>
      obtain ⟨p, hp, -, -, hpage⟩ := exists_isScaling hs hshallow ht hm
      have hcontains : d.contains id = true := Document.contains_of_get? (hs.shape id m hm)
      -- every child is a member, and the page transform that it is handed is its parent's goal
      have hchild : ∀ child ∈ m.children, ∃ m', s.get? child = some m' ∧
          s.scaledParent d t factors child m' = m.goal t (factors id) := by
        intro child hmem
        rw [hs.children id m hm, Document.mem_children_shape_iff hkeyed] at hmem
        obtain ⟨m', hm'⟩ := hs.below id m hm child hmem
        exact ⟨m', hm', scaledParent_of_parent hmem hm⟩
      simp only [scaleSubtree, hm, hcontains, if_true, hp, hpage, Outcome.skipped_append,
        Outcome.updates_append, Outcome.skipped_concat, Outcome.updates_concat]
      constructor
      · refine List.append_eq_nil_iff.2 ⟨rfl, List.flatMap_eq_nil_iff.2 ?_⟩
        simp only [List.mem_map]
        rintro _ ⟨child, hmem, rfl⟩
        obtain ⟨m', hm', hgoal⟩ := hchild child hmem
        rw [← hgoal]
        exact (ih hm').1
      · intro q hq
        rcases List.mem_append.1 hq with hq | hq
        · rw [List.mem_singleton.1 hq]
          exact ⟨id, m, hm, hp⟩
        · simp only [List.mem_flatMap, List.mem_map] at hq
          obtain ⟨_, ⟨child, hmem, rfl⟩, hq⟩ := hq
          obtain ⟨m', hm', hgoal⟩ := hchild child hmem
          rw [← hgoal] at hq
          exact (ih hm').2 q hq

theorem scale_spec (hs : s.Reflects d) (hkeyed : d.Keyed) (hshallow : d.Shallow)
    (ht : s.Stretched t factors) :
    (s.scale ⟨d, Registry.builtin⟩ t).skipped = [] ∧
      ∀ p ∈ (s.scale ⟨d, Registry.builtin⟩ t).updates, ∃ id, s.IsScaling d t factors id p := by
  have htop : ∀ id ∈ s.topLevel, ∀ m, s.get? id = some m →
      s.scaledParent d t factors id m = m.parentPageTransform := fun id hid m _ =>
    scaledParent_of_top hs hid
  rw [scale, Outcome.skipped_concat, Outcome.updates_concat]
  constructor
  · refine List.flatMap_eq_nil_iff.2 ?_
    simp only [List.mem_map]
    rintro _ ⟨id, hid, rfl⟩
    cases hm : s.get? id with
    | none => rfl
    | some m =>
        dsimp only
        rw [← htop id hid m hm]
        exact (scaleSubtree_spec hs hkeyed hshallow ht _ hm).1
  · intro p hp
    simp only [List.mem_flatMap, List.mem_map] at hp
    obtain ⟨_, ⟨id, hid, rfl⟩, hp⟩ := hp
    cases hm : s.get? id with
    | none =>
        rw [hm] at hp
        exact absurd hp List.not_mem_nil
    | some m =>
        simp only [hm] at hp
        rw [← htop id hid m hm] at hp
        exact (scaleSubtree_spec hs hkeyed hshallow ht _ hm).2 p hp

/-! ## Every captured shape is scaled -/

/-- Every captured shape has a patch in the outcome. -/
theorem exists_mem_updates_scale (hs : s.Reflects d) (hkeyed : d.Keyed) (hshallow : d.Shallow)
    (ht : s.Stretched t factors) (hm : s.get? id = some m) :
    ∃ p ∈ (s.scale ⟨d, Registry.builtin⟩ t).updates, p.id = id := by
  have hids := ids_scale (d := d) (hs.keyed hkeyed) (scale_spec hs hkeyed hshallow ht).1
  obtain ⟨top, htop, m', hm', hmem⟩ := hs.exists_topLevel hshallow hm
  have hvisit := hs.mem_visit hkeyed hshallow _ hm' hmem (card_inside_le s d top)
  have : id ∈ (s.scale ⟨d, Registry.builtin⟩ t).updates.map (·.id) := by
    rw [hids]
    exact List.mem_flatMap.2 ⟨top, htop, hvisit⟩
  exact List.mem_map.1 this

/-! ## The document after the scaling -/

/-- The shapes that are not captured stay as they are. -/
theorem get?_scale_of_none (hs : s.Reflects d) (hkeyed : d.Keyed) (hshallow : d.Shallow)
    (ht : s.Stretched t factors) (hnone : s.get? id = none) :
    (d.patchAll (s.scale ⟨d, Registry.builtin⟩ t).updates).get? id = d.get? id := by
  refine Document.get?_patchAll_of_not_mem fun hmem => ?_
  obtain ⟨p, hp, rfl⟩ := List.mem_map.1 hmem
  obtain ⟨id', m, hm, hscale⟩ := (scale_spec hs hkeyed hshallow ht).2 p hp
  have hid : p.id = id' := (Member.id_scale hscale).trans (hs.keyed hkeyed id' m hm)
  rw [hid, hm] at hnone
  exact nomatch hnone

/-- A captured shape keeps its parent and its rotation, takes the factors into its form, and reaches
    its goal as soon as its parent does. -/
theorem get?_scale_of_some (hs : s.Reflects d) (hkeyed : d.Keyed) (hshallow : d.Shallow)
    (ht : s.Stretched t factors) (hm : s.get? id = some m) :
    ∃ shape, (d.patchAll (s.scale ⟨d, Registry.builtin⟩ t).updates).get? id = some shape ∧
      shape.parent = m.shape.parent ∧ shape.rotation = m.shape.rotation ∧
      shape.form = m.shape.scaledForm (factors id) ∧
      s.scaledParent d t factors id m * shape.localTransform = m.goal t (factors id) := by
  obtain ⟨p, hp, hrotation, hform, hgoal⟩ := exists_isScaling hs hshallow ht hm
  -- the patches for the shape are all the same one
  have hunique : ∀ q ∈ (s.scale ⟨d, Registry.builtin⟩ t).updates, q.id = id → q = p := by
    intro q hq hid
    obtain ⟨id', m', hm', hscale⟩ := (scale_spec hs hkeyed hshallow ht).2 q hq
    have : q.id = id' := (Member.id_scale hscale).trans (hs.keyed hkeyed id' m' hm')
    obtain rfl : id = id' := hid.symm.trans this
    rw [hm] at hm'
    obtain rfl := Option.some.inj hm'
    rw [hp] at hscale
    exact (Except.ok.inj hscale).symm
  obtain ⟨q, hq, hid⟩ := exists_mem_updates_scale hs hkeyed hshallow ht hm
  obtain rfl := hunique q hq hid
  refine ⟨m.shape.patch q, ?_, rfl, hrotation, hform, hgoal⟩
  rw [Document.get?_patchAll_of_mem hq hid hunique, hs.shape id m hm, Option.map_some]

/-- **On the page, every captured shape reaches its goal, and every other shape stays.** -/
theorem pageTransform?_scale (hs : s.Reflects d) (hkeyed : d.Keyed) (hshallow : d.Shallow)
    (ht : s.Stretched t factors) (id : ShapeId) :
    (d.patchAll (s.scale ⟨d, Registry.builtin⟩ t).updates).pageTransform? id =
      match s.get? id with
      | some m => some (m.goal t (factors id))
      | none => d.pageTransform? id := by
  have hshallow' := (Document.sameTree_patchAll d
    (s.scale ⟨d, Registry.builtin⟩ t).updates).shallow hshallow
  -- the goals and the old places satisfy the equation of page transforms after the resize
  refine hshallow'.pageTransform?_unique (fun id => match s.get? id with
    | some m => some (m.goal t (factors id))
    | none => d.pageTransform? id) (fun id => ?_) id
  cases hm : s.get? id with
  | none =>
      rw [get?_scale_of_none hs hkeyed hshallow ht hm]
      refine (hshallow.pageTransform?_eq id).trans ?_
      cases hget : d.get? id with
      | none => simp only [Option.bind_none]
      | some shape =>
          simp only [Option.bind_some]
          cases hparent : shape.parent with
          | page => simp only []
          | shape parent =>
              -- the parent is not captured either
              have hp := Document.parentId?_eq_some_iff.2 ⟨shape, hget, hparent⟩
              cases hm' : s.get? parent with
              | none => simp only [hm']
              | some m' =>
                  obtain ⟨m, hm''⟩ := hs.below parent m' hm' id hp
                  rw [hm] at hm''
                  exact nomatch hm''
  | some m =>
      obtain ⟨shape, hget, hparent, -, -, hgoal⟩ := get?_scale_of_some hs hkeyed hshallow ht hm
      simp only [hget, Option.bind_some, hparent]
      rw [← hgoal, scaledParent]
      cases hp : m.shape.parent with
      | page =>
          have hnone := Document.parentId?_eq_none (hs.shape id m hm) hp
          simp [hnone, hs.parentPage_page id m hm hnone]
      | shape parent =>
          have hsome := Document.parentId?_eq_some_iff.2 ⟨m.shape, hs.shape id m hm, hp⟩
          cases hm' : s.get? parent with
          | none => simp [hsome, hm', hs.parentPage_shape id m hm parent hsome]
          | some m' => simp [hsome, hm']

/-- A scaling of the selection stretches the frames of all captured shapes by its factors, in one
    order or the other, if it is uniform or no captured shape is turned against the selection by
    other than whole quarter turns. -/
theorem exists_factors (hs : s.Reflects d) (hshallow : d.Shallow) {sx sy : ℝ} (anchor : Point ℝ)
    (hturn : sx = sy ∨ ∀ id m, s.get? id = some m →
      ∃ k : ℤ, m.pageTransform.rotation - s.box.rotation = k * (Real.pi / 2)) :
    ∃ factors : ShapeId → Vec ℝ, ∀ id m, s.get? id = some m →
      (factors id = ⟨sx, sy⟩ ∨ factors id = ⟨sy, sx⟩) ∧
        (s.box.pageScale ⟨⟨sx, sy⟩, anchor⟩).Stretches m.pageTransform (factors id) := by
  have hpoint : ∀ id, ∃ f : Vec ℝ, ∀ m, s.get? id = some m → (f = ⟨sx, sy⟩ ∨ f = ⟨sy, sx⟩) ∧
      (s.box.pageScale ⟨⟨sx, sy⟩, anchor⟩).Stretches m.pageTransform f := by
    intro id
    cases hm : s.get? id with
    | none => exact ⟨Vec.zero, nofun⟩
    | some m =>
        obtain ⟨f, hf, hstretches⟩ := s.box.stretches_pageScale
          (hshallow.isRigid_pageTransform? (hs.page id m hm)) sx sy anchor
          (hturn.imp_right fun h => h id m hm)
        refine ⟨f, ?_⟩
        rintro _ ⟨⟩
        exact ⟨hf, hstretches⟩
  choose factors hfactors using hpoint
  exact ⟨factors, hfactors⟩

theorem exists_stretched (hs : s.Reflects d) (hshallow : d.Shallow) {sx sy : ℝ}
    (hx : Scalar.coordTolerance < |sx|) (hy : Scalar.coordTolerance < |sy|) (anchor : Point ℝ)
    (hturn : sx = sy ∨ ∀ id m, s.get? id = some m →
      ∃ k : ℤ, m.pageTransform.rotation - s.box.rotation = k * (Real.pi / 2)) :
    ∃ factors, s.Stretched (s.box.pageScale ⟨⟨sx, sy⟩, anchor⟩) factors := by
  obtain ⟨factors, hfactors⟩ := exists_factors hs hshallow anchor hturn
  refine ⟨factors, fun id m hm => ?_⟩
  obtain ⟨hf | hf, hstretches⟩ := hfactors id m hm
  · rw [hf] at hstretches ⊢
    exact ⟨hx, hy, hstretches⟩
  · rw [hf] at hstretches ⊢
    exact ⟨hy, hx, hstretches⟩

end Snapshot

/-! ## The committed resize -/

namespace Canvas

/-- A box shows the corners of its extent. -/
theorem pageCorners_eq_ok {d : Document ℝ} {shape : Shape ℝ} {page : Affine ℝ} (hbox : shape.IsBox)
    (hs : d.get? id = some shape) (hpage : d.pageTransform? id = some page) :
    Canvas.pageCorners ⟨d, Registry.builtin⟩ id =
      .ok ((Behaviour.boxBounds shape).corners.map page.apply) := by
  have hbounds : Registry.builtin.bounds d shape = Behaviour.boxBounds shape := by
    simp only [Shape.IsBox, List.mem_cons, List.not_mem_nil, or_false] at hbox
    rw [Registry.bounds, Registry.boundsWithin, Registry.behaviour]
    rcases hbox with hk | hk | hk | hk <;> rw [hk] <;> rfl
  rw [← hbounds]
  exact pageCorners_eq hs hpage

/-- From one canvas to the other, the shape `s` has become the shape `s'` as the map `t` of the page
    has it: the corners of a box and the vertices of a line are mapped by `t`, and a shape of fixed
    size lies where its mirror image would begin. -/
structure Scaled (c c' : Canvas ℝ) (t : Affine ℝ) (s s' : Shape ℝ) : Prop where
  rotation : s'.rotation = s.rotation
  corners : s.IsBox → ∃ corners corners', c.pageCorners s.id = .ok corners ∧
    c'.pageCorners s.id = .ok corners' ∧ ∀ p, p ∈ corners' ↔ p ∈ corners.map t.apply
  sides : s.IsBox → SignType.sign s'.extent.x = SignType.sign s.extent.x ∧
    SignType.sign s'.extent.y = SignType.sign s.extent.y
  vertices : s.kind = .line → ∃ page page', c.pageTransform s.id = .ok page ∧
    c'.pageTransform s.id = .ok page' ∧
    s'.form.points.map page'.apply = (s.form.points.map page.apply).map t.apply
  fixedSize : s.kind ∈ [Kind.text, .note] → s'.form = s.form ∧
    ∃ page page' factors, c.pageTransform s.id = .ok page ∧ c'.pageTransform s.id = .ok page' ∧
      t.Stretches page factors ∧
      page'.apply ⟨if factors.x < 0 then s.extent.x else 0,
        if factors.y < 0 then s.extent.y else 0⟩ = t.apply (page.apply Point.origin)

/-- A shape that has taken the factors and has reached its goal is scaled. -/
theorem scaled_of_goal {d d' : Document ℝ} {f : Vec ℝ} {shape : Shape ℝ} (hid : m.shape.id = id)
    (hold : d.get? id = some m.shape) (hpage : d.pageTransform? id = some m.pageTransform)
    (hnew : d'.get? id = some shape) (hkind : shape.kind = m.shape.kind)
    (hrotation : shape.rotation = m.shape.rotation) (hform : shape.form = m.shape.scaledForm f)
    (hgoal : m.shape.kind ≠ .group → d'.pageTransform? id = some (m.goal t f))
    (hx : 0 < |f.x|) (hy : 0 < |f.y|) (ht : t.Stretches m.pageTransform f) :
    Scaled ⟨d, Registry.builtin⟩ ⟨d', Registry.builtin⟩ t m.shape shape := by
  have hextent : shape.extent = (m.shape.scaledForm f).extent := by rw [Shape.extent, hform]
  constructor
  case rotation => exact hrotation
  case corners =>
    intro hbox
    have hgroup : m.shape.kind ≠ .group := by
      intro hk
      simp [Shape.IsBox, hk] at hbox
    have hbox' : shape.IsBox := by rwa [Shape.IsBox, hkind]
    rw [hid]
    refine ⟨_, _, pageCorners_eq_ok hbox hold hpage, pageCorners_eq_ok hbox' hnew (hgoal hgroup),
      fun p => ?_⟩
    rw [Behaviour.boxBounds, hextent, List.mem_map, List.map_map, List.mem_map]
    exact Member.mem_corners_goal hbox ht p
  case sides =>
    intro hbox
    rw [hextent, hbox.extent_scaledForm, sign_mul, sign_mul, sign_pos hx, sign_pos hy, mul_one,
      mul_one]
    exact ⟨rfl, rfl⟩
  case vertices =>
    intro hk
    rw [hid]
    refine ⟨_, _, pageTransform_eq_ok hpage, pageTransform_eq_ok (hgoal (by simp [hk])), ?_⟩
    rw [hform, Member.map_points_goal hk ht, List.map_map]
    rfl
  case fixedSize =>
    intro hk
    have hgroup : m.shape.kind ≠ .group := by
      intro hk'
      simp [hk'] at hk
    obtain ⟨hsame, hcorner⟩ := Member.apply_goal_fixedSize hk ht
    rw [hid]
    exact ⟨hform.trans hsame, _, _, _, pageTransform_eq_ok hpage,
      pageTransform_eq_ok (hgoal hgroup), ht, hcorner⟩

end Canvas

/-- What a committed resize leaves of a captured shape. On the page it reaches its goal; a group
    goes on from there to fit what is in it. -/
theorem Store.get?_commit_scale (store : Store ℝ) (hs : s.Reflects store.document)
    (hkeyed : store.document.Keyed) (hshallow : store.document.Shallow)
    (ht : s.Stretched t factors) (hm : s.get? id = some m) :
    let c : Canvas ℝ := ⟨store.document, Registry.builtin⟩
    let d' := (store.update (c.batch (s.scale c t).updates)).document
    ∃ shape v, d'.get? id = some shape ∧ shape.kind = m.shape.kind ∧
      shape.rotation = m.shape.rotation ∧ shape.form = m.shape.scaledForm (factors id) ∧
      d'.pageTransform? id = some (m.goal t (factors id) * Affine.translate v) ∧
      (m.shape.kind ≠ .group ∨ store.document.children (.shape id) = [] → v = Vec.zero) := by
  intro c d'
  have hagree : d'.Agree (store.document.settle Registry.builtin (s.scale c t).updates) :=
    store.commit_agree Registry.builtin _
  have htree := Document.sameTree_patchAll store.document (s.scale c t).updates
  obtain ⟨scaled, hscaled, -, hrotation, hform, -⟩ :=
    Snapshot.get?_scale_of_some hs hkeyed hshallow ht hm
  obtain ⟨shape, hshape, hkind', hrotation', hform'⟩ := Document.get?_refitAll
    (htree.keyed hkeyed) (htree.shallow hshallow)
    (store.document.containers (store.document.reached (s.scale c t).updates)) hscaled
  obtain ⟨v, hpage, hzero⟩ := Document.exists_pageTransform?_refitAll
    (htree.keyed hkeyed) (htree.shallow hshallow)
    (store.document.containers (store.document.reached (s.scale c t).updates)) id
  obtain ⟨old, hold, hstem⟩ := htree.get? hscaled
  rw [hs.shape id m hm] at hold
  obtain rfl := Option.some.inj hold
  have hkind : scaled.kind = m.shape.kind := (Shape.kind_of_stem hstem).symm
  refine ⟨shape, v, (hagree id).trans hshape, hkind'.trans hkind, hrotation'.trans hrotation,
    hform'.trans hform, ?_, fun h => hzero (h.imp ?_ fun h => ?_)⟩
  · rw [hagree.pageTransform?_eq, Document.settle, hpage,
      Snapshot.pageTransform?_scale hs hkeyed hshallow ht, hm, Option.map_some]
  · rintro hgroup ⟨shape', hshape', hk⟩
    rw [hscaled] at hshape'
    rw [← hkind, Option.some.inj hshape'] at hgroup
    exact hgroup hk
  · rw [htree.children_eq]
    exact h

/-- **A resize is exactly the scaling of the page on every captured shape**, if the scaling is
    uniform or no captured shape is turned against the selection by other than whole quarter
    turns. -/
theorem Store.commit_scale (store : Store ℝ) {selection : List ShapeId} {camera : Camera ℝ}
    {snapshot : Snapshot ℝ} {sx sy : ℝ} (anchor : Point ℝ)
    (hkeyed : store.document.Keyed) (hshallow : store.document.Shallow)
    (hcapture : Canvas.capture? ⟨store.document, Registry.builtin⟩ selection camera = some snapshot)
    (hx : Scalar.coordTolerance < |sx|) (hy : Scalar.coordTolerance < |sy|)
    (hturn : sx = sy ∨ ∀ id m, snapshot.get? id = some m →
      ∃ k : ℤ, m.pageTransform.rotation - snapshot.box.rotation = k * (Real.pi / 2)) :
    let c : Canvas ℝ := ⟨store.document, Registry.builtin⟩
    let t := snapshot.box.pageScale ⟨⟨sx, sy⟩, anchor⟩
    let c' : Canvas ℝ :=
      ⟨(store.update (c.batch (snapshot.scale c t).updates)).document, Registry.builtin⟩
    (snapshot.scale c t).skipped = [] ∧ ∀ id m, snapshot.get? id = some m →
      ∃ shape, c'.document.get? id = some shape ∧ c.Scaled c' t m.shape shape := by
  intro c t c'
  have hs : snapshot.Reflects store.document := Canvas.reflects_capture? hkeyed hshallow hcapture
  obtain ⟨factors, ht⟩ := snapshot.exists_stretched hs hshallow hx hy anchor hturn
  refine ⟨(Snapshot.scale_spec hs hkeyed hshallow ht).1, fun id m hm => ?_⟩
  obtain ⟨shape, v, hshape, hkind, hrotation, hform, hpage, hzero⟩ :=
    store.get?_commit_scale hs hkeyed hshallow ht hm
  have hgoal : m.shape.kind ≠ .group →
      c'.document.pageTransform? id = some (m.goal t (factors id)) := fun hgroup => by
    rw [hpage, hzero (Or.inl hgroup), Affine.translate_zero, Affine.mul_identity]
  obtain ⟨hfx, hfy, hstretches⟩ := ht id m hm
  refine ⟨shape, hshape, ?_⟩
  exact Canvas.scaled_of_goal (hs.keyed hkeyed id m hm) (hs.shape id m hm) (hs.page id m hm) hshape
    hkind hrotation hform hgoal (Scalar.coordTolerance_pos.trans hfx)
    (Scalar.coordTolerance_pos.trans hfy) hstretches

/-- A turned frame with a note in it, mirrored along one of its axes. -/
theorem Store.commit_scale_mirrored_frame :
    let d : Document ℝ := (Document.empty.put ((Shape.frame 1 5 5 100 80).withRotation 1)).put
      ((Shape.note 2 10 10 20 20).withParent (.shape 1))
    let c : Canvas ℝ := ⟨d, Registry.builtin⟩
    d.Keyed ∧ d.Shallow ∧ Scalar.coordTolerance < |(-2 : ℝ)| ∧ Scalar.coordTolerance < |(3 : ℝ)| ∧
    ∃ snapshot m, c.capture? [1] Camera.initial = some snapshot ∧ snapshot.get? 2 = some m ∧
      (∀ id m, snapshot.get? id = some m →
        ∃ k : ℤ, m.pageTransform.rotation - snapshot.box.rotation = k * (Real.pi / 2)) ∧
      let t := snapshot.box.pageScale ⟨⟨-2, 3⟩, ⟨1, 1⟩⟩
      let c' : Canvas ℝ :=
        ⟨(Store.update ⟨d, []⟩ (c.batch (snapshot.scale c t).updates)).document, Registry.builtin⟩
      (snapshot.scale c t).skipped = [] ∧
        ∃ shape, c'.document.get? 2 = some shape ∧ c.Scaled c' t m.shape shape := by
  intro d c
  have hcaptured : ((c.capture? [1] Camera.initial).bind (·.get? 2)).isSome = true := by
    decide +kernel +revert
  have htop : d.topLevel [1] = [1] := by clear hcaptured c; decide +kernel +revert
  have hkeyed : d.Keyed := (Document.keyed_empty.put _).put _
  have hshallow : d.Shallow := Document.shallow_put_put rfl rfl (by decide)
  obtain ⟨m, hm⟩ := Option.isSome_iff_exists.1 hcaptured
  obtain ⟨snapshot, hcapture, hm⟩ := Option.bind_eq_some_iff.1 hm
  have hx : Scalar.coordTolerance < |(-2 : ℝ)| := by
    unfold Scalar.coordTolerance
    norm_num
  have hy : Scalar.coordTolerance < |(3 : ℝ)| := by
    unfold Scalar.coordTolerance
    norm_num
  have hreflects := Canvas.reflects_capture? hkeyed hshallow hcapture
  -- the note is not turned within the frame, so both are turned like the selection
  have hget : ∀ id, d.get? id = if 2 = id then
        some ((Shape.note 2 10 10 20 20).withParent (.shape 1))
      else if 1 = id then some ((Shape.frame 1 5 5 100 80).withRotation 1) else none := by
    intro id
    rw [Document.get?_put, Document.get?_put, Document.get?_empty]
    rfl
  have hframe : d.pageTransform? 1 = some (Affine.placement 5 5 (Angle.normalize 1)) := by
    rw [hshallow.pageTransform?_eq, hget, if_neg (by decide), if_pos rfl]
    rfl
  have hnote : d.pageTransform? 2 = some (Affine.placement 5 5 (Angle.normalize 1) *
      Affine.placement 10 10 0) := by
    rw [hshallow.pageTransform?_eq, hget, if_pos rfl]
    simp only [Option.bind_some, Shape.withParent, hframe, Option.map_some]
    rfl
  have hsame : (Affine.placement 5 5 (Angle.normalize (1 : ℝ)) * Affine.placement 10 10 0).rotation =
      (Affine.placement 5 5 (Angle.normalize (1 : ℝ))).rotation := by
    simp [Affine.rotation, Affine.placement, Affine.translate, Affine.rotate_eq]
  have hturn : ∀ id m, snapshot.get? id = some m →
      ∃ k : ℤ, m.pageTransform.rotation - snapshot.box.rotation = k * (Real.pi / 2) := by
    intro id m hm
    obtain ⟨htop', hbox, -⟩ := Canvas.get?_capture? hcapture 1
    rw [htop', htop] at hbox
    have hpage := hreflects.page id m hm
    have hshape := hreflects.shape id m hm
    rw [hget] at hshape
    refine ⟨0, ?_⟩
    rw [Canvas.rotation_selectionBox? hframe hbox, Int.cast_zero, zero_mul, sub_eq_zero]
    split_ifs at hshape with h2 h1
    · rw [← h2, hnote] at hpage
      rw [← Option.some.inj hpage, hsame]
    · rw [← h1, hframe] at hpage
      rw [← Option.some.inj hpage]
  refine ⟨hkeyed, hshallow, hx, hy, snapshot, m, hcapture, hm, hturn, ?_⟩
  obtain ⟨hskipped, hscaled⟩ :=
    Store.commit_scale ⟨d, []⟩ ⟨1, 1⟩ hkeyed hshallow hcapture hx hy (Or.inr hturn)
  exact ⟨hskipped, hscaled 2 m hm⟩

end CanvasTransform
