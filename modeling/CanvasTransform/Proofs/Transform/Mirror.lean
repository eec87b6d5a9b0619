import CanvasTransform.Proofs.Selection.Box
import CanvasTransform.Proofs.Transform.Scaling

set_option autoImplicit false

/-! # Mirroring the page

A scaling whose factors are of magnitude one mirrors. It changes no extent, so that not only boxes
but also shapes of fixed size end up exactly where the mirror takes them. With that the corners of
every captured shape are mirrored (`Snapshot.ScaledTo.cornerSet_eq`), by induction from the children
of a shape to the shape: the frame of a group and the frame of its image differ by a map that keeps
the axes, and such a map takes the box around the children's corners to the box around their
images. -/

namespace CanvasTransform

variable {s : Snapshot ℝ} {d d' : Document ℝ} {t : Affine ℝ} {factors : ShapeId → Vec ℝ}
  {id : ShapeId} {m : Member ℝ} {shape : Shape ℝ} {page : Affine ℝ} {f : Vec ℝ}

/-! ## What a scaling leaves -/

/-- What a committed scaling leaves of a member: the form has taken the factors, and the frame has
    reached its goal, except that a group with children has gone on to fit them. -/
structure Member.ScaledTo (m : Member ℝ) (t : Affine ℝ) (f : Vec ℝ) (shape : Shape ℝ)
    (page : Affine ℝ) : Prop where
  kind : shape.kind = m.shape.kind
  form : shape.form = m.shape.scaledForm f
  page : ∃ v : Vec ℝ, page = m.goal t f * Affine.translate v ∧
    (m.shape.kind ≠ .group ∨ m.children = [] → v = Vec.zero)

/-- In the document, every captured shape is as a committed scaling leaves it. -/
def Snapshot.ScaledTo (s : Snapshot ℝ) (d' : Document ℝ) (t : Affine ℝ)
    (factors : ShapeId → Vec ℝ) : Prop :=
  ∀ id m, s.get? id = some m → ∃ shape page, d'.get? id = some shape ∧
    d'.pageTransform? id = some page ∧ m.ScaledTo t (factors id) shape page

theorem Store.scaledTo_commit_scale (store : Store ℝ) (hs : s.Reflects store.document)
    (hkeyed : store.document.Keyed) (hshallow : store.document.Shallow)
    (ht : s.Stretched t factors) :
    let c : Canvas ℝ := ⟨store.document, Registry.builtin⟩
    s.ScaledTo (store.update (c.batch (s.scale c t).updates)).document t factors := by
  intro c id m hm
  obtain ⟨shape, v, hshape, hkind, -, hform, hpage, hzero⟩ :=
    store.get?_commit_scale hs hkeyed hshallow ht hm
  rw [← hs.children id m hm] at hzero
  exact ⟨shape, _, hshape, hpage, hkind, hform, v, rfl, hzero⟩

namespace Member.ScaledTo

/-- A scaling displaces frames, and does nothing else to them. -/
theorem exists_translate (h : m.ScaledTo t f shape page) :
    ∃ w : Vec ℝ, page = Affine.translate w * m.pageTransform := by
  obtain ⟨v, rfl, -⟩ := h.page
  rw [Affine.mul_translate, m.goal_eq, ← Affine.mul_assoc, Affine.translate_mul_translate]
  exact ⟨_, rfl⟩

theorem rotation_page (h : m.ScaledTo t f shape page) :
    page.rotation = m.pageTransform.rotation := by
  obtain ⟨w, rfl⟩ := h.exists_translate
  simp [Affine.rotation, Affine.translate]

theorem stretches (h : m.ScaledTo t f shape page) {t' : Affine ℝ} {f' : Vec ℝ}
    (ht : t'.Stretches m.pageTransform f') : t'.Stretches page f' := by
  obtain ⟨w, rfl⟩ := h.exists_translate
  have hx : (Affine.translate w * m.pageTransform).xAxis = m.pageTransform.xAxis := by
    simp [Affine.xAxis, Affine.translate]
  have hy : (Affine.translate w * m.pageTransform).yAxis = m.pageTransform.yAxis := by
    simp [Affine.yAxis, Affine.translate]
  exact ⟨hx ▸ ht.xAxis, hy ▸ ht.yAxis⟩

theorem page_eq_goal (h : m.ScaledTo t f shape page)
    (hstay : m.shape.kind ≠ .group ∨ m.children = []) : page = m.goal t f := by
  obtain ⟨v, hpage, hzero⟩ := h.page
  rw [hpage, hzero hstay, Affine.translate_zero, Affine.mul_identity]

end Member.ScaledTo

/-! ## Shapes with an extent -/

/-- The bounds of all but lines and groups are the box of the extent. -/
theorem Registry.bounds_eq_boxBounds (d : Document ℝ) {shape : Shape ℝ}
    (hline : shape.kind ≠ .line) (hgroup : shape.kind ≠ .group) :
    builtin.bounds d shape = Behaviour.boxBounds shape := by
  rw [bounds, boundsWithin, behaviour]
  cases hk : shape.kind with
  | line => exact absurd hk hline
  | group => exact absurd hk hgroup
  | _ => rfl

/-- A shape with an extent keeps it when it is mirrored, and has its origin moved to the other end
    of it. -/
theorem Shape.extent_of_mirrored {shape : Shape ℝ} (hline : shape.kind ≠ .line)
    (hgroup : shape.kind ≠ .group) (hx : |f.x| = 1) (hy : |f.y| = 1) :
    (shape.scaledForm f).extent = ⟨shape.extent.x * |f.x|, shape.extent.y * |f.y|⟩ ∧
      shape.flipShift f = ⟨if f.x < 0 then -(shape.extent.x * |f.x|) else 0,
        if f.y < 0 then -(shape.extent.y * |f.y|) else 0⟩ := by
  by_cases hbox : shape.IsBox
  · exact ⟨hbox.extent_scaledForm f, hbox.flipShift_eq f⟩
  · -- of the other kinds, only those of fixed size have an extent
    have hfixed : shape.kind = .text ∨ shape.kind = .note := by
      cases hk : shape.kind <;> simp_all [Shape.IsBox]
    rw [hx, hy, mul_one, mul_one]
    rcases hfixed with hk | hk <;> simp only [scaledForm, flipShift, hk] <;> exact ⟨rfl, rfl⟩

/-! ## Corners -/

theorem Registry.bounds_of_childless (hd : d.Keyed) (hshallow : d.Shallow)
    (hget : d.get? id = some shape) (hk : shape.kind = .group)
    (hempty : d.children (.shape id) = []) : builtin.bounds d shape = Rect.zero := by
  rw [bounds_eq hd hshallow.acyclic, hk]
  show Behaviour.groupBounds d _ shape = Rect.zero
  rw [Behaviour.groupBounds, Behaviour.childrenOf, hd id shape hget, hempty]
  rfl

/-- If the corners of the children of a shape are mapped, then so is the set of all of them. -/
theorem Canvas.childCorners_eq_image {r r' : Registry ℝ} (htree : d'.SameTree d)
    (h : ∀ child, d.parentId? child = some id →
      Canvas.cornerSet ⟨d', r'⟩ child = t.apply '' Canvas.cornerSet ⟨d, r⟩ child) :
    Canvas.childCorners ⟨d', r'⟩ id = t.apply '' Canvas.childCorners ⟨d, r⟩ id := by
  ext p
  constructor
  · rintro ⟨child, hp, hmem⟩
    have hp : d.parentId? child = some id := (htree.parentId?_eq child).symm.trans hp
    rw [h child hp] at hmem
    obtain ⟨p, hmem, rfl⟩ := hmem
    exact ⟨p, ⟨child, hp, hmem⟩, rfl⟩
  · rintro ⟨p, ⟨child, hp, hmem⟩, rfl⟩
    refine ⟨child, (htree.parentId?_eq child).trans hp, ?_⟩
    rw [h child hp]
    exact Set.mem_image_of_mem _ hmem

/-- Where the frames and the bounds correspond by a map that keeps the axes, so do the corners. -/
theorem Canvas.cornerSet_of_image {c c' : Canvas ℝ} {old new : Shape ℝ} {page page' q : Affine ℝ}
    (hold : c.document.get? id = some old) (hpage : c.document.pageTransform? id = some page)
    (hnew : c'.document.get? id = some new) (hpage' : c'.document.pageTransform? id = some page')
    (hq : q.KeepsAxes) (ht : t * page = page' * q)
    (hbounds : c'.registry.bounds c'.document new = (c.registry.bounds c.document old).image q) :
    c'.cornerSet id = t.apply '' c.cornerSet id := by
  rw [cornerSet_eq hold hpage, cornerSet_eq hnew hpage', hbounds, Rect.corners_image hq]
  simp only [Set.image_image, ← Affine.apply_mul, ht]

namespace Snapshot

/-- The map mirrors the frames of all captured shapes along axes of theirs. -/
def Mirrors (s : Snapshot ℝ) (t : Affine ℝ) (factors : ShapeId → Vec ℝ) : Prop :=
  ∀ id m, s.get? id = some m →
    |(factors id).x| = 1 ∧ |(factors id).y| = 1 ∧ t.Stretches m.pageTransform (factors id)

theorem Mirrors.stretched (h : s.Mirrors t factors) : s.Stretched t factors := by
  intro id m hm
  obtain ⟨hx, hy, hstretches⟩ := h id m hm
  have hone : Scalar.coordTolerance < (1 : ℝ) := by
    unfold Scalar.coordTolerance
    norm_num
  exact ⟨hx ▸ hone, hy ▸ hone, hstretches⟩

end Snapshot

namespace Member.ScaledTo

/-- A line or a group corresponds to its image by a map within the frame that keeps the axes. -/
theorem mul_pageTransform (h : m.ScaledTo t f shape page) (ht : t.Stretches m.pageTransform f)
    (hshift : m.shape.flipShift f = Vec.zero) :
    ∃ q, q.KeepsAxes ∧ t * m.pageTransform = page * q ∧
      (m.shape.kind ≠ .group ∨ m.children = [] → q = Affine.scale f.x f.y) := by
  obtain ⟨v, rfl, hzero⟩ := h.page
  have hback : Affine.translate v * Affine.translate (-v) = Affine.identity := by
    rw [Affine.translate_mul_translate]
    ext <;> simp [Affine.translate, Affine.identity]
  refine ⟨Affine.translate (-v) * Affine.scale f.x f.y,
    (Affine.keepsAxes_translate _).mul (Affine.keepsAxes_scale _ _), ?_, fun hstay => ?_⟩
  · rw [Affine.mul_assoc, ← Affine.mul_assoc (Affine.translate v), hback, Affine.identity_mul,
      ht.mul_eq, goal, hshift, Affine.translate_zero, Affine.mul_identity]
  · rw [hzero hstay, Vec.neg_zero_vec, Affine.translate_zero, Affine.identity_mul]

variable (hold : d.get? id = some m.shape) (hpage : d.pageTransform? id = some m.pageTransform)
  (hnew : d'.get? id = some shape) (hpage' : d'.pageTransform? id = some page)
  (h : m.ScaledTo t f shape page) (ht : t.Stretches m.pageTransform f)

include hold hpage hnew hpage' h ht

theorem cornerSet_of_extent (hline : m.shape.kind ≠ .line) (hgroup : m.shape.kind ≠ .group)
    (hx : |f.x| = 1) (hy : |f.y| = 1) :
    Canvas.cornerSet ⟨d', Registry.builtin⟩ id =
      t.apply '' Canvas.cornerSet ⟨d, Registry.builtin⟩ id := by
  obtain ⟨hextent, hshift⟩ := Shape.extent_of_mirrored hline hgroup hx hy
  have hbounds : Registry.builtin.bounds d' shape = ⟨0, 0, (m.shape.scaledForm f).extent.x,
      (m.shape.scaledForm f).extent.y⟩ := by
    rw [Registry.bounds_eq_boxBounds d' (h.kind ▸ hline) (h.kind ▸ hgroup), Behaviour.boxBounds,
      Shape.extent, h.form]
  have hset : Canvas.cornerSet ⟨d, Registry.builtin⟩ id = _ := Canvas.cornerSet_eq hold hpage
  have hset' : Canvas.cornerSet ⟨d', Registry.builtin⟩ id = _ := Canvas.cornerSet_eq hnew hpage'
  rw [hset, hset', hbounds, Registry.bounds_eq_boxBounds d hline hgroup,
    h.page_eq_goal (Or.inl hgroup)]
  ext q
  rw [Set.image_image]
  exact Member.mem_corners_goal_of_eq hextent hshift ht q

theorem cornerSet_of_line (hd : d.Keyed) (hshallow : d.Shallow) (hd' : d'.Keyed)
    (hshallow' : d'.Shallow) (hk : m.shape.kind = .line) :
    Canvas.cornerSet ⟨d', Registry.builtin⟩ id =
      t.apply '' Canvas.cornerSet ⟨d, Registry.builtin⟩ id := by
  have hgroup : m.shape.kind ≠ .group := by simp [hk]
  obtain ⟨q, hq, hmul, hscale⟩ := h.mul_pageTransform ht (by simp [Shape.flipShift, hk])
  obtain rfl := hscale (Or.inl hgroup)
  refine Canvas.cornerSet_of_image hold hpage hnew hpage' hq hmul ?_
  have hpoints : shape.form.points =
      m.shape.form.points.map (Affine.scale f.x f.y).apply := by
    rw [h.form]
    simp [Shape.scaledForm, hk, Form.points, Affine.apply, Affine.scale, mul_comm]
  rw [Registry.bounds_eq hd hshallow.acyclic, Registry.bounds_eq hd' hshallow'.acyclic, h.kind, hk]
  show (Rect.boundsOf? shape.form.points).getD Rect.zero =
    ((Rect.boundsOf? m.shape.form.points).getD Rect.zero).image _
  rw [hpoints, Rect.boundsOf?_map hq]
  cases Rect.boundsOf? m.shape.form.points with
  | none => exact (Rect.image_zero _ _).symm
  | some r => rfl

theorem cornerSet_of_group (hd : d.Keyed) (hshallow : d.Shallow) (htree : d'.SameTree d)
    (hk : m.shape.kind = .group) (hchildren : m.children = d.children (.shape id))
    (hbelow : ∀ child, d.parentId? child = some id →
      Canvas.cornerSet ⟨d', Registry.builtin⟩ child =
        t.apply '' Canvas.cornerSet ⟨d, Registry.builtin⟩ child) :
    Canvas.cornerSet ⟨d', Registry.builtin⟩ id =
      t.apply '' Canvas.cornerSet ⟨d, Registry.builtin⟩ id := by
  have hd' := htree.keyed hd
  have hshallow' := htree.shallow hshallow
  have hk' : shape.kind = .group := h.kind.trans hk
  obtain ⟨q, hq, hmul, hscale⟩ := h.mul_pageTransform ht (by simp [Shape.flipShift, hk])
  refine Canvas.cornerSet_of_image hold hpage hnew hpage' hq hmul ?_
  by_cases hempty : d.children (.shape id) = []
  · obtain rfl := hscale (Or.inr (hchildren.trans hempty))
    show Registry.builtin.bounds d' shape = (Registry.builtin.bounds d m.shape).image _
    rw [Registry.bounds_of_childless hd hshallow hold hk hempty,
      Registry.bounds_of_childless hd' hshallow' hnew hk' (by rwa [htree.children_eq]),
      Rect.image_zero]
  · have hspans := Canvas.spans_bounds_group hd hshallow hold hk hempty hpage
    have hspans' := Canvas.spans_bounds_group hd' hshallow' hnew hk'
      (by rwa [htree.children_eq]) hpage'
    -- within the frames, the children's corners correspond by the map that keeps the axes
    have hframe : page.inverse * t = q * m.pageTransform.inverse := by
      have hrigid := hshallow.isRigid_pageTransform? hpage
      have hrigid' := hshallow'.isRigid_pageTransform? hpage'
      calc page.inverse * t
          = page.inverse * (t * m.pageTransform) * m.pageTransform.inverse := by
            rw [Affine.mul_assoc, Affine.mul_assoc, hrigid.mul_inverse, Affine.mul_identity]
        _ = q * m.pageTransform.inverse := by
            rw [hmul, ← Affine.mul_assoc, hrigid'.inverse_mul, Affine.identity_mul]
    rw [Canvas.childCorners_eq_image htree hbelow] at hspans'
    have himage := hspans.image hq
    simp only [Set.image_image, ← Affine.apply_mul, hframe] at hspans' himage
    exact hspans'.eq himage

end Member.ScaledTo

/-- **The corners of every captured shape are mirrored.** -/
theorem Snapshot.ScaledTo.cornerSet_eq (hs : s.Reflects d) (hd : d.Keyed) (hshallow : d.Shallow)
    (htree : d'.SameTree d) (ht : s.Mirrors t factors) (h : s.ScaledTo d' t factors)
    (hm : s.get? id = some m) :
    Canvas.cornerSet ⟨d', Registry.builtin⟩ id =
      t.apply '' Canvas.cornerSet ⟨d, Registry.builtin⟩ id := by
  induction id using hshallow.acyclic.induction_children generalizing m with
  | step id ih =>
      obtain ⟨shape, page, hshape, hpage, hscaled⟩ := h id m hm
      obtain ⟨hx, hy, hstretches⟩ := ht id m hm
      have hold := hs.shape id m hm
      have hplace := hs.page id m hm
      by_cases hline : m.shape.kind = .line
      · exact hscaled.cornerSet_of_line hold hplace hshape hpage hstretches hd hshallow
          (htree.keyed hd) (htree.shallow hshallow) hline
      · by_cases hgroup : m.shape.kind = .group
        · refine hscaled.cornerSet_of_group hold hplace hshape hpage hstretches hd hshallow htree
            hgroup (hs.children id m hm) fun child hp => ?_
          obtain ⟨m', hm'⟩ := hs.below id m hm child hp
          exact ih child hp hm'
        · exact hscaled.cornerSet_of_extent hold hplace hshape hpage hstretches hline hgroup hx hy

/-! ## Vertices -/

namespace Member.ScaledTo

/-- The vertices of a line are mapped. -/
theorem map_points (h : m.ScaledTo t f shape page) (ht : t.Stretches m.pageTransform f)
    (hk : m.shape.kind = .line) :
    shape.form.points.map page.apply =
      (m.shape.form.points.map m.pageTransform.apply).map t.apply := by
  rw [h.form, h.page_eq_goal (Or.inl (by simp [hk])), Member.map_points_goal hk ht, List.map_map]
  rfl

end Member.ScaledTo

/-! ## From canvas to canvas -/

/-- From one canvas to the other, the map has carried a shape along: its corners, and the vertices
    of a line. -/
structure Canvas.Carried (c c' : Canvas ℝ) (t : Affine ℝ) (s : Shape ℝ) : Prop where
  corners : ∃ ps ps', c.pageCorners s.id = .ok ps ∧ c'.pageCorners s.id = .ok ps' ∧
    ∀ p, p ∈ ps' ↔ p ∈ ps.map t.apply
  vertices : s.kind = .line → ∃ page page' s', c.pageTransform s.id = .ok page ∧
    c'.pageTransform s.id = .ok page' ∧ c'.shape s.id = .ok s' ∧
    s'.form.points.map page'.apply = (s.form.points.map page.apply).map t.apply

theorem Canvas.Carried.trans {c c' c'' : Canvas ℝ} {t' : Affine ℝ} {s s' : Shape ℝ}
    (h : c.Carried c' t s) (h' : c'.Carried c'' t' s') (hs' : c'.shape s.id = .ok s')
    (hid : s'.id = s.id) (hkind : s'.kind = s.kind) : c.Carried c'' (t' * t) s := by
  have happly : (t' * t).apply = t'.apply ∘ t.apply := funext fun p => Affine.apply_mul t' t p
  constructor
  · obtain ⟨ps, ps', hps, hps', hmem⟩ := h.corners
    obtain ⟨qs, qs', hqs, hqs', hmem'⟩ := h'.corners
    rw [hid] at hqs hqs'
    obtain rfl := Except.ok.inj (hps'.symm.trans hqs)
    refine ⟨ps, qs', hps, hqs', fun p => ?_⟩
    rw [hmem', happly, ← List.map_map, List.mem_map, List.mem_map]
    simp only [hmem]
  · intro hk
    obtain ⟨page, page', s₁, hpage, hpage', hs₁, hpoints⟩ := h.vertices hk
    obtain ⟨page₁, page'', s'', hpage₁, hpage'', hs'', hpoints'⟩ := h'.vertices (hkind.trans hk)
    rw [hid] at hpage₁ hpage'' hs''
    obtain rfl := Except.ok.inj (hs'.symm.trans hs₁)
    obtain rfl := Except.ok.inj (hpage'.symm.trans hpage₁)
    refine ⟨page, page'', s'', hpage, hpage'', hs'', ?_⟩
    rw [hpoints', hpoints, happly, ← List.map_map]

/-- A captured shape is carried to where it is when nothing moves. -/
theorem Snapshot.Reflects.carried_identity (hs : s.Reflects d) (hd : d.Keyed)
    (hm : s.get? id = some m) :
    Canvas.Carried ⟨d, Registry.builtin⟩ ⟨d, Registry.builtin⟩ Affine.identity m.shape := by
  have hold := hs.shape id m hm
  have hplace := hs.page id m hm
  have hid : m.shape.id = id := hs.keyed hd id m hm
  have hmap : ∀ ps : List (Point ℝ), ps.map Affine.identity.apply = ps := fun ps =>
    (List.map_congr_left fun p _ => Affine.apply_identity p).trans ps.map_id'
  constructor
  · rw [hid]
    refine ⟨_, _, Canvas.pageCorners_eq hold hplace, Canvas.pageCorners_eq hold hplace,
      fun p => ?_⟩
    rw [hmap]
  · intro _
    rw [hid]
    refine ⟨_, _, m.shape, Canvas.pageTransform_eq_ok hplace, Canvas.pageTransform_eq_ok hplace, ?_,
      (hmap _).symm⟩
    rw [Canvas.shape, hold]

/-- **A mirrored page carries every captured shape along.** -/
theorem Snapshot.ScaledTo.carried (hs : s.Reflects d) (hd : d.Keyed) (hshallow : d.Shallow)
    (htree : d'.SameTree d) (ht : s.Mirrors t factors) (h : s.ScaledTo d' t factors)
    (hm : s.get? id = some m) :
    Canvas.Carried ⟨d, Registry.builtin⟩ ⟨d', Registry.builtin⟩ t m.shape := by
  obtain ⟨shape, page, hshape, hpage, hscaled⟩ := h id m hm
  have hset := h.cornerSet_eq hs hd hshallow htree ht hm
  have hold := hs.shape id m hm
  have hplace := hs.page id m hm
  have hid : m.shape.id = id := hs.keyed hd id m hm
  constructor
  · rw [hid]
    have hcorners : Canvas.pageCorners ⟨d, Registry.builtin⟩ id = _ :=
      Canvas.pageCorners_eq hold hplace
    have hcorners' : Canvas.pageCorners ⟨d', Registry.builtin⟩ id = _ :=
      Canvas.pageCorners_eq hshape hpage
    refine ⟨_, _, hcorners, hcorners', fun p => ?_⟩
    rw [Canvas.cornerSet_eq_of_ok hcorners, Canvas.cornerSet_eq_of_ok hcorners',
      Set.ext_iff] at hset
    exact (hset p).trans List.mem_map.symm
  · intro hk
    rw [hid]
    refine ⟨_, _, shape, Canvas.pageTransform_eq_ok hplace, Canvas.pageTransform_eq_ok hpage, ?_,
      hscaled.map_points (ht id m hm).2.2 hk⟩
    rw [Canvas.shape, hshape]

/-! ## The mirrored selection -/

namespace FrameScale

/-- The scaling as a map of the selection frame. -/
noncomputable def toAffine (s : FrameScale ℝ) : Affine ℝ :=
  Affine.translate s.anchor.toVec * Affine.scale s.factors.x s.factors.y *
    Affine.translate (-s.anchor.toVec)

theorem keepsAxes_toAffine (s : FrameScale ℝ) : s.toAffine.KeepsAxes :=
  ((Affine.keepsAxes_translate _).mul (Affine.keepsAxes_scale _ _)).mul
    (Affine.keepsAxes_translate _)

theorem toAffine_eq (s : FrameScale ℝ) :
    s.toAffine = ⟨s.factors.x, 0, 0, s.factors.y, s.anchor.x - s.factors.x * s.anchor.x,
      s.anchor.y - s.factors.y * s.anchor.y⟩ := by
  ext <;> simp [toAffine, Affine.translate, Affine.scale, Point.toVec] <;> ring

/-- Mirroring twice is nothing. -/
theorem toAffine_mul_self {s : FrameScale ℝ} (hx : |s.factors.x| = 1) (hy : |s.factors.y| = 1) :
    s.toAffine * s.toAffine = Affine.identity := by
  have hxx : s.factors.x * s.factors.x = 1 := by rw [← abs_mul_abs_self, hx, one_mul]
  have hyy : s.factors.y * s.factors.y = 1 := by rw [← abs_mul_abs_self, hy, one_mul]
  rw [toAffine_eq]
  ext <;> simp [Affine.identity, hxx, hyy]
  · linear_combination -s.anchor.x * hxx
  · linear_combination -s.anchor.y * hyy

end FrameScale

namespace OrientedBox

variable (b : OrientedBox ℝ) (z : FrameScale ℝ)

theorem toFrame_mul_toPage : b.toFrame * b.toPage = Affine.identity := by
  have hunit := Real.cos_sq_add_sin_sq b.rotation
  ext <;> simp [toFrame, toPage, Affine.rotate_eq, Affine.identity]
  · linear_combination hunit
  · ring
  · ring
  · linear_combination hunit

theorem toPage_mul_toFrame : b.toPage * b.toFrame = Affine.identity := by
  have hunit := Real.cos_sq_add_sin_sq b.rotation
  ext <;> simp [toFrame, toPage, Affine.rotate_eq, Affine.identity]
  · linear_combination hunit
  · ring
  · ring
  · linear_combination hunit

theorem pageScale_eq : b.pageScale z = b.toPage * z.toAffine * b.toFrame := by
  simp only [pageScale, Affine.scaleAbout, FrameScale.toAffine, toPage, toFrame, Affine.mul_assoc]

theorem toFrame_mul_pageScale : b.toFrame * b.pageScale z = z.toAffine * b.toFrame := by
  rw [pageScale_eq, ← Affine.mul_assoc, ← Affine.mul_assoc, toFrame_mul_toPage,
    Affine.identity_mul]

/-- Mirroring the page twice is nothing. -/
theorem pageScale_mul_self (hx : |z.factors.x| = 1) (hy : |z.factors.y| = 1) :
    b.pageScale z * b.pageScale z = Affine.identity := by
  calc b.pageScale z * b.pageScale z
      = b.toPage * z.toAffine * (b.toFrame * b.pageScale z) := by
        rw [pageScale_eq, Affine.mul_assoc]
    _ = b.toPage * (z.toAffine * z.toAffine) * b.toFrame := by
        rw [toFrame_mul_pageScale]
        simp only [Affine.mul_assoc]
    _ = Affine.identity := by
        rw [FrameScale.toAffine_mul_self hx hy, Affine.mul_identity, toPage_mul_toFrame]

/-- The scaling of the page by the given factors about the center of the box. -/
noncomputable def mirror (b : OrientedBox ℝ) (f : Vec ℝ) : Affine ℝ :=
  b.pageScale ⟨f, b.rect.center⟩

theorem mirror_mul_self (hx : |f.x| = 1) (hy : |f.y| = 1) :
    b.mirror f * b.mirror f = Affine.identity :=
  b.pageScale_mul_self ⟨f, b.rect.center⟩ hx hy

end OrientedBox

/-- A range that is mirrored about its middle, or left alone, stays. -/
theorem mirrored_range {f lo hi : ℝ} (hf : |f| = 1) (h : lo ≤ hi) :
    min (f * lo + (0.5 * (lo + hi) - f * (0.5 * (lo + hi))))
        (f * hi + (0.5 * (lo + hi) - f * (0.5 * (lo + hi)))) = lo ∧
      max (f * lo + (0.5 * (lo + hi) - f * (0.5 * (lo + hi))))
        (f * hi + (0.5 * (lo + hi) - f * (0.5 * (lo + hi)))) = hi := by
  have hhalf : (0.5 : ℝ) = 1 / 2 := by norm_num
  rw [hhalf]
  rcases eq_or_eq_neg_of_abs_eq hf with rfl | rfl
  · rw [min_eq_left (by linarith), max_eq_right (by linarith)]
    exact ⟨by ring, by ring⟩
  · rw [min_eq_right (by linarith), max_eq_left (by linarith)]
    exact ⟨by ring, by ring⟩

/-- Mirrored about its center, a rectangle stays. -/
theorem Rect.image_about_center {r : Rect ℝ} (hwidth : r.x0 ≤ r.x1) (hheight : r.y0 ≤ r.y1)
    (hx : |f.x| = 1) (hy : |f.y| = 1) :
    r.image (FrameScale.toAffine ⟨f, r.center⟩) = r := by
  obtain ⟨hx0, hx1⟩ := mirrored_range hx hwidth
  obtain ⟨hy0, hy1⟩ := mirrored_range hy hheight
  rw [image_eq (FrameScale.keepsAxes_toAffine _), FrameScale.toAffine_eq]
  exact Rect.ext hx0 hy0 hx1 hy1

/-- A mirror of the selection mirrors the frames of all captured shapes, if none of them is turned
    against the selection by other than whole quarter turns. -/
theorem Snapshot.exists_mirrors (hs : s.Reflects d) (hshallow : d.Shallow) (hx : |f.x| = 1)
    (hy : |f.y| = 1) (hturn : ∀ id m, s.get? id = some m →
      ∃ k : ℤ, m.pageTransform.rotation - s.box.rotation = k * (Real.pi / 2)) :
    ∃ factors, s.Mirrors (s.box.mirror f) factors := by
  obtain ⟨factors, hfactors⟩ := exists_factors hs hshallow s.box.rect.center (Or.inr hturn)
  refine ⟨factors, fun id m hm => ?_⟩
  obtain ⟨hf | hf, hstretches⟩ := hfactors id m hm
  · rw [hf] at hstretches ⊢
    exact ⟨hx, hy, hstretches⟩
  · rw [hf] at hstretches ⊢
    exact ⟨hy, hx, hstretches⟩

/-- Shapes that keep their rotations while their corners are mirrored about the center of the box
    around them keep the box. -/
theorem Canvas.selectionBox?_of_mirrored {c c' : Canvas ℝ} {ids : List ShapeId}
    {box : OrientedBox ℝ} (hbox : c.selectionBox? ids = some box) (hx : |f.x| = 1) (hy : |f.y| = 1)
    (hrotation : ∀ id ∈ ids, (c'.pageRotation id).toOption = (c.pageRotation id).toOption)
    (hcorners : ∀ id ∈ ids, c'.cornerSet id = (box.mirror f).apply '' c.cornerSet id) :
    c'.selectionBox? ids = some box := by
  obtain ⟨hturn, hspans⟩ := selectionBox?_eq_some_iff.1 hbox
  refine selectionBox?_eq_some_iff.2 ⟨?_, ?_⟩
  · rw [← hturn, turn?, turn?, List.filterMap_congr hrotation]
  · -- in the frame of the box, the mirror is one about the center, which leaves the box in place
    have himage := hspans.image (FrameScale.keepsAxes_toAffine ⟨f, box.rect.center⟩)
    rw [Rect.image_about_center hspans.x0_le_x1 hspans.y0_le_y1 hx hy, Set.image_image] at himage
    convert himage using 1
    simp only [← Affine.apply_mul, ← OrientedBox.toFrame_mul_pageScale]
    ext p
    constructor
    · rintro ⟨q, ⟨id, hid, hq⟩, rfl⟩
      rw [hcorners id hid] at hq
      obtain ⟨q, hq, rfl⟩ := hq
      exact ⟨q, ⟨id, hid, hq⟩, Affine.apply_mul _ _ _⟩
    · rintro ⟨q, ⟨id, hid, hq⟩, rfl⟩
      refine ⟨_, ⟨id, hid, ?_⟩, (Affine.apply_mul _ _ _).symm⟩
      rw [hcorners id hid]
      exact Set.mem_image_of_mem _ hq

namespace Snapshot

variable {selection : List ShapeId} {camera : Camera ℝ}
  (hcapture : Canvas.capture? ⟨d, Registry.builtin⟩ selection camera = some s)
  (hd : d.Keyed) (hshallow : d.Shallow) (htree : d'.SameTree d)

include hcapture hd hshallow

/-- A selected shape that was not captured has no place on the page. -/
theorem pageTransform?_eq_none_of_top (hid : id ∈ s.topLevel) (hm : s.get? id = none) :
    d.pageTransform? id = none := by
  cases hpage : d.pageTransform? id with
  | none => rfl
  | some page =>
      have htop : id ∈ d.topLevel selection := by
        rw [← (Canvas.get?_capture? hcapture id).1]
        exact hid
      have hcaptured := (Canvas.contains_iff_captured hd hshallow hcapture).2
        ⟨hshallow.rooted_iff.2 ⟨page, hpage⟩, id, htop, Or.inl rfl⟩
      rw [contains, hm] at hcaptured
      cases hcaptured

include htree

/-- **The box around the selection stays** when the selection is mirrored about its center. -/
theorem ScaledTo.selectionBox?_eq (hx : |f.x| = 1) (hy : |f.y| = 1)
    (ht : s.Mirrors (s.box.mirror f) factors) (h : s.ScaledTo d' (s.box.mirror f) factors) :
    Canvas.selectionBox? ⟨d', Registry.builtin⟩ (d'.topLevel selection) = some s.box := by
  have hs : s.Reflects d := Canvas.reflects_capture? hd hshallow hcapture
  rw [htree.topLevel_eq selection, ← (Canvas.get?_capture? hcapture 0).1]
  have hstays : ∀ id ∈ s.topLevel, s.get? id = none →
      d.pageTransform? id = none ∧ d'.pageTransform? id = none := by
    intro id hid hm
    have hnone := pageTransform?_eq_none_of_top hcapture hd hshallow hid hm
    refine ⟨hnone, ?_⟩
    cases hpage : d'.pageTransform? id with
    | none => rfl
    | some page =>
        have hrooted := htree.symm.rooted ((htree.shallow hshallow).rooted_iff.2 ⟨page, hpage⟩)
        obtain ⟨page', hpage'⟩ := hshallow.rooted_iff.1 hrooted
        exact nomatch hnone.symm.trans hpage'
  have hrotation : ∀ id ∈ s.topLevel,
      (Canvas.pageRotation ⟨d', Registry.builtin⟩ id).toOption =
        (Canvas.pageRotation ⟨d, Registry.builtin⟩ id).toOption := by
    intro id hid
    simp only [Canvas.pageRotation, Canvas.pageTransform]
    cases hm : s.get? id with
    | none =>
        obtain ⟨hnone, hnone'⟩ := hstays id hid hm
        rw [hnone, hnone']
    | some m =>
        obtain ⟨shape, page, -, hpage, hscaled⟩ := h id m hm
        rw [hs.page id m hm, hpage]
        exact congrArg some hscaled.rotation_page
  have hcorners : ∀ id ∈ s.topLevel, Canvas.cornerSet ⟨d', Registry.builtin⟩ id =
      (s.box.mirror f).apply '' Canvas.cornerSet ⟨d, Registry.builtin⟩ id := by
    intro id hid
    cases hm : s.get? id with
    | none =>
        obtain ⟨hnone, hnone'⟩ := hstays id hid hm
        have hempty : Canvas.cornerSet ⟨d, Registry.builtin⟩ id = ∅ :=
          Canvas.cornerSet_eq_empty hnone
        rw [hempty, Set.image_empty]
        exact Canvas.cornerSet_eq_empty hnone'
    | some m => exact h.cornerSet_eq hs hd hshallow htree ht hm
  exact Canvas.selectionBox?_of_mirrored (Canvas.get?_capture? hcapture 0).2.1 hx hy hrotation
    hcorners

/-- The mirrored selection can be captured again: it has the same box and the same members, and the
    mirror mirrors them too. -/
theorem ScaledTo.exists_capture? (hx : |f.x| = 1) (hy : |f.y| = 1)
    (ht : s.Mirrors (s.box.mirror f) factors) (h : s.ScaledTo d' (s.box.mirror f) factors) :
    ∃ s', Canvas.capture? ⟨d', Registry.builtin⟩ selection camera = some s' ∧ s'.box = s.box ∧
      s'.Mirrors (s.box.mirror f) factors ∧
      ∀ id m, s.get? id = some m → ∃ m', s'.get? id = some m' ∧
        m.ScaledTo (s.box.mirror f) (factors id) m'.shape m'.pageTransform := by
  have hs : s.Reflects d := Canvas.reflects_capture? hd hshallow hcapture
  have hbox := h.selectionBox?_eq hcapture hd hshallow htree hx hy ht
  obtain ⟨s', hcapture'⟩ := Canvas.exists_capture? hbox camera
  have hs' : s'.Reflects d' :=
    Canvas.reflects_capture? (htree.keyed hd) (htree.shallow hshallow) hcapture'
  have hbox' : s'.box = s.box := by
    obtain ⟨htop', hbox', -⟩ := Canvas.get?_capture? hcapture' 0
    rw [htop', hbox] at hbox'
    exact (Option.some.inj hbox').symm
  have hmembers : ∀ id, s.contains id = s'.contains id := fun id => by
    rw [Bool.eq_iff_iff, Canvas.contains_iff_captured hd hshallow hcapture,
      Canvas.contains_iff_captured (htree.keyed hd) (htree.shallow hshallow) hcapture']
    exact htree.symm.captured_iff
  have hscaled : ∀ id m m', s.get? id = some m → s'.get? id = some m' →
      m.ScaledTo (s.box.mirror f) (factors id) m'.shape m'.pageTransform := by
    intro id m m' hm hm'
    obtain ⟨shape, page, hshape, hpage, hscaled⟩ := h id m hm
    obtain rfl := Option.some.inj ((hs'.shape id m' hm').symm.trans hshape)
    obtain rfl := Option.some.inj ((hs'.page id m' hm').symm.trans hpage)
    exact hscaled
  refine ⟨s', hcapture', hbox', fun id m' hm' => ?_, fun id m hm => ?_⟩
  · obtain ⟨m, hm⟩ : ∃ m, s.get? id = some m := by
      rw [← Option.isSome_iff_exists]
      exact (hmembers id).trans (Option.isSome_iff_exists.2 ⟨m', hm'⟩)
    obtain ⟨hfx, hfy, hstretches⟩ := ht id m hm
    exact ⟨hfx, hfy, (hscaled id m m' hm hm').stretches hstretches⟩
  · obtain ⟨m', hm'⟩ : ∃ m', s'.get? id = some m' := by
      rw [← Option.isSome_iff_exists]
      exact (hmembers id).symm.trans (Option.isSome_iff_exists.2 ⟨m, hm⟩)
    exact ⟨m', hm', hscaled id m m' hm hm'⟩

end Snapshot

end CanvasTransform
