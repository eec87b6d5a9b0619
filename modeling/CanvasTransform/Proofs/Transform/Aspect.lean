import CanvasTransform.Proofs.Geometry.Similarity
import CanvasTransform.Proofs.Group.Fit
import CanvasTransform.Proofs.Transform.Failures

set_option autoImplicit false

/-! # Scaling without distortion

A selection keeps its aspect ratio when there is an image in it or a shape that is turned against it
by other than quarter turns (`Document.KeepsAspect`). The factors are then of one magnitude, and the
map of the page multiplies all lengths by it. Every captured shape is placed, by whatever its parents
are turned and mirrored, through a map that does so as well, and reads the same magnitude off it
along both of its axes (`Member.exists_form_of_scale`). So everything in the selection becomes larger
or smaller by one factor (`Shape.Magnified`), and nothing is left out
(`Snapshot.Reflects.magnified_settle`). -/

namespace CanvasTransform

/-! ## A shape that becomes larger or smaller -/

/-- The distances between successive vertices. -/
noncomputable def Form.segmentLengths (f : Form ℝ) : List ℝ :=
  List.zipWith Point.distance f.points f.points.tail

/-- The shape `s` has become `s'`, which is `k` times as large. A shape of fixed size stays as large
    as it was. -/
structure Shape.Magnified (s s' : Shape ℝ) (k : ℝ) : Prop where
  kind : s'.kind = s.kind
  box : s.IsBox → s'.extent = ⟨k * s.extent.x, k * s.extent.y⟩
  fixedSize : s.kind ∈ [Kind.text, .note] → s'.form = s.form
  line : s.kind = .line → s'.form.segmentLengths = s.form.segmentLengths.map (k * ·)

theorem Point.distance_scale {factors : Vec ℝ} {k : ℝ} (hx : |factors.x| = k) (hy : |factors.y| = k)
    (p q : Point ℝ) : Point.distance ⟨p.x * factors.x, p.y * factors.y⟩
      ⟨q.x * factors.x, q.y * factors.y⟩ = k * p.distance q := by
  have hmap : (Point.mk (p.x * factors.x) (p.y * factors.y) -
      Point.mk (q.x * factors.x) (q.y * factors.y) : Vec ℝ) =
        (Affine.scale factors.x factors.y).applyVec (p - q) := by
    ext <;> simp [Affine.applyVec, Affine.scale] <;> ring
  rw [distance, hmap]
  exact Vec.length_eq_of_normSq (hx ▸ abs_nonneg _) (Affine.magnifies_scale hx hy _)

theorem Shape.magnified_of_form {s s' : Shape ℝ} {factors : Vec ℝ} {k : ℝ} (hkind : s'.kind = s.kind)
    (hform : s'.form = s.scaledForm factors) (hx : |factors.x| = k) (hy : |factors.y| = k) :
    s.Magnified s' k where
  kind := hkind
  box hbox := by
    rw [extent, hform, hbox.extent_scaledForm, hx, hy, mul_comm k, mul_comm k]
  fixedSize hk := by
    simp only [List.mem_cons, List.not_mem_nil, or_false] at hk
    rw [hform, scaledForm]
    rcases hk with hk | hk <;> rw [hk]
  line hk := by
    have hpoints : s'.form.points =
        s.form.points.map fun v => ⟨v.x * factors.x, v.y * factors.y⟩ := by
      rw [hform, scaledForm, hk]
      rfl
    rw [Form.segmentLengths, hpoints, ← List.map_tail, List.zipWith_map, Form.segmentLengths,
      List.map_zipWith]
    exact congrArg (fun f => List.zipWith f s.form.points s.form.points.tail)
      (funext₂ fun p q => Point.distance_scale hx hy p q)

/-! ## One captured shape -/

/-- Moving a shape leaves its form alone. -/
theorem Shape.form_patch_moveTo (s : Shape ℝ) (p : Placement ℝ) (origin : Point ℝ) :
    (s.patch (p.moveTo s origin)).form = s.form := by
  unfold Placement.moveTo
  split <;> rfl

/-- What a resize makes of the form depends on the factors alone, also when it turns the shape. -/
theorem Registry.form_resize (s : Shape ℝ) (p : Placement ℝ) :
    (s.patch (builtin.resize s p)).form = s.scaledForm p.scale := by
  obtain ⟨id, kind, parent, index, x, y, rotation, form⟩ := s
  cases kind with
  | rectangle | ellipse | frame | line => rfl
  | image => cases form <;> rfl
  | text | note => exact Shape.form_patch_moveTo _ p _
  | group => exact Shape.form_patch_moveTo _ p _

/-- **A captured shape scaled by a map that keeps proportions** takes one factor into its form,
    wherever its parent has been put. -/
theorem Member.exists_form_of_scale {m : Member ℝ} {t parentPage : Affine ℝ} {k : ℝ}
    (ht : t.Magnifies k) (hk : Scalar.coordTolerance < k) (hparent : parentPage.IsRigid)
    (hold : m.parentPageTransform.IsRigid) :
    ∃ factors : Vec ℝ, |factors.x| = k ∧ |factors.y| = k ∧
      (m.shape.patch (Registry.builtin.resize m.shape (m.placementUnder t parentPage))).form =
        m.shape.scaledForm factors := by
  have hmap : (parentPage.inverse * t *
      (m.parentPageTransform * m.shape.localTransform)).Magnifies k :=
    ht.between hparent.inverse (hold.mul (Affine.isRigid_placement _ _ _))
  obtain ⟨hx, hy⟩ := hmap.abs_scale_ofAffine hk m.shape.rotation
  exact ⟨_, hx, hy, Registry.form_resize _ _⟩

/-! ## The selection -/

namespace Snapshot.Reflects

variable {s : Snapshot ℝ} {d : Document ℝ} {t : Affine ℝ} {id : ShapeId} {m : Member ℝ}

/-- In exact arithmetic nothing is left out while all captured shapes are there. -/
theorem skipped_scale (hs : s.Reflects d) (hshallow : d.Shallow) {c : Canvas ℝ}
    (hc : ∀ id, c.document.contains id = d.contains id) (t : Affine ℝ) :
    (s.scale c t).skipped = [] := by
  refine List.eq_nil_iff_forall_not_mem.2 fun e he => ?_
  obtain ⟨id, hid, hgone, -⟩ := (hs.exists_of_mem_scale hshallow c t).2 e he
  obtain ⟨m, hm⟩ := Option.isSome_iff_exists.1 hid
  rw [hc, Document.contains_of_get? (hs.shape id m hm)] at hgone
  exact nomatch hgone

/-- **A selection that is scaled by a map that keeps proportions** becomes larger or smaller by one
    factor, and the containers that react to it change no sizes. -/
theorem magnified_settle (hs : s.Reflects d) (hkeyed : d.Keyed) (hshallow : d.Shallow) {k : ℝ}
    (ht : t.Magnifies k) (hk : Scalar.coordTolerance < k) (hm : s.get? id = some m) :
    ∃ shape, (d.settle Registry.builtin
        (s.scale ⟨d, Registry.builtin⟩ t).updates).get? id = some shape ∧
      m.shape.Magnified shape k := by
  set updates := (s.scale ⟨d, Registry.builtin⟩ t).updates with hupdates
  have hdrops := hs.drops_scale (c := ⟨d, Registry.builtin⟩) hkeyed hshallow
    Registry.answers_builtin t
  -- nothing is left out, so the shape has a patch, and it has only one
  have hmem : id ∈ (s.scale ⟨d, Registry.builtin⟩ t).updatedIds := by
    obtain ⟨hmem, -⟩ | ⟨⟨a, ha, -⟩, -⟩ :=
      hdrops.exactlyOne id (Option.isSome_iff_exists.2 ⟨m, hm⟩)
    · exact hmem
    · rw [Outcome.skippedIds, hs.skipped_scale hshallow fun _ => rfl] at ha
      exact absurd ha List.not_mem_nil
  obtain ⟨p, hp, hid⟩ := List.mem_map.1 hmem
  have hunique : ∀ q ∈ updates, q.id = id → q = p := fun q hq hqid =>
    List.inj_on_of_nodup_map hdrops.distinct hq hp (hqid.trans hid.symm)
  obtain ⟨id', m', parentPage, hm', hrigid, hresize⟩ :=
    (hs.exists_of_mem_scale hshallow _ t).1 p hp
  have hid' : id' = id := by
    rw [← hid, hresize, Registry.id_resize, hs.keyed hkeyed id' m' hm']
  subst hid'
  obtain rfl := Option.some.inj (hm'.symm.trans hm)
  obtain ⟨factors, hx, hy, hform⟩ := Member.exists_form_of_scale ht hk hrigid
    (hs.isRigid_parentPageTransform hshallow hm)
  have hpatched : (d.patchAll updates).get? id' = some (m'.shape.patch p) := by
    rw [Document.get?_patchAll_of_mem hp hid hunique, hs.shape id' m' hm, Option.map_some]
  have htree := Document.sameTree_patchAll d updates
  obtain ⟨shape, hshape, hkind, -, hsame⟩ := Document.get?_refitAll (htree.keyed hkeyed)
    (htree.shallow hshallow) (d.containers (d.reached updates)) hpatched
  exact ⟨shape, hshape, Shape.magnified_of_form hkind (hsame.trans (hresize ▸ hform)) hx hy⟩

end Snapshot.Reflects

/-! ## Which selections keep their aspect ratio -/

theorem Scalar.quarterTurn_eq : (Scalar.quarterTurn : ℝ) = Real.pi / 2 := by
  show Real.pi / (2.0 : ℝ) = Real.pi / 2
  norm_num

namespace Angle

theorem exists_of_isQuarterTurn {a : ℝ} (h : isQuarterTurn a = true) :
    ∃ n : ℤ, |a - n * (Real.pi / 2)| ≤ Scalar.angleTolerance := by
  have hpos : (0 : ℝ) < Real.pi / 2 := by positivity
  have hrem : (Scalar.remEuclid a (Real.pi / 2) : ℝ) =
      a - ⌊a / (Real.pi / 2)⌋ * (Real.pi / 2) := by
    show a - |Real.pi / 2| * ⌊a / |Real.pi / 2|⌋ = _
    rw [abs_of_pos hpos, mul_comm]
  have hnonneg := Int.sub_floor_div_mul_nonneg a hpos
  have hlt := Int.sub_floor_div_mul_lt a hpos
  simp only [isQuarterTurn, Scalar.quarterTurn_eq, hrem, Bool.or_eq_true, decide_eq_true_eq] at h
  -- the angle lies between two whole numbers of quarter turns, and is near one of them
  rcases h with h | h
  · exact ⟨_, by rwa [abs_of_nonneg hnonneg]⟩
  · refine ⟨⌊a / (Real.pi / 2)⌋ + 1, ?_⟩
    push_cast
    rw [abs_of_nonpos (by linarith)]
    linarith

/-- Angles that differ by about quarter turns, as the shortest turn between them tells. -/
theorem exists_of_isQuarterTurn_delta {a b : ℝ} (h : isQuarterTurn (delta a b) = true) :
    ∃ n : ℤ, |a - b - n * (Real.pi / 2)| ≤ Scalar.angleTolerance := by
  obtain ⟨n, hn⟩ := exists_of_isQuarterTurn h
  obtain ⟨j, hj⟩ := exists_delta_eq a b
  refine ⟨n + 4 * j, ?_⟩
  rw [hj] at hn
  push_cast
  convert hn using 2
  ring

end Angle

/-- Why a selection that is turned by `rotation` keeps its aspect ratio: in one of the shapes, at any
    depth, there is an image, or a shape that is turned against the selection by other than quarter
    turns. -/
def Document.KeepsAspect (d : Document ℝ) (ids : List ShapeId) (rotation : ℝ) : Prop :=
  ∃ top ∈ ids, ∃ id, d.Inside top id ∧
    ((∃ shape, d.get? id = some shape ∧ shape.kind = .image) ∨
      ∃ page, d.pageTransform? id = some page ∧
        ∀ n : ℤ, Scalar.angleTolerance < |page.rotation - rotation - n * (Scalar.quarterTurn : ℝ)|)

theorem Canvas.aspectLocked_of_keepsAspect {d : Document ℝ} (hkeyed : d.Keyed)
    (hshallow : d.Shallow) {ids : List ShapeId} {rotation : ℝ} (h : d.KeepsAspect ids rotation) :
    Canvas.aspectLocked ⟨d, Registry.builtin⟩ ids rotation = true := by
  obtain ⟨top, htop, id, hinside, hid⟩ := h
  have hmem : id ∈ ids.flatMap fun id => id :: d.descendants id := by
    refine List.mem_flatMap.2 ⟨top, htop, List.mem_cons.2 (hinside.imp_right fun habove => ?_)⟩
    exact (hshallow.mem_descendants_iff hkeyed).2 habove
  refine List.any_eq_true.2 ⟨id, hmem, Bool.or_eq_true_iff.2 ?_⟩
  rcases hid with ⟨shape, hshape, hkind⟩ | ⟨page, hpage, haskew⟩
  · right
    simp only [Canvas.shape, hshape, Registry.isAspectLocked]
    rw [hkind]
    rfl
  · left
    have hrotation : Canvas.pageRotation ⟨d, Registry.builtin⟩ id = .ok page.rotation := by
      rw [pageRotation, pageTransform_eq_ok hpage]
      rfl
    simp only [hrotation, Bool.not_eq_true']
    refine Bool.eq_false_iff.2 fun hquarter => ?_
    obtain ⟨n, hn⟩ := Angle.exists_of_isQuarterTurn_delta hquarter
    rw [← Scalar.quarterTurn_eq] at hn
    exact absurd hn (not_le.2 (haskew n))

/-- A snapshot of a selection that keeps its aspect ratio says so. -/
theorem Canvas.aspectLocked_capture? {c : Canvas ℝ} {selection : List ShapeId} {camera : Camera ℝ}
    {s : Snapshot ℝ} (hregistry : c.registry = Registry.builtin) (hkeyed : c.document.Keyed)
    (hshallow : c.document.Shallow) (hcapture : c.capture? selection camera = some s)
    (h : c.document.KeepsAspect s.topLevel s.box.rotation) : s.aspectLocked = true := by
  obtain ⟨d, registry⟩ := c
  obtain rfl : registry = Registry.builtin := hregistry
  have hlocked := aspectLocked_of_keepsAspect hkeyed hshallow h
  simp only [capture?, Option.bind_eq_bind, Option.bind_eq_some_iff, Option.pure_def,
    Option.some.injEq] at hcapture
  obtain ⟨box, -, bounds, -, rfl⟩ := hcapture
  exact hlocked

end CanvasTransform
