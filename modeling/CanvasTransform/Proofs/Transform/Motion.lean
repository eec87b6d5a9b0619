import CanvasTransform.Proofs.Document.Remainder
import CanvasTransform.Proofs.Transform.Scaling

set_option autoImplicit false

/-! # A shift or a turn carries the selection along as one piece

A translation and a rotation write the top-level shapes only, each in the frame of its parent. The
patch takes the shape to the image of its old place under the motion of the page, whatever frame the
parent has (`Member.exists_shift`, `Member.exists_turn`), and what is below rides along. So on the
page every captured shape follows the motion and every other shape stays
(`Snapshot.pageTransform?_moveEach`). Shapes that are gone by then make no difference to the rest. -/

namespace CanvasTransform

/-! ## One captured shape -/

namespace Member

variable {m : Member ℝ}

/-- A shift has an answer, and takes the shape to the image of its place under the translation. -/
theorem exists_shift (hparent : m.parentPageTransform.IsRigid)
    (hpage : m.pageTransform = m.parentPageTransform * m.shape.localTransform) (delta : Vec ℝ) :
    ∃ p, m.shift delta = .ok p ∧ m.parentPageTransform * (m.shape.patch p).localTransform =
      Affine.translate delta * m.pageTransform := by
  -- the displacement as the parent's frame sees it, and as the page sees that again
  set v := m.parentPageTransform.inverse.applyVec delta with hv
  have hback : m.parentPageTransform.applyVec v = delta := by
    rw [hv, ← Affine.applyVec_mul, hparent.mul_inverse, Affine.applyVec_identity]
  refine ⟨Patch.position m.shape.id (m.shape.x + v.x) (m.shape.y + v.y), ?_, ?_⟩
  · simp only [shift, ← hv, Patch.isFinite_eq_true, if_true]
  · calc m.parentPageTransform * (m.shape.moveBy v).localTransform
        = m.parentPageTransform * (Affine.translate v * m.shape.localTransform) := by
          rw [Shape.localTransform_moveBy]
      _ = Affine.translate delta * m.pageTransform := by
          rw [← Affine.mul_assoc, Affine.mul_translate, hback, Affine.mul_assoc, ← hpage]

/-- A turn has an answer, and takes the shape to the image of its place under the rotation. -/
theorem exists_turn (hparent : m.parentPageTransform.IsRigid)
    (hpage : m.pageTransform = m.parentPageTransform * m.shape.localTransform) {t : Affine ℝ}
    (ht : t.IsRigid) :
    ∃ p, m.turn t = .ok p ∧ m.parentPageTransform * (m.shape.patch p).localTransform =
      t * m.pageTransform := by
  set target := m.parentPageTransform.inverse * t * m.pageTransform with htarget
  have hrigid : target.IsRigid := by
    rw [htarget, hpage]
    exact (hparent.inverse.mul ht).mul (hparent.mul m.shape.isRigid_localTransform)
  have hfinite : target.isFinite = true := rfl
  refine ⟨(Patch.position m.shape.id (target.apply Point.origin).x
    (target.apply Point.origin).y).withRotation target.rotation, ?_, ?_⟩
  · simp only [turn, ← htarget, hfinite, if_true]
  · calc m.parentPageTransform * Affine.placement (target.apply Point.origin).x
          (target.apply Point.origin).y (Angle.normalize target.rotation)
        = m.parentPageTransform * target := by rw [hrigid.placement_eq]
      _ = t * m.pageTransform := by
          rw [htarget, Affine.mul_assoc, ← Affine.mul_assoc, hparent.mul_inverse,
            Affine.identity_mul]

end Member

/-! ## The top-level shapes, and what is below them -/

namespace Snapshot

variable {s : Snapshot ℝ} {d₀ r : Document ℝ} {t : Affine ℝ}
  {move : Member ℝ → Except TransformError (Patch ℝ)} {id : ShapeId} {m : Member ℝ}

/-- The move takes every captured shape to the image of its place, as long as its parent stays. -/
def MovesBy (s : Snapshot ℝ) (move : Member ℝ → Except TransformError (Patch ℝ)) (t : Affine ℝ) :
    Prop :=
  ∀ id m, s.get? id = some m → ∃ p, move m = .ok p ∧ p.id = id ∧
    m.parentPageTransform * (m.shape.patch p).localTransform = t * m.pageTransform

theorem movesBy_shift (hs : s.Reflects d₀) (hkeyed : d₀.Keyed) (hshallow : d₀.Shallow)
    (delta : Vec ℝ) : s.MovesBy (·.shift delta) (Affine.translate delta) := by
  intro id m hm
  obtain ⟨p, hp, hplace⟩ := Member.exists_shift (hs.isRigid_parentPageTransform hshallow hm)
    (hs.pageTransform_eq hshallow hm) delta
  exact ⟨p, hp, (Member.id_shift hp).trans (hs.keyed hkeyed id m hm), hplace⟩

theorem movesBy_turn (hs : s.Reflects d₀) (hkeyed : d₀.Keyed) (hshallow : d₀.Shallow)
    (ht : t.IsRigid) : s.MovesBy (·.turn t) t := by
  intro id m hm
  obtain ⟨p, hp, hplace⟩ := Member.exists_turn (hs.isRigid_parentPageTransform hshallow hm)
    (hs.pageTransform_eq hshallow hm) ht
  exact ⟨p, hp, (Member.id_turn hp).trans (hs.keyed hkeyed id m hm), hplace⟩

/-- What is below a captured shape is captured. -/
theorem Reflects.exists_get?_of_mem_ancestors (hs : s.Reflects d₀) (hshallow : d₀.Shallow)
    {a : ShapeId} (ha : a ∈ d₀.ancestors id) (hm : s.get? a = some m) :
    ∃ m', s.get? id = some m' := by
  induction id using hshallow.induction with
  | step id ih =>
      obtain ⟨parent, hp, rfl | ha⟩ := hshallow.mem_ancestors_iff.1 ha
      · exact hs.below a m hm id hp
      · obtain ⟨m', hm'⟩ := ih parent hp ha
        exact hs.below parent m' hm' id hp

/-- What is above a top-level shape is not captured. -/
theorem Reflects.get?_of_mem_ancestors_top (hs : s.Reflects d₀) (hshallow : d₀.Shallow)
    {top a : ShapeId} (htop : top ∈ s.topLevel) (ha : a ∈ d₀.ancestors top) : s.get? a = none := by
  cases hm : s.get? a with
  | none => rfl
  | some m =>
      obtain ⟨parent, hp, hor⟩ := hshallow.mem_ancestors_iff.1 ha
      have hparent : ∃ m', s.get? parent = some m' := by
        rcases hor with rfl | ha
        · exact ⟨m, hm⟩
        · exact hs.exists_get?_of_mem_ancestors hshallow ha hm
      obtain ⟨m', hm'⟩ := hparent
      rw [hs.top top htop parent hp] at hm'
      exact nomatch hm'

/-- A move writes no shape but the captured top-level ones. -/
theorem get?_moveEach_of_not_top (hmove : s.MovesBy move t)
    (hid : id ∈ s.topLevel → s.get? id = none) :
    (r.patchAll (s.moveEach r move).updates).get? id = r.get? id := by
  refine Document.get?_patchAll_of_not_mem fun hmem => ?_
  obtain ⟨p, hp, rfl⟩ := List.mem_map.1 hmem
  obtain ⟨id', htop, m, hm, -, hok⟩ := mem_updates_moveEach.1 hp
  obtain ⟨q, hq, hqid, -⟩ := hmove id' m hm
  obtain rfl : q = p := Except.ok.inj (hq.symm.trans hok)
  rw [hqid, hm] at hid
  exact nomatch hid htop

/-- A captured top-level shape that is still there is moved to the image of its place. -/
theorem get?_moveEach_of_top (hmove : s.MovesBy move t) (htop : id ∈ s.topLevel)
    (hm : s.get? id = some m) (hr : r.get? id = some m.shape) :
    ∃ shape, (r.patchAll (s.moveEach r move).updates).get? id = some shape ∧
      shape.parent = m.shape.parent ∧
      m.parentPageTransform * shape.localTransform = t * m.pageTransform := by
  obtain ⟨p, hp, hpid, hplace⟩ := hmove id m hm
  have hmem : p ∈ (s.moveEach r move).updates :=
    mem_updates_moveEach.2 ⟨id, htop, m, hm, Document.contains_of_get? hr, hp⟩
  -- the patches for the shape are all the same one
  have hunique : ∀ q ∈ (s.moveEach r move).updates, q.id = id → q = p := by
    intro q hq hqid
    obtain ⟨id', -, m', hm', -, hok⟩ := mem_updates_moveEach.1 hq
    obtain ⟨q', hq', hqid', -⟩ := hmove id' m' hm'
    obtain rfl : q' = q := Except.ok.inj (hq'.symm.trans hok)
    obtain rfl : id' = id := hqid'.symm.trans hqid
    rw [hm] at hm'
    obtain rfl := Option.some.inj hm'
    exact Except.ok.inj (hok.symm.trans hp)
  refine ⟨m.shape.patch p, ?_, rfl, hplace⟩
  rw [Document.get?_patchAll_of_mem hmem hpid hunique, hr, Option.map_some]

/-- Where a shape is once a motion of the page has carried the captured shapes along. -/
noncomputable def carried (s : Snapshot ℝ) (d₀ : Document ℝ) (t : Affine ℝ) (id : ShapeId) :
    Option (Affine ℝ) :=
  match s.get? id with
  | some m => some (t * m.pageTransform)
  | none => d₀.pageTransform? id

theorem carried_of_some (hm : s.get? id = some m) :
    s.carried d₀ t id = some (t * m.pageTransform) := by
  rw [carried, hm]

theorem carried_of_none (hm : s.get? id = none) : s.carried d₀ t id = d₀.pageTransform? id := by
  rw [carried, hm]

/-- **On the page, what is left of the captured shapes follows the motion, and everything else that is
    left stays.** -/
theorem pageTransform?_moveEach (hs : s.Reflects d₀) (hshallow : d₀.Shallow) (hpart : r.PartOf d₀)
    (hsub : ∀ id shape, r.get? id = some shape → d₀.get? id = some shape)
    (hmove : s.MovesBy move t) (hc : r.contains id = true) :
    (r.patchAll (s.moveEach r move).updates).pageTransform? id = s.carried d₀ t id := by
  have htree := Document.sameTree_patchAll r (s.moveEach r move).updates
  have hpart' := htree.partOf hpart
  obtain ⟨shape, hshape⟩ := Document.contains_iff.1 ((htree.contains_eq id).trans hc)
  -- the images and the old places satisfy the equation of page transforms after the move
  refine (hpart'.shallow hshallow).pageTransform?_unique_of_get? (fun id shape hshape => ?_)
    (fun id parent hp hnone => ?_) hshape
  · obtain ⟨old, hold⟩ := Document.contains_iff.1
      ((htree.contains_eq id).symm.trans (Document.contains_of_get? hshape))
    have hold₀ := hsub id old hold
    cases hm : s.get? id with
    | none =>
        -- neither the shape nor its parent is captured
        rw [get?_moveEach_of_not_top hmove fun _ => hm, hold] at hshape
        obtain rfl := Option.some.inj hshape
        rw [carried_of_none hm, hshallow.pageTransform?_eq, hold₀, Option.bind_some]
        cases hparent : old.parent with
        | page => simp only []
        | shape parent =>
            have hp := Document.parentId?_eq_some_iff.2 ⟨old, hold₀, hparent⟩
            cases hm' : s.get? parent with
            | none => simp only [carried_of_none hm']
            | some m' =>
                obtain ⟨m, hm''⟩ := hs.below parent m' hm' id hp
                rw [hm] at hm''
                exact nomatch hm''
    | some m =>
        have hshape₀ := hs.shape id m hm
        obtain rfl : old = m.shape := Option.some.inj (hold₀.symm.trans hshape₀)
        rw [carried_of_some hm]
        by_cases htop : id ∈ s.topLevel
        · -- a top-level shape was moved within its parent, which stays
          obtain ⟨moved, hmoved, hparent, hplace⟩ := get?_moveEach_of_top hmove htop hm hold
          obtain rfl : moved = shape := Option.some.inj (hmoved.symm.trans hshape)
          rw [← hplace, hparent]
          cases hp : m.shape.parent with
          | page => simp [hs.parentPage_page id m hm (Document.parentId?_eq_none hshape₀ hp)]
          | shape parent =>
              have hsome := Document.parentId?_eq_some_iff.2 ⟨m.shape, hshape₀, hp⟩
              simp [carried_of_none (hs.top id htop parent hsome),
                hs.parentPage_shape id m hm parent hsome]
        · -- what is below rides along with its parent, which is captured
          rw [get?_moveEach_of_not_top hmove fun h => absurd h htop, hold] at hshape
          obtain rfl := Option.some.inj hshape
          obtain ⟨parent, m', hp, hm'⟩ := (hs.above id m hm).resolve_left htop
          obtain ⟨shape, hget, hparent⟩ := Document.parentId?_eq_some_iff.1 hp
          obtain rfl : shape = m.shape := Option.some.inj (hget.symm.trans hshape₀)
          have hpage : m'.pageTransform = m.parentPageTransform := Option.some.inj
            ((hs.page parent m' hm').symm.trans (hs.parentPage_shape id m hm parent hp))
          simp only [hparent, carried_of_some hm', Option.map_some, hpage, Affine.mul_assoc,
            ← hs.pageTransform_eq hshallow hm]
  · -- a parent that is gone never was there, for it would have outlived its child
    have hgone : ¬ d₀.contains parent = true := fun hc => by
      obtain ⟨shape, hget⟩ := Document.contains_iff.1 (hpart'.parent id parent hp hc)
      rw [hnone] at hget
      exact nomatch hget
    have hnone₀ := Document.get?_of_not_contains hgone
    cases hm : s.get? parent with
    | some m =>
        rw [hs.shape parent m hm] at hnone₀
        exact nomatch hnone₀
    | none => rw [carried_of_none hm, Document.pageTransform?, hnone₀, Option.bind_none]

end Snapshot

end CanvasTransform
