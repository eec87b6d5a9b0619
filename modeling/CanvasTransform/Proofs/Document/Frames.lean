import CanvasTransform.Proofs.Document.Ancestry
import CanvasTransform.Proofs.Geometry.Rigid

set_option autoImplicit false

/-! # Page transforms, one parent at a time

A page transform is collected on the way up, with fuel, and with the inner placements multiplied
first. In a shallow document, read exactly, neither matters: the page transform of a shape is that of
its parent after the shape's own placement (`Shallow.pageTransform?_eq`). -/

namespace CanvasTransform

theorem Shape.isRigid_localTransform (s : Shape ℝ) : s.localTransform.IsRigid :=
  Affine.isRigid_placement s.x s.y s.rotation

namespace Document

variable {d d' : Document ℝ}

/-- What was collected before comes last. -/
theorem pageTransformFrom_eq (d : Document ℝ) (n : Nat) (s : Shape ℝ) (inner : Affine ℝ) :
    d.pageTransformFrom n s inner =
      (d.pageTransformFrom n s Affine.identity).map (· * inner) := by
  induction n generalizing s inner with
  | zero => rfl
  | succ n ih =>
      simp only [pageTransformFrom]
      cases s.parent with
      | page => simp
      | shape parent =>
          dsimp only
          cases d.get? parent with
          | none => rfl
          | some p =>
              simp only [Option.bind_some]
              rw [ih p (s.localTransform * inner), ih p (s.localTransform * Affine.identity),
                Option.map_map]
              congr 1
              funext t
              simp [Affine.mul_assoc]

theorem pageTransformFrom_succ {n : Nat} {id : ShapeId} {s : Shape ℝ} (hs : d.get? id = some s)
    (h : (d.ancestorsWithin n id).length < n) (inner : Affine ℝ) :
    d.pageTransformFrom (n + 1) s inner = d.pageTransformFrom n s inner := by
  -- the fuel runs along the chain of parents, which ends before it does
  induction n generalizing id s inner with
  | zero => omega
  | succ n ih =>
      rw [pageTransformFrom, pageTransformFrom]
      cases hp : s.parent with
      | page => rfl
      | shape parent =>
          have hparent : d.parentId? id = some parent := parentId?_eq_some_iff.2 ⟨s, hs, hp⟩
          simp only [ancestorsWithin, hparent, List.length_cons] at h
          dsimp only
          cases ht : d.get? parent with
          | none => rfl
          | some t => exact ih ht (by omega) _

/-- **One parent at a time**: the page transform of a shape is that of its parent, then the shape's
    own placement. -/
theorem Shallow.pageTransform?_eq (hd : d.Shallow) (id : ShapeId) :
    d.pageTransform? id = (d.get? id).bind fun s =>
      match s.parent with
      | .page => some s.localTransform
      | .shape parent => (d.pageTransform? parent).map (· * s.localTransform) := by
  rw [pageTransform?]
  cases hs : d.get? id with
  | none => rfl
  | some s =>
      simp only [Option.bind_some]
      rw [maxDepth, pageTransformFrom]
      cases hp : s.parent with
      | page => simp
      | shape parent =>
          have hparent : d.parentId? id = some parent := parentId?_eq_some_iff.2 ⟨s, hs, hp⟩
          dsimp only
          unfold pageTransform?
          cases ht : d.get? parent with
          | none => rfl
          | some t =>
              simp only [Option.bind_some, Affine.mul_identity]
              rw [maxDepth, pageTransformFrom_succ ht (hd.length_ancestorsWithin_lt hparent),
                pageTransformFrom_eq]

/-- A shape that lies on the page is turned like its frame. -/
theorem Shallow.cos_rotation (hd : d.Shallow) {id : ShapeId} {s : Shape ℝ} (hs : d.get? id = some s)
    (hp : s.parent = .page) {t : Affine ℝ} (ht : d.pageTransform? id = some t) :
    Real.cos s.rotation = t.a := by
  rw [hd.pageTransform?_eq, hs, Option.bind_some, hp] at ht
  rw [← Option.some.inj ht]
  simp [Shape.localTransform, Affine.placement, Affine.translate, Affine.rotate_eq]

/-- Whatever satisfies the equation of page transforms is the page transform. -/
theorem Shallow.pageTransform?_unique (hd : d.Shallow) (place : ShapeId → Option (Affine ℝ))
    (h : ∀ id, place id = (d.get? id).bind fun s =>
      match s.parent with
      | .page => some s.localTransform
      | .shape parent => (place parent).map (· * s.localTransform)) (id : ShapeId) :
    d.pageTransform? id = place id := by
  induction id using hd.induction with
  | step id ih =>
      rw [hd.pageTransform?_eq, h id]
      cases hs : d.get? id with
      | none => simp only [Option.bind_none]
      | some s =>
          simp only [Option.bind_some]
          cases hp : s.parent with
          | page => simp only []
          | shape parent => simp only [ih parent (parentId?_eq_some_iff.2 ⟨s, hs, hp⟩)]

/-- It is enough that the equation holds for the shapes of the document, if the others have no
    place. -/
theorem Shallow.pageTransform?_unique_of_get? (hd : d.Shallow)
    {place : ShapeId → Option (Affine ℝ)}
    (h : ∀ id s, d.get? id = some s → place id = match s.parent with
      | .page => some s.localTransform
      | .shape parent => (place parent).map (· * s.localTransform))
    (hout : ∀ id parent, d.parentId? id = some parent → d.get? parent = none → place parent = none)
    {id : ShapeId} {s : Shape ℝ} (hs : d.get? id = some s) : d.pageTransform? id = place id := by
  have hunique := hd.pageTransform?_unique
    (fun id => (d.get? id).bind fun _ => place id) (fun id => ?_) id
  · rwa [hs] at hunique
  cases hs : d.get? id with
  | none => simp only [Option.bind_none]
  | some s =>
      simp only [Option.bind_some]
      rw [h id s hs]
      cases hp : s.parent with
      | page => simp only []
      | shape parent =>
          cases hparent : d.get? parent with
          | some p => simp only [hparent, Option.bind_some]
          | none =>
              simp only [hparent, Option.bind_none,
                hout id parent (parentId?_eq_some_iff.2 ⟨s, hs, hp⟩) hparent]

theorem Shallow.isRigid_pageTransform? (hd : d.Shallow) {id : ShapeId} {t : Affine ℝ}
    (h : d.pageTransform? id = some t) : t.IsRigid := by
  induction id using hd.induction generalizing t with
  | step id ih =>
      rw [hd.pageTransform?_eq, Option.bind_eq_some_iff] at h
      obtain ⟨s, hs, h⟩ := h
      cases hp : s.parent with
      | page =>
          simp only [hp, Option.some.injEq] at h
          rw [← h]
          exact s.isRigid_localTransform
      | shape parent =>
          simp only [hp, Option.map_eq_some_iff] at h
          obtain ⟨t', ht', rfl⟩ := h
          exact (ih parent (parentId?_eq_some_iff.2 ⟨s, hs, hp⟩) ht').mul s.isRigid_localTransform

end Document

end CanvasTransform
