import CanvasTransform.Proofs.Document.Forest

set_option autoImplicit false

/-! # What removals leave of a document

Patches and removals lead from a document to a part of it (`Document.PartOf`): whatever is left is,
up to patches, what was there, and no shape outlives its parent. So a chain of parents is left as a
whole or not at all, and what is above a shape that is left is what was above it
(`PartOf.ancestors_eq`). -/

namespace CanvasTransform.Document

variable {α : Type} {d d' d₀ : Document α}

/-- Every shape of the document is, up to patches, one of `d₀`, and a parent that `d₀` has is there
    as long as there is a child of it. -/
structure PartOf (d d₀ : Document α) : Prop where
  stem : ∀ id s, d.get? id = some s → ∃ s₀, d₀.get? id = some s₀ ∧ s₀.stem = s.stem
  parent : ∀ id parent, d.parentId? id = some parent → d₀.contains parent = true →
    d.contains parent = true

theorem PartOf.refl (d : Document α) : d.PartOf d :=
  ⟨fun _ s hs => ⟨s, hs, rfl⟩, fun _ _ _ hc => hc⟩

theorem SameTree.partOf (h : d.SameTree d') (h' : d'.PartOf d₀) : d.PartOf d₀ where
  stem id s hs := by
    obtain ⟨s', hs', hstem'⟩ := h.get? hs
    obtain ⟨s₀, hs₀, hstem₀⟩ := h'.stem id s' hs'
    exact ⟨s₀, hs₀, hstem₀.trans hstem'⟩
  parent id parent hp hc := by
    rw [h.parentId?_eq] at hp
    rw [h.contains_eq]
    exact h'.parent id parent hp hc

theorem PartOf.keyed (h : d.PartOf d₀) (hd₀ : d₀.Keyed) : d.Keyed := by
  intro id s hs
  obtain ⟨s₀, hs₀, hstem⟩ := h.stem id s hs
  rw [← Shape.id_of_stem hstem]
  exact hd₀ id s₀ hs₀

/-! ## Chains of parents -/

/-- A shape hangs where it hung, and one that never was there hangs nowhere. -/
theorem PartOf.parentId?_eq (h : d.PartOf d₀) {id : ShapeId}
    (hid : d₀.contains id = true → d.contains id = true) : d.parentId? id = d₀.parentId? id := by
  cases hs : d.get? id with
  | some s =>
      obtain ⟨s₀, hs₀, hstem⟩ := h.stem id s hs
      have hparent : s₀.parent = s.parent := congrArg (fun stem => stem.2.2.1) hstem
      simp only [parentId?, hs, hs₀, Option.bind_some, hparent]
  | none =>
      have hs₀ : d₀.get? id = none := get?_of_not_contains fun hc => by
        obtain ⟨s, hs'⟩ := contains_iff.1 (hid hc)
        rw [hs] at hs'
        cases hs'
      simp only [parentId?, hs, hs₀, Option.bind_none]

theorem PartOf.ancestorsWithin_eq (h : d.PartOf d₀) (n : Nat) {id : ShapeId}
    (hid : d₀.contains id = true → d.contains id = true) :
    d.ancestorsWithin n id = d₀.ancestorsWithin n id := by
  induction n generalizing id with
  | zero => rfl
  | succ n ih =>
      rw [ancestorsWithin, ancestorsWithin, ← h.parentId?_eq hid]
      cases hp : d.parentId? id with
      | none => rfl
      | some parent => exact congrArg (parent :: ·) (ih (h.parent id parent hp))

theorem PartOf.ancestors_eq (h : d.PartOf d₀) {id : ShapeId} (hc : d.contains id = true) :
    d.ancestors id = d₀.ancestors id := h.ancestorsWithin_eq maxDepth fun _ => hc

theorem PartOf.shallow (h : d.PartOf d₀) (hd₀ : d₀.Shallow) : d.Shallow := by
  intro id
  by_cases hc : d.contains id = true
  · rw [h.ancestors_eq hc]
    exact hd₀ id
  · have hnone : d.parentId? id = none := by rw [parentId?, get?_of_not_contains hc, Option.bind_none]
    rw [ancestors_eq_nil hnone]
    decide

/-! ## Removals -/

/-- Removing a shape takes everything beneath it along, so a part is left. -/
theorem PartOf.remove {s : Store α} (h : s.document.PartOf d₀) (hkeyed : s.document.Keyed)
    (id : ShapeId) : (s.remove id).2.document.PartOf d₀ := by
  constructor
  case stem =>
    exact fun id' shape hs => h.stem id' shape ((get?_remove_eq_some_iff hkeyed).1 hs).1
  case parent =>
    intro id' parent hp hc
    obtain ⟨hp, hstays⟩ := parentId?_remove hkeyed hp
    exact hstays (h.parent id' parent hp hc)

end CanvasTransform.Document
