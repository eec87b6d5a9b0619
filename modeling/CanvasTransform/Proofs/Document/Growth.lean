import CanvasTransform.Proofs.Document.View

set_option autoImplicit false

/-! # Stores that grew from the empty one

What the operations of a store do to the view of its document, and the property that all of them
keep: each shape is filed under its own identity (`Store.Grown.keyed`). -/

namespace CanvasTransform

variable {α : Type}

namespace Document

theorem keyed_empty : (empty : Document α).Keyed := by
  intro id s hs
  rw [get?_empty] at hs
  exact nomatch hs

theorem Keyed.put {d : Document α} (hd : d.Keyed) (s : Shape α) : (d.put s).Keyed := by
  intro id t ht
  rw [get?_put] at ht
  split at ht
  · next hid => rw [← Option.some.inj ht]; exact hid
  · exact hd id t ht

theorem get?_foldl_erase (d : Document α) (ids : List ShapeId) (id : ShapeId) :
    (ids.foldl erase d).get? id = if id ∈ ids then none else d.get? id := by
  induction ids generalizing d with
  | nil => simp
  | cons a ids ih =>
      rw [List.foldl_cons, ih, get?_erase]
      by_cases hmem : id ∈ ids
      · simp [hmem]
      · by_cases ha : a = id
        · simp [ha]
        · have hne : id ≠ a := fun h => ha h.symm
          simp [hmem, ha, hne]

end Document

namespace Store

variable {s s' : Store α}

/-- A removal leaves every other shape as it is. -/
theorem get?_remove (s : Store α) (id id' : ShapeId) :
    (s.remove id).2.document.get? id' =
      if id' ∈ s.document.subtree id then none else s.document.get? id' :=
  Document.get?_foldl_erase s.document _ id'

theorem keyed_remove (hs : s.document.Keyed) (id : ShapeId) : (s.remove id).2.document.Keyed := by
  intro id' t ht
  rw [get?_remove] at ht
  split at ht
  · exact nomatch ht
  · exact hs id' t ht

/-- What a granted insertion has checked, and what it does. -/
theorem insert_eq_ok {shape : Shape α} (h : s.insert shape = .ok s') :
    s.document.contains shape.id = false ∧
      (∀ parent, shape.parent = .shape parent → s.document.contains parent = true) ∧
      s'.document = s.document.put shape := by
  unfold insert at h
  split at h
  · cases h
  · next hnew =>
      refine ⟨by simpa using hnew, ?_⟩
      split at h
      · next hpage =>
          obtain rfl := Except.ok.inj h
          refine ⟨fun parent hp => ?_, rfl⟩
          rw [hpage] at hp
          cases hp
      · next target hshape =>
          split at h
          · next hthere =>
              obtain rfl := Except.ok.inj h
              refine ⟨fun parent hp => ?_, rfl⟩
              rw [hshape] at hp
              exact Parent.shape.inj hp ▸ hthere
          · cases h

theorem keyed_insert (hs : s.document.Keyed) {shape : Shape α} (h : s.insert shape = .ok s') :
    s'.document.Keyed := by
  rw [(insert_eq_ok h).2.2]
  exact hs.put shape

/-- What a granted request for another parent has checked, and what it does. -/
theorem reparent_eq_ok {id : ShapeId} {parent : Parent} (h : s.reparent id parent = .ok s') :
    (∀ target, parent = .shape target → s.document.contains target = true ∧ id ≠ target ∧
      id ∉ s.document.ancestorsWithin (Document.maxDepth - 1) target) ∧
      s'.document = match s.document.get? id with
        | some shape => s.document.put (shape.withParent parent)
        | none => s.document := by
  -- what is checked does not depend on the shape, and what is done does not depend on the parent
  constructor
  · rintro target rfl
    unfold reparent at h
    dsimp only at h
    split at h
    · cases h
    · next hthere =>
        split at h
        · cases h
        · next hnear => simpa [not_or] using And.intro hthere hnear
  · cases hget : s.document.get? id <;>
    · simp only [reparent, hget] at h
      split at h
      · cases h
        rfl
      · split at h
        · cases h
        · split at h <;> cases h
          rfl

theorem keyed_reparent (hs : s.document.Keyed) {id : ShapeId} {parent : Parent}
    (h : s.reparent id parent = .ok s') : s'.document.Keyed := by
  rw [(reparent_eq_ok h).2]
  cases s.document.get? id with
  | none => exact hs
  | some shape => exact hs.put _

theorem keyed_update (hs : s.document.Keyed) (batch : List (Patch α)) :
    (s.update batch).document.Keyed := by
  rw [update]
  split
  · exact hs
  · exact (Document.sameTree_patchAll _ _).keyed hs

/-- The stores that the operations lead to. -/
inductive Grown : Store α → Prop
  | empty : Grown Store.empty
  | insert {s s' : Store α} {shape : Shape α} : Grown s → s.insert shape = .ok s' → Grown s'
  | reparent {s s' : Store α} {id : ShapeId} {parent : Parent} :
      Grown s → s.reparent id parent = .ok s' → Grown s'
  | remove {s : Store α} (id : ShapeId) : Grown s → Grown (s.remove id).2
  | update {s : Store α} (batch : List (Patch α)) : Grown s → Grown (s.update batch)

/-- **Every shape of a grown store is filed under its own identity.** -/
theorem Grown.keyed (h : s.Grown) : s.document.Keyed := by
  induction h with
  | empty => exact Document.keyed_empty
  | insert _ hinsert ih => exact keyed_insert ih hinsert
  | reparent _ hreparent ih => exact keyed_reparent ih hreparent
  | remove id _ ih => exact keyed_remove ih id
  | update batch _ ih => exact keyed_update ih batch

end Store

end CanvasTransform
