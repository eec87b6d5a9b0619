import CanvasTransform.Proofs.Document.Forest

set_option autoImplicit false

/-! # Parents are never lost

Whatever is asked of a store, each of its shapes hangs from the page or from a shape that is there
(`Store.Grown.closed`). A removal keeps this because it takes everything beneath the removed shape
along.

So a store in which nothing lies above itself is a forest (`Closed.forest`). -/

namespace CanvasTransform

variable {α : Type}

namespace Document

variable {d d' : Document α}

/-! ## Closed documents -/

/-- Every parent is there. -/
def Closed (d : Document α) : Prop := ∀ id parent, d.parentId? id = some parent → d.contains parent = true

theorem closed_empty : (empty : Document α).Closed := by
  intro id parent hp
  obtain ⟨s, hs, -⟩ := parentId?_eq_some_iff.1 hp
  rw [get?_empty] at hs
  exact nomatch hs

theorem SameTree.closed (h : d.SameTree d') (hd : d'.Closed) : d.Closed := by
  intro id parent hp
  rw [h.parentId?_eq] at hp
  rw [h.contains_eq]
  exact hd id parent hp

/-- A shape may be put, in place of another one or not, if its parent is there. -/
theorem Closed.put (hd : d.Closed) {s : Shape α}
    (hparent : ∀ parent, s.parent = .shape parent → d.contains parent = true) : (d.put s).Closed := by
  intro id parent hp
  have hthere : d.contains parent = true := by
    obtain ⟨t, ht, htparent⟩ := parentId?_eq_some_iff.1 hp
    rw [get?_put] at ht
    split at ht
    · obtain rfl := Option.some.inj ht
      exact hparent parent htparent
    · exact hd id parent (parentId?_eq_some_iff.2 ⟨t, ht, htparent⟩)
  obtain ⟨t, ht⟩ := contains_iff.1 hthere
  rw [contains_iff, get?_put]
  split
  · exact ⟨s, rfl⟩
  · exact ⟨t, ht⟩

/-- What hangs from a shape that is removed is removed. -/
theorem Closed.remove {s : Store α} (hd : s.document.Closed) (hkeyed : s.document.Keyed)
    (id : ShapeId) : (s.remove id).2.document.Closed := by
  intro x parent hp
  obtain ⟨hp, hstays⟩ := parentId?_remove hkeyed hp
  exact hstays (hd x parent hp)

/-- Where no parent is missing and nothing lies above itself, there is a forest. -/
theorem Closed.forest (hd : d.Closed) (hacyclic : d.Acyclic) : d.Forest := by
  refine ⟨hd, fun id hid => ?_⟩
  -- the parent of a shape is there and has one shape less above it
  generalize hn : d.level id = n
  induction n generalizing id with
  | zero =>
      obtain ⟨s, hs⟩ := contains_iff.1 hid
      cases hparent : s.parent with
      | page => exact .shape hs (hparent ▸ .page)
      | shape parent =>
          rw [hacyclic.level_eq_succ (parentId?_eq_some_iff.2 ⟨s, hs, hparent⟩)] at hn
          exact absurd hn (Nat.succ_ne_zero _)
  | succ n ih =>
      obtain ⟨s, hs⟩ := contains_iff.1 hid
      cases hparent : s.parent with
      | page => exact .shape hs (hparent ▸ .page)
      | shape parent =>
          have hp : d.parentId? id = some parent := parentId?_eq_some_iff.2 ⟨s, hs, hparent⟩
          rw [hacyclic.level_eq_succ hp] at hn
          exact .shape hs (hparent ▸ ih parent (hd id parent hp) (Nat.succ.inj hn))

end Document

/-! ## Stores -/

namespace Store

variable {s : Store α}

/-- **In a grown store no parent is missing.** -/
theorem Grown.closed (h : s.Grown) : s.document.Closed := by
  induction h with
  | empty => exact Document.closed_empty
  | insert _ hinsert ih =>
      obtain ⟨-, hparent, hdocument⟩ := insert_eq_ok hinsert
      rw [hdocument]
      exact ih.put hparent
  | @reparent s s' id parent _ hreparent ih =>
      obtain ⟨hchecked, hdocument⟩ := reparent_eq_ok hreparent
      rw [hdocument]
      cases s.document.get? id with
      | none => exact ih
      | some shape => exact ih.put fun target htarget => (hchecked target htarget).1
  | remove id h ih => exact ih.remove h.keyed id
  | update batch _ ih =>
      rw [Store.update]
      split
      · exact ih
      · exact (Document.sameTree_patchAll _ _).closed ih

end Store

end CanvasTransform
