import CanvasTransform.Proofs.Document.Closed
import CanvasTransform.Proofs.Document.Descent
import CanvasTransform.Proofs.Document.Requests

set_option autoImplicit false

/-! # Removing as one goes

`Store.remove` collects what lies beneath a shape before it removes anything. The same removal can
be done on the way: to remove a shape, remove its children one after another, each with what then
still hangs from it, and take out the shape last. Here the document changes under the walk, and the
children of a shape are asked for after the subtrees of earlier siblings are gone.

`Clears` and `Removal` say what the walk does when it comes to an end; there is a derivation for
each walk that ends, and none for one that does not. What is left after a walk depends on the shapes
that it started from alone (`Clears.remains`), however the subtrees lie to each other. It ends where
nothing lies above itself, at any depth (`Acyclic.exists_removal`). So both ways of removing come to
the same (`Store.remove_subtree`). -/

namespace CanvasTransform.Document

variable {α : Type} {d d' d'' d₀ : Document α} {a c id x : ShapeId} {ids ids' : List ShapeId}

/-! ## The walk -/

/-- Removing the shapes `ids` of `d` one after another, each after the children that it then has,
    leaves `d'`. -/
inductive Clears : Document α → List ShapeId → Document α → Prop
  | done (d : Document α) : Clears d [] d
  | next {d d' d'' : Document α} {id : ShapeId} {ids : List ShapeId} :
      Clears d (d.children (.shape id)) d' → Clears (d'.erase id) ids d'' → Clears d (id :: ids) d''

/-- Removing one shape of `d` answers `answer` and leaves `d'`: the children go first, and the
    answer is what the document then still holds of the shape. -/
def Removal (d : Document α) (id : ShapeId) (answer : Option (Shape α)) (d' : Document α) : Prop :=
  ∃ bare, d.Clears (d.children (.shape id)) bare ∧ answer = bare.get? id ∧ d' = bare.erase id

/-- A walk over several shapes removes the first one and goes on from there. -/
theorem clears_cons_iff :
    d.Clears (id :: ids) d'' ↔ ∃ answer d', d.Removal id answer d' ∧ d'.Clears ids d'' := by
  constructor
  · intro h
    cases h with
    | @next _ bare _ _ _ hchildren hrest =>
        exact ⟨_, _, ⟨bare, hchildren, rfl, rfl⟩, hrest⟩
  · rintro ⟨_, _, ⟨bare, hchildren, rfl, rfl⟩, hrest⟩
    exact .next hchildren hrest

/-! ## What is left -/

/-- `d'` is what remains of `d` without the shapes `ids` and what lies beneath them. -/
def Remains (d : Document α) (ids : List ShapeId) (d' : Document α) : Prop :=
  ∀ x t, d'.get? x = some t ↔ d.get? x = some t ∧ ∀ id ∈ ids, ¬ d.Under id x

theorem remains_nil (d : Document α) : d.Remains [] d := by
  simp [Remains]

namespace Remains

theorem keyed (h : d.Remains ids d') (hkeyed : d.Keyed) : d'.Keyed := by
  intro x t ht
  exact hkeyed x t ((h x t).1 ht).1

/-- What is left keeps its parent. -/
theorem parentId?_eq (h : d.Remains ids d') (hx : d'.contains x = true) :
    d'.parentId? x = d.parentId? x := by
  obtain ⟨t, ht⟩ := contains_iff.1 hx
  rw [parentId?, parentId?, ht, ((h x t).1 ht).1]

/-- What lies above a shape that is left is what lay above it. -/
theorem above_iff (h : d.Remains ids d') (hx : d'.contains x = true) :
    d'.Above a x ↔ d.Above a x := by
  constructor
  · intro habove
    induction habove with
    | parent hp =>
        rw [h.parentId?_eq hx] at hp
        exact .parent hp
    | step hp habove ih =>
        rw [h.parentId?_eq hx] at hp
        exact .step hp (ih habove.contains)
  · intro habove
    induction habove with
    | parent hp =>
        rw [← h.parentId?_eq hx] at hp
        exact .parent hp
    | @step x parent hp habove ih =>
        -- the parent was there, and had it been taken, the shape would have gone with it
        obtain ⟨p, hget⟩ := contains_iff.1 habove.contains
        obtain ⟨t, ht⟩ := contains_iff.1 hx
        have hleft : d'.contains parent = true := by
          refine contains_of_get? ((h parent p).2 ⟨hget, fun id hid hunder => ?_⟩)
          exact ((h x t).1 ht).2 id hid (Or.inr (above_iff_under.2 ⟨parent, hp, hunder⟩))
        rw [← h.parentId?_eq hx] at hp
        exact .step hp (ih hleft)

theorem trans (h : d.Remains ids d') (h' : d'.Remains ids' d'') : d.Remains (ids ++ ids') d'' := by
  intro x t
  have hunder : d'.get? x = some t → ∀ id, d'.Under id x ↔ d.Under id x := by
    intro ht id
    rw [Under, Under, h.above_iff (contains_of_get? ht)]
  rw [h' x t]
  constructor
  · rintro ⟨ht, hout'⟩
    obtain ⟨hget, hout⟩ := (h x t).1 ht
    refine ⟨hget, fun id hid => ?_⟩
    rcases List.mem_append.1 hid with hid | hid
    · exact hout id hid
    · rw [← hunder ht]
      exact hout' id hid
  · rintro ⟨hget, hout⟩
    have ht : d'.get? x = some t :=
      (h x t).2 ⟨hget, fun id hid => hout id (List.mem_append_left _ hid)⟩
    refine ⟨ht, fun id hid => ?_⟩
    rw [hunder ht]
    exact hout id (List.mem_append_right _ hid)

/-- Once its children are gone with all that lay beneath them, taking out the shape takes the rest
    of its subtree. -/
theorem erase (h : d.Remains (d.children (.shape id)) d') (hkeyed : d.Keyed) :
    d.Remains [id] (d'.erase id) := by
  intro x t
  have hunder : d.Under id x ↔ id = x ∨ ∃ c ∈ d.children (.shape id), d.Under c x := by
    rw [Under, eq_comm, above_iff_under_child]
    simp only [mem_children_shape_iff hkeyed]
  rw [get?_erase]
  by_cases hx : id = x
  · simp [hx, Under.refl]
  · simp [hx, h x t, hunder]

end Remains

/-- **What a walk leaves**: everything but the subtrees of the shapes that it started from. -/
theorem Clears.remains (h : d.Clears ids d') (hkeyed : d.Keyed) : d.Remains ids d' := by
  induction h with
  | done d => exact remains_nil d
  | next _ _ ihchildren ihrest =>
      have hone := (ihchildren hkeyed).erase hkeyed
      exact hone.trans (ihrest (hone.keyed hkeyed))

/-! ## The walk ends -/

theorem Removal.remains {answer : Option (Shape α)} (h : d.Removal id answer d') (hkeyed : d.Keyed) :
    d.Remains [id] d' :=
  (clears_cons_iff.2 ⟨answer, d', h, .done d'⟩).remains hkeyed

/-- Where each of the shapes can be removed from whatever is left of a document, all of them can be
    removed in turn. -/
theorem exists_clears_of_forall (hkeyed : d₀.Keyed)
    (hone : ∀ id ∈ ids, ∀ gone d, d₀.Remains gone d → ∃ answer d', d.Removal id answer d')
    {gone : List ShapeId} (h : d₀.Remains gone d) : ∃ d', d.Clears ids d' := by
  induction ids generalizing gone d with
  | nil => exact ⟨d, .done d⟩
  | cons id ids ih =>
      obtain ⟨answer, d', hremoval⟩ := hone id List.mem_cons_self gone d h
      have hremains := h.trans (hremoval.remains (h.keyed hkeyed))
      obtain ⟨d'', hrest⟩ := ih (fun x hx => hone x (List.mem_cons_of_mem _ hx)) hremains
      exact ⟨d'', clears_cons_iff.2 ⟨answer, d', hremoval, hrest⟩⟩

/-- **The walk ends** where nothing lies above itself, whatever has been removed before. -/
theorem Acyclic.exists_removal (hd : d₀.Acyclic) (hkeyed : d₀.Keyed) (id : ShapeId)
    (gone : List ShapeId) (d : Document α) (h : d₀.Remains gone d) :
    ∃ answer d', d.Removal id answer d' := by
  induction id using hd.induction_children generalizing gone d with
  | step id ih =>
      have hchildren : ∀ child ∈ d.children (.shape id), d₀.parentId? child = some id := by
        intro child hchild
        have hp := (mem_children_shape_iff (h.keyed hkeyed)).1 hchild
        rwa [h.parentId?_eq (Above.parent hp).contains] at hp
      obtain ⟨bare, hbare⟩ :=
        exists_clears_of_forall hkeyed (fun child hchild => ih child (hchildren child hchild)) h
      exact ⟨_, _, bare, hbare, rfl, rfl⟩

end CanvasTransform.Document

namespace CanvasTransform.Store

variable {α : Type}

/-- **A removal takes exactly a subtree.** In a store in which no parent is missing and nothing lies
    above itself, however deep it is, removing a shape child by child comes to an end, and at no
    other end than the removal at once: it answers the shape's record, if there is one, and leaves
    exactly the shapes that neither are the shape nor lie beneath it, as they were, and none without
    its parent. -/
theorem remove_subtree (s : Store α) (hkeyed : s.document.Keyed) (hclosed : s.document.Closed)
    (hacyclic : s.document.Acyclic) (id : ShapeId) :
    let answer := (s.remove id).1
    let left := (s.remove id).2.document
    (∃ d, s.document.Removal id answer d) ∧
      (∀ answer' d, s.document.Removal id answer' d → answer' = answer ∧ d.Agree left) ∧
      answer = s.document.get? id ∧
      (∀ x t, left.get? x = some t ↔ s.document.get? x = some t ∧ ¬ s.document.Under id x) ∧
      left.Closed := by
  intro answer left
  have hleft : ∀ x t, left.get? x = some t ↔
      s.document.get? x = some t ∧ ¬ s.document.Under id x := fun x t =>
    Document.get?_remove_eq_some_iff hkeyed
  -- none of the children has the shape beneath it, so it is still there when they are gone
  have hend : ∀ answer' d, s.document.Removal id answer' d → answer' = answer ∧ d.Agree left := by
    intro answer' d h
    constructor
    · obtain ⟨bare, hbare, rfl, -⟩ := h
      refine Option.ext fun t => ?_
      rw [hbare.remains hkeyed id t]
      refine and_iff_left fun child hchild => ?_
      exact hacyclic.not_under_parent ((Document.mem_children_shape_iff hkeyed).1 hchild)
    · intro x
      refine Option.ext fun t => ?_
      rw [h.remains hkeyed x t, hleft]
      simp
  obtain ⟨answer', d, h⟩ :=
    hacyclic.exists_removal hkeyed id [] s.document (Document.remains_nil s.document)
  refine ⟨⟨d, ?_⟩, hend, rfl, hleft, hclosed.remove hkeyed id⟩
  rw [← (hend answer' d h).1]
  exact h

/-- A tower of 300 frames, deeper than queries follow. Removing the second frame from the ground
    leaves the first and takes the last. -/
theorem remove_subtree_tower :
    let s := (empty : Store Binary64).serveAll (tower 300)
    (s.document.Keyed ∧ s.document.Closed ∧ s.document.Acyclic) ∧
      (∃ d, s.document.Removal 2 (s.document.get? 2) d ∧ d.get? 300 = none) ∧
      (s.remove 2).2.document.get? 1 = s.document.get? 1 ∧ (s.remove 2).2.document.Closed := by
  intro s
  have hgrown : s.Grown := grown_serveAll .empty _
  have hacyclic : s.document.Acyclic := by
    refine (forest_serveAll fun before r hpre => ?_).acyclic
    obtain ⟨i, -, rfl⟩ := List.mem_map.1 (hpre.subset (List.mem_append_right before (.head [])))
    exact id
  obtain ⟨⟨d, hd⟩, hunique, hanswer, hleft, hclosed⟩ :=
    s.remove_subtree hgrown.keyed hgrown.closed hacyclic 2
  refine ⟨⟨hgrown.keyed, hgrown.closed, hacyclic⟩, ⟨d, hanswer ▸ hd, ?_⟩, ?_, hclosed⟩
  · rw [(hunique _ d hd).2 300]
    refine Option.eq_none_iff_forall_ne_some.2 fun t ht => ((hleft 300 t).1 ht).2 (Or.inr ?_)
    exact Document.above_iff_exists_mem.2 ⟨298, by decide +kernel⟩
  · refine Option.ext fun t => ?_
    rw [hleft]
    refine and_iff_left ?_
    rintro (h | h)
    · exact absurd h (by decide)
    · exact absurd (Document.above_iff_mem_size.1 h) (by decide +kernel)

end CanvasTransform.Store
