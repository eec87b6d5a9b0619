import CanvasTransform.Binary64
import CanvasTransform.Proofs.Document.Closed
import CanvasTransform.Proofs.Document.Descent
import CanvasTransform.Proofs.Document.Requests
import CanvasTransform.Proofs.Selection.Capture

set_option autoImplicit false

/-! # The top of a selection

A selection may name shapes twice, shapes that are gone, and shapes inside one another. Its top-level
shapes are those that exist and have no ancestor in it. They come in the order in which the selection
first names them, and none is an ancestor of another.

Where no shape has more above it than queries follow (`Traceable`), they also stand for the whole
selection: each selected shape that exists is one of them or lies beneath one, and what lies beneath one
does not lie beneath another (`Store.Grown.hierarchy_agrees`). A selected shape that is gone and still
has something beneath it would break this. A store has no such shape. -/

namespace CanvasTransform.Document

variable {α : Type} {d : Document α} {selection : List ShapeId} {a id x y : ShapeId}

/-! ## How far queries see -/

/-- No shape has more shapes above it than queries follow. -/
def Traceable (d : Document α) : Prop := ∀ n id, (d.ancestorsWithin n id).length ≤ maxDepth

/-- Queries see everything above a shape. -/
theorem Traceable.above_iff (hd : d.Traceable) : d.Above a id ↔ a ∈ d.ancestors id := by
  constructor
  · intro h
    obtain ⟨n, hn⟩ := above_iff_exists_mem.1 h
    rcases Nat.le_total n maxDepth with hle | hle
    · rw [ancestorsWithin_eq_take hle id] at hn
      exact List.mem_of_mem_take hn
    · rw [ancestors, ancestorsWithin_eq_take hle id, List.take_of_length_le (hd n id)]
      exact hn
  · exact fun h => above_iff_exists_mem.2 ⟨maxDepth, h⟩

/-- In a shallow document queries see everything, with room to spare. -/
theorem Shallow.traceable (hd : d.Shallow) : d.Traceable := by
  intro n id
  have hlt := hd id
  rw [ancestors] at hlt
  rcases Nat.le_total n maxDepth with hle | hle
  · rw [ancestorsWithin_eq_take hle id, List.length_take]
    omega
  · rw [ancestorsWithin_eq_take hle id, List.length_take] at hlt
    omega

/-! ## The order of the selection -/

/-- Of the members of a list that are kept, each once, those that occur first come first. -/
theorem pairwise_idxOf_eraseDups (keep : ShapeId → Bool) (ids : List ShapeId) :
    (ids.filter keep).eraseDups.Pairwise fun x y => ids.idxOf x < ids.idxOf y := by
  -- the rest of the list is narrowed to what is kept and differs from the head
  induction ids generalizing keep with
  | nil => exact .nil
  | cons id ids ih =>
      have hrest : ∀ keep' : ShapeId → Bool, (∀ x, keep' x = true → x ≠ id) →
          (ids.filter keep').eraseDups.Pairwise fun x y =>
            (id :: ids).idxOf x < (id :: ids).idxOf y := by
        intro keep' hne
        have hkept : ∀ x ∈ (ids.filter keep').eraseDups, (id :: ids).idxOf x = ids.idxOf x + 1 := by
          intro x hx
          have hx := hne x (List.mem_filter.1 (List.mem_eraseDups.1 hx)).2
          rw [List.idxOf_cons_ne _ hx.symm]
        refine (ih keep').imp_of_mem ?_
        intro x y hx hy hlt
        rw [hkept x hx, hkept y hy]
        exact Nat.succ_lt_succ hlt
      cases hkeep : keep id with
      | true =>
          rw [List.filter_cons_of_pos hkeep, List.eraseDups_cons, List.filter_filter,
            List.pairwise_cons]
          refine ⟨?_, hrest _ ?_⟩
          · intro y hy
            have hmem := (List.mem_filter.1 (List.mem_eraseDups.1 hy)).2
            have hne : y ≠ id := by
              rintro rfl
              simp at hmem
            rw [List.idxOf_cons_self, List.idxOf_cons_ne _ hne.symm]
            exact Nat.succ_pos _
          · rintro x hx rfl
            simp at hx
      | false =>
          rw [List.filter_cons_of_neg (by simp [hkeep])]
          refine hrest keep ?_
          rintro x hx rfl
          exact absurd (hx.symm.trans hkeep) Bool.noConfusion

/-- Top-level shapes come in the order in which the selection first names them. -/
theorem pairwise_topLevel (d : Document α) (selection : List ShapeId) :
    (d.topLevel selection).Pairwise fun x y => selection.idxOf x < selection.idxOf y :=
  pairwise_idxOf_eraseDups _ selection

/-! ## What the top stands for -/

/-- A shape beneath a selected one, or selected itself, is beneath a top-level shape or is one. -/
theorem Forest.exists_topLevel_under (hd : d.Forest) (ha : a ∈ selection)
    (hcontains : d.contains a = true) (h : d.Under a id) :
    ∃ top ∈ d.topLevel selection, d.Under top id := by
  -- up from the shape, the last selected one has nothing selected above it
  induction id using hd.induction generalizing a with
  | step id ih =>
      by_cases habove : ∃ b ∈ selection, d.Above b id
      · obtain ⟨b, hb, hbid⟩ := habove
        obtain ⟨parent, hp, hunder⟩ := above_iff_under.1 hbid
        obtain ⟨top, htop, hunder⟩ := ih parent hp hb (hd.contains_of_above hbid) hunder
        exact ⟨top, htop, Or.inr (above_iff_under.2 ⟨parent, hp, hunder⟩)⟩
      · rcases h with rfl | h
        · refine ⟨id, mem_topLevel_iff.2 ⟨ha, hcontains, ?_⟩, Under.refl d id⟩
          intro b hb hsel
          exact habove ⟨b, hsel, above_iff_exists_mem.2 ⟨maxDepth, hb⟩⟩
        · exact absurd ⟨a, ha, h⟩ habove

/-- What lies beneath one top-level shape does not lie beneath another. -/
theorem Traceable.pairwise_disjoint_topLevel (htrace : d.Traceable) (hkeyed : d.Keyed)
    (selection : List ShapeId) :
    (d.topLevel selection).Pairwise fun x y => (d.subtree x).Disjoint (d.subtree y) := by
  refine (nodup_topLevel d selection).imp_of_mem ?_
  intro x y hx hy hne z hzx hzy
  have hout : ∀ {x y : ShapeId}, x ∈ d.topLevel selection → y ∈ d.topLevel selection →
      d.Under x y → y = x := by
    intro x y hx hy h
    refine h.resolve_right fun habove => ?_
    exact (mem_topLevel_iff.1 hy).2.2 x (htrace.above_iff.1 habove) (mem_topLevel_iff.1 hx).1
  have hzx : d.Under x z := (mem_subtree_iff hkeyed).1 hzx
  have hzy : d.Under y z := (mem_subtree_iff hkeyed).1 hzy
  rcases hzx.total hzy with h | h
  · exact hne (hout hx hy h).symm
  · exact hne (hout hy hx h)

end CanvasTransform.Document

namespace CanvasTransform.Store

variable {α : Type} {s : Store α}

/-- **The queries about the hierarchy agree**, in every store in which nothing lies above itself. A
    shape is a descendant exactly of its ancestors, however long the chains are, and descendants are in
    the order of the tree. The top of a selection names selected shapes that exist, each once, in the
    order in which they were selected first, and none of them is an ancestor of another. Where no chain
    is longer than queries follow, each selected shape that exists is one of them or has an ancestor
    among them, and they have nothing beneath them in common. -/
theorem Grown.hierarchy_agrees (hs : s.Grown) (hacyclic : s.document.Acyclic) :
    let d := s.document
    (∀ a b, b ∈ d.descendants a ↔ a ∈ d.ancestors b) ∧
    (∀ a, d.InTreeOrder (d.descendants a)) ∧
    ∀ selection : List ShapeId,
      let top := d.topLevel selection
      top.Nodup ∧
      (top.Pairwise fun x y => selection.idxOf x < selection.idxOf y) ∧
      (∀ x ∈ top, x ∈ selection ∧ d.contains x = true) ∧
      (∀ x ∈ top, ∀ y ∈ top, x ∉ d.ancestors y) ∧
      (d.Traceable →
        (∀ x ∈ selection, d.contains x = true → x ∈ top ∨ ∃ y ∈ top, y ∈ d.ancestors x) ∧
        top.Pairwise fun x y => (d.subtree x).Disjoint (d.subtree y)) := by
  intro d
  have hkeyed : d.Keyed := hs.keyed
  have hforest : d.Forest := hs.closed.forest hacyclic
  refine ⟨fun a b => Document.mem_below_iff hkeyed,
    fun a => hacyclic.inTreeOrder_below hkeyed _ a, ?_⟩
  intro selection top
  refine ⟨Document.nodup_topLevel d selection, Document.pairwise_topLevel d selection, fun x hx => ?_,
    fun x hx y hy hmem => ?_, fun htrace => ⟨fun x hx hcontains => ?_,
      htrace.pairwise_disjoint_topLevel hkeyed selection⟩⟩
  · obtain ⟨hsel, hcontains, -⟩ := Document.mem_topLevel_iff.1 hx
    exact ⟨hsel, hcontains⟩
  · exact (Document.mem_topLevel_iff.1 hy).2.2 x hmem (Document.mem_topLevel_iff.1 hx).1
  · obtain ⟨y, hy, rfl | habove⟩ :=
      hforest.exists_topLevel_under hx hcontains (Document.Under.refl d x)
    · exact Or.inl hy
    · exact Or.inr ⟨y, hy, htrace.above_iff.1 habove⟩

/-- A rectangle in a group in a frame, and a note beside the frame. The rectangle and the frame are
    selected, with a shape that is gone and the note. -/
theorem hierarchy_agrees_nested :
    let frame : Shape Binary64 := .frame 1 0 0 100.0 100.0
    let group : Shape Binary64 := (Shape.group 2 0 0).withParent (.shape 1)
    let rectangle : Shape Binary64 := (Shape.rectangle 3 0 0 10.0 10.0).withParent (.shape 2)
    let s := (empty : Store Binary64).serveAll
      [.insert frame, .insert group, .insert rectangle, .insert (.note 4 200.0 0 50.0 50.0)]
    let d := s.document
    let selection : List ShapeId := [3, 9, 1, 4, 3]
    s.Grown ∧ d.Acyclic ∧ d.Traceable ∧ 3 ∈ d.descendants 1 ∧ d.InTreeOrder (d.descendants 1) ∧
      (∃ y ∈ d.topLevel selection, y ∈ d.ancestors 3) ∧ 9 ∉ d.topLevel selection ∧
      (d.topLevel selection).Pairwise fun x y => (d.subtree x).Disjoint (d.subtree y) := by
  intro frame group rectangle s d selection
  have hs : s.Grown := grown_serveAll .empty _
  have hshallow : d.Shallow := hs.keyed.shallow (by decide +kernel)
  obtain ⟨hagree, horder, htop⟩ := hs.hierarchy_agrees hshallow.acyclic
  obtain ⟨-, -, hexists, -, hwhole⟩ := htop selection
  obtain ⟨hcover, hdisjoint⟩ := hwhole hshallow.traceable
  refine ⟨hs, hshallow.acyclic, hshallow.traceable, (hagree 1 3).2 (by decide +kernel), horder 1, ?_,
    fun h => ?_, hdisjoint⟩
  · exact (hcover 3 (.head _) (by decide +kernel)).resolve_left (by decide +kernel)
  · exact absurd (hexists 9 h).2 (by decide +kernel)

end CanvasTransform.Store
