import Mathlib.Data.Finset.Card
import CanvasTransform.Proofs.Selection.Members
import CanvasTransform.Proofs.Transform.Targets

set_option autoImplicit false

/-! # The walk over the captured shapes

A resize goes through the captured shapes from the top-level ones downward (`Snapshot.visit`). With
as many levels as there are captured shapes the walk meets each of them (`Reflects.mem_visit`), from
one top-level shape (`Reflects.exists_topLevel`). It meets none twice, and none before a shape that
it lies inside: both are `Reflects.pairwise_walk`, since a shape lies inside itself. -/

namespace CanvasTransform.Snapshot

variable {α : Type} [Scalar α] {s : Snapshot α} {d : Document α} {id x : ShapeId} {m : Member α}

/-- All captured shapes in the order in which a resize meets them. -/
def walk (s : Snapshot α) : List ShapeId := s.topLevel.flatMap (s.visit s.members.size)

/-! ## Every captured shape is met -/

/-- The captured shapes at or below `id`. -/
def inside (s : Snapshot α) (d : Document α) (id : ShapeId) : Finset ShapeId :=
  s.members.keys.toFinset.filter fun x => x = id ∨ id ∈ d.ancestors x

omit [Scalar α] in
theorem mem_inside : x ∈ s.inside d id ↔ (∃ m, s.get? x = some m) ∧ d.Inside id x := by
  rw [inside, Finset.mem_filter, List.mem_toFinset, Std.TreeMap.mem_keys,
    Std.TreeMap.mem_iff_isSome_getElem?, Option.isSome_iff_exists]
  rfl

omit [Scalar α] in
theorem card_inside_le (s : Snapshot α) (d : Document α) (id : ShapeId) :
    (s.inside d id).card ≤ s.members.size :=
  (Finset.card_filter_le _ _).trans
    ((List.toFinset_card_le _).trans_eq Std.TreeMap.length_keys)

omit [Scalar α] in
/-- There is less inside a child than inside its parent. -/
theorem card_inside_lt (hshallow : d.Shallow) {child : ShapeId} (hm : s.get? id = some m)
    (hp : d.parentId? child = some id) : (s.inside d child).card < (s.inside d id).card := by
  refine Finset.card_lt_card ((Finset.ssubset_iff_of_subset ?_).2 ⟨id, ?_, ?_⟩)
  · intro x hx
    obtain ⟨hx, hinside⟩ := mem_inside.1 hx
    exact mem_inside.2 ⟨hx, hshallow.inside_trans
      (hshallow.inside_of_parentId? hp (Document.Inside.refl d id)) hinside⟩
  · exact mem_inside.2 ⟨⟨m, hm⟩, Document.Inside.refl d id⟩
  · exact fun hmem => hshallow.not_inside_parent hp (mem_inside.1 hmem).2

namespace Reflects

theorem mem_children_iff (hs : s.Reflects d) (hkeyed : d.Keyed) (hm : s.get? id = some m)
    {child : ShapeId} : child ∈ m.children ↔ d.parentId? child = some id := by
  rw [hs.children id m hm, Document.mem_children_shape_iff hkeyed]

/-- What lies inside a captured shape is captured. -/
theorem exists_of_inside (hs : s.Reflects d) (hshallow : d.Shallow) (hm : s.get? id = some m)
    (hx : d.Inside id x) : ∃ m', s.get? x = some m' := by
  induction x using hshallow.induction with
  | step x ih =>
      rcases hx with rfl | hx
      · exact ⟨m, hm⟩
      · obtain ⟨parent, hp, hor⟩ := hshallow.mem_ancestors_iff.1 hx
        obtain ⟨m', hm'⟩ := ih parent hp (hor.imp_left Eq.symm)
        exact hs.below parent m' hm' x hp

/-- A walk with as many levels as there are captured shapes inside meets all of them. -/
theorem mem_visit (hs : s.Reflects d) (hkeyed : d.Keyed) (hshallow : d.Shallow) (n : Nat)
    (hm : s.get? id = some m) (hx : x ∈ s.inside d id) (hn : (s.inside d id).card ≤ n) :
    x ∈ s.visit n id := by
  -- the shapes inside a child are fewer, which pays for the level that the walk goes down
  induction n generalizing id m with
  | zero => exact absurd hn (Nat.not_le.2 (Finset.card_pos.2 ⟨x, hx⟩))
  | succ n ih =>
      rw [visit_succ hm]
      rcases (mem_inside.1 hx).2 with rfl | hmem
      · exact List.mem_cons_self
      · obtain ⟨child, hp, hor⟩ := hshallow.mem_ancestors_iff_child.1 hmem
        obtain ⟨m', hm'⟩ := hs.below id m hm child hp
        have hlt := card_inside_lt hshallow hm hp
        refine List.mem_cons_of_mem _ (List.mem_flatMap.2
          ⟨child, (hs.mem_children_iff hkeyed hm).2 hp, ih hm' ?_ (by omega)⟩)
        exact mem_inside.2 ⟨(mem_inside.1 hx).1, hor⟩

theorem exists_topLevel (hs : s.Reflects d) (hshallow : d.Shallow) (hm : s.get? id = some m) :
    ∃ top ∈ s.topLevel, ∃ m', s.get? top = some m' ∧ id ∈ s.inside d top := by
  induction id using hshallow.induction generalizing m with
  | step id ih =>
      rcases hs.above id m hm with hid | ⟨parent, m', hp, hm'⟩
      · exact ⟨id, hid, m, hm, mem_inside.2 ⟨⟨m, hm⟩, Document.Inside.refl d id⟩⟩
      · obtain ⟨top, htop, m'', hm'', hmem⟩ := ih parent hp hm'
        exact ⟨top, htop, m'', hm'', mem_inside.2
          ⟨⟨m, hm⟩, hshallow.inside_of_parentId? hp (mem_inside.1 hmem).2⟩⟩

/-- The walk meets the captured shapes and nothing else. -/
theorem mem_walk_iff (hs : s.Reflects d) (hkeyed : d.Keyed) (hshallow : d.Shallow) :
    id ∈ s.walk ↔ ∃ m, s.get? id = some m := by
  constructor
  · intro h
    obtain ⟨top, -, h⟩ := List.mem_flatMap.1 h
    exact Option.isSome_iff_exists.1 (contains_of_mem_visit h)
  · rintro ⟨m, hm⟩
    obtain ⟨top, htop, m', hm', hmem⟩ := hs.exists_topLevel hshallow hm
    exact List.mem_flatMap.2
      ⟨top, htop, hs.mem_visit hkeyed hshallow _ hm' hmem (card_inside_le s d top)⟩

/-! ## None is met twice, or before a shape that it lies inside -/

/-- A walk from a shape stays inside the shape. -/
theorem inside_of_mem_visit (hs : s.Reflects d) (hkeyed : d.Keyed) (hshallow : d.Shallow) (n : Nat)
    (hx : x ∈ s.visit n id) : d.Inside id x := by
  induction n generalizing id with
  | zero => exact absurd hx List.not_mem_nil
  | succ n ih =>
      cases hm : s.get? id with
      | none => rw [visit_eq_nil hm] at hx; exact absurd hx List.not_mem_nil
      | some m =>
          rw [visit_succ hm] at hx
          rcases List.mem_cons.1 hx with rfl | hx
          · exact Document.Inside.refl d x
          · obtain ⟨child, hchild, hx⟩ := List.mem_flatMap.1 hx
            have hp := (hs.mem_children_iff hkeyed hm).1 hchild
            exact hshallow.inside_trans
              (hshallow.inside_of_parentId? hp (Document.Inside.refl d id)) (ih hx)

/-- The walks below different children of one shape have nothing to do with each other. -/
theorem pairwise_children (hs : s.Reflects d) (hkeyed : d.Keyed) (hshallow : d.Shallow) (n : Nat)
    (hm : s.get? id = some m) : m.children.Pairwise fun a b =>
      ∀ x ∈ s.visit n a, ∀ y ∈ s.visit n b, d.Apart x y := by
  have hnodup : m.children.Nodup := hs.children id m hm ▸ hkeyed.nodup_children _
  refine hnodup.imp_of_mem fun ha hb hne x hx y hy => ?_
  have hapart := hshallow.apart_of_parentId? ((hs.mem_children_iff hkeyed hm).1 ha)
    ((hs.mem_children_iff hkeyed hm).1 hb) hne
  exact hshallow.apart_of_inside hapart (hs.inside_of_mem_visit hkeyed hshallow n hx)
    (hs.inside_of_mem_visit hkeyed hshallow n hy)

/-- A top-level shape does not lie inside another captured shape. -/
theorem not_inside_top (hs : s.Reflects d) (hshallow : d.Shallow) (hm : s.get? x = some m)
    (hid : id ∈ s.topLevel) (hne : x ≠ id) : ¬ d.Inside x id := by
  rintro (heq | hmem)
  · exact hne heq.symm
  · obtain ⟨parent, hp, hor⟩ := hshallow.mem_ancestors_iff.1 hmem
    obtain ⟨m', hm'⟩ := hs.exists_of_inside hshallow hm (hor.imp_left Eq.symm)
    exact absurd (hm'.symm.trans (hs.top id hid parent hp)) (Option.some_ne_none m')

/-- The walks below different top-level shapes have nothing to do with each other. -/
theorem pairwise_topLevel (hs : s.Reflects d) (hkeyed : d.Keyed) (hshallow : d.Shallow) (n : Nat) :
    s.topLevel.Pairwise fun a b => ∀ x ∈ s.visit n a, ∀ y ∈ s.visit n b, d.Apart x y := by
  have hcaptured : ∀ {a x}, x ∈ s.visit n a → ∃ m, s.get? a = some m := by
    intro a x hx
    cases hm : s.get? a with
    | some m => exact ⟨m, rfl⟩
    | none => rw [visit_eq_nil hm] at hx; exact absurd hx List.not_mem_nil
  refine hs.nodup.imp_of_mem fun {a b} ha hb hne x hx y hy => ?_
  obtain ⟨ma, hma⟩ := hcaptured hx
  obtain ⟨mb, hmb⟩ := hcaptured hy
  exact hshallow.apart_of_inside
    ⟨hs.not_inside_top hshallow hma hb hne, hs.not_inside_top hshallow hmb ha hne.symm⟩
    (hs.inside_of_mem_visit hkeyed hshallow n hx) (hs.inside_of_mem_visit hkeyed hshallow n hy)

/-- A walk goes from a shape to what lies inside it, and never the other way. -/
theorem pairwise_visit (hs : s.Reflects d) (hkeyed : d.Keyed) (hshallow : d.Shallow) (n : Nat)
    (id : ShapeId) : (s.visit n id).Pairwise fun x y => ¬ d.Inside y x := by
  induction n generalizing id with
  | zero => exact List.Pairwise.nil
  | succ n ih =>
      cases hm : s.get? id with
      | none => exact visit_eq_nil hm _ ▸ List.Pairwise.nil
      | some m =>
          rw [visit_succ hm]
          refine List.pairwise_cons.2 ⟨fun x hx hinside => ?_, List.pairwise_flatMap.2
            ⟨fun child _ => ih child, ?_⟩⟩
          · obtain ⟨child, hchild, hx⟩ := List.mem_flatMap.1 hx
            exact hshallow.not_inside_parent ((hs.mem_children_iff hkeyed hm).1 hchild)
              (hshallow.inside_trans (hs.inside_of_mem_visit hkeyed hshallow n hx) hinside)
          · exact (hs.pairwise_children hkeyed hshallow n hm).imp fun h x hx y hy => (h x hx y hy).2

theorem pairwise_walk (hs : s.Reflects d) (hkeyed : d.Keyed) (hshallow : d.Shallow) :
    s.walk.Pairwise fun x y => ¬ d.Inside y x :=
  List.pairwise_flatMap.2 ⟨fun id _ => hs.pairwise_visit hkeyed hshallow _ id,
    (hs.pairwise_topLevel hkeyed hshallow _).imp fun h x hx y hy => (h x hx y hy).2⟩

end Reflects

end CanvasTransform.Snapshot
