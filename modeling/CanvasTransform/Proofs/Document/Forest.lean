import CanvasTransform.Proofs.Document.Ancestry
import CanvasTransform.Proofs.Document.Growth
import Mathlib.Data.List.Perm.Subperm

set_option autoImplicit false

/-! # Forests

A document is a `Forest` when every shape hangs from the page or from a shape of the document, and
following parents from any shape ends at the page, however far that is. Nothing here bounds the
length of a chain: `Document.Above` is ancestry without the limit that queries have. As many steps as
the document has shapes are enough to decide it, even where parents run in a circle: the first way up
from a shape to another does not come by anything twice (`above_iff_mem_size`). So the walk of a
removal reaches everything beneath the removed shape (`mem_subtree_iff`).

Insertion, removal and patches keep forests. Hanging a shape from another parent keeps them exactly
when the parent does not lie beneath the shape (`Forest.put_withParent`, `Above.not_forest_put`). -/

namespace CanvasTransform.Document

variable {α : Type} {d d' : Document α}

/-! ## Ancestry of any length -/

/-- `a` lies above a shape: following parents from the shape comes to `a`. -/
inductive Above (d : Document α) (a : ShapeId) : ShapeId → Prop
  | parent {id : ShapeId} : d.parentId? id = some a → Above d a id
  | step {id parent : ShapeId} : d.parentId? id = some parent → Above d a parent → Above d a id

/-- Nothing lies above itself. -/
def Acyclic (d : Document α) : Prop := ∀ id, ¬ d.Above id id

theorem above_iff {a id : ShapeId} :
    d.Above a id ↔ ∃ parent, d.parentId? id = some parent ∧ (a = parent ∨ d.Above a parent) := by
  constructor
  · rintro (hp | ⟨hp, h⟩)
    · exact ⟨a, hp, Or.inl rfl⟩
    · exact ⟨_, hp, Or.inr h⟩
  · rintro ⟨parent, hp, rfl | h⟩
    · exact .parent hp
    · exact .step hp h

theorem Above.trans {a b id : ShapeId} (hab : d.Above a b) (h : d.Above b id) : d.Above a id := by
  induction h with
  | parent hp => exact .step hp hab
  | step hp _ ih => exact .step hp ih

theorem Above.contains {a id : ShapeId} (h : d.Above a id) : d.contains id = true := by
  obtain ⟨parent, hp, -⟩ := above_iff.1 h
  obtain ⟨s, hs, -⟩ := parentId?_eq_some_iff.1 hp
  exact contains_of_get? hs

theorem mem_ancestorsWithin_succ_iff {n : Nat} {a id : ShapeId} :
    a ∈ d.ancestorsWithin (n + 1) id ↔
      ∃ parent, d.parentId? id = some parent ∧ (a = parent ∨ a ∈ d.ancestorsWithin n parent) := by
  rw [ancestorsWithin]
  cases d.parentId? id with
  | none => simp
  | some parent => simp

theorem above_iff_exists_mem {a id : ShapeId} : d.Above a id ↔ ∃ n, a ∈ d.ancestorsWithin n id := by
  constructor
  · intro h
    induction h with
    | parent hp => exact ⟨1, mem_ancestorsWithin_succ_iff.2 ⟨a, hp, Or.inl rfl⟩⟩
    | step hp _ ih =>
        obtain ⟨n, hn⟩ := ih
        exact ⟨n + 1, mem_ancestorsWithin_succ_iff.2 ⟨_, hp, Or.inr hn⟩⟩
  · rintro ⟨n, hn⟩
    induction n generalizing id with
    | zero => exact absurd hn List.not_mem_nil
    | succ n ih =>
        obtain ⟨parent, hp, rfl | hmem⟩ := mem_ancestorsWithin_succ_iff.1 hn
        · exact .parent hp
        · exact .step hp (ih hmem)

/-- Where chains are no longer than queries follow, queries see all of them. -/
theorem Shallow.above_iff (hd : d.Shallow) {a id : ShapeId} :
    d.Above a id ↔ a ∈ d.ancestors id := by
  refine ⟨fun h => ?_, fun h => above_iff_exists_mem.2 ⟨maxDepth, h⟩⟩
  induction h with
  | parent hp => exact hd.mem_ancestors_iff.2 ⟨a, hp, Or.inl rfl⟩
  | step hp _ ih => exact hd.mem_ancestors_iff.2 ⟨_, hp, Or.inr ih⟩

theorem Shallow.acyclic (hd : d.Shallow) : d.Acyclic :=
  fun id h => hd.not_mem_ancestors_self id (hd.above_iff.1 h)

/-! ## How far a walk has to go -/

/-- A shorter walk is the beginning of a longer one. -/
theorem ancestorsWithin_eq_take {m n : Nat} (h : m ≤ n) (id : ShapeId) :
    d.ancestorsWithin m id = (d.ancestorsWithin n id).take m := by
  induction m generalizing n id with
  | zero => rfl
  | succ m ih =>
      obtain ⟨k, rfl⟩ : ∃ k, n = k + 1 := ⟨n - 1, by omega⟩
      rw [ancestorsWithin, ancestorsWithin]
      cases d.parentId? id with
      | none => rfl
      | some parent =>
          rw [List.take_succ_cons]
          exact congrArg (parent :: ·) (ih (by omega) parent)

/-- Everything on a walk but its end has a parent, so it is in the document. -/
theorem contains_of_mem_dropLast {n : Nat} {id x : ShapeId}
    (h : x ∈ (id :: d.ancestorsWithin n id).dropLast) : d.contains x = true := by
  induction n generalizing id with
  | zero => simp [ancestorsWithin] at h
  | succ n ih =>
      rw [ancestorsWithin] at h
      cases hp : d.parentId? id with
      | none => simp [hp] at h
      | some parent =>
          rw [hp, List.dropLast_cons_of_ne_nil (List.cons_ne_nil _ _), List.mem_cons] at h
          rcases h with rfl | h
          · exact (Above.parent hp).contains
          · exact ih h

theorem Acyclic.nodup_walk (hd : d.Acyclic) (n : Nat) (id : ShapeId) :
    (id :: d.ancestorsWithin n id).Nodup := by
  induction n generalizing id with
  | zero => simp [ancestorsWithin]
  | succ n ih =>
      refine List.nodup_cons.2 ⟨fun h => hd id (above_iff_exists_mem.2 ⟨_, h⟩), ?_⟩
      rw [ancestorsWithin]
      cases d.parentId? id with
      | none => exact List.nodup_nil
      | some parent => exact ih parent

theorem mem_keys_iff {id : ShapeId} : id ∈ d.shapes.keys ↔ d.contains id = true := by
  rw [Std.TreeMap.mem_keys, contains, get?, ← Std.TreeMap.isSome_getElem?_iff_mem]

/-- A walk meets no shape twice, so it is no longer than the document is large. -/
theorem Acyclic.length_ancestorsWithin_le_size (hd : d.Acyclic) (n : Nat) (id : ShapeId) :
    (d.ancestorsWithin n id).length ≤ d.size := by
  have hnodup := (List.dropLast_sublist (id :: d.ancestorsWithin n id)).nodup (hd.nodup_walk n id)
  have hsub : (id :: d.ancestorsWithin n id).dropLast ⊆ d.shapes.keys :=
    fun x hx => mem_keys_iff.2 (contains_of_mem_dropLast hx)
  have hle := (List.subperm_of_subset hnodup hsub).length_le
  rwa [List.length_dropLast, List.length_cons, Nat.add_sub_cancel, Std.TreeMap.length_keys] at hle

/-- The number of shapes above a shape, where nothing lies above itself. -/
def level (d : Document α) (id : ShapeId) : Nat := (d.ancestorsWithin d.size id).length

theorem Acyclic.level_le_size (hd : d.Acyclic) (id : ShapeId) : d.level id ≤ d.size :=
  hd.length_ancestorsWithin_le_size d.size id

/-- A child is one level below its parent. -/
theorem Acyclic.level_eq_succ (hd : d.Acyclic) {id parent : ShapeId}
    (hp : d.parentId? id = some parent) : d.level id = d.level parent + 1 := by
  have hwalk : d.ancestorsWithin d.size id = d.ancestorsWithin (d.size + 1) id := by
    rw [ancestorsWithin_eq_take (Nat.le_succ d.size),
      List.take_of_length_le (hd.length_ancestorsWithin_le_size _ id)]
  rw [level, hwalk, ancestorsWithin, hp, List.length_cons, level]

/-- Induction from the children of a shape to the shape, which ends because there are no more levels
    than shapes. -/
theorem Acyclic.induction_children (hd : d.Acyclic) {P : ShapeId → Prop}
    (step : ∀ id, (∀ child, d.parentId? child = some id → P child) → P id) (id : ShapeId) :
    P id := by
  generalize hn : d.size - d.level id = n
  induction n using Nat.strongRecOn generalizing id with
  | _ n ih =>
      refine step id fun child hp => ih _ ?_ child rfl
      have hchild := hd.level_le_size child
      rw [hd.level_eq_succ hp] at hchild ⊢
      omega

theorem mem_ancestorsWithin_of_le {m n : Nat} {a id : ShapeId} (hle : m ≤ n) (h : a ∈ d.ancestorsWithin m id) :
    a ∈ d.ancestorsWithin n id := by
  rw [ancestorsWithin_eq_take hle id] at h
  exact List.mem_of_mem_take h

/-- A way up that comes by `b` goes on from there. -/
theorem mem_or_mem_ancestorsWithin {n : Nat} {a b id : ShapeId} (hb : b ∈ d.ancestorsWithin n id)
    (ha : a ∈ d.ancestorsWithin (n + 1) id) :
    a ∈ d.ancestorsWithin n id ∨ a ∈ d.ancestorsWithin n b := by
  induction n generalizing id with
  | zero => exact absurd hb List.not_mem_nil
  | succ n ih =>
      obtain ⟨parent, hp, hparent⟩ := mem_ancestorsWithin_succ_iff.1 ha
      rcases hparent with rfl | hparent
      · exact Or.inl (mem_ancestorsWithin_succ_iff.2 ⟨a, hp, Or.inl rfl⟩)
      · obtain ⟨parent', hp', hb⟩ := mem_ancestorsWithin_succ_iff.1 hb
        obtain rfl := Option.some.inj (hp.symm.trans hp')
        rcases hb with rfl | hb
        · exact Or.inr hparent
        · rcases ih hb hparent with h | h
          · exact Or.inl (mem_ancestorsWithin_succ_iff.2 ⟨parent, hp, Or.inr h⟩)
          · exact Or.inr (mem_ancestorsWithin_of_le (Nat.le_succ n) h)

/-- The first way up to a shape comes by as many different shapes of the document as it has steps. -/
theorem first_walk {n : Nat} {a id : ShapeId} (hnot : a ∉ d.ancestorsWithin n id)
    (h : a ∈ d.ancestorsWithin (n + 1) id) :
    (id :: d.ancestorsWithin n id).Nodup ∧
      (∀ x ∈ id :: d.ancestorsWithin n id, d.contains x = true) ∧
      (d.ancestorsWithin n id).length = n := by
  induction n generalizing id with
  | zero =>
      obtain ⟨parent, hp, -⟩ := mem_ancestorsWithin_succ_iff.1 h
      refine ⟨List.nodup_singleton id, fun x hx => ?_, rfl⟩
      rw [List.mem_singleton.1 hx]
      exact (Above.parent hp).contains
  | succ n ih =>
      obtain ⟨parent, hp, hparent⟩ := mem_ancestorsWithin_succ_iff.1 h
      have hwalk : d.ancestorsWithin (n + 1) id = parent :: d.ancestorsWithin n parent := by
        rw [ancestorsWithin, hp]
      -- were the shape on its own way up, there would be a shorter one
      have hself : id ∉ d.ancestorsWithin (n + 1) id := by
        intro hself
        rcases mem_or_mem_ancestorsWithin hself h with h | h
        · exact hnot h
        · exact hnot h
      rw [hwalk, List.mem_cons, not_or] at hnot
      obtain ⟨hnodup, hcontains, hlength⟩ := ih hnot.2 (hparent.resolve_left hnot.1)
      rw [hwalk] at hself ⊢
      refine ⟨List.nodup_cons.2 ⟨hself, hnodup⟩, fun x hx => ?_, by rw [List.length_cons, hlength]⟩
      rcases List.mem_cons.1 hx with rfl | hx
      · exact (Above.parent hp).contains
      · exact hcontains x hx

/-- As many steps as the document has shapes are enough, whether or not parents run in a circle. -/
theorem mem_ancestorsWithin_size {n : Nat} {a id : ShapeId} (h : a ∈ d.ancestorsWithin n id) :
    a ∈ d.ancestorsWithin d.size id := by
  induction n with
  | zero => exact absurd h List.not_mem_nil
  | succ n ih =>
      by_cases hn : a ∈ d.ancestorsWithin n id
      · exact ih hn
      · obtain ⟨hnodup, hcontains, hlength⟩ := first_walk hn h
        have hsub : id :: d.ancestorsWithin n id ⊆ d.shapes.keys :=
          fun x hx => mem_keys_iff.2 (hcontains x hx)
        have hle := (List.subperm_of_subset hnodup hsub).length_le
        rw [List.length_cons, hlength, Std.TreeMap.length_keys] at hle
        exact mem_ancestorsWithin_of_le hle h

theorem above_iff_mem_size {a id : ShapeId} : d.Above a id ↔ a ∈ d.ancestorsWithin d.size id := by
  refine ⟨fun h => ?_, fun h => above_iff_exists_mem.2 ⟨d.size, h⟩⟩
  obtain ⟨n, hn⟩ := above_iff_exists_mem.1 h
  exact mem_ancestorsWithin_size hn

/-! ## Downward -/

/-- What lies above a shape lies above it by way of a child. -/
theorem mem_ancestorsWithin_succ_iff_child {n : Nat} {a id : ShapeId} :
    a ∈ d.ancestorsWithin (n + 1) id ↔
      ∃ child, d.parentId? child = some a ∧ (id = child ∨ child ∈ d.ancestorsWithin n id) := by
  induction n generalizing id with
  | zero =>
      rw [mem_ancestorsWithin_succ_iff]
      constructor
      · rintro ⟨parent, hp, rfl | h⟩
        · exact ⟨id, hp, Or.inl rfl⟩
        · exact absurd h List.not_mem_nil
      · rintro ⟨child, hp, rfl | h⟩
        · exact ⟨a, hp, Or.inl rfl⟩
        · exact absurd h List.not_mem_nil
  | succ n ih =>
      rw [mem_ancestorsWithin_succ_iff]
      constructor
      · rintro ⟨parent, hp, rfl | h⟩
        · exact ⟨id, hp, Or.inl rfl⟩
        · obtain ⟨child, hchild, hor⟩ := ih.1 h
          refine ⟨child, hchild, Or.inr (mem_ancestorsWithin_succ_iff.2 ⟨parent, hp, ?_⟩)⟩
          exact hor.imp_left Eq.symm
      · rintro ⟨child, hchild, rfl | h⟩
        · exact ⟨a, hchild, Or.inl rfl⟩
        · obtain ⟨parent, hp, hor⟩ := mem_ancestorsWithin_succ_iff.1 h
          exact ⟨parent, hp, Or.inr (ih.2 ⟨child, hchild, hor.imp_left Eq.symm⟩)⟩

/-- Walking down finds the shapes from which walking up comes back. -/
theorem mem_below_iff (hkeyed : d.Keyed) {n : Nat} {a id : ShapeId} :
    id ∈ d.below n a ↔ a ∈ d.ancestorsWithin n id := by
  induction n generalizing a with
  | zero => exact iff_of_false List.not_mem_nil List.not_mem_nil
  | succ n ih =>
      rw [mem_ancestorsWithin_succ_iff_child]
      simp only [below, List.mem_flatMap, mem_children_shape_iff hkeyed, List.mem_cons, ih]

/-- The subtree of a shape is the shape and what it lies above. -/
theorem mem_subtree_iff (hkeyed : d.Keyed) {a id : ShapeId} :
    id ∈ d.subtree a ↔ id = a ∨ d.Above a id := by
  rw [subtree, List.mem_cons, mem_below_iff hkeyed, above_iff_mem_size]

/-- **What a removal leaves**: the shapes that neither are the removed one nor lie beneath it. -/
theorem get?_remove_eq_some_iff {s : Store α} (hkeyed : s.document.Keyed) {a id : ShapeId}
    {t : Shape α} :
    (s.remove a).2.document.get? id = some t ↔
      s.document.get? id = some t ∧ ¬ (id = a ∨ s.document.Above a id) := by
  rw [Store.get?_remove, ← mem_subtree_iff hkeyed]
  split
  · next hmem => exact iff_of_false nofun fun h => h.2 hmem
  · next hmem => exact (and_iff_left hmem).symm

/-- A shape that a removal leaves keeps its parent, and a parent that was there is left with it. -/
theorem parentId?_remove {s : Store α} (hkeyed : s.document.Keyed) {a id parent : ShapeId}
    (hp : (s.remove a).2.document.parentId? id = some parent) :
    s.document.parentId? id = some parent ∧
      (s.document.contains parent = true → (s.remove a).2.document.contains parent = true) := by
  obtain ⟨t, ht, hparent⟩ := parentId?_eq_some_iff.1 hp
  obtain ⟨hs, hout⟩ := (get?_remove_eq_some_iff hkeyed).1 ht
  have hp : s.document.parentId? id = some parent := parentId?_eq_some_iff.2 ⟨t, hs, hparent⟩
  refine ⟨hp, fun hc => ?_⟩
  obtain ⟨p, hget⟩ := contains_iff.1 hc
  -- a removed parent would have taken the child along
  have hstays : ¬ (parent = a ∨ s.document.Above a parent) := fun hor =>
    hout (Or.inr (above_iff.2 ⟨parent, hp, hor.imp_left Eq.symm⟩))
  exact contains_of_get? ((get?_remove_eq_some_iff hkeyed).2 ⟨hget, hstays⟩)

/-! ## Forests -/

/-- Following parents from here ends at the page, by way of shapes of the document. -/
inductive Rooted (d : Document α) : Parent → Prop
  | page : Rooted d .page
  | shape {id : ShapeId} {s : Shape α} : d.get? id = some s → Rooted d s.parent →
      Rooted d (.shape id)

/-- Every shape's parent is the page or a shape of the document, and following parents from any
    shape ends at the page. -/
structure Forest (d : Document α) : Prop where
  parent : ∀ id parent, d.parentId? id = some parent → d.contains parent = true
  rooted : ∀ id, d.contains id = true → d.Rooted (.shape id)

theorem Rooted.contains {id : ShapeId} (h : d.Rooted (.shape id)) : d.contains id = true := by
  cases h with
  | shape hs _ => exact contains_of_get? hs

/-- What hangs from a rooted shape is rooted. -/
theorem Rooted.child {id parent : ShapeId} (h : d.Rooted (.shape parent))
    (hp : d.parentId? id = some parent) : d.Rooted (.shape id) := by
  obtain ⟨s, hs, hparent⟩ := parentId?_eq_some_iff.1 hp
  exact .shape hs (hparent ▸ h)

/-- What lies above a rooted shape is rooted. -/
theorem Rooted.above {a id : ShapeId} (h : d.Rooted (.shape id)) (ha : d.Above a id) :
    d.Rooted (.shape a) := by
  have hparent : ∀ {id parent}, d.Rooted (.shape id) → d.parentId? id = some parent →
      d.Rooted (.shape parent) := by
    intro id parent h hp
    obtain ⟨s, hs, hsp⟩ := parentId?_eq_some_iff.1 hp
    cases h with
    | shape hs' hr =>
        obtain rfl := Option.some.inj (hs.symm.trans hs')
        exact hsp ▸ hr
  induction ha with
  | parent hp => exact hparent h hp
  | step hp _ ih => exact ih (hparent h hp)

/-- It is enough that the parents are rooted. -/
theorem forest_of_rooted (h : ∀ id s, d.get? id = some s → d.Rooted s.parent) : d.Forest where
  parent id parent hp := by
    obtain ⟨s, hs, hparent⟩ := parentId?_eq_some_iff.1 hp
    exact (hparent ▸ h id s hs).contains
  rooted id hid := by
    obtain ⟨s, hs⟩ := contains_iff.1 hid
    exact .shape hs (h id s hs)

theorem Forest.rooted_parent (hd : d.Forest) {id : ShapeId} {s : Shape α} (hs : d.get? id = some s) :
    d.Rooted s.parent := by
  cases hd.rooted id (contains_of_get? hs) with
  | shape hs' hr =>
      obtain rfl := Option.some.inj (hs.symm.trans hs')
      exact hr

theorem Forest.contains_of_above (hd : d.Forest) {a id : ShapeId} (h : d.Above a id) :
    d.contains a = true := by
  induction h with
  | parent hp => exact hd.parent _ a hp
  | step _ _ ih => exact ih

theorem forest_empty : (empty : Document α).Forest :=
  forest_of_rooted fun id s hs => by rw [get?_empty] at hs; exact nomatch hs

/-- Induction from a shape to its parent, which ends at the page. -/
theorem Forest.induction (hd : d.Forest) {P : ShapeId → Prop}
    (step : ∀ id, (∀ parent, d.parentId? id = some parent → P parent) → P id) (id : ShapeId) :
    P id := by
  have hrooted : ∀ p, d.Rooted p → ∀ id, p = .shape id → P id := by
    intro p hp
    induction hp with
    | page => exact fun id h => nomatch h
    | shape hs _ ih =>
        intro x hx
        obtain rfl := Parent.shape.inj hx
        refine step _ fun parent hparent => ?_
        obtain ⟨t, ht, htp⟩ := parentId?_eq_some_iff.1 hparent
        obtain rfl := Option.some.inj (hs.symm.trans ht)
        exact ih parent htp
  exact step id fun parent hp => hrooted _ (hd.rooted parent (hd.parent id parent hp)) parent rfl

theorem Forest.acyclic (hd : d.Forest) : d.Acyclic := by
  intro id
  induction id using hd.induction with
  | step id ih =>
      intro h
      obtain ⟨parent, hp, rfl | habove⟩ := above_iff.1 h
      · exact ih id hp h
      · exact ih parent hp ((Above.parent hp).trans habove)

/-! ## What keeps a forest -/

theorem Rooted.mono (hsub : ∀ id s, d.get? id = some s → d'.get? id = some s) {p : Parent}
    (h : d.Rooted p) : d'.Rooted p := by
  induction h with
  | page => exact .page
  | shape hs _ ih => exact .shape (hsub _ _ hs) ih

theorem SameTree.rooted (h : d.SameTree d') {p : Parent} (hp : d'.Rooted p) : d.Rooted p := by
  induction hp with
  | page => exact .page
  | shape hs _ ih =>
      obtain ⟨t, ht, hstem⟩ := h.symm.get? hs
      refine .shape ht ?_
      rw [show t.parent = _ from congrArg (fun stem => stem.2.2.1) hstem]
      exact ih

theorem SameTree.forest (h : d.SameTree d') (hd : d'.Forest) : d.Forest := by
  refine forest_of_rooted fun id s hs => h.rooted ?_
  obtain ⟨t, ht, hstem⟩ := h.get? hs
  rw [show s.parent = t.parent from (congrArg (fun stem => stem.2.2.1) hstem).symm]
  exact hd.rooted_parent ht

/-- A new shape may be hung from the page or from any shape that is there. -/
theorem Forest.put (hd : d.Forest) {s : Shape α} (hnew : d.contains s.id = false)
    (hparent : d.Rooted s.parent) : (d.put s).Forest := by
  have hsub : ∀ id t, d.get? id = some t → (d.put s).get? id = some t := by
    intro id t ht
    rw [get?_put, if_neg]
    · exact ht
    · rintro rfl
      rw [contains_of_get? ht] at hnew
      exact nomatch hnew
  refine forest_of_rooted fun id t ht => Rooted.mono hsub ?_
  rw [get?_put] at ht
  split at ht
  · obtain rfl := Option.some.inj ht
    exact hparent
  · exact hd.rooted_parent ht

/-- Removing a shape with everything beneath it leaves no shape without its parent. -/
theorem Forest.remove {s : Store α} (hd : s.document.Forest) (hkeyed : s.document.Keyed)
    (id : ShapeId) : (s.remove id).2.document.Forest := by
  have hrooted : ∀ {p : Parent}, s.document.Rooted p →
      (∀ id', p = .shape id' → ¬ (id' = id ∨ s.document.Above id id')) →
      (s.remove id).2.document.Rooted p := by
    intro p hp
    induction hp with
    | page => exact fun _ => .page
    | @shape x t ht _ ih =>
        intro hout
        have hx := hout x rfl
        refine .shape ((get?_remove_eq_some_iff hkeyed).2 ⟨ht, hx⟩)
          (ih fun parent hparent hor => hx (Or.inr ?_))
        exact Document.above_iff.2 ⟨parent, parentId?_eq_some_iff.2 ⟨t, ht, hparent⟩,
          hor.imp_left Eq.symm⟩
  refine forest_of_rooted fun id' t ht => ?_
  obtain ⟨hget, hout⟩ := (get?_remove_eq_some_iff hkeyed).1 ht
  refine hrooted (hd.rooted_parent hget) fun parent hparent hor => hout (Or.inr ?_)
  exact Document.above_iff.2 ⟨parent, parentId?_eq_some_iff.2 ⟨t, hget, hparent⟩,
    hor.imp_left Eq.symm⟩

/-! ## Hanging a shape from another parent -/

section withParent

variable {id : ShapeId} {s : Shape α} {parent : Parent}

theorem get?_put_withParent_of_ne (hkeyed : d.Keyed) (hs : d.get? id = some s) {x : ShapeId}
    (hx : x ≠ id) : (d.put (s.withParent parent)).get? x = d.get? x := by
  rw [get?_put, if_neg]
  exact fun h => hx (h.symm.trans (hkeyed id s hs))

theorem get?_put_withParent_self (hkeyed : d.Keyed) (hs : d.get? id = some s) :
    (d.put (s.withParent parent)).get? id = some (s.withParent parent) := by
  rw [get?_put, if_pos]
  exact hkeyed id s hs

/-- A shape may be hung from the page, and from any shape that is there, is not the shape itself and
    does not lie beneath it. -/
theorem Forest.put_withParent (hd : d.Forest) (hkeyed : d.Keyed) (hs : d.get? id = some s)
    (hparent : d.Rooted parent)
    (hout : ∀ target, parent = .shape target → target ≠ id ∧ ¬ d.Above id target) :
    (d.put (s.withParent parent)).Forest := by
  -- away from the shape and what lies beneath it, chains of parents are what they were
  have haway : ∀ {p : Parent}, d.Rooted p →
      (∀ target, p = .shape target → target ≠ id ∧ ¬ d.Above id target) →
      (d.put (s.withParent parent)).Rooted p := by
    intro p hp
    induction hp with
    | page => exact fun _ => .page
    | @shape x t ht _ ih =>
        intro hx
        obtain ⟨hne, habove⟩ := hx x rfl
        refine .shape (s := t) ?_ (ih fun target htarget => ⟨?_, fun h => ?_⟩)
        · rw [get?_put_withParent_of_ne hkeyed hs hne]
          exact ht
        · rintro rfl
          exact habove (.parent (parentId?_eq_some_iff.2 ⟨t, ht, htarget⟩))
        · exact habove (.step (parentId?_eq_some_iff.2 ⟨t, ht, htarget⟩) h)
  have hall : ∀ {p : Parent}, d.Rooted p → (d.put (s.withParent parent)).Rooted p := by
    intro p hp
    induction hp with
    | page => exact .page
    | @shape x t ht _ ih =>
        by_cases hx : x = id
        · subst hx
          exact .shape (get?_put_withParent_self hkeyed hs) (haway hparent hout)
        · refine .shape (s := t) ?_ ih
          rw [get?_put_withParent_of_ne hkeyed hs hx]
          exact ht
  refine forest_of_rooted fun x t ht => ?_
  by_cases hx : x = id
  · subst hx
    rw [get?_put_withParent_self hkeyed hs] at ht
    obtain rfl := Option.some.inj ht
    exact haway hparent hout
  · rw [get?_put_withParent_of_ne hkeyed hs hx] at ht
    exact hall (hd.rooted_parent ht)

/-- Hung from a shape beneath it, a shape lies above itself. -/
theorem Above.not_forest_put {target : ShapeId} (habove : d.Above id target) (hd : d.Acyclic)
    (hkeyed : d.Keyed) (hs : d.get? id = some s) :
    ¬ (d.put (s.withParent (.shape target))).Forest := by
  -- the first way up from the target to the shape does not pass the shape, so it stays
  have hstays : ∀ {x p : ShapeId}, d.Above id x → d.parentId? x = some p →
      (d.put (s.withParent (.shape target))).parentId? x = some p := by
    intro x p hx hp
    rw [parentId?, get?_put_withParent_of_ne hkeyed hs]
    · exact hp
    · rintro rfl
      exact hd x hx
  have hkept : ∀ {x : ShapeId}, d.Above id x →
      (d.put (s.withParent (.shape target))).Above id x := by
    intro x hx
    induction hx with
    | parent hp => exact .parent (hstays (.parent hp) hp)
    | step hp h ih => exact .step (hstays (.step hp h) hp) ih
  exact fun hforest => hforest.acyclic id (.step (parentId?_eq_some_iff.2
    ⟨_, get?_put_withParent_self hkeyed hs, rfl⟩)
    (hkept habove))

end withParent

/-! ## Places on the page -/

section
variable [Scalar α]

theorem rooted_of_pageTransformFrom {n : Nat} {s : Shape α} {inner t : Affine α}
    (h : d.pageTransformFrom n s inner = some t) : d.Rooted s.parent := by
  induction n generalizing s inner with
  | zero => exact nomatch h
  | succ n ih =>
      unfold pageTransformFrom at h
      cases hp : s.parent with
      | page => exact .page
      | shape parent =>
          simp only [hp, Option.bind_eq_some_iff] at h
          obtain ⟨p, hget, h⟩ := h
          exact .shape hget (ih h)

theorem exists_pageTransformFrom {n : Nat} {id : ShapeId} {s : Shape α} (hs : d.get? id = some s)
    (hn : (d.ancestorsWithin n id).length < n) (h : d.Rooted s.parent) (inner : Affine α) :
    ∃ t, d.pageTransformFrom n s inner = some t := by
  -- the fuel runs along the chain of parents, which ends before it does
  induction n generalizing id s inner with
  | zero => exact absurd hn (Nat.not_lt_zero _)
  | succ n ih =>
      unfold pageTransformFrom
      cases hp : s.parent with
      | page => exact ⟨_, rfl⟩
      | shape parent =>
          rw [hp] at h
          cases h with
          | @shape _ p hget hr =>
              have hparent : d.parentId? id = some parent := parentId?_eq_some_iff.2 ⟨s, hs, hp⟩
              simp only [ancestorsWithin, hparent, List.length_cons] at hn
              simp only [hget, Option.bind_some]
              exact ih hget (by omega) hr _

/-- The shapes with a place on the page are the ones from which following parents ends there. -/
theorem Shallow.rooted_iff (hd : d.Shallow) {id : ShapeId} :
    d.Rooted (.shape id) ↔ ∃ t, d.pageTransform? id = some t := by
  constructor
  · intro h
    cases h with
    | shape hs hr =>
        obtain ⟨t, ht⟩ := exists_pageTransformFrom hs (hd id) hr Affine.identity
        exact ⟨t, by rw [pageTransform?, hs, Option.bind_some, ht]⟩
  · rintro ⟨t, ht⟩
    obtain ⟨s, hs, ht⟩ := Option.bind_eq_some_iff.1 ht
    exact .shape hs (rooted_of_pageTransformFrom ht)

end

end CanvasTransform.Document
