import CanvasTransform.Proofs.Document.Forest
import Mathlib.Data.List.Nodup

set_option autoImplicit false

/-! # Walking down

The walk downward lists what lies beneath a shape, up to a number of levels. It finds a shape exactly
when as many steps upward find the way back (`mem_below_iff`), so the two walks agree wherever they are
cut off. How the list is ordered is a matter of the tree, and holds for chains of any length
(`Acyclic.inTreeOrder_below`): a shape comes after what lies above it, siblings come in their order, and
nothing comes twice.

All of this rests on one fact about trees without cycles: different children of one shape have nothing
beneath them in common (`Acyclic.eq_of_under`). -/

namespace CanvasTransform.Document

variable {α : Type} {d : Document α} {a b g id parent x y : ShapeId}

/-! ## Beneath a shape -/

/-- Whether `id` is the shape `g` or lies beneath it, however deep. -/
def Under (d : Document α) (g id : ShapeId) : Prop := id = g ∨ d.Above g id

theorem Under.refl (d : Document α) (id : ShapeId) : d.Under id id := Or.inl rfl

theorem above_iff_under : d.Above g id ↔ ∃ parent, d.parentId? id = some parent ∧ d.Under g parent := by
  rw [above_iff]
  simp only [Under, eq_comm]

theorem above_iff_under_child :
    d.Above a x ↔ ∃ child, d.parentId? child = some a ∧ d.Under child x := by
  constructor
  · intro h
    induction h with
    | @parent x hp => exact ⟨x, hp, Under.refl d x⟩
    | step hp _ ih =>
        obtain ⟨child, hchild, hunder⟩ := ih
        exact ⟨child, hchild, Or.inr (above_iff_under.2 ⟨_, hp, hunder⟩)⟩
  · rintro ⟨child, hchild, rfl | habove⟩
    · exact .parent hchild
    · exact (Above.parent hchild).trans habove

/-- Of two shapes above a third one, one is or lies beneath the other. -/
theorem Above.total (ha : d.Above a id) (hb : d.Above b id) : d.Under a b ∨ d.Under b a := by
  -- both are on the one chain of parents that starts at `id`
  induction ha with
  | parent hp =>
      obtain ⟨parent, hp', hunder⟩ := above_iff_under.1 hb
      obtain rfl := Option.some.inj (hp.symm.trans hp')
      exact Or.inr hunder
  | step hp ha ih =>
      obtain ⟨parent, hp', rfl | hb⟩ := above_iff_under.1 hb
      · obtain rfl := Option.some.inj (hp.symm.trans hp')
        exact Or.inl (Or.inr ha)
      · obtain rfl := Option.some.inj (hp.symm.trans hp')
        exact ih hb

theorem Under.total (ha : d.Under a id) (hb : d.Under b id) : d.Under a b ∨ d.Under b a := by
  rcases ha with rfl | ha
  · exact Or.inr hb
  · rcases hb with rfl | hb
    · exact Or.inl (Or.inr ha)
    · exact ha.total hb

theorem Under.trans (hab : d.Under a b) (hb : d.Under b id) : d.Under a id := by
  rcases hb with rfl | hb
  · exact hab
  · rcases hab with rfl | hab
    · exact Or.inr hb
    · exact Or.inr (hab.trans hb)

theorem Acyclic.not_under_parent (hd : d.Acyclic) (hp : d.parentId? id = some parent) :
    ¬ d.Under id parent := by
  intro h
  rcases h with rfl | h
  · exact hd _ (.parent hp)
  · exact hd _ (h.trans (.parent hp))

/-- Different children of one shape have nothing beneath them in common. -/
theorem Acyclic.eq_of_under (hd : d.Acyclic) (ha : d.parentId? a = some parent)
    (hb : d.parentId? b = some parent) (hax : d.Under a x) (hbx : d.Under b x) : a = b := by
  have hout : ∀ {a b : ShapeId}, d.parentId? a = some parent → d.parentId? b = some parent →
      d.Under a b → a = b := by
    intro a b ha hb h
    rcases h with rfl | h
    · rfl
    · obtain ⟨parent', hp', hunder⟩ := above_iff_under.1 h
      obtain rfl := Option.some.inj (hb.symm.trans hp')
      exact absurd hunder (hd.not_under_parent ha)
  rcases hax.total hbx with h | h
  · exact hout ha hb h
  · exact (hout hb ha h).symm

theorem under_of_mem_below (hkeyed : d.Keyed) {n : ℕ} (h : x ∈ a :: d.below n a) : d.Under a x := by
  rcases List.mem_cons.1 h with rfl | h
  · exact Under.refl d x
  · exact Or.inr (above_iff_exists_mem.2 ⟨n, (mem_below_iff hkeyed).1 h⟩)

/-! ## Siblings -/

/-- The shape `x` comes before the shape `y` by index, and by identity where the indices are equal. -/
def Precedes (d : Document α) (x y : ShapeId) : Prop :=
  ∀ s t, d.get? x = some s → d.get? y = some t → s.index < t.index ∨ s.index = t.index ∧ x < y

theorem stemBehind_trans (s t u : ShapeId × Kind × Parent × Int64) (hst : stemBehind s t = true)
    (htu : stemBehind t u = true) : stemBehind s u = true := by
  simp only [stemBehind, Bool.or_eq_true, Bool.and_eq_true, decide_eq_true_eq, beq_iff_eq,
    BitVec.ule, Int64.lt_iff_toInt_lt, ← Int64.toInt_inj] at *
  omega

theorem stemBehind_total (s t : ShapeId × Kind × Parent × Int64) :
    (stemBehind s t || stemBehind t s) = true := by
  simp only [stemBehind, Bool.or_eq_true, Bool.and_eq_true, decide_eq_true_eq, beq_iff_eq,
    BitVec.ule, Int64.lt_iff_toInt_lt, ← Int64.toInt_inj]
  omega

/-- What the children are sorted from: the stems of the shapes in question. -/
theorem Keyed.eq_stem (hkeyed : d.Keyed) {parent : Parent} {e : ShapeId × Kind × Parent × Int64}
    {s : Shape α}
    (he : e ∈ ((d.shapes.toList.map fun e => (e.1, e.2.stem)).filter (·.2.2.2.1 = parent)).map
      Prod.snd) (hs : d.get? e.1 = some s) : e = s.stem := by
  obtain ⟨_, hfiltered, rfl⟩ := List.mem_map.1 he
  obtain ⟨⟨key, u⟩, hu, rfl⟩ := List.mem_map.1 (List.mem_filter.1 hfiltered).1
  have hu : d.get? key = some u := Std.TreeMap.mem_toList_iff_getElem?_eq_some.1 hu
  have hkey : u.stem.1 = key := hkeyed key u hu
  rw [hkey, hu] at hs
  rw [Option.some.inj hs]

/-- The children of a shape come in their order. -/
theorem Keyed.pairwise_children (hkeyed : d.Keyed) (parent : Parent) :
    (d.children parent).Pairwise d.Precedes := by
  have hnodup := hkeyed.nodup_children parent
  rw [children_eq] at hnodup ⊢
  generalize hstems : ((d.shapes.toList.map fun e => (e.1, e.2.stem)).filter
    (·.2.2.2.1 = parent)).map Prod.snd = stems at hnodup ⊢
  rw [List.Nodup, List.pairwise_map] at hnodup
  rw [List.pairwise_map]
  have hsorted : (stems.mergeSort stemBehind).Pairwise fun e f => stemBehind e f = true :=
    List.pairwise_mergeSort stemBehind_trans stemBehind_total stems
  refine (hsorted.and hnodup).imp_of_mem ?_
  intro e f he hf hboth s t hs ht
  obtain ⟨hle, hne⟩ := hboth
  rw [List.mem_mergeSort, ← hstems] at he hf
  have hindex : e.2.2.2 = s.index := congrArg (·.2.2.2) (hkeyed.eq_stem he hs)
  have hindex' : f.2.2.2 = t.index := congrArg (·.2.2.2) (hkeyed.eq_stem hf ht)
  simp only [stemBehind, Bool.or_eq_true, Bool.and_eq_true, decide_eq_true_eq, beq_iff_eq, hindex,
    hindex'] at hle
  refine hle.imp_right fun h => ⟨h.1, ?_⟩
  exact BitVec.lt_of_le_ne (BitVec.ule_iff_le.1 h.2) hne

/-! ## The order of the walk -/

/-- The list goes from parents to children, and from sibling to sibling in their order. -/
structure InTreeOrder (d : Document α) (ids : List ShapeId) : Prop where
  nodup : ids.Nodup
  /-- Nothing comes before a shape that lies above it. -/
  parents : ids.Pairwise fun x y => ¬ d.Above y x
  siblings : ids.Pairwise fun x y => d.parentId? x = d.parentId? y → d.Precedes x y

/-- Shapes beneath two siblings come in the order of the siblings, if they are siblings themselves. -/
theorem Acyclic.precedes_of_under (hd : d.Acyclic) (ha : d.parentId? a = some parent)
    (hb : d.parentId? b = some parent) (hne : a ≠ b) (hab : d.Precedes a b) (hax : d.Under a x)
    (hby : d.Under b y) (hxy : d.parentId? x = d.parentId? y) : d.Precedes x y := by
  rcases hax with rfl | hax
  · rcases hby with rfl | hby
    · exact hab
    · obtain ⟨above, habove, hunder⟩ := above_iff_under.1 hby
      obtain rfl := Option.some.inj (ha.symm.trans (hxy.trans habove))
      exact absurd hunder (hd.not_under_parent hb)
  · obtain ⟨above, habove, hunder⟩ := above_iff_under.1 hax
    rw [habove] at hxy
    rcases hby with rfl | hby
    · obtain rfl := Option.some.inj (hxy.trans hb)
      exact absurd hunder (hd.not_under_parent ha)
    · obtain ⟨above', habove', hunder'⟩ := above_iff_under.1 hby
      obtain rfl := Option.some.inj (hxy.trans habove')
      exact absurd (hd.eq_of_under ha hb hunder hunder') hne

theorem Acyclic.pairwise_below (hd : d.Acyclic) (hkeyed : d.Keyed) (n : ℕ) (a : ShapeId) :
    (d.below n a).Pairwise fun x y =>
      ¬ d.Under y x ∧ (d.parentId? x = d.parentId? y → d.Precedes x y) := by
  induction n generalizing a with
  | zero => exact .nil
  | succ n ih =>
      rw [below, List.pairwise_flatMap]
      constructor
      · -- a child comes before what lies beneath it, and none of that is a sibling of the child
        intro c hc
        have hp := (mem_children_shape_iff hkeyed).1 hc
        refine List.pairwise_cons.2 ⟨?_, ih c⟩
        intro y hy
        have hcy : d.Above c y := above_iff_exists_mem.2 ⟨n, (mem_below_iff hkeyed).1 hy⟩
        refine ⟨fun hyc => ?_, fun heq => ?_⟩
        · rcases hyc with rfl | hyc
          · exact hd _ hcy
          · exact hd _ (hcy.trans hyc)
        · obtain ⟨parent, hp', hunder⟩ := above_iff_under.1 hcy
          obtain rfl := Option.some.inj (hp.symm.trans (heq.trans hp'))
          exact absurd hunder (hd.not_under_parent hp)
      · -- what lies beneath one child has nothing to do with what lies beneath another one
        refine ((hkeyed.pairwise_children _).and (hkeyed.nodup_children _)).imp_of_mem ?_
        intro c c' hc hc' hsiblings x hx y hy
        obtain ⟨hprecedes, hne⟩ := hsiblings
        have hp := (mem_children_shape_iff hkeyed).1 hc
        have hp' := (mem_children_shape_iff hkeyed).1 hc'
        have hcx := under_of_mem_below hkeyed hx
        have hcy := under_of_mem_below hkeyed hy
        refine ⟨fun hyx => ?_, hd.precedes_of_under hp hp' hne hprecedes hcx hcy⟩
        exact hne (hd.eq_of_under hp hp' hcx (hcy.trans hyx))

/-- **The walk downward is in the order of the tree**, whatever its number of levels. -/
theorem Acyclic.inTreeOrder_below (hd : d.Acyclic) (hkeyed : d.Keyed) (n : ℕ) (a : ShapeId) :
    d.InTreeOrder (d.below n a) := by
  have hpairwise := hd.pairwise_below hkeyed n a
  refine ⟨hpairwise.imp fun h heq => h.1 ?_, hpairwise.imp fun h habove => h.1 (Or.inr habove),
    hpairwise.imp fun h => h.2⟩
  exact Or.inl heq

end CanvasTransform.Document
