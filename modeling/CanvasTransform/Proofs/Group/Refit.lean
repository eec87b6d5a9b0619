import CanvasTransform.Proofs.Document.Commit

set_option autoImplicit false

/-! # Refitting groups, in any order

With the built-in behaviours only groups react to what happens inside them. What a group asks for
depends on nothing but what is inside it (`reaction_congr`), and moves the group and its children
only (`moves_of_mem_reaction`). Two containers of which neither is inside the other therefore ask for
the same in either order, and so do the containers of a list in every order that has the deepest
first (`reactions_alike`): each shape is named by the same patches in the same order. -/

namespace CanvasTransform

variable {α : Type}

namespace Behaviour

variable {d d' : Document α}

theorem mem_childrenOf (hd : d.Keyed) {s c : Shape α} :
    c ∈ childrenOf d s ↔ d.get? c.id = some c ∧ c.parent = .shape s.id := by
  rw [childrenOf, List.mem_filterMap]
  constructor
  · rintro ⟨id, hid, hc⟩
    obtain ⟨c', hc', hparent⟩ := (Document.mem_children_iff hd).1 hid
    rw [hc] at hc'
    obtain rfl := Option.some.inj hc'
    rw [hd id c hc]
    exact ⟨hc, hparent⟩
  · rintro ⟨hc, hparent⟩
    exact ⟨c.id, (Document.mem_children_iff hd).2 ⟨c, hc, hparent⟩, hc⟩

theorem childrenOf_congr (htree : d.SameTree d') (hd : d.Keyed) {s s' : Shape α}
    (hid : s.id = s'.id) (h : ∀ id, d.parentId? id = some s.id → d.get? id = d'.get? id) :
    childrenOf d s = childrenOf d' s' := by
  rw [childrenOf, childrenOf, ← hid, ← htree.children_eq]
  exact List.filterMap_congr fun id hmem => h id ((Document.mem_children_shape_iff hd).1 hmem)

theorem groupBounds_congr [Scalar α] (htree : d.SameTree d') (hd : d.Keyed) {s s' : Shape α}
    (hid : s.id = s'.id) (h : ∀ id, d.parentId? id = some s.id → d.get? id = d'.get? id)
    {boundsOf boundsOf' : Shape α → Rect α}
    (hbounds : ∀ c ∈ childrenOf d s, boundsOf c = boundsOf' c) :
    groupBounds d boundsOf s = groupBounds d' boundsOf' s' := by
  rw [groupBounds, groupBounds, ← childrenOf_congr htree hd hid h,
    List.map_congr_left fun c hc => by rw [hbounds c hc]]

end Behaviour

section
variable [Scalar α] {d d' : Document α}

namespace Registry

/-- **Bounds look down only.** They are the same in two documents with the same tree, if the shapes
    below agree. `P` holds of these shapes, and of whatever hangs from them. -/
theorem boundsWithin_congr {P : ShapeId → Prop} (htree : d.SameTree d') (hd : d.Keyed)
    (hP : ∀ id parent, d.parentId? id = some parent → P parent → P id)
    (h : ∀ id, P id → d.get? id = d'.get? id) (n : Nat) {s s' : Shape α}
    (hkind : s.kind = s'.kind) (hid : s.id = s'.id) (hform : s.form = s'.form)
    (hs : ∀ id, d.parentId? id = some s.id → P id) :
    builtin.boundsWithin d n s = builtin.boundsWithin d' n s' := by
  induction n generalizing s s' with
  | zero => rfl
  | succ n ih =>
      rw [boundsWithin, boundsWithin, ← hkind]
      have hextent : s.extent = s'.extent := by rw [Shape.extent, Shape.extent, hform]
      have hbox : Behaviour.boxBounds s = Behaviour.boxBounds s' := by
        rw [Behaviour.boxBounds, Behaviour.boxBounds, hextent]
      have hgroup : Behaviour.groupBounds d (builtin.boundsWithin d n) s =
          Behaviour.groupBounds d' (builtin.boundsWithin d' n) s' := by
        refine Behaviour.groupBounds_congr htree hd hid (fun id hp => h id (hs id hp)) ?_
        intro c hc
        obtain ⟨hget, hparent⟩ := (Behaviour.mem_childrenOf hd).1 hc
        have hPc : P c.id := hs c.id (Document.parentId?_eq_some_iff.2 ⟨c, hget, hparent⟩)
        exact ih rfl rfl rfl fun id hp => hP id c.id hp hPc
      cases hk : s.kind with
      | group => exact hgroup
      | line =>
          show ((Rect.boundsOf? s.form.points).getD Rect.zero) = _
          rw [hform]
          rfl
      | rectangle | ellipse | frame | text | note | image => exact hbox

theorem bounds_congr {P : ShapeId → Prop} (htree : d.SameTree d') (hd : d.Keyed)
    (hP : ∀ id parent, d.parentId? id = some parent → P parent → P id)
    (h : ∀ id, P id → d.get? id = d'.get? id) {s : Shape α}
    (hs : ∀ id, d.parentId? id = some s.id → P id) :
    builtin.bounds d s = builtin.bounds d' s := by
  rw [bounds, bounds, htree.size_eq]
  exact boundsWithin_congr htree hd hP h _ rfl rfl rfl hs

/-- Only groups react. -/
theorem refit_eq_nil {s : Shape α} (h : s.kind ≠ .group) : builtin.refit d s = [] := by
  cases hk : s.kind with
  | group => exact absurd hk h
  | _ => rw [refit, builtin, behaviour, hk]; rfl

theorem refit_group {s : Shape α} (h : s.kind = .group) :
    builtin.refit d s = Behaviour.refitGroup d (builtin.bounds d) s := by
  rw [refit, builtin, behaviour, h]
  rfl

/-- A reaction is that of a group, which moves itself and its children and does nothing else. -/
theorem moves_of_mem_refit (hd : d.Keyed) {s : Shape α} {p : Patch α} (hp : p ∈ builtin.refit d s) :
    s.kind = .group ∧ (p.id = s.id ∨ d.parentId? p.id = some s.id) ∧
      p.rotation = none ∧ p.form = none := by
  by_cases hk : s.kind = .group
  · refine ⟨hk, ?_⟩
    rw [refit_group hk, Behaviour.refitGroup] at hp
    split at hp
    · exact absurd hp List.not_mem_nil
    · dsimp only at hp
      split at hp
      · exact absurd hp List.not_mem_nil
      · rcases List.mem_cons.1 hp with rfl | hp
        · exact ⟨Or.inl rfl, rfl, rfl⟩
        · obtain ⟨c, hc, rfl⟩ := List.mem_map.1 hp
          obtain ⟨hget, hparent⟩ := (Behaviour.mem_childrenOf hd).1 hc
          exact ⟨Or.inr (Document.parentId?_eq_some_iff.2 ⟨c, hget, hparent⟩), rfl, rfl⟩
  · rw [refit_eq_nil hk] at hp
    exact absurd hp List.not_mem_nil

/-- A reaction depends on what is inside the container only. -/
theorem refit_congr (htree : d.SameTree d') (hd : d.Keyed) (hshallow : d.Shallow) {s : Shape α}
    (h : ∀ id, s.id ∈ d.ancestors id → d.get? id = d'.get? id) :
    builtin.refit d s = builtin.refit d' s := by
  have hchild : ∀ id, d.parentId? id = some s.id → s.id ∈ d.ancestors id := fun id hp =>
    hshallow.mem_ancestors_iff.2 ⟨s.id, hp, Or.inl rfl⟩
  have hbelow : ∀ id parent, d.parentId? id = some parent → s.id ∈ d.ancestors parent →
      s.id ∈ d.ancestors id := fun id parent hp hmem =>
    hshallow.mem_ancestors_iff.2 ⟨parent, hp, Or.inr hmem⟩
  by_cases hk : s.kind = .group
  · have hchildren := Behaviour.childrenOf_congr htree hd rfl fun id hp => h id (hchild id hp)
    have hbounds : Behaviour.groupBounds d (builtin.bounds d) s =
        Behaviour.groupBounds d' (builtin.bounds d') s := by
      refine Behaviour.groupBounds_congr htree hd rfl (fun id hp => h id (hchild id hp)) ?_
      intro c hc
      obtain ⟨hget, hparent⟩ := (Behaviour.mem_childrenOf hd).1 hc
      have hinside := hchild c.id (Document.parentId?_eq_some_iff.2 ⟨c, hget, hparent⟩)
      exact bounds_congr htree hd hbelow h fun id hp => hbelow id c.id hp hinside
    rw [refit_group hk, refit_group hk, Behaviour.refitGroup, Behaviour.refitGroup, hbounds,
      hchildren, htree.children_eq]
  · rw [refit_eq_nil hk, refit_eq_nil hk]

end Registry

namespace Document

/-- Whether the shape is a group. -/
def IsGroup (d : Document α) (id : ShapeId) : Prop := ∃ s, d.get? id = some s ∧ s.kind = .group

omit [Scalar α] in
theorem SameTree.isGroup (h : d.SameTree d') {id : ShapeId} (hid : d.IsGroup id) :
    d'.IsGroup id := by
  obtain ⟨s, hs, hk⟩ := hid
  obtain ⟨s', hs', hstem⟩ := h.get? hs
  exact ⟨s', hs', (Shape.kind_of_stem hstem).trans hk⟩

/-- A container that asks for anything is a group, and asks for moves of itself and its children. -/
theorem moves_of_mem_reaction (hd : d.Keyed) {g : ShapeId} {p : Patch α}
    (hp : p ∈ d.reaction Registry.builtin g) :
    d.IsGroup g ∧ (p.id = g ∨ d.parentId? p.id = some g) ∧ p.rotation = none ∧ p.form = none := by
  unfold reaction at hp
  cases hg : d.get? g with
  | none =>
      rw [hg] at hp
      exact absurd hp List.not_mem_nil
  | some container =>
      rw [hg] at hp
      obtain ⟨hk, hid, hfields⟩ := Registry.moves_of_mem_refit hd hp
      rw [hd g container hg] at hid
      exact ⟨⟨container, hg, hk⟩, hid, hfields⟩

theorem inside_of_mem_reaction (hd : d.Keyed) (hshallow : d.Shallow) {g id : ShapeId}
    (h : id ∈ (d.reaction Registry.builtin g).map (·.id)) : d.Inside g id := by
  obtain ⟨p, hp, rfl⟩ := List.mem_map.1 h
  rcases (moves_of_mem_reaction hd hp).2.1 with hid | hid
  · exact Or.inl hid
  · exact Or.inr (hshallow.mem_ancestors_iff.2 ⟨g, hid, Or.inl rfl⟩)

/-- What a container asks for depends on what is inside it. -/
theorem reaction_congr (htree : d.SameTree d') (hd : d.Keyed) (hshallow : d.Shallow) {g : ShapeId}
    (h : ∀ id, d.Inside g id → d.get? id = d'.get? id) :
    d.reaction Registry.builtin g = d'.reaction Registry.builtin g := by
  rw [reaction, reaction, ← h g (Or.inl rfl)]
  cases hg : d.get? g with
  | none => rfl
  | some container =>
      refine Registry.refit_congr htree hd hshallow fun id hmem => h id (Or.inr ?_)
      rwa [hd g container hg] at hmem

/-- Refitting a container leaves everything outside it alone. -/
theorem refit_frame (hd : d.Keyed) (hshallow : d.Shallow) {g id : ShapeId}
    (h : ¬ d.Inside g id) : (d.refit Registry.builtin g).get? id = d.get? id := by
  rw [refit_eq]
  exact get?_patchAll_of_not_mem fun hmem => h (inside_of_mem_reaction hd hshallow hmem)

/-- A container asks for the same whether or not another of its depth was refitted before. -/
theorem reaction_refit (hd : d.Keyed) (hshallow : d.Shallow) {g g' : ShapeId}
    (hdepth : d.depth g = d.depth g') (hne : g ≠ g') :
    (d.refit Registry.builtin g').reaction Registry.builtin g = d.reaction Registry.builtin g := by
  refine (reaction_congr (sameTree_refit d _ g').symm hd hshallow fun id hid => ?_).symm
  exact (refit_frame hd hshallow fun hid' => hne (hshallow.eq_of_inside hdepth hid hid')).symm

theorem Agree.reaction_eq (h : d.Agree d') (hd : d.Keyed) (hshallow : d.Shallow) (g : ShapeId) :
    d.reaction Registry.builtin g = d'.reaction Registry.builtin g :=
  reaction_congr h.sameTree hd hshallow fun id _ => h id

theorem Agree.reactions_eq (h : d.Agree d') (hd : d.Keyed) (hshallow : d.Shallow)
    (ids : List ShapeId) :
    d.reactions Registry.builtin ids = d'.reactions Registry.builtin ids := by
  induction ids generalizing d d' with
  | nil => rfl
  | cons g ids ih =>
      have htree := sameTree_refit d Registry.builtin g
      have hrefit : (d.refit Registry.builtin g).Agree (d'.refit Registry.builtin g) := by
        rw [refit_eq, refit_eq, h.reaction_eq hd hshallow]
        exact h.patchAll _
      rw [reactions, reactions, h.reaction_eq hd hshallow,
        ih hrefit (htree.keyed hd) (htree.shallow hshallow)]

/-- **Containers of the same depth ask for the same in either order.** -/
theorem reactions_swap (hd : d.Keyed) (hshallow : d.Shallow) {g₁ g₂ : ShapeId}
    (hdepth : d.depth g₁ = d.depth g₂) (rest : List ShapeId) :
    Alike (d.reactions Registry.builtin (g₁ :: g₂ :: rest))
      (d.reactions Registry.builtin (g₂ :: g₁ :: rest)) := by
  by_cases heq : g₁ = g₂
  · rw [heq]
  -- neither sees the other, and they name different shapes
  have hpair : Alike
      (d.reaction Registry.builtin g₁ ++ (d.refit Registry.builtin g₁).reaction Registry.builtin g₂)
      (d.reaction Registry.builtin g₂ ++
        (d.refit Registry.builtin g₂).reaction Registry.builtin g₁) := by
    rw [reaction_refit hd hshallow hdepth.symm (Ne.symm heq), reaction_refit hd hshallow hdepth heq]
    refine alike_append_comm fun id h₁ h₂ => heq ?_
    exact hshallow.eq_of_inside hdepth (inside_of_mem_reaction hd hshallow h₁)
      (inside_of_mem_reaction hd hshallow h₂)
  have hboth : ((d.refit Registry.builtin g₁).refit Registry.builtin g₂).Agree
      ((d.refit Registry.builtin g₂).refit Registry.builtin g₁) := by
    simp only [refit_eq _ _ g₁, refit_eq _ _ g₂, ← patchAll_append] at hpair ⊢
    exact hpair.agree (Agree.refl d)
  have htree : ((d.refit Registry.builtin g₁).refit Registry.builtin g₂).SameTree d :=
    (sameTree_refit _ _ g₂).trans (sameTree_refit d _ g₁)
  rw [reactions, reactions, reactions, reactions, ← List.append_assoc, ← List.append_assoc,
    hboth.reactions_eq (htree.keyed hd) (htree.shallow hshallow)]
  exact hpair.append (Alike.refl _)

/-- A container can come before others of its depth. -/
theorem reactions_middle (hd : d.Keyed) (hshallow : d.Shallow) {g : ShapeId}
    {before after : List ShapeId} (hdepth : ∀ id ∈ before, d.depth id = d.depth g) :
    Alike (d.reactions Registry.builtin (before ++ g :: after))
      (d.reactions Registry.builtin (g :: (before ++ after))) := by
  induction before generalizing d with
  | nil => rfl
  | cons id before ih =>
      have htree := sameTree_refit d Registry.builtin id
      have hrest := ih (htree.keyed hd) (htree.shallow hshallow) fun id' hid' => by
        rw [htree.depth_eq, htree.depth_eq]
        exact hdepth id' (List.mem_cons_of_mem _ hid')
      exact ((Alike.refl _).append hrest).trans
        (reactions_swap hd hshallow (hdepth id List.mem_cons_self) _)

/-- **Only the depth matters**: two lists of the same containers, both with the deepest first, ask for
    the same. -/
theorem reactions_alike (hd : d.Keyed) (hshallow : d.Shallow) {ids ids' : List ShapeId}
    (hperm : ids.Perm ids') (hids : ids.Pairwise fun a b => d.depth b ≤ d.depth a)
    (hids' : ids'.Pairwise fun a b => d.depth b ≤ d.depth a) :
    Alike (d.reactions Registry.builtin ids) (d.reactions Registry.builtin ids') := by
  induction ids generalizing d ids' with
  | nil => rw [hperm.nil_eq]
  | cons g rest ih =>
      obtain ⟨before, after, rfl⟩ := List.append_of_mem (hperm.subset List.mem_cons_self)
      have hrest : rest.Perm (before ++ after) := (hperm.trans List.perm_middle).cons_inv
      -- what stands before the first container of the other list is no deeper, nor less deep
      have hdepth : ∀ id ∈ before, d.depth id = d.depth g := by
        intro id hid
        have hle : d.depth id ≤ d.depth g :=
          (List.pairwise_cons.1 hids).1 id (hrest.mem_iff.2 (List.mem_append_left _ hid))
        have hge : d.depth g ≤ d.depth id :=
          (List.pairwise_append.1 hids').2.2 id hid g List.mem_cons_self
        exact Nat.le_antisymm hle hge
      have htree := sameTree_refit d Registry.builtin g
      have hsub : (before ++ after).Sublist (before ++ g :: after) :=
        (List.sublist_cons_self g after).append_left before
      have hnext : Alike ((d.refit Registry.builtin g).reactions Registry.builtin rest)
          ((d.refit Registry.builtin g).reactions Registry.builtin (before ++ after)) := by
        refine ih (htree.keyed hd) (htree.shallow hshallow) hrest ?_ ?_
        · simp only [htree.depth_eq]
          exact (List.pairwise_cons.1 hids).2
        · simp only [htree.depth_eq]
          exact hids'.sublist hsub
      exact ((Alike.refl _).append hnext).trans (reactions_middle hd hshallow hdepth).symm

/-- What the containers ask for depends on what the updates come to and on which containers they
    concern. -/
theorem reactions_containers_alike (htree : d.SameTree d') (hd : d.Keyed) (hshallow : d.Shallow)
    {updates updates' : List (Patch α)} (h : (d.patchAll updates).Agree (d'.patchAll updates'))
    (hcontainers : ∀ a, a ∈ d.containers (d.reached updates) ↔
      a ∈ d'.containers (d'.reached updates')) :
    Alike ((d.patchAll updates).reactions Registry.builtin (d.containers (d.reached updates)))
      ((d'.patchAll updates').reactions Registry.builtin
        (d'.containers (d'.reached updates'))) := by
  have hpatched := sameTree_patchAll d updates
  have hperm : (d.containers (d.reached updates)).Perm (d'.containers (d'.reached updates')) :=
    (List.perm_ext_iff_of_nodup (nodup_containers d _) (nodup_containers d' _)).2 hcontainers
  have hsorted : (d.containers (d.reached updates)).Pairwise
      fun a b => (d.patchAll updates).depth b ≤ (d.patchAll updates).depth a := by
    simp only [hpatched.depth_eq]
    exact hshallow.pairwise_containers _
  have hsorted' : (d'.containers (d'.reached updates')).Pairwise
      fun a b => (d.patchAll updates).depth b ≤ (d.patchAll updates).depth a := by
    simp only [(hpatched.trans htree).depth_eq]
    exact (htree.symm.shallow hshallow).pairwise_containers _
  rw [← h.reactions_eq (hpatched.keyed hd) (hpatched.shallow hshallow)]
  exact reactions_alike (hpatched.keyed hd) (hpatched.shallow hshallow) hperm hsorted hsorted'

/-- Settling depends on what the updates come to and on which containers they concern. -/
theorem settle_agree (htree : d.SameTree d') (hd : d.Keyed) (hshallow : d.Shallow)
    {updates updates' : List (Patch α)} (h : (d.patchAll updates).Agree (d'.patchAll updates'))
    (hcontainers : ∀ a, a ∈ d.containers (d.reached updates) ↔
      a ∈ d'.containers (d'.reached updates')) :
    (d.settle Registry.builtin updates).Agree (d'.settle Registry.builtin updates') := by
  rw [settle, settle, refitAll_eq, refitAll_eq]
  exact (reactions_containers_alike htree hd hshallow h hcontainers).agree h

end Document

/-! ## How far a batch reaches -/

namespace Document

/-- What writing some shapes can lead to: a write of one of them, of a group above one, or of a child
    of such a group. -/
def Reach (d : Document α) (ids : List ShapeId) (id : ShapeId) : Prop :=
  id ∈ ids ∨ ∃ g, d.IsGroup g ∧ (∃ u ∈ ids, g ∈ d.ancestors u) ∧ (id = g ∨ d.parentId? id = some g)

omit [Scalar α] in
/-- What is above a reached shape is above one of the shapes that it is reached from. -/
theorem Shallow.exists_of_reach (hd : d.Shallow) {ids : List ShapeId} {id a : ShapeId}
    (h : d.Reach ids id) (ha : a ∈ d.ancestors id) : ∃ u ∈ ids, a ∈ d.ancestors u := by
  rcases h with hid | ⟨g, -, ⟨u, hu, hg⟩, rfl | hp⟩
  · exact ⟨id, hid, ha⟩
  · exact ⟨u, hu, hd.mem_ancestors_trans ha hg⟩
  · rw [hd.ancestors_eq_cons hp] at ha
    rcases List.mem_cons.1 ha with rfl | ha
    · exact ⟨u, hu, hg⟩
    · exact ⟨u, hu, hd.mem_ancestors_trans ha hg⟩

omit [Scalar α] in
/-- Nothing more is reached from what is reached. -/
theorem Shallow.reach_trans (hd : d.Shallow) {ids ids' : List ShapeId} {id : ShapeId}
    (h : d.Reach ids' id) (hids : ∀ u ∈ ids', d.Reach ids u) : d.Reach ids id := by
  rcases h with hid | ⟨g, hgroup, ⟨u, hu, hg⟩, hor⟩
  · exact hids id hid
  · exact Or.inr ⟨g, hgroup, hd.exists_of_reach (hids u hu) hg, hor⟩

/-- What containers ask for are moves of groups among them and of their children. -/
theorem moves_of_mem_reactions (hd : d.Keyed) {ids : List ShapeId} {p : Patch α}
    (hp : p ∈ d.reactions Registry.builtin ids) :
    (∃ g ∈ ids, d.IsGroup g ∧ (p.id = g ∨ d.parentId? p.id = some g)) ∧
      p.rotation = none ∧ p.form = none := by
  induction ids generalizing d with
  | nil => exact absurd hp List.not_mem_nil
  | cons g ids ih =>
      have htree := sameTree_refit d Registry.builtin g
      rcases List.mem_append.1 hp with hp | hp
      · obtain ⟨hgroup, hid, hfields⟩ := moves_of_mem_reaction hd hp
        exact ⟨⟨g, List.mem_cons_self, hgroup, hid⟩, hfields⟩
      · obtain ⟨⟨g', hg', hgroup, hid⟩, hfields⟩ := ih (htree.keyed hd) hp
        rw [htree.parentId?_eq] at hid
        exact ⟨⟨g', List.mem_cons_of_mem _ hg', htree.isGroup hgroup, hid⟩, hfields⟩

/-- **What updates lead to**: the updates themselves, and moves of what they reach. -/
theorem moves_of_mem_changes (hd : d.Keyed) (hshallow : d.Shallow) {updates : List (Patch α)}
    {p : Patch α} (hp : p ∈ d.changes Registry.builtin updates) : p ∈ updates ∨
      d.Reach (d.reached updates) p.id ∧ p.rotation = none ∧ p.form = none := by
  have htree := sameTree_patchAll d updates
  refine (List.mem_append.1 hp).imp_right fun hp => ?_
  obtain ⟨⟨g, hg, hgroup, hid⟩, hfields⟩ := moves_of_mem_reactions (htree.keyed hd) hp
  rw [htree.parentId?_eq] at hid
  exact ⟨Or.inr ⟨g, htree.isGroup hgroup, hshallow.mem_containers.1 hg, hid⟩, hfields⟩

end Document

/-- A batch touches what the updates reach. -/
theorem Canvas.reach_of_mem_batch (hd : d.Keyed) (hshallow : d.Shallow) {updates : List (Patch α)}
    {id : ShapeId} (h : id ∈ (Canvas.batch ⟨d, Registry.builtin⟩ updates).map (·.id)) :
    d.Reach (d.reached updates) id := by
  obtain ⟨hid, hc⟩ := (Canvas.mem_batch_iff _ updates id).1 h
  obtain ⟨p, hp, rfl⟩ := List.mem_map.1 hid
  rcases Document.moves_of_mem_changes hd hshallow hp with hp | ⟨hreach, -⟩
  · exact Or.inl (Document.mem_reached_iff.2 ⟨List.mem_map_of_mem hp, hc⟩)
  · exact hreach

/-- **A batch stays within the containers of its updates**: what is above a shape that it touches is
    above a shape that was updated. -/
theorem Canvas.exists_update_of_mem_batch (hd : d.Keyed) (hshallow : d.Shallow)
    {updates : List (Patch α)} {id a : ShapeId}
    (h : id ∈ (Canvas.batch ⟨d, Registry.builtin⟩ updates).map (·.id)) (ha : a ∈ d.ancestors id) :
    ∃ u ∈ updates.map (·.id), d.contains u = true ∧ a ∈ d.ancestors u := by
  obtain ⟨u, hu, hau⟩ := hshallow.exists_of_reach (Canvas.reach_of_mem_batch hd hshallow h) ha
  obtain ⟨hu, hc⟩ := Document.mem_reached_iff.1 hu
  exact ⟨u, hu, hc, hau⟩

end

end CanvasTransform
