import CanvasTransform.Proofs.Transform.Walk

set_option autoImplicit false

/-! # What a resize gets to

A resize goes down from the top-level shapes for as long as it can scale what it meets. That says
which shapes it gets to, and what the page transform of the parent has become there
(`Snapshot.Reaches`), without a word about what the resize answers. A shape that it gets to is scaled
(`Snapshot.Scales`) or it fails, because it is gone or because it cannot be scaled there
(`Snapshot.Fails`).

The updates of a resize are the patches of what is scaled, and its reports are what fails, no more
(`Reaches.all_scaleSubtree`) and no less (`Reflects.exists_card_inside_le`): the levels that the
walk may go down are enough, since there is less inside a child than inside its parent. Two resizes by
the same map in which nothing around a shape fails get to the shape under the same page transform and
scale it alike (`Reflects.exists_scales_both`). -/

namespace CanvasTransform

variable {α : Type}

/-- The shape that an error is about. -/
def TransformError.id : TransformError → ShapeId
  | .shapeNotFound id | .invalidGeometry id | .notInvertible id => id

/-! ## All that is in an outcome -/

namespace Outcome

/-- All patches of the outcome are as `P` says, and all reports as `Q` says. -/
structure All (o : Outcome α) (P : Patch α → Prop) (Q : TransformError → Prop) : Prop where
  updates : ∀ p ∈ o.updates, P p
  skipped : ∀ e ∈ o.skipped, Q e

variable {P : Patch α → Prop} {Q : TransformError → Prop}

theorem all_empty : (empty : Outcome α).All P Q := ⟨nofun, nofun⟩

theorem all_update {p : Patch α} : (update p).All P Q ↔ P p :=
  ⟨fun h => h.updates p (List.mem_singleton_self p),
    fun h => ⟨List.forall_mem_singleton.2 h, nofun⟩⟩

theorem all_skip {e : TransformError} : (skip e : Outcome α).All P Q ↔ Q e :=
  ⟨fun h => h.skipped e (List.mem_singleton_self e),
    fun h => ⟨nofun, List.forall_mem_singleton.2 h⟩⟩

theorem all_append {o o' : Outcome α} : (o ++ o').All P Q ↔ o.All P Q ∧ o'.All P Q := by
  constructor
  · rintro ⟨hupdates, hskipped⟩
    rw [updates_append, List.forall_mem_append] at hupdates
    rw [skipped_append, List.forall_mem_append] at hskipped
    exact ⟨⟨hupdates.1, hskipped.1⟩, ⟨hupdates.2, hskipped.2⟩⟩
  · rintro ⟨h, h'⟩
    exact ⟨List.forall_mem_append.2 ⟨h.updates, h'.updates⟩,
      List.forall_mem_append.2 ⟨h.skipped, h'.skipped⟩⟩

theorem all_concat_map {β : Type} {f : β → Outcome α} {l : List β} :
    (concat (l.map f)).All P Q ↔ ∀ b ∈ l, (f b).All P Q := by
  induction l with
  | nil => exact ⟨fun _ => nofun, fun _ => all_empty⟩
  | cons b l ih =>
      rw [List.forall_mem_cons, ← ih]
      exact all_append

end Outcome

variable [Scalar α]

/-- A member that cannot be scaled is the one that is reported. -/
theorem Member.id_of_scale_error {m : Member α} {registry : Registry α} {t parentPage : Affine α}
    {e : TransformError} (h : m.scale registry t parentPage = .error e) : e.id = m.shape.id := by
  unfold scale at h
  dsimp only at h
  split at h
  · split at h
    · split at h
      · exact nomatch h
      · exact (Except.error.inj h) ▸ rfl
    · exact (Except.error.inj h) ▸ rfl
  · exact (Except.error.inj h) ▸ rfl

/-- Registries that resize shapes alike, as far as both do so with finite numbers. -/
def Registry.AgreeFinite (r r' : Registry α) : Prop := ∀ shape placement,
  (r.resize shape placement).isFinite = true → (r'.resize shape placement).isFinite = true →
    r.resize shape placement = r'.resize shape placement

namespace Snapshot

/-! ## Reaching, scaling, failing -/

/-- A resize gets to the shape when the page transform of the shape's parent has become `page`. It
    begins with the top-level shapes, under the parents that they were captured with, and goes on
    from a shape that is still there and can be scaled to the children of the shape, under the shape
    as it has become. -/
inductive Reaches (s : Snapshot α) (c : Canvas α) (t : Affine α) : ShapeId → Affine α → Prop
  | top {id : ShapeId} {m : Member α} (htop : id ∈ s.topLevel) (hm : s.get? id = some m) :
      Reaches s c t id m.parentPageTransform
  | child {id child : ShapeId} {m : Member α} {page : Affine α} {p : Patch α}
      (h : Reaches s c t id page) (hm : s.get? id = some m)
      (hthere : c.document.contains id = true) (hp : m.scale c.registry t page = .ok p)
      (hchild : child ∈ m.children) :
      Reaches s c t child (page * (m.shape.patch p).localTransform)

/-- The patch makes a shape that the resize gets to what it is to become. -/
inductive Scales (s : Snapshot α) (c : Canvas α) (t : Affine α) : Patch α → Prop
  | intro {id : ShapeId} {m : Member α} {page : Affine α} {p : Patch α}
      (h : s.Reaches c t id page) (hm : s.get? id = some m)
      (hthere : c.document.contains id = true) (hp : m.scale c.registry t page = .ok p) :
      Scales s c t p

/-- What is wrong with a shape that the resize gets to: it is gone, or it cannot be scaled under what
    its parent has become. -/
inductive Fails (s : Snapshot α) (c : Canvas α) (t : Affine α) : TransformError → Prop
  | gone {id : ShapeId} {m : Member α} {page : Affine α} (h : s.Reaches c t id page)
      (hm : s.get? id = some m) (hgone : c.document.contains id = false) :
      Fails s c t (.shapeNotFound id)
  | unscalable {id : ShapeId} {m : Member α} {page : Affine α} {e : TransformError}
      (h : s.Reaches c t id page) (hm : s.get? id = some m)
      (hthere : c.document.contains id = true) (he : m.scale c.registry t page = .error e) :
      Fails s c t e

variable {s : Snapshot α} {d : Document α} {c c' : Canvas α} {t : Affine α} {id : ShapeId}
  {m : Member α} {page : Affine α}

/-- What holds of the page transforms at the top and is kept by placing shapes under each other holds
    wherever the resize gets to. -/
theorem Reaches.keeps {P : Affine α → Prop} (h : s.Reaches c t id page)
    (htop : ∀ id m, s.get? id = some m → P m.parentPageTransform)
    (hstep : ∀ page (shape : Shape α), P page → P (page * shape.localTransform)) : P page := by
  induction h with
  | top _ hm => exact htop _ _ hm
  | child _ _ _ _ _ ih => exact hstep _ _ ih

/-- A captured shape that the resize gets to fails, or is still there and is scaled. -/
theorem Reaches.fails_or_scales (h : s.Reaches c t id page) (hs : s.Keyed)
    (hm : s.get? id = some m) : (∃ e : TransformError, e.id = id ∧ s.Fails c t e) ∨
      ∃ p, c.document.contains id = true ∧ m.scale c.registry t page = .ok p := by
  cases hc : c.document.contains id with
  | false => exact Or.inl ⟨_, rfl, .gone h hm hc⟩
  | true =>
      cases hscale : m.scale c.registry t page with
      | error e =>
          exact Or.inl ⟨e, (Member.id_of_scale_error hscale).trans (hs id m hm),
            .unscalable h hm hc hscale⟩
      | ok p => exact Or.inr ⟨p, rfl, rfl⟩

/-! ## No more than that -/

theorem Reaches.all_scaleSubtree (h : s.Reaches c t id page) (n : Nat) :
    (s.scaleSubtree c t n id page).All (s.Scales c t) (s.Fails c t) := by
  induction n generalizing id page with
  | zero => exact Outcome.all_empty
  | succ n ih =>
      cases hm : s.get? id with
      | none =>
          rw [scaleSubtree_eq_empty hm]
          exact Outcome.all_empty
      | some m =>
          obtain ⟨hgone, heq⟩ | ⟨e, hthere, he, heq⟩ | ⟨p, hthere, hp, heq⟩ :=
            scaleSubtree_cases hm t n page
          · rw [heq, Outcome.all_skip]
            exact .gone h hm hgone
          · rw [heq, Outcome.all_skip]
            exact .unscalable h hm hthere he
          · rw [heq, Outcome.all_append, Outcome.all_update, Outcome.all_concat_map]
            exact ⟨.intro h hm hthere hp, fun child hchild => ih (h.child hm hthere hp hchild)⟩

theorem all_scale (s : Snapshot α) (c : Canvas α) (t : Affine α) :
    (s.scale c t).All (s.Scales c t) (s.Fails c t) := by
  rw [scale, Outcome.all_concat_map]
  intro top htop
  cases hm : s.get? top with
  | none => exact Outcome.all_empty
  | some m => exact (Reaches.top htop hm).all_scaleSubtree _

theorem scales_of_mem_scale {p : Patch α} (hp : p ∈ (s.scale c t).updates) : s.Scales c t p :=
  (s.all_scale c t).updates p hp

theorem fails_of_mem_scale {e : TransformError} (he : e ∈ (s.scale c t).skipped) :
    s.Fails c t e :=
  (s.all_scale c t).skipped e he

namespace Reflects

variable (hs : s.Reflects d) (hkeyed : d.Keyed) (hshallow : d.Shallow)
include hs hkeyed hshallow

/-! ## No less than that -/

/-- Where the resize gets to, the walk goes down with levels enough for all that is inside, and what
    it finds there is in the outcome. -/
theorem exists_card_inside_le (h : s.Reaches c t id page) :
    ∃ n, (s.inside d id).card ≤ n ∧ (s.scaleSubtree c t n id page).All
      (· ∈ (s.scale c t).updates) (· ∈ (s.scale c t).skipped) := by
  induction h with
  | @top top m htop hm =>
      have hself : (s.scale c t).All (· ∈ (s.scale c t).updates) (· ∈ (s.scale c t).skipped) :=
        ⟨fun _ hp => hp, fun _ he => he⟩
      have hall := Outcome.all_concat_map.1 hself top htop
      rw [hm] at hall
      exact ⟨s.members.size, card_inside_le s d top, hall⟩
  | @child parent child m page p _ hm hthere hp hchild ih =>
      obtain ⟨n, hn, hall⟩ := ih
      have hless := card_inside_lt hshallow hm ((hs.mem_children_iff hkeyed hm).1 hchild)
      obtain ⟨n, rfl⟩ : ∃ k, n = k + 1 := ⟨n - 1, by omega⟩
      rw [scaleSubtree_of_ok hm hthere hp, Outcome.all_append, Outcome.all_concat_map] at hall
      exact ⟨n, by omega, hall.2 child hchild⟩

/-- In particular there is a level for the shape itself. -/
theorem exists_scaleSubtree_succ (h : s.Reaches c t id page) (hm : s.get? id = some m) :
    ∃ n, (s.scaleSubtree c t (n + 1) id page).All
      (· ∈ (s.scale c t).updates) (· ∈ (s.scale c t).skipped) := by
  obtain ⟨n, hn, hall⟩ := hs.exists_card_inside_le hkeyed hshallow h
  have hpos : 0 < (s.inside d id).card :=
    Finset.card_pos.2 ⟨id, mem_inside.2 ⟨⟨m, hm⟩, Document.Inside.refl d id⟩⟩
  obtain ⟨n, rfl⟩ : ∃ k, n = k + 1 := ⟨n - 1, by omega⟩
  exact ⟨n, hall⟩

/-- **The updates are the patches of what is scaled.** -/
theorem mem_updates_scale_iff {p : Patch α} : p ∈ (s.scale c t).updates ↔ s.Scales c t p := by
  refine ⟨scales_of_mem_scale, ?_⟩
  rintro ⟨h, hm, hthere, hp⟩
  obtain ⟨n, hall⟩ := hs.exists_scaleSubtree_succ hkeyed hshallow h hm
  rw [scaleSubtree_of_ok hm hthere hp, Outcome.all_append, Outcome.all_update] at hall
  exact hall.1

/-- **The reports are what fails.** -/
theorem mem_skipped_scale_iff {e : TransformError} :
    e ∈ (s.scale c t).skipped ↔ s.Fails c t e := by
  refine ⟨fails_of_mem_scale, ?_⟩
  rintro (⟨h, hm, hgone⟩ | ⟨h, hm, hthere, he⟩)
  · obtain ⟨n, hall⟩ := hs.exists_scaleSubtree_succ hkeyed hshallow h hm
    rw [scaleSubtree_of_gone hm hgone, Outcome.all_skip] at hall
    exact hall
  · obtain ⟨n, hall⟩ := hs.exists_scaleSubtree_succ hkeyed hshallow h hm
    rw [scaleSubtree_of_error hm hthere he, Outcome.all_skip] at hall
    exact hall

/-! ## Two resizes -/

/-- A captured shape that nothing fails around, itself included, in either of two resizes gets the
    same patch from both. -/
theorem exists_scales_both (hagree : c.registry.AgreeFinite c'.registry)
    (hm : s.get? id = some m)
    (hout : ∀ e, s.Fails c t e ∨ s.Fails c' t e → ¬ d.Inside e.id id) :
    ∃ page p, s.Reaches c t id page ∧ s.Reaches c' t id page ∧
      c.document.contains id = true ∧ c'.document.contains id = true ∧
      m.scale c.registry t page = .ok p ∧ m.scale c'.registry t page = .ok p := by
  induction id using hshallow.induction generalizing m with
  | step id ih =>
      -- what is around the parent is around the shape
      have hreach : ∃ page, s.Reaches c t id page ∧ s.Reaches c' t id page := by
        rcases hs.above id m hm with htop | ⟨parent, m', hp, hm'⟩
        · exact ⟨_, .top htop hm, .top htop hm⟩
        · obtain ⟨page, p, h, h', hthere, hthere', hscale, hscale'⟩ := ih parent hp hm'
            fun e he hinside => hout e he (hshallow.inside_of_parentId? hp hinside)
          have hchild := (hs.mem_children_iff hkeyed hm').2 hp
          exact ⟨_, h.child hm' hthere hscale hchild, h'.child hm' hthere' hscale' hchild⟩
      obtain ⟨page, h, h'⟩ := hreach
      have hself : ∀ e : TransformError, e.id = id → ¬ (s.Fails c t e ∨ s.Fails c' t e) := by
        rintro e rfl he
        exact hout e he (Document.Inside.refl d e.id)
      obtain ⟨p, hthere, hscale⟩ := (h.fails_or_scales (hs.keyed hkeyed) hm).resolve_left
        fun ⟨e, hid, he⟩ => hself e hid (Or.inl he)
      obtain ⟨p', hthere', hscale'⟩ := (h'.fails_or_scales (hs.keyed hkeyed) hm).resolve_left
        fun ⟨e, hid, he⟩ => hself e hid (Or.inr he)
      obtain ⟨hresize, hfinite⟩ := Member.of_scale_eq_ok hscale
      obtain ⟨hresize', hfinite'⟩ := Member.of_scale_eq_ok hscale'
      obtain rfl : p = p' := by
        rw [hresize, hresize']
        exact hagree _ _ (hresize ▸ hfinite) (hresize' ▸ hfinite')
      exact ⟨page, p, h, h', hthere, hthere', hscale, hscale'⟩

end Reflects

end Snapshot

end CanvasTransform
