import CanvasTransform.Proofs.Document.Remainder
import CanvasTransform.Proofs.Editor.Replay
import CanvasTransform.Proofs.Session.Motion

set_option autoImplicit false

/-! # What a session touches

The batches of a session come from three sources: what the session asks for, what it restores because
it has written it before, and what the groups around all this ask for, which concerns their other
children too. The invariant `Session.Bounded` bounds what they write together. Whatever a session has
written is within the reach of its targets (`Document.Reach`), which is closed under letting groups
react; and turned or reshaped is only what the session itself may turn or reshape (`Session.Keeps`).

What the invariant comes to in terms of the selection is the *footprint* of the session
(`Document.Footprint`, `Document.Spared`). It is the same at every moment of the session and after
its end, and for a selection that is scaled or mirrored without a session. -/

namespace CanvasTransform

variable {α : Type}

/-! ## Footprints -/

namespace Document

/-- Whether the shape is a group above a selected shape. -/
def GroupAround (d : Document α) (selection : List ShapeId) (id : ShapeId) : Prop :=
  d.IsGroup id ∧ ∃ c ∈ selection, id ∈ d.ancestors c

/-- What a transform of the selection leaves of `d₀` in `d`, as far as the shapes are still there. -/
structure Footprint (d₀ : Document α) (selection : List ShapeId) (d : Document α) : Prop where
  /-- Identity, kind, parent and place among the siblings are what they were. -/
  stem : ∀ id shape, d.get? id = some shape →
    ∃ shape₀, d₀.get? id = some shape₀ ∧ shape.stem = shape₀.stem
  /-- A shape is what it was if it is neither captured, nor a group around the selection, nor a child
      of such a group. -/
  away : ∀ id shape, d.get? id = some shape → ¬ d₀.Captured selection id →
    ¬ d₀.GroupAround selection id → (∀ g, d₀.parentId? id = some g → ¬ d₀.GroupAround selection g) →
      d₀.get? id = some shape
  /-- A shape that is not captured has at most moved within its parent. -/
  around : ∀ id shape shape₀, d.get? id = some shape → d₀.get? id = some shape₀ →
    ¬ d₀.Captured selection id → shape = { shape₀ with x := shape.x, y := shape.y }

/-- What a session of the kind leaves alone beyond its footprint, if it moves its selection as one
    piece. -/
structure Spared (kind : SessionKind) (d₀ : Document α) (selection : List ShapeId)
    (d : Document α) : Prop where
  /-- A translation turns nothing, and a rotation only the top-level selected shapes. -/
  rotation : kind.isRigid = true → ∀ id shape shape₀, d.get? id = some shape →
    d₀.get? id = some shape₀ → (kind = .rotate → id ∉ d₀.topLevel selection) →
      shape.rotation = shape₀.rotation
  /-- No shape changes its form. -/
  form : kind.isRigid = true → ∀ id shape shape₀, d.get? id = some shape →
    d₀.get? id = some shape₀ → shape.form = shape₀.form
  /-- What lies inside a top-level selected shape is what it was. -/
  below : kind.isRigid = true → ∀ id shape, d.get? id = some shape →
    ∀ top ∈ d₀.topLevel selection, top ∈ d₀.ancestors id → d₀.get? id = some shape

section
variable {d₀ d d' : Document α} {selection : List ShapeId}

/-- Where every shape is what it was, nothing was touched. -/
theorem footprint_of_sub (h : ∀ id shape, d.get? id = some shape → d₀.get? id = some shape) :
    d₀.Footprint selection d where
  stem id shape hs := ⟨shape, h id shape hs, rfl⟩
  away id shape hs _ _ _ := h id shape hs
  around id shape shape₀ hs hs₀ _ := by
    obtain rfl : shape₀ = shape := Option.some.inj (hs₀.symm.trans (h id shape hs))
    rfl

theorem spared_of_sub (h : ∀ id shape, d.get? id = some shape → d₀.get? id = some shape)
    (kind : SessionKind) : Spared kind d₀ selection d := by
  have hsame : ∀ id shape shape₀, d.get? id = some shape → d₀.get? id = some shape₀ →
      shape = shape₀ := fun id shape shape₀ hs hs₀ =>
    Option.some.inj ((h id shape hs).symm.trans hs₀)
  refine ⟨fun _ id shape shape₀ hs hs₀ _ => ?_, fun _ id shape shape₀ hs hs₀ => ?_,
    fun _ id shape hs _ _ _ => h id shape hs⟩
  · rw [hsame id shape shape₀ hs hs₀]
  · rw [hsame id shape shape₀ hs hs₀]

theorem SameTree.groupAround_iff (h : d.SameTree d') {id : ShapeId} :
    d.GroupAround selection id ↔ d'.GroupAround selection id := by
  simp only [GroupAround, h.ancestors_eq]
  exact and_congr_left fun _ => ⟨h.isGroup, h.symm.isGroup⟩

/-- Transforms of the same selection, one after the other, have a footprint together. -/
theorem Footprint.trans (h : d₀.Footprint selection d) (htree : d.SameTree d₀)
    (h' : d.Footprint selection d') : d₀.Footprint selection d' where
  stem id shape hs := by
    obtain ⟨shape₁, hs₁, hstem₁⟩ := h'.stem id shape hs
    obtain ⟨shape₀, hs₀, hstem₀⟩ := h.stem id shape₁ hs₁
    exact ⟨shape₀, hs₀, hstem₁.trans hstem₀⟩
  away id shape hs hout hgroup hparent := by
    refine h.away id shape (h'.away id shape hs ?_ ?_ fun g hg => ?_) hout hgroup hparent
    · rwa [htree.captured_iff]
    · rwa [htree.groupAround_iff]
    · rw [htree.groupAround_iff]
      exact hparent g (by rwa [← htree.parentId?_eq])
  around id shape shape₀ hs hs₀ hout := by
    obtain ⟨shape₁, hs₁, -⟩ := h'.stem id shape hs
    rw [h'.around id shape shape₁ hs hs₁ (by rwa [htree.captured_iff]),
      h.around id shape₁ shape₀ hs₁ hs₀ hout]

end

end Document

/-! ## Parts of a document -/

namespace Document

variable {d₀ d : Document α}

theorem PartOf.isGroup (h : d.PartOf d₀) {id : ShapeId} (hid : d.IsGroup id) : d₀.IsGroup id := by
  obtain ⟨s, hs, hk⟩ := hid
  obtain ⟨s₀, hs₀, hstem⟩ := h.stem id s hs
  exact ⟨s₀, hs₀, (Shape.kind_of_stem hstem).trans hk⟩

/-- What is left of a document reaches no further than the document did. -/
theorem PartOf.reach (h : d.PartOf d₀) {ids : List ShapeId} (hids : ∀ u ∈ ids, d.contains u = true)
    {id : ShapeId} (hid : d.Reach ids id) : d₀.Reach ids id := by
  refine hid.imp_right ?_
  rintro ⟨g, hgroup, ⟨u, hu, hg⟩, hor⟩
  refine ⟨g, h.isGroup hgroup, ⟨u, hu, by rwa [← h.ancestors_eq (hids u hu)]⟩,
    hor.imp_right fun hp => ?_⟩
  rwa [← h.parentId?_eq fun _ => ?_]
  obtain ⟨s, hs, -⟩ := parentId?_eq_some_iff.1 hp
  exact contains_of_get? hs

end Document

/-! ## The invariant -/

namespace Session

/-- The shape has the rotation and the form of `shape₀`, unless the session may change them. -/
structure Keeps (s : Session α) (shape₀ shape : Shape α) : Prop where
  rotation : shape.rotation = shape₀.rotation ∨ shape₀.id ∈ s.targets ∧ s.kind ≠ .translate
  form : shape.form = shape₀.form ∨ shape₀.id ∈ s.targets ∧ s.kind.isRigid = false

/-- The session can be undone, all that others did was to remove shapes, and what the session has
    written is within the reach of its targets, turned and reshaped only where it may be. -/
structure Bounded (s : Session α) (d₀ d : Document α) : Prop where
  undoable : s.Undoable d₀ d
  part : d.PartOf d₀
  reach : ∀ id, s.baseline.contains id = true → d₀.Reach s.targets id
  keeps : ∀ id shape shape₀, d.get? id = some shape → d₀.get? id = some shape₀ →
    s.Keeps shape₀ shape

variable {s s' : Session α} {d₀ d : Document α} {shape shape₀ : Shape α}

theorem Keeps.patch_restore (s : Session α) (shape₀ shape : Shape α) :
    s.Keeps shape₀ (shape.patch (Patch.restore shape₀)) := ⟨Or.inl rfl, Or.inl rfl⟩

/-- What the session may ask for changes nothing that it may not change. -/
theorem Keeps.patch (h : s.Keeps shape₀ shape) {p : Patch α} (hid : p.id = shape₀.id)
    (hp : s.Allows p ∨ p.rotation = none ∧ p.form = none) : s.Keeps shape₀ (shape.patch p) := by
  have hrotation : p.rotation = none → (shape.patch p).rotation = shape.rotation :=
    fun hnone => by rw [Shape.patch, hnone]; rfl
  have hform : p.form = none → (shape.patch p).form = shape.form :=
    fun hnone => by rw [Shape.patch, hnone]; rfl
  rcases hp with hp | ⟨hr, hf⟩
  · have htarget : shape₀.id ∈ s.targets := hid ▸ hp.target
    refine ⟨?_, ?_⟩
    · rcases hp.rotation with hnone | hkind
      · rw [hrotation hnone]; exact h.rotation
      · exact Or.inr ⟨htarget, hkind⟩
    · rcases hp.form with hnone | hkind
      · rw [hform hnone]; exact h.form
      · exact Or.inr ⟨htarget, hkind⟩
  · constructor
    · rw [hrotation hr]; exact h.rotation
    · rw [hform hf]; exact h.form

/-- A fresh session has written nothing. -/
theorem bounded_start {kind : SessionKind} {origin : Point α} {flags : Flags}
    {snapshot : Snapshot α} (h : ∀ shape ∈ snapshot.shapes, d.get? shape.id = some shape) :
    (start kind origin flags snapshot).Bounded d d where
  undoable := undoable_start h
  part := Document.PartOf.refl d
  reach id hid := by
    rw [Document.contains, show (start kind origin flags snapshot).baseline = Document.empty from rfl,
      Document.get?_empty] at hid
    exact Bool.noConfusion hid
  keeps id shape shape₀ hs hs₀ := by
    obtain rfl := Option.some.inj (hs.symm.trans hs₀)
    exact ⟨Or.inl rfl, Or.inl rfl⟩

theorem Bounded.of_work (h : s.Bounded d₀ d) (hkind : s'.kind = s.kind)
    (hsnapshot : s'.snapshot = s.snapshot) (hbaseline : s'.baseline = s.baseline) :
    s'.Bounded d₀ d := by
  have htargets : s'.targets = s.targets := by rw [targets, targets, hkind, hsnapshot]
  refine ⟨h.undoable.of_work hsnapshot hbaseline, h.part, ?_, fun id shape shape₀ hs hs₀ => ?_⟩
  · rw [hbaseline, htargets]
    exact h.reach
  · obtain ⟨hrotation, hform⟩ := h.keeps id shape shape₀ hs hs₀
    constructor <;> rwa [htargets, hkind]

theorem Bounded.remove {store : Store α} (h : s.Bounded d₀ store.document) (hd₀ : d₀.Keyed)
    (id : ShapeId) : s.Bounded d₀ (store.remove id).2.document where
  undoable := h.undoable.remove id
  part := h.part.remove (h.part.keyed hd₀) id
  reach := h.reach
  keeps id' shape shape₀ hs hs₀ := by
    rw [Store.get?_remove] at hs
    split at hs
    · exact nomatch hs
    · exact h.keeps id' shape shape₀ hs hs₀

/-! ## Committing -/

variable [Scalar α]

/-- Whatever a session may ask for, all that a commit writes is what the session has written before,
    what it asks for, and moves of what these reach. -/
theorem Bounded.commit {store : Store α} (h : s.Bounded d₀ store.document) (hd₀ : d₀.Keyed)
    (hshallow : d₀.Shallow) {updates : List (Patch α)} (hupdates : ∀ p ∈ updates, s.Allows p) :
    (s.commit Registry.builtin store updates).1.Bounded d₀
      (s.commit Registry.builtin store updates).2.document := by
  set written := s.baseline.toList.map Patch.restore ++ updates with hwritten
  have hd := h.part.keyed hd₀
  have hdshallow := h.part.shallow hshallow
  have htree : (s.commit Registry.builtin store updates).2.document.SameTree store.document :=
    store.update_sameTree _
  -- what is restored and updated is within reach, so what follows from it is
  have hreached : ∀ u ∈ store.document.reached written, d₀.Reach s.targets u := by
    intro u hu
    obtain ⟨hu, -⟩ := Document.mem_reached_iff.1 hu
    rw [hwritten, List.map_append] at hu
    rcases List.mem_append.1 hu with hu | hu
    · exact h.reach u (h.undoable.contains_of_mem_restore hd₀ hu)
    · obtain ⟨p, hp, rfl⟩ := List.mem_map.1 hu
      exact Or.inl (hupdates p hp).target
  refine ⟨h.undoable.commit hd₀ _ _, htree.partOf h.part, fun id hid => ?_,
    fun id shape shape₀ hs hs₀ => ?_⟩
  · rcases s.contains_recordBaseline hd hid with hid | ⟨hid, -⟩
    · exact h.reach id hid
    · have hreach := h.part.reach (fun u hu => (Document.mem_reached_iff.1 hu).2)
        (Canvas.reach_of_mem_batch hd hdshallow hid)
      exact hshallow.reach_trans hreach hreached
  · have hcommit : (s.commit Registry.builtin store updates).2.document.Agree
        (store.document.patchAll (store.document.changes Registry.builtin written)) := by
      rw [← Document.settle_eq]
      exact store.commit_agree Registry.builtin written
    rw [hcommit id, Document.get?_patchAll, Option.map_eq_some_iff] at hs
    obtain ⟨old, hold, rfl⟩ := hs
    have hid₀ := hd₀ id shape₀ hs₀
    have hkeeps : s.Keeps shape₀ (old.patchAll (Document.patchesFor
        (store.document.changes Registry.builtin written) id)) := by
      refine Shape.patchAll_induction (h.keeps id old shape₀ hold hs₀) fun p hp shape hshape => ?_
      obtain ⟨hp, hid⟩ := Document.mem_patchesFor.1 hp
      rcases Document.moves_of_mem_changes hd hdshallow hp with hp | ⟨-, hfields⟩
      · rw [hwritten] at hp
        rcases List.mem_append.1 hp with hp | hp
        · obtain ⟨shape₁, hs₁, rfl⟩ := h.undoable.restores_of_mem_baseline hd₀ hp
          rw [hid, hs₀] at hs₁
          rw [← Option.some.inj hs₁]
          exact Keeps.patch_restore s shape₀ shape
        · exact hshape.patch (hid.trans hid₀.symm) (Or.inl (hupdates p hp))
      · exact hshape.patch (hid.trans hid₀.symm) (Or.inr hfields)
    exact ⟨hkeeps.rotation, hkeeps.form⟩

/-! ## From the invariant to the footprint -/

section
omit [Scalar α]

variable {selection : List ShapeId}

/-- A shape out of the reach of the targets is what it was. -/
theorem Bounded.get?_of_not_reach (h : s.Bounded d₀ d) {id : ShapeId} (hs : d.get? id = some shape)
    (hout : ¬ d₀.Reach s.targets id) : d₀.get? id = some shape := by
  refine h.undoable.untouched id shape hs (Document.get?_of_not_contains fun hc => ?_)
  exact hout (h.reach id hc)

/-- What is within the reach of the targets and not captured is a group around the selection, or a
    child of one. -/
theorem groupAround_of_reach (hshallow : d₀.Shallow)
    (hcaptured : ∀ id, s.snapshot.contains id = true → d₀.Captured selection id) {id : ShapeId}
    (hid : d₀.Reach s.targets id) (hout : ¬ d₀.Captured selection id) :
    ∃ g, d₀.GroupAround selection g ∧ (id = g ∨ d₀.parentId? id = some g) := by
  rcases hid with hid | ⟨g, hgroup, ⟨a, ha, hg⟩, hor⟩
  · exact absurd (hcaptured id (contains_of_mem_targets hid)) hout
  · obtain ⟨hrooted, top, htop, hinside⟩ := hcaptured a (contains_of_mem_targets ha)
    refine ⟨g, ⟨hgroup, top, (Document.mem_topLevel_iff.1 htop).1, ?_⟩, hor⟩
    -- a group inside the selection would have been captured, and the shape along with it
    refine (hshallow.inside_or_above hg hinside).resolve_left fun hinside => hout ?_
    have hrooted := hrooted.above (hshallow.above_iff.2 hg)
    rcases hor with rfl | hp
    · exact ⟨hrooted, top, htop, hinside⟩
    · exact ⟨hrooted.child hp, top, htop, hshallow.inside_of_parentId? hp hinside⟩

/-- **A session stays within the footprint of its selection.** -/
theorem Bounded.footprint (h : s.Bounded d₀ d) (hd₀ : d₀.Keyed) (hshallow : d₀.Shallow)
    (hcaptured : ∀ id, s.snapshot.contains id = true → d₀.Captured selection id) :
    d₀.Footprint selection d where
  stem id shape hs := by
    obtain ⟨shape₀, hs₀, hstem⟩ := h.undoable.stems id shape hs
    exact ⟨shape₀, hs₀, hstem.symm⟩
  away id shape hs hout hgroup hparent := by
    refine h.get?_of_not_reach hs fun hreach => ?_
    obtain ⟨g, hg, rfl | hp⟩ := groupAround_of_reach hshallow hcaptured hreach hout
    · exact hgroup hg
    · exact hparent g hp hg
  around id shape shape₀ hs hs₀ hout := by
    obtain ⟨hrotation, hform⟩ := h.keeps id shape shape₀ hs hs₀
    obtain ⟨shape₁, hs₁, hstem⟩ := h.undoable.stems id shape hs
    obtain rfl : shape₁ = shape₀ := Option.some.inj (hs₁.symm.trans hs₀)
    have hnot : shape₁.id ∉ s.targets := by
      rw [hd₀ id shape₁ hs₀]
      exact fun hid => hout (hcaptured id (contains_of_mem_targets hid))
    rw [or_iff_left fun hand => hnot hand.1] at hrotation hform
    cases shape
    cases shape₁
    simp only [Shape.stem, Prod.mk.injEq] at hstem
    obtain ⟨rfl, rfl, rfl, rfl⟩ := hstem
    simp only at hrotation hform
    rw [hrotation, hform]

/-- **A session that moves its selection as one piece** turns at most the top-level shapes, and writes
    nothing inside them. -/
theorem Bounded.spared (h : s.Bounded d₀ d) (hd₀ : d₀.Keyed) (hshallow : d₀.Shallow)
    (htop : s.snapshot.topLevel = d₀.topLevel selection) :
    Document.Spared s.kind d₀ selection d where
  rotation hrigid id shape shape₀ hs hs₀ hout := by
    refine (h.keeps id shape shape₀ hs hs₀).rotation.resolve_right fun ⟨hid, hkind⟩ => ?_
    rw [hd₀ id shape₀ hs₀] at hid
    refine hout ?_ (htop ▸ mem_topLevel_of_mem_targets hrigid hid)
    cases hk : s.kind with
    | rotate => rfl
    | translate => exact absurd hk hkind
    | resize handle => rw [hk] at hrigid; exact Bool.noConfusion hrigid
  form hrigid id shape shape₀ hs hs₀ := by
    refine (h.keeps id shape shape₀ hs hs₀).form.resolve_right fun ⟨_, hkind⟩ => ?_
    rw [hrigid] at hkind
    exact Bool.noConfusion hkind
  below hrigid id shape hs top htop' habove := by
    refine h.get?_of_not_reach hs fun hreach => ?_
    -- above what is reached there is only what is above a top-level shape, or the shape is one itself
    have hselected := (Document.mem_topLevel_iff.1 htop').1
    obtain ⟨a, ha, hmem⟩ := hshallow.exists_of_reach hreach habove
    have htopa : a ∈ d₀.topLevel selection := htop ▸ mem_topLevel_of_mem_targets hrigid ha
    exact (Document.mem_topLevel_iff.1 htopa).2.2 top hmem hselected

end

end Session

/-! ## Runs -/

section
variable [Scalar α] {e : Editor α} {store : Store α} {kind : SessionKind} {snapshot : Snapshot α}
  {d₀ : Document α} {state : Editor α × Store α}

/-- A session of the kind and the snapshot is running, and has stayed within its bounds. -/
structure Editor.Bounding (kind : SessionKind) (snapshot : Snapshot α) (d₀ : Document α)
    (state : Editor α × Store α) : Prop where
  registry : state.1.registry = Registry.builtin
  session : ∃ s, state.1.session? = some s ∧ s.kind = kind ∧ s.snapshot = snapshot ∧
    s.Bounded d₀ state.2.document

namespace Interim

/-- A step that steers the session commits what the session may ask for, and of the other steps only
    a removal writes. -/
theorem bounding_run (hd₀ : d₀.Keyed) (hshallow : d₀.Shallow) (hsnapshot : snapshot.Keyed)
    (h : Editor.Bounding kind snapshot d₀ state) (step : Interim α) :
    Editor.Bounding kind snapshot d₀ (step.run state) := by
  obtain ⟨e, store⟩ := state
  obtain ⟨hregistry, s, hi, rfl, rfl, hbounded⟩ := h
  cases hsteer : step.steer? e.config s with
  | some s' =>
      obtain ⟨hkind, -, hsame, hbaseline⟩ := steer?_keeps hsteer
      rw [run_of_steer hi hsteer, Editor.recompute_eq hregistry]
      refine ⟨hregistry, _, Editor.session?_setSession hi _, hkind, hsame, ?_⟩
      refine (hbounded.of_work hkind hsame hbaseline).commit hd₀ hshallow fun p hp => ?_
      rw [Editor.updateOf, Editor.canvas, hregistry] at hp
      exact Session.allows_of_mem_update (hsame ▸ hsnapshot) hp
  | none =>
      obtain ⟨⟨s', hi', hwork⟩, hregistry', -, hstore⟩ := run_of_not_steer store hi hsteer
      have hbounded' := hbounded.of_work hwork.kind hwork.snapshot hwork.baseline
      refine ⟨hregistry'.trans hregistry, s', hi', hwork.kind, hwork.snapshot, ?_⟩
      rcases hstore with hstore | ⟨id, -, hstore⟩
      · rw [hstore]; exact hbounded'
      · rw [hstore]; exact hbounded'.remove hd₀ id

theorem bounding_runAll (hd₀ : d₀.Keyed) (hshallow : d₀.Shallow) (hsnapshot : snapshot.Keyed)
    (h : Editor.Bounding kind snapshot d₀ state) (steps : List (Interim α)) :
    Editor.Bounding kind snapshot d₀ (runAll state steps) := by
  induction steps generalizing state with
  | nil => exact h
  | cons step steps ih => exact ih (bounding_run hd₀ hshallow hsnapshot h step)

end Interim

/-- However a session ends, the store is left as it is or with every shape as it was. -/
theorem Ending.document_run {s : Session α} (h : state.1.session? = some s)
    (hundo : s.Undoable d₀ state.2.document) (hd₀ : d₀.Keyed) (ending : Ending α) :
    (ending.run state).2.document.SameTree state.2.document ∧
      ((ending.run state).2.document = state.2.document ∨
        ∀ id shape, (ending.run state).2.document.get? id = some shape →
          d₀.get? id = some shape) := by
  obtain ⟨e, store⟩ := state
  rw [ending.run_eq h store]
  cases ending with
  | release p m => exact ⟨Document.SameTree.refl _, Or.inl rfl⟩
  | complete => exact ⟨Document.SameTree.refl _, Or.inl rfl⟩
  | abort a => exact ⟨store.update_sameTree _, Or.inr fun id shape hs => hundo.revert hd₀ hs⟩

/-! ## Scaling without a session -/

/-- Whether a step scales or mirrors the selection in one go. -/
def Interim.isScaling : Interim α → Bool
  | .resizeSelection _ _ | .flipHorizontal | .flipVertical => true
  | _ => false

/-- Scaling the selection in one go is what a fresh resize session commits. -/
theorem Editor.footprint_resizeSelection (hregistry : e.registry = Registry.builtin)
    (hkeyed : store.document.Keyed) (hshallow : store.document.Shallow) (factors : Vec α)
    (origin : ScaleOrigin α) :
    (e.resizeSelection store factors origin).2.document.SameTree store.document ∧
      store.document.Footprint e.selection (e.resizeSelection store factors origin).2.document := by
  have hsame : store.document.Footprint e.selection store.document :=
    Document.footprint_of_sub fun _ _ hs => hs
  rw [resizeSelection]
  split
  · exact ⟨Document.SameTree.refl _, hsame⟩
  · cases hcapture : e.capture? store.document with
    | none => exact ⟨Document.SameTree.refl _, hsame⟩
    | some snapshot =>
        have hsnapshot : snapshot.Keyed := Canvas.keyed_capture? hcapture hkeyed
        have hstart : (Session.start (.resize .rotate) Point.origin Modifiers.none.flags
            snapshot).Bounded store.document store.document :=
          Session.bounded_start fun _ hshape => Canvas.get?_of_mem_shapes hcapture hkeyed hshape
        rw [canvas, hregistry]
        refine ⟨store.update_sameTree _, Session.Bounded.footprint (hstart.commit hkeyed hshallow
          fun p hp => Session.allows_of_mem_scale rfl hsnapshot hp) hkeyed hshallow fun id hid => ?_⟩
        exact (Canvas.contains_iff_captured hkeyed hshallow hcapture).1 hid

theorem Interim.footprint_runAll (hregistry : e.registry = Registry.builtin)
    (hkeyed : store.document.Keyed) (hshallow : store.document.Shallow) {calls : List (Interim α)}
    (hcalls : ∀ call ∈ calls, call.isScaling = true) :
    (runAll (e, store) calls).2.document.SameTree store.document ∧
      store.document.Footprint e.selection (runAll (e, store) calls).2.document := by
  induction calls generalizing store with
  | nil => exact ⟨Document.SameTree.refl _, Document.footprint_of_sub fun _ _ hs => hs⟩
  | cons call calls ih =>
      obtain ⟨factors, origin, hcall⟩ : ∃ factors origin,
          call.run (e, store) = (e, (e.resizeSelection store factors origin).2) := by
        cases call with
        | resizeSelection factors origin => exact ⟨factors, origin, rfl⟩
        | flipHorizontal => exact ⟨_, _, rfl⟩
        | flipVertical => exact ⟨_, _, rfl⟩
        | _ => exact Bool.noConfusion (hcalls _ List.mem_cons_self)
      have hcons : runAll (e, store) (call :: calls) =
          runAll (e, (e.resizeSelection store factors origin).2) calls := by
        rw [← hcall]
        rfl
      obtain ⟨htree, hfootprint⟩ :=
        Editor.footprint_resizeSelection hregistry hkeyed hshallow factors origin
      obtain ⟨htree', hfootprint'⟩ := ih (htree.keyed hkeyed) (htree.shallow hshallow) fun c hc =>
        hcalls c (List.mem_cons_of_mem _ hc)
      rw [hcons]
      exact ⟨htree'.trans htree, hfootprint.trans htree hfootprint'⟩

/-! ## Everything that transforms the selection -/

/-- **What is transformed stays within the footprint of the selection.** However a session was opened,
    at every moment while it is running and when it has ended in any way, no shape that is left has
    another identity, kind, parent or place among its siblings than before. A shape that is neither
    captured, nor a group above a selected shape, nor a child of such a group is what it was, record
    for record, and a shape that is not captured has at most moved within its parent. A translation
    turns and reshapes nothing, a rotation reshapes nothing and turns only the top-level selected
    shapes, and neither changes what lies inside these at all. No shape gets lost unless others remove
    it. It is the same, but for what is said of translations and rotations, when the selection is
    scaled and mirrored any number of times without a session. -/
theorem Editor.stays_in_footprint (hregistry : e.registry = Registry.builtin)
    (hkeyed : store.document.Keyed) (hshallow : store.document.Shallow)
    (hbefore : e.phase.isSession = false) :
    (∀ opening : Opening α, (opening.run (e, store)).1.phase.isSession = true →
      ∃ s, (opening.run (e, store)).1.session? = some s ∧
        e.capture? store.document = some s.snapshot ∧
        (∀ id, s.snapshot.contains id = true ↔ store.document.Captured e.selection id) ∧
        ∀ steps d, d = (Interim.runAll (opening.run (e, store)) steps).2.document ∨
            (∃ ending : Ending α,
              d = (ending.run (Interim.runAll (opening.run (e, store)) steps)).2.document) →
          store.document.Footprint e.selection d ∧
          Document.Spared s.kind store.document e.selection d ∧
          ((∀ step ∈ steps, step.isRemoval = false) → d.SameTree store.document)) ∧
    ∀ calls : List (Interim α), (∀ call ∈ calls, call.isScaling = true) →
      store.document.Footprint e.selection (Interim.runAll (e, store) calls).2.document ∧
      (Interim.runAll (e, store) calls).2.document.SameTree store.document := by
  refine ⟨fun opening hopen => ?_, fun calls hcalls =>
    (Interim.footprint_runAll hregistry hkeyed hshallow hcalls).symm⟩
  obtain ⟨kind, origin, flags, snapshot, hcapture, hrun⟩ := Opening.run_eq hbefore hopen
  have hsnapshot : snapshot.Keyed := Canvas.keyed_capture? hcapture hkeyed
  have hcaptured : ∀ id, snapshot.contains id = true ↔ store.document.Captured e.selection id :=
    fun id => Canvas.contains_iff_captured hkeyed hshallow hcapture
  have htop : snapshot.topLevel = store.document.topLevel e.selection :=
    (Canvas.get?_capture? hcapture 0).1
  have hstart : Editor.Bounding kind snapshot store.document
      (e.withSession kind origin flags snapshot, store) :=
    ⟨hregistry, _, Editor.session?_withSession e kind origin flags snapshot, rfl, rfl,
      Session.bounded_start fun _ hshape => Canvas.get?_of_mem_shapes hcapture hkeyed hshape⟩
  have hopened := Interim.bounding_runAll hkeyed hshallow hsnapshot hstart opening.lead
  rw [← hrun] at hopened
  obtain ⟨s, hi, rfl, rfl, -⟩ := hopened.session
  refine ⟨s, hi, hcapture, hcaptured, fun steps d hd => ?_⟩
  obtain ⟨t, hi', hkind, ht, hbounded⟩ :=
    (Interim.bounding_runAll hkeyed hshallow hsnapshot hopened steps).session
  have hfootprint := hbounded.footprint hkeyed hshallow fun id hid => (hcaptured id).1 (ht ▸ hid)
  have hspared := hbounded.spared hkeyed hshallow (ht ▸ htop)
  rw [hkind] at hspared
  have htree : (∀ step ∈ steps, step.isRemoval = false) →
      (Interim.runAll (opening.run (e, store)) steps).2.document.SameTree store.document :=
    fun hsteps => Opening.sameTree_runAll hkeyed hbefore hopen hsteps
  rcases hd with rfl | ⟨ending, rfl⟩
  · exact ⟨hfootprint, hspared, htree⟩
  · obtain ⟨hended, hsame | hsub⟩ := Ending.document_run hi' hbounded.undoable hkeyed ending
    · rw [hsame]
      exact ⟨hfootprint, hspared, htree⟩
    · exact ⟨Document.footprint_of_sub hsub, Document.spared_of_sub hsub _,
        fun hsteps => hended.trans (htree hsteps)⟩

end

/-- A rectangle in a group is dragged, and then, from the same document, mirrored and scaled. The note
    beside them is what it was. -/
theorem Editor.stays_in_footprint_beside_note :
    let d : Document Binary64 := ((Document.empty.put (Shape.group 1 5.0 5.0)).put
      ((Shape.rectangle 2 0 0 10.0 10.0).withParent (.shape 1))).put
        (Shape.note 3 40.0 40.0 8.0 8.0)
    let e : Editor Binary64 := { Editor.initial Config.standard with selection := [2] }
    let opening : Opening Binary64 := .begin .translate ⟨5.0, 5.0⟩ Modifiers.none
    let steps : List (Interim Binary64) := [.move ⟨25.0, 5.0⟩ Modifiers.none, .tick 3,
      .move ⟨30.0, 45.0⟩ Modifiers.shiftOnly]
    let calls : List (Interim Binary64) := [.flipHorizontal, .resizeSelection ⟨2.0, 3.0⟩ .center]
    let dragged := (Ending.complete.run (Interim.runAll (opening.run (e, ⟨d, []⟩)) steps)).2.document
    let scaled := (Interim.runAll (e, ⟨d, []⟩) calls).2.document
    e.registry = Registry.builtin ∧ d.Keyed ∧ d.Shallow ∧ e.phase.isSession = false ∧
      (opening.run (e, ⟨d, []⟩)).1.phase.isSession = true ∧
      dragged.get? 3 = d.get? 3 ∧ scaled.get? 3 = d.get? 3 := by
  intro d e opening steps calls dragged scaled
  have hopen : (opening.run (e, ⟨d, []⟩)).1.phase.isSession = true := by
    clear scaled dragged calls steps
    decide +kernel +revert
  have hkeyed : d.Keyed := ((Document.keyed_empty.put _).put _).put _
  have hshallow : d.Shallow := by
    refine hkeyed.shallow ?_
    clear hopen hkeyed scaled dragged calls steps opening e
    decide +kernel +revert
  have htop : d.topLevel e.selection = [2] := by
    clear hopen hkeyed hshallow scaled dragged calls steps opening
    decide +kernel +revert
  have habove : d.ancestors 2 = [1] ∧ d.ancestors 3 = [] ∧ d.parentId? 3 = none := by
    clear hopen hkeyed hshallow htop scaled dragged calls steps opening e
    decide +kernel +revert
  -- the note lies on the page, away from the selection
  have haway : ∀ {d' : Document Binary64}, d.Footprint e.selection d' → d'.SameTree d →
      d'.get? 3 = d.get? 3 := by
    intro d' hfootprint htree
    have hnote : d.get? 3 = some (Shape.note 3 40.0 40.0 8.0 8.0) := rfl
    obtain ⟨note, hnote', -⟩ := htree.symm.get? hnote
    rw [hnote']
    refine (hfootprint.away 3 note hnote' ?_ ?_ ?_).symm
    · rintro ⟨-, top, htop', hinside⟩
      rw [htop, List.mem_singleton] at htop'
      rw [htop', Document.Inside, habove.2.1] at hinside
      simp at hinside
    · rintro ⟨-, c, hc, hmem⟩
      rw [List.mem_singleton.1 hc, habove.1] at hmem
      simp at hmem
    · intro g hg
      rw [habove.2.2] at hg
      cases hg
  have hmain := @Editor.stays_in_footprint Binary64 _ e ⟨d, []⟩ rfl hkeyed hshallow rfl
  obtain ⟨s, -, -, -, hsession⟩ := hmain.1 opening hopen
  obtain ⟨hdragged, -, htree⟩ := hsession steps dragged (Or.inr ⟨.complete, rfl⟩)
  obtain ⟨hscaled, htree'⟩ := hmain.2 calls (by simp [calls, Interim.isScaling])
  exact ⟨rfl, hkeyed, hshallow, rfl, hopen,
    haway hdragged (htree (by simp [steps, Interim.isRemoval])), haway hscaled htree'⟩

/-- **A group that is selected along with a shape in it turns.** It lies above a selected shape, but it
    is captured itself, as the top-level shape that the selection comes to. -/
theorem Editor.selected_group_turns :
    let d : Document ℝ := (Document.empty.put (Shape.group 1 (-5) (-5))).put
      ((Shape.rectangle 2 0 0 10 10).withParent (.shape 1))
    let e : Editor ℝ := { Editor.initial Config.standard with selection := [1, 2] }
    let opening : Opening ℝ := .begin .rotate ⟨20, 0⟩ Modifiers.none
    let after := (Interim.runAll (opening.run (e, ⟨d, []⟩))
      [.move ⟨0, 20⟩ Modifiers.none]).2.document
    d.Keyed ∧ d.Shallow ∧ (opening.run (e, ⟨d, []⟩)).1.phase.isSession = true ∧
      d.GroupAround e.selection 1 ∧
      ∃ shape₀ shape, d.get? 1 = some shape₀ ∧ after.get? 1 = some shape ∧
        shape.rotation ≠ shape₀.rotation := by
  intro d e opening after
  have hopen : (opening.run (e, ⟨d, []⟩)).1.phase.isSession = true := by decide +kernel +revert
  have hkeyed : d.Keyed := (Document.keyed_empty.put _).put _
  have hshallow : d.Shallow := Document.shallow_put_put rfl rfl (by decide)
  have hgroup : d.get? 1 = some (Shape.group 1 (-5) (-5)) := rfl
  have htop : d.topLevel e.selection = [1] ∧ (1 : ShapeId) ∈ d.ancestors 2 := by
    clear hopen hkeyed hshallow hgroup after opening
    decide +kernel +revert
  have hchildren : d.children (.shape 1) = [2] := by
    have hstems : (d.shapes.toList.map fun shape => (shape.1, shape.2.stem)).filter
        (·.2.2.2.1 = Parent.shape 1) = [(2, 2, Kind.rectangle, Parent.shape 1, 0)] := by
      clear hopen hkeyed hshallow hgroup htop after opening e
      decide +kernel +revert
    rw [Document.children_eq, hstems, List.map_singleton, List.mergeSort_singleton]
    rfl
  have haround : d.GroupAround e.selection 1 :=
    ⟨⟨Shape.group 1 (-5) (-5), hgroup, rfl⟩, 2, by simp [e], htop.2⟩
  refine ⟨hkeyed, hshallow, hopen, haround, ?_⟩
  obtain ⟨snapshot, hcapture, hbegin⟩ := Editor.beginSession_of_isSession rfl hopen
  have hcaptured : snapshot.contains 1 = true :=
    (Canvas.contains_iff_captured hkeyed hshallow hcapture).2
      ⟨.shape hgroup .page, 1, htop.1 ▸ List.mem_singleton_self 1, Or.inl rfl⟩
  have hpage : d.pageTransform? 1 = some (Affine.placement (-5) (-5) 0) := by
    rw [hshallow.pageTransform?_eq, hgroup]
    rfl
  -- the middle of the selection is the origin of the page
  have hbounds : Registry.builtin.bounds d (Shape.group 1 (-5) (-5)) = ⟨0, 0, 10, 10⟩ := by
    have hrectangle : d.get? 2 = some ((Shape.rectangle 2 0 0 10 10).withParent (.shape 1)) := rfl
    have hwrapped : Registry.builtin.bounds d (Shape.group 1 (-5) (-5)) =
        (⟨0, 0, 10, 10⟩ : Rect ℝ).transformedBounds (Affine.placement 0 0 0) := by
      show (Rect.unionAll? (((d.children (.shape 1)).filterMap d.get?).map _)).getD Rect.zero = _
      rw [hchildren, List.filterMap_cons_some hrectangle]
      rfl
    rw [hwrapped]
    simp [Rect.transformedBounds, Rect.ofPoints, Rect.unionPoint, Affine.apply, Affine.placement,
      Affine.translate, Affine.rotate_eq, Scalar.min_eq, Scalar.max_eq]
  have hcenter : snapshot.box.pageCenter = ⟨0, 0⟩ := by
    obtain ⟨htop', hbox, -⟩ := Canvas.get?_capture? hcapture 1
    rw [htop'.trans htop.1] at hbox
    rw [@Canvas.pageCenter_selectionBox? 1 ⟨d, Registry.builtin⟩ snapshot.box _ _ hgroup hpage
      (Affine.isRigid_placement _ _ _) hbox, hbounds]
    ext <;> simp [Rect.center, Affine.apply, Affine.placement, Affine.translate, Affine.rotate_eq] <;>
      norm_num
  -- so the pointer makes a quarter turn
  have hquarter : Real.cos (sweptAngle ⟨0, 0⟩ ⟨20, 0⟩ ⟨0, 20⟩ snapshot.box.rotation none) = 0 := by
    rw [@cos_sweptAngle _ _ _ 20 20 (by norm_num) (by norm_num) (by simp [Vec.dot])
      (by simp [Vec.dot])]
    simp [Vec.dot]
  obtain ⟨shape, hshape, hcos⟩ := @Editor.cos_rotation_handle_move e ⟨d, []⟩ snapshot rfl hkeyed
    hshallow hcapture ⟨20, 0⟩ ⟨0, 20⟩ Modifiers.none.flags Modifiers.none rfl 1 _ hcaptured hgroup rfl
  have hafter : after = ((e.withSession .rotate ⟨20, 0⟩ Modifiers.none.flags snapshot).handle
      ⟨d, []⟩ (.move ⟨0, 20⟩ Modifiers.none)).2.document := by
    simp only [after, opening, Opening.run, hbegin]
    rfl
  rw [← hafter] at hshape
  refine ⟨Shape.group 1 (-5) (-5), shape, hgroup, hshape, fun hsame => ?_⟩
  have hflat : (Shape.group (1 : ShapeId) (-5 : ℝ) (-5)).rotation = 0 := rfl
  rw [hsame, hflat, add_zero, hcenter, hquarter, Real.cos_zero] at hcos
  exact one_ne_zero hcos

end CanvasTransform
