import CanvasTransform.Proofs.Session.History
import CanvasTransform.Proofs.Transform.Motion

set_option autoImplicit false

/-! # Translations and rotations are motions of the page

A translation or a rotation session asks for one rigid motion of the page (`Session.motion?`). Each
time it is recomputed, the store is left with every captured shape moved by exactly that motion from
where it was when the session began, and with everything else where it was, but for the groups around
the selection, which fit themselves to what moved (`Document.Carried`).

A batch restores the baseline underneath its updates, so earlier moves do not add up. What earlier
moves and removals can change is which containers are refitted; the invariant `Session.Confined` says
that these are above the selection, where nothing is captured. -/

namespace CanvasTransform

/-! ## What a session asks for -/

/-- The cosine of the angle that the pointer swept, if its distance from the center was `k` at first
    and is `l` now. -/
theorem cos_sweptAngle {center start current : Point ℝ} {k l : ℝ} (hk : 0 < k) (hl : 0 < l)
    (hstart : (start - center).dot (start - center) = k * k)
    (hcurrent : (current - center).dot (current - center) = l * l) (initial : ℝ) :
    Real.cos (sweptAngle center start current initial none) =
      (current - center).dot (start - center) / (l * k) := by
  show Real.cos ((current - center).direction - (start - center).direction) = _
  unfold Vec.dot at hstart hcurrent
  rw [Real.cos_sub, Vec.direction, Vec.direction, Scalar.cos_atan2 hl hcurrent,
    Scalar.cos_atan2 hk hstart, Scalar.sin_atan2 hl hcurrent, Scalar.sin_atan2 hk hstart, Vec.dot,
    div_mul_div_comm, div_mul_div_comm, ← add_div]

namespace Session

/-- The motion of the page that the session asks for. A resize asks for none. -/
def motion? {α : Type} [Scalar α] (s : Session α) (config : Config α) (zoom : α) :
    Option (Affine α) :=
  match s.kind with
  | .resize _ => none
  | .rotate =>
    let center := s.snapshot.box.pageCenter
    let step := if s.flags.shift then some config.rotationSnapDegrees else none
    some (Affine.rotateAbout
      (sweptAngle center s.origin s.current s.snapshot.box.rotation step) center)
  | .translate => some (Affine.translate (s.snappedShift config zoom).1)

section
variable {s : Session ℝ} {config : Config ℝ} {zoom : ℝ} {d₀ : Document ℝ} {t : Affine ℝ}

theorem isRigid_iff_motion? : s.kind.isRigid = true ↔ ∃ t, s.motion? config zoom = some t := by
  rw [motion?]
  cases s.kind <;> simp [SessionKind.isRigid]

/-- What the session comes to is a move of the top-level shapes by the motion. -/
theorem exists_movesBy (hs : s.snapshot.Reflects d₀) (hkeyed : d₀.Keyed) (hshallow : d₀.Shallow)
    (ht : s.motion? config zoom = some t) :
    ∃ move, s.snapshot.MovesBy move t ∧
      ∀ c : Canvas ℝ, (s.update c config zoom).outcome = s.snapshot.moveEach c.document move := by
  rw [motion?] at ht
  simp only [update]
  cases hk : s.kind with
  | resize h => simp [hk] at ht
  | rotate =>
      simp only [hk, Option.some.injEq] at ht
      obtain rfl := ht
      exact ⟨_, Snapshot.movesBy_turn hs hkeyed hshallow (Affine.isRigid_rotateAbout _ _),
        fun _ => rfl⟩
  | translate =>
      simp only [hk, Option.some.injEq] at ht
      obtain rfl := ht
      exact ⟨_, Snapshot.movesBy_shift hs hkeyed hshallow _, fun _ => rfl⟩

end

/-! ## What a session writes lies around its selection -/

section
variable {α : Type} {s s' : Session α} {d₀ d : Document α}

/-- The session can be undone, all that others did was to remove shapes, and above what the session
    has written there is nothing that is not above the selection. -/
structure Confined (s : Session α) (d₀ d : Document α) : Prop where
  undoable : s.Undoable d₀ d
  part : d.PartOf d₀
  closed : ∀ id, s.baseline.contains id = true → ∀ a ∈ d₀.ancestors id,
    ∃ top ∈ s.snapshot.topLevel, a ∈ d₀.ancestors top

/-- A fresh session has written nothing. -/
theorem confined_start {kind : SessionKind} {origin : Point α} {flags : Flags}
    {snapshot : Snapshot α} (h : ∀ shape ∈ snapshot.shapes, d.get? shape.id = some shape) :
    (start kind origin flags snapshot).Confined d d where
  undoable := undoable_start h
  part := Document.PartOf.refl d
  closed id hid := by
    rw [Document.contains, show (start kind origin flags snapshot).baseline = Document.empty from rfl,
      Document.get?_empty] at hid
    exact Bool.noConfusion hid

theorem Confined.of_work (h : s.Confined d₀ d) (hsnapshot : s'.snapshot = s.snapshot)
    (hbaseline : s'.baseline = s.baseline) : s'.Confined d₀ d where
  undoable := h.undoable.of_work hsnapshot hbaseline
  part := h.part
  closed := by
    rw [hbaseline, hsnapshot]
    exact h.closed

theorem Confined.remove {store : Store α} (h : s.Confined d₀ store.document) (hd₀ : d₀.Keyed)
    (id : ShapeId) : s.Confined d₀ (store.remove id).2.document where
  undoable := h.undoable.remove id
  part := h.part.remove (h.part.keyed hd₀) id
  closed := h.closed

/-- Above what a batch restores and updates there is nothing that is not above the selection. -/
theorem Confined.exists_top (h : s.Confined d₀ d) (hd₀ : d₀.Keyed) {updates : List (Patch α)}
    (hids : ∀ p ∈ updates, p.id ∈ s.snapshot.topLevel) {u a : ShapeId}
    (hu : u ∈ (s.baseline.toList.map Patch.restore ++ updates).map (·.id))
    (hc : d.contains u = true) (ha : a ∈ d.ancestors u) :
    ∃ top ∈ s.snapshot.topLevel, a ∈ d₀.ancestors top := by
  rw [h.part.ancestors_eq hc] at ha
  rw [List.map_append] at hu
  rcases List.mem_append.1 hu with hu | hu
  · exact h.closed u (h.undoable.contains_of_mem_restore hd₀ hu) a ha
  · obtain ⟨p, hp, rfl⟩ := List.mem_map.1 hu
    exact ⟨p.id, hids p hp, ha⟩

variable [Scalar α]

/-- Committing updates of the top-level shapes keeps the session around its selection. -/
theorem Confined.commit {store : Store α} (h : s.Confined d₀ store.document) (hd₀ : d₀.Keyed)
    (hshallow : d₀.Shallow) {updates : List (Patch α)}
    (hids : ∀ p ∈ updates, p.id ∈ s.snapshot.topLevel) :
    (s.commit Registry.builtin store updates).1.Confined d₀
      (s.commit Registry.builtin store updates).2.document where
  undoable := h.undoable.commit hd₀ Registry.builtin updates
  part := (store.update_sameTree _).partOf h.part
  closed := by
    intro id hid a ha
    have hd := h.part.keyed hd₀
    rcases s.contains_recordBaseline hd hid with hid | ⟨hmem, hc⟩
    · exact h.closed id hid a ha
    · rw [← h.part.ancestors_eq hc] at ha
      obtain ⟨u, hu, huc, hau⟩ :=
        Canvas.exists_update_of_mem_batch hd (h.part.shallow hshallow) hmem ha
      exact h.exists_top hd₀ hids hu huc hau

end

end Session

/-! ## What a commit leaves on the page -/

/-- From `d₀` to `d`, the captured shapes that are still there have followed a motion of the page, and
    every other shape has its place on the page as before, unless it is a group around the
    selection. -/
structure Document.Carried (d₀ d : Document ℝ) (s : Snapshot ℝ) (t : Affine ℝ) : Prop where
  captured : ∀ id, s.contains id = true → d.contains id = true →
    ∃ page, d₀.pageTransform? id = some page ∧ d.pageTransform? id = some (t * page)
  rest : ∀ id shape, d.get? id = some shape → s.contains id = false →
    (shape.kind = .group → ∀ top ∈ s.topLevel, id ∉ d₀.ancestors top) →
      d.pageTransform? id = d₀.pageTransform? id

section
variable {s : Session ℝ} {d₀ : Document ℝ} {t : Affine ℝ}
  {move : Member ℝ → Except TransformError (Patch ℝ)}

theorem Snapshot.MovesBy.id_mem_topLevel {s : Snapshot ℝ} {d : Document ℝ} (h : s.MovesBy move t)
    {p : Patch ℝ} (hp : p ∈ (s.moveEach d move).updates) : p.id ∈ s.topLevel := by
  obtain ⟨id, htop, m, hm, -, hok⟩ := Snapshot.mem_updates_moveEach.1 hp
  obtain ⟨q, hq, hqid, -⟩ := h id m hm
  obtain rfl : q = p := Except.ok.inj (hq.symm.trans hok)
  rwa [hqid]

theorem Snapshot.moveEach_congr {s : Snapshot ℝ} {d d' : Document ℝ}
    (h : ∀ id, d.contains id = d'.contains id) : s.moveEach d move = s.moveEach d' move := by
  simp only [Snapshot.moveEach, h]

/-- Where a commit leaves the shapes, as long as they are no groups around the selection. -/
theorem Session.Confined.pageTransform?_commit {store : Store ℝ} (h : s.Confined d₀ store.document)
    (hs : s.snapshot.Reflects d₀) (hkeyed : d₀.Keyed) (hshallow : d₀.Shallow)
    (hmove : s.snapshot.MovesBy move t) {id : ShapeId} {shape : Shape ℝ}
    (hshape : store.document.get? id = some shape)
    (hgroup : shape.kind = .group → ∀ top ∈ s.snapshot.topLevel, id ∉ d₀.ancestors top) :
    (s.commit Registry.builtin store
      (s.snapshot.moveEach store.document move).updates).2.document.pageTransform? id =
        s.snapshot.carried d₀ t id := by
  set updates := (s.snapshot.moveEach store.document move).updates with hupdates
  -- underneath the updates, the document is what is left of the one at the beginning
  set r := store.document.patchAll (s.baseline.toList.map Patch.restore) with hr
  have htree : r.SameTree store.document := Document.sameTree_patchAll _ _
  have hpart := htree.partOf h.part
  have hsub : ∀ id shape, r.get? id = some shape → d₀.get? id = some shape := fun _ _ hs =>
    h.undoable.get?_patchAll hkeyed (fun _ hp => h.undoable.restores_of_mem_baseline hkeyed hp)
      (fun _ hp => hp) hs
  have hagree : (s.commit Registry.builtin store updates).2.document.Agree
      (store.document.settle Registry.builtin (s.baseline.toList.map Patch.restore ++ updates)) :=
    store.commit_agree Registry.builtin _
  have hmoved : updates = (s.snapshot.moveEach r move).updates := by
    rw [hupdates, Snapshot.moveEach_congr htree.contains_eq]
  have hpatched := Document.sameTree_patchAll r updates
  rw [hagree.pageTransform?_eq, Document.settle, Document.patchAll_append, ← hr,
    Document.pageTransform?_refitAll ((hpatched.partOf hpart).keyed hkeyed)
      ((hpatched.partOf hpart).shallow hshallow)]
  · rw [hmoved]
    exact Snapshot.pageTransform?_moveEach hs hshallow hpart hsub hmove
      ((htree.contains_eq id).trans (Document.contains_of_get? hshape))
  · -- what is refitted lies above the selection
    intro hmem shape' hshape' hkind
    obtain ⟨old, hold, hstem⟩ := (hpatched.trans htree).get? hshape'
    obtain rfl : old = shape := Option.some.inj (hold.symm.trans hshape)
    obtain ⟨u, hreached, ha⟩ := (h.part.shallow hshallow).mem_containers.1 hmem
    obtain ⟨hu, hc⟩ := Document.mem_reached_iff.1 hreached
    obtain ⟨top, htop, habove⟩ := h.exists_top hkeyed (fun p hp => hmove.id_mem_topLevel hp) hu hc ha
    exact hgroup ((Shape.kind_of_stem hstem).trans hkind) top htop habove

/-- **A commit of the motion carries the captured shapes along and nothing else.** -/
theorem Session.Confined.commit_carried {store : Store ℝ} (h : s.Confined d₀ store.document)
    (hs : s.snapshot.Reflects d₀) (hkeyed : d₀.Keyed) (hshallow : d₀.Shallow)
    (hmove : s.snapshot.MovesBy move t) :
    d₀.Carried (s.commit Registry.builtin store
      (s.snapshot.moveEach store.document move).updates).2.document s.snapshot t := by
  have htree : (s.commit Registry.builtin store
      (s.snapshot.moveEach store.document move).updates).2.document.SameTree store.document :=
    store.update_sameTree _
  constructor
  case captured =>
    intro id hcaptured hc
    obtain ⟨m, hm⟩ := Option.isSome_iff_exists.1 hcaptured
    rw [htree.contains_eq] at hc
    obtain ⟨shape, hshape⟩ := Document.contains_iff.1 hc
    refine ⟨m.pageTransform, hs.page id m hm, ?_⟩
    rw [h.pageTransform?_commit hs hkeyed hshallow hmove hshape, Snapshot.carried_of_some hm]
    -- a captured shape is not above the selection
    intro _ top htop habove
    rw [hs.get?_of_mem_ancestors_top hshallow htop habove] at hm
    exact nomatch hm
  case rest =>
    intro id shape hshape hnot hgroup
    obtain ⟨old, hold, hstem⟩ := htree.get? hshape
    have hnone : s.snapshot.get? id = none := by
      rw [Snapshot.contains, Option.isSome_eq_false_iff] at hnot
      exact Option.isNone_iff_eq_none.1 hnot
    rw [h.pageTransform?_commit hs hkeyed hshallow hmove hold, Snapshot.carried_of_none hnone]
    intro hkind
    exact hgroup ((Shape.kind_of_stem hstem).symm.trans hkind)

end

/-! ## Runs -/

section
variable {e : Editor ℝ} {store : Store ℝ} {snapshot : Snapshot ℝ} {d₀ : Document ℝ}
  {state : Editor ℝ × Store ℝ} {step : Interim ℝ}

namespace Editor

/-- A session of the snapshot is running, and has stayed around its selection if it is one that moves
    its selection as one piece. -/
structure Moving (snapshot : Snapshot ℝ) (d₀ : Document ℝ) (state : Editor ℝ × Store ℝ) : Prop where
  registry : state.1.registry = Registry.builtin
  session : ∃ s, state.1.session? = some s ∧ s.snapshot = snapshot ∧
    (s.kind.isRigid = true → s.Confined d₀ state.2.document)

/-- The store shows the motion that the running session asks for, if it asks for one. -/
def Carrying (d₀ : Document ℝ) (state : Editor ℝ × Store ℝ) : Prop :=
  ∃ s, state.1.session? = some s ∧
    ∀ t, s.motion? state.1.config state.1.camera.zoom = some t →
      d₀.Carried state.2.document s.snapshot t

/-- Recomputing shows the motion, whatever the session has written before. -/
theorem recompute_moving {s₀ s : Session ℝ} (hregistry : e.registry = Registry.builtin)
    (hi : e.session? = some s₀) (hs : s.snapshot.Reflects d₀) (hkeyed : d₀.Keyed) (hshallow : d₀.Shallow)
    (h : s.kind.isRigid = true → s.Confined d₀ store.document) :
    Moving s.snapshot d₀ (e.recompute store s) ∧ Carrying d₀ (e.recompute store s) := by
  have hmoves : ∀ t, s.motion? e.config e.camera.zoom = some t → ∃ move,
      s.snapshot.MovesBy move t ∧ (e.updateOf store.document s).outcome =
        s.snapshot.moveEach store.document move := by
    intro t ht
    obtain ⟨move, hmove, hupdate⟩ := Session.exists_movesBy hs hkeyed hshallow ht
    exact ⟨move, hmove, hupdate _⟩
  have hsession := session?_recompute hi store s
  rw [recompute_eq hregistry, hregistry] at hsession
  rw [recompute_eq hregistry]
  refine ⟨⟨hregistry, _, hsession, rfl, fun hrigid => ?_⟩, _, hsession, fun t ht => ?_⟩
  · obtain ⟨t, ht⟩ := Session.isRigid_iff_motion?.1 hrigid
    obtain ⟨move, hmove, hupdate⟩ := hmoves t ht
    rw [hupdate]
    exact (h hrigid).commit hkeyed hshallow fun _ hp => hmove.id_mem_topLevel hp
  · obtain ⟨move, hmove, hupdate⟩ := hmoves t ht
    rw [hupdate]
    exact (h (Session.isRigid_iff_motion?.2 ⟨t, ht⟩)).commit_carried hs hkeyed hshallow hmove

/-- **The first move of a session** shows the motion that it asks for. -/
theorem carried_handle_move (hregistry : e.registry = Registry.builtin)
    (hkeyed : store.document.Keyed) (hshallow : store.document.Shallow)
    (hcapture : e.capture? store.document = some snapshot) {kind : SessionKind}
    {origin p : Point ℝ} {flags : Flags} {m : Modifiers} {t : Affine ℝ}
    (ht : ((Session.start kind origin flags snapshot).moveTo p m.flags).motion? e.config
      e.camera.zoom = some t) :
    let after := ((e.withSession kind origin flags snapshot).handle store (.move p m)).2.document
    after.SameTree store.document ∧ store.document.Carried after snapshot t := by
  intro after
  have hs : snapshot.Reflects store.document := by
    rw [capture?, canvas, hregistry] at hcapture
    exact Canvas.reflects_capture? hkeyed hshallow hcapture
  have hstart : (Session.start kind origin flags snapshot).Confined store.document store.document :=
    Session.confined_start fun _ hshape => Canvas.get?_of_mem_shapes hcapture hkeyed hshape
  have hconfined : ((Session.start kind origin flags snapshot).moveTo p m.flags).Confined
      store.document store.document := hstart.of_work rfl rfl
  have hbegun : (e.withSession kind origin flags snapshot).registry = Registry.builtin := hregistry
  have hrunning := session?_withSession e kind origin flags snapshot
  obtain ⟨s, hi, hcarried⟩ : Carrying store.document
      ((e.withSession kind origin flags snapshot).handle store (.move p m)) := by
    rw [handle_move_of_session hrunning]
    exact (recompute_moving hbegun hrunning hs hkeyed hshallow fun _ => hconfined).2
  have hafter : after = ((e.withSession kind origin flags snapshot).handle store
    (.move p m)).2.document := rfl
  rw [handle_move_of_session hrunning] at hi hcarried hafter
  obtain rfl := Option.some.inj ((session?_recompute hrunning _ _).symm.trans hi)
  rw [hafter]
  exact ⟨store.update_sameTree _, hcarried t ht⟩

/-- The first move of a rotation turns a captured shape that lies on the page by the angle that the
    pointer swept. -/
theorem cos_rotation_handle_move (hregistry : e.registry = Registry.builtin)
    (hkeyed : store.document.Keyed) (hshallow : store.document.Shallow)
    (hcapture : e.capture? store.document = some snapshot) {origin p : Point ℝ} {flags : Flags}
    {m : Modifiers} (hshift : m.flags.shift = false) {id : ShapeId} {shape₀ : Shape ℝ}
    (hid : snapshot.contains id = true) (hshape₀ : store.document.get? id = some shape₀)
    (hparent : shape₀.parent = .page) :
    ∃ shape, ((e.withSession .rotate origin flags snapshot).handle store
        (.move p m)).2.document.get? id = some shape ∧
      Real.cos shape.rotation = Real.cos (sweptAngle snapshot.box.pageCenter origin p
        snapshot.box.rotation none + shape₀.rotation) := by
  have hmotion : ((Session.start .rotate origin flags snapshot).moveTo p m.flags).motion? e.config
      e.camera.zoom = some (Affine.rotateAbout (sweptAngle snapshot.box.pageCenter origin p
        snapshot.box.rotation none) snapshot.box.pageCenter) := by
    show some (Affine.rotateAbout (sweptAngle _ _ _ _ (if m.flags.shift then _ else none)) _) = _
    rw [hshift]
    rfl
  obtain ⟨htree, hcarried⟩ := carried_handle_move hregistry hkeyed hshallow hcapture hmotion
  obtain ⟨shape, hshape, hstem⟩ := htree.symm.get? hshape₀
  refine ⟨shape, hshape, ?_⟩
  obtain ⟨page, hbefore, hturned⟩ := hcarried.captured id hid (Document.contains_of_get? hshape)
  have hplace : page = shape₀.localTransform := by
    rw [hshallow.pageTransform?_eq, hshape₀, Option.bind_some, hparent] at hbefore
    exact (Option.some.inj hbefore).symm
  rw [(htree.shallow hshallow).cos_rotation hshape
    ((congrArg (fun stem => stem.2.2.1) hstem).trans hparent) hturned, hplace, Real.cos_add]
  simp [Affine.rotateAbout, Shape.localTransform, Affine.placement, Affine.translate,
    Affine.rotate_eq]
  ring

end Editor

namespace Interim

variable (hs : snapshot.Reflects d₀) (hkeyed : d₀.Keyed) (hshallow : d₀.Shallow)
include hs hkeyed hshallow

theorem moving_run (h : Editor.Moving snapshot d₀ state) (step : Interim ℝ) :
    Editor.Moving snapshot d₀ (step.run state) := by
  obtain ⟨e, store⟩ := state
  obtain ⟨hregistry, s, hi, rfl, hconfined⟩ := h
  cases hsteer : step.steer? e.config s with
  | some s' =>
      obtain ⟨hkind, -, hsnapshot, hbaseline⟩ := steer?_keeps hsteer
      rw [run_of_steer hi hsteer, ← hsnapshot]
      exact (Editor.recompute_moving hregistry hi (hsnapshot ▸ hs) hkeyed hshallow
        fun hrigid => (hconfined (hkind ▸ hrigid)).of_work hsnapshot hbaseline).1
  | none =>
      obtain ⟨⟨s', hi', hwork⟩, hregistry', -, hstore⟩ := run_of_not_steer store hi hsteer
      refine ⟨hregistry'.trans hregistry, s', hi', hwork.snapshot, fun hrigid => ?_⟩
      have hconfined' := (hconfined (hwork.kind ▸ hrigid)).of_work hwork.snapshot hwork.baseline
      rcases hstore with hstore | ⟨id, -, hstore⟩
      · rw [hstore]; exact hconfined'
      · rw [hstore]; exact hconfined'.remove hkeyed id

theorem moving_runAll (h : Editor.Moving snapshot d₀ state) (steps : List (Interim ℝ)) :
    Editor.Moving snapshot d₀ (runAll state steps) := by
  induction steps generalizing state with
  | nil => exact h
  | cons step steps ih => exact ih (moving_run hs hkeyed hshallow h step)

/-- A step that recomputes the session leaves the store showing the motion. -/
theorem carrying_run (h : Editor.Moving snapshot d₀ state) (hstep : step.isSteering = true) :
    Editor.Carrying d₀ (step.run state) := by
  obtain ⟨e, store⟩ := state
  obtain ⟨hregistry, s, hi, rfl, hconfined⟩ := h
  cases hsteer : step.steer? e.config s with
  | some s' =>
      obtain ⟨hkind, -, hsnapshot, hbaseline⟩ := steer?_keeps hsteer
      rw [run_of_steer hi hsteer]
      exact (Editor.recompute_moving hregistry hi (hsnapshot ▸ hs) hkeyed hshallow
        fun hrigid => (hconfined (hkind ▸ hrigid)).of_work hsnapshot hbaseline).2
  | none =>
      cases step with
      | move p m | modifiers m now | update p m => exact nomatch hsteer
      | _ => exact Bool.noConfusion hstep

end Interim

end

namespace Course

variable {c : Course ℝ} {e : Editor ℝ} {store : Store ℝ}

/-- **Translations and rotations are motions of the page.** Whenever a session has been recomputed,
    after any course of moves, modifier changes and whatever else is asked for meanwhile, the captured
    shapes that others have left in the store lie where the motion that the session asks for takes
    them from where they were at the beginning; and every other shape but the groups around the
    selection lies where it lay then. No shape gets lost unless others remove it. -/
theorem rigid_motion (hregistry : e.registry = Registry.builtin)
    (hkeyed : store.document.Keyed) (hshallow : store.document.Shallow)
    (hbefore : e.phase.isSession = false)
    (hopens : (c.opening.run (e, store)).1.phase.isSession = true)
    (hsteered : (c.opening.lead ++ c.steps).getLast?.any Interim.isSteering = true) :
    let after := c.run (e, store)
    ∃ s, after.1.session? = some s ∧ e.capture? store.document = some s.snapshot ∧
      (∀ t, s.motion? after.1.config after.1.camera.zoom = some t →
        store.document.Carried after.2.document s.snapshot t) ∧
      ((∀ step ∈ c.steps, step.isRemoval = false) →
        ∀ id, after.2.document.contains id = store.document.contains id) := by
  intro after
  obtain ⟨kind, origin, flags, snapshot, hcapture, -, hrun⟩ := run_eq hbefore hopens
  have hcanvas : e.canvas store.document = ⟨store.document, Registry.builtin⟩ := by
    rw [Editor.canvas, hregistry]
  have hs : snapshot.Reflects store.document := by
    rw [Editor.capture?, hcanvas] at hcapture
    exact Canvas.reflects_capture? hkeyed hshallow hcapture
  have hstart : Editor.Moving snapshot store.document
      (e.withSession kind origin flags snapshot, store) :=
    ⟨hregistry, _, Editor.session?_withSession e kind origin flags snapshot, rfl, fun _ =>
      Session.confined_start fun _ hshape => Canvas.get?_of_mem_shapes hcapture hkeyed hshape⟩
  obtain ⟨before, last, hsteps, hsteering⟩ := Interim.exists_last_of_steered hsteered
  have hafter : after = last.run
      (Interim.runAll (e.withSession kind origin flags snapshot, store) before) := by
    rw [← Interim.runAll_concat, ← hsteps]
    exact hrun
  have hmoving := Interim.moving_runAll hs hkeyed hshallow hstart before
  obtain ⟨s, hi, hcarried⟩ := Interim.carrying_run hs hkeyed hshallow hmoving hsteering
  obtain ⟨-, s', hi', hsnapshot, -⟩ := Interim.moving_run hs hkeyed hshallow hmoving last
  rw [← hafter] at hi hcarried hi'
  obtain rfl : s' = s := Option.some.inj (hi'.symm.trans hi)
  refine ⟨s', hi, by rw [hsnapshot, hcapture], hcarried, fun hsteps' => ?_⟩
  -- only removals change which shapes there are
  have htree : after.2.document.SameTree store.document := by
    show (c.run (e, store)).2.document.SameTree store.document
    rw [hrun]
    refine Interim.sameTree_runAll hkeyed
      (Editor.undoing_withSession hcapture hkeyed kind origin flags) fun step hstep => ?_
    rcases List.mem_append.1 hstep with hstep | hstep
    · exact Opening.isRemoval_of_mem_lead hstep
    · exact hsteps' step hstep
  exact htree.contains_eq

/-- A rectangle in a turned group that is turned itself, by way of a detour. -/
theorem rigid_motion_in_group :
    let d : Document ℝ := (Document.empty.put ((Shape.group 1 5 5).withRotation 1)).put
      ((Shape.rectangle 2 0 0 10 10).withParent (.shape 1))
    let e : Editor ℝ := { Editor.initial Config.standard with selection := [2] }
    let c : Course ℝ := ⟨.begin .rotate ⟨25, 5⟩ Modifiers.none,
      [.move ⟨25, 50⟩ Modifiers.shiftOnly, .tick 7, .move ⟨5, 45⟩ Modifiers.none]⟩
    d.Keyed ∧ d.Shallow ∧ e.phase.isSession = false ∧
      (c.opening.run (e, ⟨d, []⟩)).1.phase.isSession = true ∧
      (c.opening.lead ++ c.steps).getLast?.any Interim.isSteering = true ∧
      ∃ s t, (c.run (e, ⟨d, []⟩)).1.session? = some s ∧ s.kind = .rotate ∧
        s.motion? (c.run (e, ⟨d, []⟩)).1.config (c.run (e, ⟨d, []⟩)).1.camera.zoom = some t ∧
        d.Carried (c.run (e, ⟨d, []⟩)).2.document s.snapshot t := by
  intro d e c
  have hopens : (c.opening.run (e, ⟨d, []⟩)).1.phase.isSession = true := by decide +kernel +revert
  have hkeyed : d.Keyed := (Document.keyed_empty.put _).put _
  have hshallow : d.Shallow := Document.shallow_put_put rfl rfl (by decide)
  have hstanding : (c.run (e, ⟨d, []⟩)).1.standing? =
      some ⟨.rotate, ⟨25, 5⟩, ⟨5, 45⟩, Modifiers.none.flags, e.camera.zoom⟩ := by
    simp only [c, run, Interim.runAll, List.foldl_cons, List.foldl_nil]
    exact Interim.standing?_move (Interim.standing?_tick (Interim.standing?_move
      (Opening.standing?_begin rfl hopens) _ _) _) _ _
  obtain ⟨s, hi, hs⟩ := Editor.standing?_eq_some_iff.1 hstanding
  have hkind : s.kind = .rotate := (congrArg Standing.kind hs).symm
  obtain ⟨s', hs', -, hcarried, -⟩ :=
    @rigid_motion c e ⟨d, []⟩ rfl hkeyed hshallow rfl hopens rfl
  rw [hi] at hs'
  obtain rfl : s = s' := Option.some.inj hs'
  obtain ⟨t, ht⟩ := Session.isRigid_iff_motion?.1 (show s.kind.isRigid = true by rw [hkind]; rfl)
  exact ⟨hkeyed, hshallow, rfl, hopens, rfl, s, t, hi, hkind, ht, hcarried t ht⟩

end Course

end CanvasTransform
