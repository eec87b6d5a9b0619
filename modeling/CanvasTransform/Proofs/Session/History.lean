import CanvasTransform.Proofs.Geometry.Exact
import CanvasTransform.Proofs.Group.Refit
import CanvasTransform.Proofs.Session.Undo
import CanvasTransform.Proofs.Transform.Targets

set_option autoImplicit false

/-! # A session does not remember how it came about

With the built-in behaviours, the store after a move depends on where the pointer is, and not on how
it came there. Each batch restores the baseline underneath the new updates, so what the updates are
put on is the document as it was when the session began. What remains of the earlier moves is that
containers are refitted in an order, and for a set of shapes, that depend on the baseline. The set is
the same for every history, because the baseline has nothing in it that is not in the containers of
the targets, their parts, or the targets themselves (`Session.Settling`); and the order does not
matter (`Document.settle_agree`). -/

namespace CanvasTransform

variable {α : Type}

/-! ## Committing on top of the baseline -/

namespace Session

variable {s s' : Session α} {d₀ d : Document α}

/-- The session can restore the document at the beginning, `d₀`, and has written nothing outside the
    containers that its targets have anyway. -/
structure Settling (s : Session α) (d₀ d : Document α) : Prop where
  undoable : s.Undoable d₀ d
  tree : d.SameTree d₀
  members : s.snapshot.Keyed
  closed : ∀ id, s.baseline.contains id = true → ∀ a ∈ d₀.ancestors id,
    ∃ t ∈ s.targets, d₀.contains t = true ∧ a ∈ d₀.ancestors t

theorem Settling.of_work (h : s.Settling d₀ d) (hkind : s'.kind = s.kind)
    (hsnapshot : s'.snapshot = s.snapshot) (hbaseline : s'.baseline = s.baseline) :
    s'.Settling d₀ d where
  undoable := h.undoable.of_work hsnapshot hbaseline
  tree := h.tree
  members := by rw [hsnapshot]; exact h.members
  closed := by
    have htargets : s'.targets = s.targets := by rw [targets, targets, hkind, hsnapshot]
    rw [hbaseline, htargets]
    exact h.closed

/-- A fresh session has written nothing. -/
theorem settling_start {kind : SessionKind} {origin : Point α} {flags : Flags}
    {snapshot : Snapshot α} (hkeyed : snapshot.Keyed)
    (h : ∀ shape ∈ snapshot.shapes, d.get? shape.id = some shape) :
    (start kind origin flags snapshot).Settling d d where
  undoable := undoable_start h
  tree := Document.SameTree.refl d
  members := hkeyed
  closed id hid := by
    rw [Document.contains, show (start kind origin flags snapshot).baseline = Document.empty from rfl,
      Document.get?_empty] at hid
    exact Bool.noConfusion hid

/-- The containers of what a session writes are those of its targets. -/
theorem Settling.mem_containers (h : s.Settling d₀ d) (hd₀ : d₀.Keyed) (hshallow : d₀.Shallow)
    {updates : List (Patch α)} (hids : updates.map (·.id) = s.targets) (a : ShapeId) :
    a ∈ d.containers (d.reached (s.baseline.toList.map Patch.restore ++ updates)) ↔
      a ∈ d₀.containers (d₀.reached updates) := by
  rw [(h.tree.shallow hshallow).mem_containers, hshallow.mem_containers]
  simp only [Document.mem_reached_iff, h.tree.ancestors_eq, h.tree.contains_eq, List.map_append,
    List.mem_append, hids]
  constructor
  · rintro ⟨id, ⟨hid | hid, hc⟩, ha⟩
    · obtain ⟨t, ht, htc, hta⟩ := h.closed id (h.undoable.contains_of_mem_restore hd₀ hid) a ha
      exact ⟨t, ⟨ht, htc⟩, hta⟩
    · exact ⟨id, ⟨hid, hc⟩, ha⟩
  · rintro ⟨id, ⟨hid, hc⟩, ha⟩
    exact ⟨id, ⟨Or.inr hid, hc⟩, ha⟩

variable [Scalar α]

/-- **What a session leaves in the store** is what its updates come to on the document as it was when
    the session began. -/
theorem Settling.commit_agree {store : Store α} (h : s.Settling d₀ store.document) (hd₀ : d₀.Keyed)
    (hshallow : d₀.Shallow) {updates : List (Patch α)}
    (hids : updates.map (·.id) = s.targets) :
    (s.commit Registry.builtin store updates).2.document.Agree
      (d₀.settle Registry.builtin updates) := by
  have hpatched : (store.document.patchAll
      (s.baseline.toList.map Patch.restore ++ updates)).Agree (d₀.patchAll updates) := by
    rw [Document.patchAll_append]
    exact (h.undoable.restore_agree hd₀ h.tree).patchAll updates
  exact (store.commit_agree Registry.builtin _).trans
    (Document.settle_agree h.tree (h.tree.keyed hd₀) (h.tree.shallow hshallow) hpatched
      (h.mem_containers hd₀ hshallow hids))

/-- Committing keeps what the baseline reaches inside the containers of the targets. -/
theorem Settling.commit {store : Store α} (h : s.Settling d₀ store.document) (hd₀ : d₀.Keyed)
    (hshallow : d₀.Shallow) {updates : List (Patch α)}
    (hids : updates.map (·.id) = s.targets) :
    (s.commit Registry.builtin store updates).1.Settling d₀
      (s.commit Registry.builtin store updates).2.document where
  undoable := h.undoable.commit hd₀ Registry.builtin updates
  tree := (store.update_sameTree _).trans h.tree
  members := h.members
  closed := by
    intro id hid a ha
    have hd : store.document.Keyed := h.tree.keyed hd₀
    rcases s.contains_recordBaseline hd hid with hid | ⟨hmem, -⟩
    · exact h.closed id hid a ha
    · -- what the batch touches lies in the containers of what it restores and updates
      rw [← h.tree.ancestors_eq] at ha
      obtain ⟨u, hu, hc, hau⟩ :=
        Canvas.exists_update_of_mem_batch hd (h.tree.shallow hshallow) hmem ha
      rw [h.tree.ancestors_eq] at hau
      rw [List.map_append, hids] at hu
      rcases List.mem_append.1 hu with hu | hu
      · exact h.closed u (h.undoable.contains_of_mem_restore hd₀ hu) a hau
      · exact ⟨u, hu, by rw [← h.tree.contains_eq]; exact hc, hau⟩

end Session

/-! ## Runs -/

variable [Scalar α]

/-- What there is to know of a running session from outside: its kind, where it began, where the
    pointer is now, the flags, and the zoom. -/
structure Standing (α : Type) where
  kind : SessionKind
  origin : Point α
  current : Point α
  flags : Flags
  zoom : α

/-- Where the running session stands, if there is one. -/
def Editor.standing? (e : Editor α) : Option (Standing α) :=
  e.session?.map fun s => ⟨s.kind, s.origin, s.current, s.flags, e.camera.zoom⟩

/-- What a session comes to in an editor. -/
def Editor.updateOf (e : Editor α) (d : Document α) (s : Session α) : SessionUpdate α :=
  s.update (e.canvas d) e.config e.camera.zoom

namespace Interim

/-- Whether a step recomputes the session: a move of the pointer or a change of the modifiers. -/
def isSteering : Interim α → Bool
  | .move _ _ | .modifiers _ _ | .update _ _ => true
  | _ => false

omit [Scalar α] in
theorem exists_last_of_steered {steps : List (Interim α)}
    (h : steps.getLast?.any isSteering = true) :
    ∃ before last, steps = before ++ [last] ∧ last.isSteering = true := by
  obtain ⟨last, hlast, hsteering⟩ := (Option.any_eq_true _ _).1 h
  obtain ⟨before, hsteps⟩ := List.getLast?_eq_some_iff.1 hlast
  exact ⟨before, last, hsteps, hsteering⟩

theorem runAll_concat (state : Editor α × Store α) (steps : List (Interim α)) (last : Interim α) :
    runAll state (steps ++ [last]) = last.run (runAll state steps) := by
  rw [runAll, runAll, List.foldl_append]
  rfl

/-- What a step leaves out: the skipped shapes of the update, if it recomputes the session. -/
def skipped (state : Editor α × Store α) (step : Interim α) : List TransformError :=
  match state.1.session?.bind (step.steer? state.1.config) with
  | some s => (state.1.updateOf state.2.document s).outcome.skipped
  | none => []

/-- What several steps leave out. -/
def skippedAll : Editor α × Store α → List (Interim α) → List TransformError
  | _, [] => []
  | state, step :: steps => step.skipped state ++ skippedAll (step.run state) steps

theorem skipped_of_steer {e : Editor α} {store : Store α} {step : Interim α} {s s' : Session α}
    (h : e.session? = some s) (hsteer : step.steer? e.config s = some s') :
    step.skipped (e, store) = (e.updateOf store.document s').outcome.skipped := by
  rw [skipped, h, Option.bind_some, hsteer]

theorem skippedAll_append (state : Editor α × Store α) (steps steps' : List (Interim α)) :
    skippedAll state (steps ++ steps') =
      skippedAll state steps ++ skippedAll (runAll state steps) steps' := by
  induction steps generalizing state with
  | nil => rfl
  | cons step steps ih =>
      rw [List.cons_append, skippedAll, ih, skippedAll, List.append_assoc]
      rfl

end Interim

namespace Editor

/-- A session of the snapshot is running, and leaves nothing behind but what it comes to. -/
structure Steady (config : Config α) (snapshot : Snapshot α) (d₀ : Document α)
    (state : Editor α × Store α) : Prop where
  registry : state.1.registry = Registry.builtin
  config : state.1.config = config
  session : ∃ s, state.1.session? = some s ∧ s.snapshot = snapshot ∧
    s.Settling d₀ state.2.document

/-- The store and the snap lines are what the session comes to on the document at the beginning. -/
def Showing (d₀ : Document α) (state : Editor α × Store α) : Prop :=
  ∃ s, state.1.session? = some s ∧
    state.2.document.Agree
      (d₀.settle Registry.builtin (state.1.updateOf d₀ s).outcome.updates) ∧
    state.1.snapLines = (state.1.updateOf d₀ s).lines

variable {e : Editor α} {store : Store α} {s : Session α} {config : Config α}
  {snapshot : Snapshot α} {d₀ : Document α}

/-- Recomputing commits what the session comes to, and shows its lines. -/
theorem recompute_eq {registry : Registry α} (hregistry : e.registry = registry) (store : Store α)
    (s : Session α) : e.recompute store s =
      ({ e with
          interaction := e.interaction.setSession (s.commit registry store
            (e.updateOf store.document s).outcome.updates).1
          snapLines := (e.updateOf store.document s).lines },
        (s.commit registry store (e.updateOf store.document s).outcome.updates).2) := by
  rw [← hregistry]
  rfl

theorem session?_recompute {s₀ : Session α} (h : e.session? = some s₀) (store : Store α)
    (s : Session α) : (e.recompute store s).1.session? =
      some (s.commit e.registry store (e.updateOf store.document s).outcome.updates).1 :=
  session?_setSession h _

/-- **Recomputing forgets the history**: what is in the store and what is shown afterwards is what
    the session comes to on the document at the beginning. -/
theorem recompute_showing (hregistry : e.registry = Registry.builtin) {s₀ : Session α}
    (hi : e.session? = some s₀) (h : s.Settling d₀ store.document) (hd₀ : d₀.Keyed) (hshallow : d₀.Shallow)
    (hskip : (e.updateOf store.document s).outcome.skipped = []) :
    (e.recompute store s).1.registry = Registry.builtin ∧
      (e.recompute store s).1.config = e.config ∧
      (∃ s', (e.recompute store s).1.session? = some s' ∧ s'.snapshot = s.snapshot ∧
        s'.Settling d₀ (e.recompute store s).2.document) ∧
      Showing d₀ (e.recompute store s) := by
  -- the update reads only which shapes there are, so it is the one for the old document
  have hupdate : e.updateOf store.document s = e.updateOf d₀ s :=
    Session.update_congr h.tree.contains_eq e.registry
  have hids : (e.updateOf store.document s).outcome.updates.map (·.id) = s.targets := by
    rw [updateOf, canvas, hregistry] at hskip ⊢
    exact Session.ids_update h.members hskip
  rw [recompute_eq hregistry]
  have hsession := session?_recompute hi store s
  rw [recompute_eq hregistry, hregistry] at hsession
  refine ⟨hregistry, rfl, ⟨_, hsession, rfl, h.commit hd₀ hshallow hids⟩, _, hsession, ?_, ?_⟩
  · have hagree := h.commit_agree hd₀ hshallow hids
    rw [hupdate] at hagree ⊢
    exact hagree
  · exact congrArg SessionUpdate.lines hupdate

end Editor

namespace Interim

variable {state : Editor α × Store α} {config : Config α} {snapshot : Snapshot α}
  {d₀ : Document α} {step : Interim α}

theorem steady_run (h : Editor.Steady config snapshot d₀ state) (hd₀ : d₀.Keyed)
    (hshallow : d₀.Shallow) (hstep : step.isRemoval = false) (hskip : step.skipped state = []) :
    Editor.Steady config snapshot d₀ (step.run state) := by
  obtain ⟨e, store⟩ := state
  obtain ⟨hregistry, hconfig, s, hs, hsnapshot, hsettling⟩ := h
  cases hsteer : step.steer? e.config s with
  | some s' =>
      obtain ⟨hkind, -, hsnapshot', hbaseline⟩ := steer?_keeps hsteer
      rw [skipped_of_steer hs hsteer] at hskip
      rw [run_of_steer hs hsteer]
      obtain ⟨hregistry', hconfig', ⟨s'', hs'', hsnapshot'', hsettling''⟩, -⟩ :=
        Editor.recompute_showing hregistry hs (hsettling.of_work hkind hsnapshot' hbaseline) hd₀
          hshallow hskip
      exact ⟨hregistry', hconfig'.trans hconfig, s'', hs'',
        hsnapshot''.trans (hsnapshot'.trans hsnapshot), hsettling''⟩
  | none =>
      obtain ⟨⟨s', hs', hwork⟩, hregistry', hconfig', hstore⟩ :=
        run_of_not_steer store hs hsteer
      have hsettling' := hsettling.of_work hwork.kind hwork.snapshot hwork.baseline
      refine ⟨hregistry'.trans hregistry, hconfig'.trans hconfig, s', hs',
        hwork.snapshot.trans hsnapshot, ?_⟩
      rcases hstore with hstore | ⟨id, rfl, -⟩
      · rw [hstore]; exact hsettling'
      · exact Bool.noConfusion hstep

/-- A step that recomputes the session shows what the session comes to. -/
theorem showing_run (h : Editor.Steady config snapshot d₀ state) (hd₀ : d₀.Keyed)
    (hshallow : d₀.Shallow) (hstep : step.isSteering = true) (hskip : step.skipped state = []) :
    Editor.Showing d₀ (step.run state) := by
  obtain ⟨e, store⟩ := state
  obtain ⟨hregistry, hconfig, s, hs, hsnapshot, hsettling⟩ := h
  cases hsteer : step.steer? e.config s with
  | some s' =>
      obtain ⟨hkind, -, hsnapshot', hbaseline⟩ := steer?_keeps hsteer
      rw [skipped_of_steer hs hsteer] at hskip
      rw [run_of_steer hs hsteer]
      exact (Editor.recompute_showing hregistry hs (hsettling.of_work hkind hsnapshot' hbaseline)
        hd₀ hshallow hskip).2.2.2
  | none =>
      cases step with
      | move p m | modifiers m now | update p m => exact nomatch hsteer
      | _ => exact Bool.noConfusion hstep

theorem steady_runAll (hd₀ : d₀.Keyed) (hshallow : d₀.Shallow) {steps : List (Interim α)}
    (h : Editor.Steady config snapshot d₀ state) (hsteps : ∀ step ∈ steps, step.isRemoval = false)
    (hskip : skippedAll state steps = []) :
    Editor.Steady config snapshot d₀ (runAll state steps) := by
  induction steps generalizing state with
  | nil => exact h
  | cons step steps ih =>
      obtain ⟨hfirst, hrest⟩ := List.append_eq_nil_iff.1 hskip
      exact ih (steady_run h hd₀ hshallow (hsteps step List.mem_cons_self) hfirst)
        (fun s hs => hsteps s (List.mem_cons_of_mem _ hs)) hrest

/-- Steps that leave nothing out, the last of which recomputes the session, show what the session
    comes to. -/
theorem showing_runAll (hd₀ : d₀.Keyed) (hshallow : d₀.Shallow) {steps : List (Interim α)}
    (h : Editor.Steady config snapshot d₀ state) (hsteps : ∀ step ∈ steps, step.isRemoval = false)
    (hsteered : steps.getLast?.any isSteering = true) (hskip : skippedAll state steps = []) :
    Editor.Steady config snapshot d₀ (runAll state steps) ∧
      Editor.Showing d₀ (runAll state steps) := by
  obtain ⟨before, last, rfl, hsteering⟩ := exists_last_of_steered hsteered
  rw [skippedAll_append] at hskip
  obtain ⟨hskip, hskipLast⟩ := List.append_eq_nil_iff.1 hskip
  have hlastSkips := (List.append_eq_nil_iff.1 hskipLast).1
  have hsteady := steady_runAll hd₀ hshallow h
    (fun step hstep => hsteps step (List.mem_append_left _ hstep)) hskip
  rw [runAll_concat]
  exact ⟨steady_run hsteady hd₀ hshallow (hsteps last (List.mem_append_right _ List.mem_cons_self))
    hlastSkips, showing_run hsteady hd₀ hshallow hsteering hlastSkips⟩

end Interim

/-- A session that begins is steady. -/
theorem Editor.steady_withSession {e : Editor α} {store : Store α} {snapshot : Snapshot α}
    (hregistry : e.registry = Registry.builtin) (hkeyed : store.document.Keyed)
    (hcapture : e.capture? store.document = some snapshot) (kind : SessionKind) (origin : Point α)
    (flags : Flags) : Steady e.config snapshot store.document
      (e.withSession kind origin flags snapshot, store) :=
  ⟨hregistry, rfl, _, session?_withSession e kind origin flags snapshot, rfl,
    Session.settling_start (Canvas.keyed_capture? hcapture hkeyed)
      fun _ hshape => Canvas.get?_of_mem_shapes hcapture hkeyed hshape⟩

/-! ## Where a session stands -/

section
variable {state : Editor α × Store α} {standing : Standing α}

omit [Scalar α] in
theorem Editor.standing?_eq_some_iff {e : Editor α} :
    e.standing? = some standing ↔ ∃ s, e.session? = some s ∧
      standing = ⟨s.kind, s.origin, s.current, s.flags, e.camera.zoom⟩ := by
  rw [standing?, Option.map_eq_some_iff]
  simp only [eq_comm]

/-- A session that begins stands where the pointer went down. -/
theorem Opening.standing?_begin {kind : SessionKind} {origin : Point α} {m : Modifiers}
    (hbefore : state.1.phase.isSession = false)
    (h : ((Opening.begin kind origin m).run state).1.phase.isSession = true) :
    ((Opening.begin kind origin m).run state).1.standing? =
      some ⟨kind, origin, origin, m.flags, state.1.camera.zoom⟩ := by
  obtain ⟨snapshot, -, hbegin⟩ := Editor.beginSession_of_isSession hbefore h
  simp only [Opening.run, hbegin]
  exact Editor.standing?_eq_some_iff.2 ⟨_, Editor.session?_withSession _ _ _ _ _, rfl⟩

/-- A move takes the session to where the pointer is. -/
theorem Interim.standing?_move (h : state.1.standing? = some standing) (p : Point α)
    (m : Modifiers) : ((Interim.move p m).run state).1.standing? =
      some { standing with current := p, flags := m.flags } := by
  obtain ⟨e, store⟩ := state
  obtain ⟨s, hs, rfl⟩ := Editor.standing?_eq_some_iff.1 h
  rw [run_of_steer hs rfl]
  exact Editor.standing?_eq_some_iff.2 ⟨_, Editor.session?_setSession hs _, rfl⟩

/-- Time does not move a session. -/
theorem Interim.standing?_tick (h : state.1.standing? = some standing) (now : Nat) :
    ((Interim.tick now).run state).1.standing? = some standing := by
  obtain ⟨e, store⟩ := state
  obtain ⟨s, hs, rfl⟩ := Editor.standing?_eq_some_iff.1 h
  have hrun : (Interim.tick now).run (e, store) =
      ({ e with interaction := e.interaction.setSession (s.tick now) }, store) :=
    Editor.handle_tick_of_session hs now
  have hwork := Session.sameWork_tick s now
  rw [hrun, Editor.standing?_eq_some_iff]
  exact ⟨s.tick now, Editor.session?_setSession hs _,
    by rw [hwork.kind, hwork.origin, hwork.current, hwork.flags]⟩

end

/-! ## Courses of a session -/

/-- What opening a session leaves out: the skipped shapes of the update, if a drag opens it. -/
def Opening.skipped (state : Editor α × Store α) (opening : Opening α) : List TransformError :=
  match opening.lead, (opening.run state).1.session? with
  | _ :: _, some s => (state.1.updateOf state.2.document s).outcome.skipped
  | _, _ => []

/-- What is asked of an editor and its store from the opening of a session on. -/
structure Course (α : Type) where
  opening : Opening α
  steps : List (Interim α)

namespace Course

/-- Ask for everything in turn. -/
def run (c : Course α) (state : Editor α × Store α) : Editor α × Store α :=
  Interim.runAll (c.opening.run state) c.steps

/-- The shapes that the updates of a course leave out. -/
def skipped (c : Course α) (state : Editor α × Store α) : List TransformError :=
  c.opening.skipped state ++ Interim.skippedAll (c.opening.run state) c.steps

/-- The course opens a session, nobody else writes to the store meanwhile, the last thing asked for
    is a move or a change of the modifiers, and no update leaves a shape out. -/
structure Proper (c : Course α) (state : Editor α × Store α) : Prop where
  opens : (c.opening.run state).1.phase.isSession = true
  undisturbed : ∀ step ∈ c.steps, step.isRemoval = false
  steered : (c.opening.lead ++ c.steps).getLast?.any Interim.isSteering = true
  complete : c.skipped state = []

variable {c : Course α} {e : Editor α} {store : Store α}

/-- **A course as steps of a fresh session**: opening it takes along the steps that lead. -/
theorem run_eq (hbefore : e.phase.isSession = false)
    (hopens : (c.opening.run (e, store)).1.phase.isSession = true) :
    ∃ kind origin flags snapshot, e.capture? store.document = some snapshot ∧
      c.opening.run (e, store) =
        Interim.runAll (e.withSession kind origin flags snapshot, store) c.opening.lead ∧
      c.run (e, store) = Interim.runAll (e.withSession kind origin flags snapshot, store)
        (c.opening.lead ++ c.steps) := by
  obtain ⟨kind, origin, flags, snapshot, hcapture, hopen⟩ := Opening.run_eq hbefore hopens
  refine ⟨kind, origin, flags, snapshot, hcapture, hopen, ?_⟩
  rw [run, hopen, Interim.runAll, Interim.runAll, Interim.runAll, List.foldl_append]

/-- A course shows what its session comes to on the document at the beginning. -/
theorem Proper.showing (h : c.Proper (e, store)) (hregistry : e.registry = Registry.builtin)
    (hkeyed : store.document.Keyed) (hshallow : store.document.Shallow)
    (hbefore : e.phase.isSession = false) :
    ∃ snapshot, e.capture? store.document = some snapshot ∧
      Editor.Steady e.config snapshot store.document (c.run (e, store)) ∧
      Editor.Showing store.document (c.run (e, store)) := by
  obtain ⟨kind, origin, flags, snapshot, hcapture, hopen, hrun⟩ := run_eq hbefore h.opens
  have hremoval : ∀ step ∈ c.opening.lead ++ c.steps, step.isRemoval = false := by
    intro step hstep
    rcases List.mem_append.1 hstep with hstep | hstep
    · exact Opening.isRemoval_of_mem_lead hstep
    · exact h.undisturbed step hstep
  obtain ⟨hskipOpening, hskipSteps⟩ := List.append_eq_nil_iff.1 h.complete
  have hskipLead : Interim.skippedAll (e.withSession kind origin flags snapshot, store)
      c.opening.lead = [] := by
    cases hc : c.opening with
    | drag p m =>
        have hsession := Editor.session?_withSession e kind origin flags snapshot
        let lead : Interim α := .update p m
        have hsession := Editor.session?_withSession e kind origin flags snapshot
        have hsteer : lead.steer? e.config (Session.start kind origin flags snapshot) =
            some ((Session.start kind origin flags snapshot).moveTo p m.flags) := rfl
        have hskip : lead.skipped (e.withSession kind origin flags snapshot, store) = _ :=
          Interim.skipped_of_steer hsession hsteer
        -- what the session has written since is not read by its update
        rw [Opening.skipped, hopen, hc, show Interim.runAll _ _ = lead.run _ from rfl,
          Interim.run_of_steer hsession hsteer, Editor.session?_recompute hsession] at hskipOpening
        exact List.append_eq_nil_iff.2 ⟨hskip.trans hskipOpening, rfl⟩
    | _ => rfl
  have hskip : Interim.skippedAll (e.withSession kind origin flags snapshot, store)
      (c.opening.lead ++ c.steps) = [] := by
    rw [Interim.skippedAll_append, hskipLead, ← hopen, hskipSteps]
    rfl
  rw [hrun]
  exact ⟨snapshot, hcapture, Interim.showing_runAll hkeyed hshallow
    (Editor.steady_withSession hregistry hkeyed hcapture kind origin flags) hremoval h.steered hskip⟩

/-- **History independence.** Two courses of the same session that begin on the same store and end
    with the pointer at the same place, with the same flags and at the same zoom, end with the same
    document, record for record, and with the same snap lines, whatever came before. In particular a
    long drag ends like a jump to its last point. -/
theorem history_independent {c₁ c₂ : Course α} (hregistry : e.registry = Registry.builtin)
    (hkeyed : store.document.Keyed) (hshallow : store.document.Shallow)
    (hbefore : e.phase.isSession = false) (h₁ : c₁.Proper (e, store)) (h₂ : c₂.Proper (e, store))
    (hstanding : (c₁.run (e, store)).1.standing? = (c₂.run (e, store)).1.standing?) :
    (c₁.run (e, store)).2.document.Agree (c₂.run (e, store)).2.document ∧
      (c₁.run (e, store)).1.snapLines = (c₂.run (e, store)).1.snapLines := by
  obtain ⟨snapshot, hcapture, hsteady₁, s₁, hs₁, hagree₁, hlines₁⟩ :=
    h₁.showing hregistry hkeyed hshallow hbefore
  obtain ⟨snapshot', hcapture', hsteady₂, s₂, hs₂, hagree₂, hlines₂⟩ :=
    h₂.showing hregistry hkeyed hshallow hbefore
  -- both sessions were captured from the same store
  have hsnapshot : s₁.snapshot = s₂.snapshot := by
    obtain ⟨t₁, ht₁, hsnapshot₁, -⟩ := hsteady₁.session
    obtain ⟨t₂, ht₂, hsnapshot₂, -⟩ := hsteady₂.session
    rw [hs₁] at ht₁
    rw [hs₂] at ht₂
    rw [Option.some.inj ht₁, Option.some.inj ht₂, hsnapshot₁, hsnapshot₂]
    rw [hcapture] at hcapture'
    exact Option.some.inj hcapture'
  rw [Editor.standing?, Editor.standing?, hs₁, hs₂,
    Option.map_some, Option.map_some, Option.some.injEq, Standing.mk.injEq] at hstanding
  obtain ⟨hkind, horigin, hcurrent, hflags, hzoom⟩ := hstanding
  have hupdate : (c₁.run (e, store)).1.updateOf store.document s₁ =
      (c₂.run (e, store)).1.updateOf store.document s₂ := by
    rw [Editor.updateOf, Editor.updateOf, Editor.canvas, Editor.canvas, hsteady₁.registry,
      hsteady₂.registry, hsteady₁.config, hsteady₂.config, hzoom]
    exact Session.update_eq_of_pointer hkind horigin hcurrent hflags hsnapshot _ _ _
  rw [hupdate] at hagree₁ hlines₁
  exact ⟨hagree₁.trans hagree₂.symm, hlines₁.trans hlines₂.symm⟩

/-- A rectangle in a frame that is dragged sideways and then down, and one that jumps there, read
    exactly. -/
theorem history_independent_in_frame :
    let d : Document ℝ := (Document.empty.put (Shape.frame 1 5 5 100 100)).put
      ((Shape.rectangle 2 0 0 10 10).withParent (.shape 1))
    let e : Editor ℝ := { Editor.initial Config.standard with selection := [2] }
    let c₁ : Course ℝ := ⟨.begin .translate ⟨5, 5⟩ Modifiers.none,
      [.move ⟨25, 5⟩ Modifiers.shiftOnly, .tick 7, .move ⟨30, 45⟩ Modifiers.none]⟩
    let c₂ : Course ℝ := ⟨.begin .translate ⟨5, 5⟩ Modifiers.none, [.move ⟨30, 45⟩ Modifiers.none]⟩
    d.Keyed ∧ d.Shallow ∧ c₁.Proper (e, ⟨d, []⟩) ∧ c₂.Proper (e, ⟨d, []⟩) ∧
      (c₁.run (e, ⟨d, []⟩)).2.document.Agree (c₂.run (e, ⟨d, []⟩)).2.document := by
  intro d e c₁ c₂
  have hopens : (c₁.opening.run (e, ⟨d, []⟩)).1.phase.isSession = true := by decide +kernel +revert
  have hskips₁ : c₁.skipped (e, ⟨d, []⟩) = [] := by clear hopens; decide +kernel +revert
  have hskips₂ : c₂.skipped (e, ⟨d, []⟩) = [] := by clear hopens hskips₁; decide +kernel +revert
  have hkeyed : d.Keyed := (Document.keyed_empty.put _).put _
  have hshallow : d.Shallow := Document.shallow_put_put rfl rfl (by decide)
  have hproper₁ : c₁.Proper (e, ⟨d, []⟩) :=
    ⟨hopens, by simp [c₁, Interim.isRemoval], rfl, hskips₁⟩
  have hproper₂ : c₂.Proper (e, ⟨d, []⟩) :=
    ⟨hopens, by simp [c₂, Interim.isRemoval], rfl, hskips₂⟩
  have hbegin := Opening.standing?_begin rfl hopens
  have h₁ : (c₁.run (e, ⟨d, []⟩)).1.standing? =
      some ⟨.translate, ⟨5, 5⟩, ⟨30, 45⟩, Modifiers.none.flags, e.camera.zoom⟩ := by
    simp only [c₁, run, Interim.runAll, List.foldl_cons, List.foldl_nil]
    exact Interim.standing?_move (Interim.standing?_tick (Interim.standing?_move hbegin _ _) _) _ _
  have h₂ : (c₂.run (e, ⟨d, []⟩)).1.standing? =
      some ⟨.translate, ⟨5, 5⟩, ⟨30, 45⟩, Modifiers.none.flags, e.camera.zoom⟩ := by
    simp only [c₂, run, Interim.runAll, List.foldl_cons, List.foldl_nil]
    exact Interim.standing?_move hbegin _ _
  exact ⟨hkeyed, hshallow, hproper₁, hproper₂,
    (history_independent rfl hkeyed hshallow rfl hproper₁ hproper₂ (h₁.trans h₂.symm)).1⟩

end Course

end CanvasTransform
