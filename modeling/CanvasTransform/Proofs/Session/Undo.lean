import CanvasTransform.Binary64
import CanvasTransform.Proofs.Document.Commit
import CanvasTransform.Proofs.Document.Growth
import CanvasTransform.Proofs.Selection.Capture
import CanvasTransform.Proofs.Session.Run

set_option autoImplicit false

/-! # A session can be undone

A session writes more than it was asked to transform: each move refits containers around the
selection and shifts their other children, so what there is to undo is only found out move by move.
The invariant that carries this is `Session.Undoable`: a shape that is not in the baseline is still
what it was when the session began, and a shape that is in the baseline is there as it was. It
survives any written batch, whatever the registry let the containers do, and any removal; and
wherever it holds, reverting restores every shape that is left. -/

namespace CanvasTransform

variable {α : Type}

/-! ## The baseline -/

/-- The baseline with the shape that a patch names, unless the shape is unknown or there already. -/
def Document.recordShape (d baseline : Document α) (p : Patch α) : Document α :=
  if baseline.contains p.id then baseline
  else match d.get? p.id with
    | some shape => baseline.put shape
    | none => baseline

theorem Document.get?_recordShape {d : Document α} (hd : d.Keyed) (baseline : Document α)
    (p : Patch α) (id : ShapeId) :
    (d.recordShape baseline p).get? id =
      (baseline.get? id).or (if id = p.id then d.get? id else none) := by
  unfold recordShape
  by_cases hid : id = p.id
  · subst hid
    rw [if_pos rfl]
    by_cases hc : baseline.contains p.id = true
    · obtain ⟨o, ho⟩ := contains_iff.1 hc
      rw [if_pos hc, ho, Option.some_or]
    · rw [if_neg hc, get?_of_not_contains hc, Option.none_or]
      cases hs : d.get? p.id with
      | none => exact get?_of_not_contains hc
      | some shape =>
          simp only []
          rw [get?_put, if_pos (hd p.id shape hs)]
  · rw [if_neg hid, Option.or_none]
    split
    · rfl
    · cases hs : d.get? p.id with
      | none => rfl
      | some shape =>
          have hne : shape.id ≠ id := fun h => hid (by rw [← h, hd p.id shape hs])
          simp only []
          rw [get?_put, if_neg hne]

namespace Session

/-- **The view of the baseline.** What is there stays, and every other shape that the batch names is
    added as the document has it. -/
theorem get?_recordBaseline (s : Session α) {d : Document α} (hd : d.Keyed)
    (batch : List (Patch α)) (id : ShapeId) :
    (s.recordBaseline d batch).get? id =
      (s.baseline.get? id).or (if id ∈ batch.map (·.id) then d.get? id else none) := by
  show (batch.foldl d.recordShape s.baseline).get? id = _
  generalize s.baseline = baseline
  induction batch generalizing baseline with
  | nil => simp
  | cons p batch ih =>
      rw [List.foldl_cons, ih, Document.get?_recordShape hd, List.map_cons, Option.or_assoc]
      congr 1
      by_cases hid : id = p.id
      · -- named by the first patch, and recorded by it whatever comes later
        by_cases hmem : id ∈ batch.map (·.id)
        · rw [if_pos hid, if_pos hmem, if_pos (List.mem_cons_of_mem _ hmem), Option.or_self]
        · rw [if_pos hid, if_neg hmem, if_pos (List.mem_cons.2 (Or.inl hid)), Option.or_none]
      · rw [if_neg hid, Option.none_or]
        have hiff : id ∈ p.id :: batch.map (·.id) ↔ id ∈ batch.map (·.id) :=
          ⟨fun h => (List.mem_cons.1 h).resolve_left hid, List.mem_cons_of_mem _⟩
        exact if_congr hiff.symm rfl rfl

theorem contains_recordBaseline (s : Session α) {d : Document α} (hd : d.Keyed)
    {batch : List (Patch α)} {id : ShapeId} (h : (s.recordBaseline d batch).contains id = true) :
    s.baseline.contains id = true ∨ id ∈ batch.map (·.id) ∧ d.contains id = true := by
  obtain ⟨shape, hshape⟩ := Document.contains_iff.1 h
  rw [s.get?_recordBaseline hd, Option.or_eq_some_iff] at hshape
  rcases hshape with hshape | ⟨-, hshape⟩
  · exact Or.inl (Document.contains_of_get? hshape)
  · split at hshape
    · next hmem => exact Or.inr ⟨hmem, Document.contains_of_get? hshape⟩
    · exact nomatch hshape

/-! ## The invariant -/

/-- The session can take the document `d` back to what it was at the beginning, `d₀`, as far as the
    shapes are still there. -/
structure Undoable (s : Session α) (d₀ d : Document α) : Prop where
  untouched : ∀ id shape, d.get? id = some shape → s.baseline.get? id = none →
    d₀.get? id = some shape
  recorded : ∀ id shape, s.baseline.get? id = some shape → d₀.get? id = some shape
  captured : ∀ shape ∈ s.snapshot.shapes, d₀.get? shape.id = some shape
  stems : ∀ id shape, d.get? id = some shape →
    ∃ shape₀, d₀.get? id = some shape₀ ∧ shape₀.stem = shape.stem

variable {s s' : Session α} {d₀ d d' : Document α}

/-- A fresh session has nothing to undo. -/
theorem undoable_start {kind : SessionKind} {origin : Point α} {flags : Flags}
    {snapshot : Snapshot α} (h : ∀ shape ∈ snapshot.shapes, d.get? shape.id = some shape) :
    (start kind origin flags snapshot).Undoable d d where
  untouched _ _ hs _ := hs
  recorded id shape hs := by
    rw [show (start kind origin flags snapshot).baseline = Document.empty from rfl,
      Document.get?_empty] at hs
    exact nomatch hs
  captured := h
  stems _ shape hs := ⟨shape, hs, rfl⟩

theorem Undoable.of_work (h : s.Undoable d₀ d) (hsnapshot : s'.snapshot = s.snapshot)
    (hbaseline : s'.baseline = s.baseline) : s'.Undoable d₀ d where
  untouched := by rw [hbaseline]; exact h.untouched
  recorded := by rw [hbaseline]; exact h.recorded
  captured := by rw [hsnapshot]; exact h.captured
  stems := h.stems

/-- Fewer shapes in the document leave less to undo. -/
theorem Undoable.mono (h : s.Undoable d₀ d)
    (hsub : ∀ id shape, d'.get? id = some shape → d.get? id = some shape) : s.Undoable d₀ d' where
  untouched id shape hs := h.untouched id shape (hsub id shape hs)
  recorded := h.recorded
  captured := h.captured
  stems id shape hs := h.stems id shape (hsub id shape hs)

theorem Undoable.remove {store : Store α} (h : s.Undoable d₀ store.document) (id : ShapeId) :
    s.Undoable d₀ (store.remove id).2.document := by
  refine h.mono fun id' shape hs => ?_
  rw [Store.get?_remove] at hs
  split at hs
  · exact nomatch hs
  · exact hs

theorem Undoable.keyed (h : s.Undoable d₀ d) (hd₀ : d₀.Keyed) : d.Keyed := by
  intro id shape hs
  obtain ⟨shape₀, hs₀, hstem⟩ := h.stems id shape hs
  have hid : shape₀.id = shape.id := Shape.id_of_stem hstem
  rw [← hid]
  exact hd₀ id shape₀ hs₀

/-- **Any batch can be written**: recording it in the baseline first keeps the session undoable, for
    a shape that the batch does not name does not change. -/
theorem Undoable.write {store : Store α} (h : s.Undoable d₀ store.document) (hd₀ : d₀.Keyed)
    (batch : List (Patch α)) :
    { s with baseline := s.recordBaseline store.document batch }.Undoable d₀
      (store.update batch).document := by
  have hbaseline := s.get?_recordBaseline (h.keyed hd₀) batch
  have htree := store.update_sameTree batch
  refine ⟨?_, ?_, h.captured, ?_⟩
  · intro id shape hs hnone
    dsimp only at hnone
    rw [hbaseline, Option.or_eq_none_iff] at hnone
    by_cases hmem : id ∈ batch.map (·.id)
    · -- the batch names only shapes that are unknown, since the others are recorded
      rw [if_pos hmem] at hnone
      obtain ⟨shape', hs', -⟩ := htree.get? hs
      rw [hnone.2] at hs'
      exact nomatch hs'
    · rw [store.update_agree batch id, Document.get?_patchAll_of_not_mem hmem] at hs
      exact h.untouched id shape hs hnone.1
  · intro id shape hs
    dsimp only at hs
    rw [hbaseline, Option.or_eq_some_iff] at hs
    rcases hs with hs | ⟨hnone, hs⟩
    · exact h.recorded id shape hs
    · split at hs
      · exact h.untouched id shape hs hnone
      · exact nomatch hs
  · intro id shape hs
    obtain ⟨shape', hs', hstem'⟩ := htree.get? hs
    obtain ⟨shape₀, hs₀, hstem₀⟩ := h.stems id shape' hs'
    exact ⟨shape₀, hs₀, hstem₀.trans hstem'⟩

theorem Undoable.commit [Scalar α] {store : Store α} (h : s.Undoable d₀ store.document)
    (hd₀ : d₀.Keyed) (registry : Registry α) (updates : List (Patch α)) :
    (s.commit registry store updates).1.Undoable d₀
      (s.commit registry store updates).2.document := h.write hd₀ _

/-- The shapes that the baseline restores are the ones that it records. -/
theorem Undoable.contains_of_mem_restore (h : s.Undoable d₀ d) (hd₀ : d₀.Keyed) {id : ShapeId}
    (hid : id ∈ (s.baseline.toList.map Patch.restore).map (·.id)) :
    s.baseline.contains id = true := by
  have hbaseline : s.baseline.Keyed := fun id shape hs => hd₀ id shape (h.recorded id shape hs)
  rw [List.map_map, List.mem_map] at hid
  obtain ⟨shape, hshape, rfl⟩ := hid
  exact Document.contains_of_get? ((Document.mem_toList_iff hbaseline).1 hshape)

/-- Every patch of a revert restores a shape of the document at the beginning. -/
theorem Undoable.restores_of_mem_revert (h : s.Undoable d₀ d) (hd₀ : d₀.Keyed) {p : Patch α}
    (hp : p ∈ s.revert) : ∃ shape₀, d₀.get? p.id = some shape₀ ∧ p = Patch.restore shape₀ := by
  have hbaseline : s.baseline.Keyed := fun id shape hs => hd₀ id shape (h.recorded id shape hs)
  rcases List.mem_append.1 hp with hp | hp
  · obtain ⟨shape, hshape, rfl⟩ := List.mem_map.1 hp
    exact ⟨shape, h.recorded _ _ ((Document.mem_toList_iff hbaseline).1 hshape), rfl⟩
  · obtain ⟨shape, hshape, rfl⟩ := List.mem_map.1 hp
    exact ⟨shape, h.captured shape (List.mem_filter.1 hshape).1, rfl⟩

theorem Undoable.restores_of_mem_baseline (h : s.Undoable d₀ d) (hd₀ : d₀.Keyed) {p : Patch α}
    (hp : p ∈ s.baseline.toList.map Patch.restore) :
    ∃ shape₀, d₀.get? p.id = some shape₀ ∧ p = Patch.restore shape₀ :=
  h.restores_of_mem_revert hd₀ (List.mem_append_left _ hp)

/-- Restoring patches take back what was written, as long as they restore the whole baseline. -/
theorem Undoable.get?_patchAll (h : s.Undoable d₀ d) (hd₀ : d₀.Keyed) {ps : List (Patch α)}
    (hps : ∀ p ∈ ps, ∃ shape₀, d₀.get? p.id = some shape₀ ∧ p = Patch.restore shape₀)
    (hall : ∀ p ∈ s.baseline.toList.map Patch.restore, p ∈ ps) {id : ShapeId} {shape : Shape α}
    (hs : (d.patchAll ps).get? id = some shape) : d₀.get? id = some shape := by
  have hbaseline : s.baseline.Keyed := fun id shape hs => hd₀ id shape (h.recorded id shape hs)
  rw [Document.get?_patchAll, Option.map_eq_some_iff] at hs
  obtain ⟨old, hold, rfl⟩ := hs
  obtain ⟨shape₀, hs₀, hstem⟩ := h.stems id old hold
  by_cases hnil : Document.patchesFor ps id = []
  · -- nothing restores the shape, so it is not recorded and was never written
    rw [hnil, Shape.patchAll_nil]
    refine h.untouched id old hold ?_
    by_contra hsome
    obtain ⟨shape, hshape⟩ := Option.ne_none_iff_exists'.1 hsome
    have hid : shape.id = id := hbaseline id shape hshape
    have hmem : Patch.restore shape ∈ Document.patchesFor ps id := by
      refine Document.mem_patchesFor.2 ⟨hall _ (List.mem_map_of_mem ?_), hid⟩
      rw [Document.mem_toList_iff hbaseline, hid]
      exact hshape
    rw [hnil] at hmem
    exact absurd hmem List.not_mem_nil
  · rw [hs₀, Shape.patchAll_restores hstem.symm ?_ hnil]
    intro p hp
    obtain ⟨hmem, hid⟩ := Document.mem_patchesFor.1 hp
    obtain ⟨shape₁, hs₁, hrestore⟩ := hps p hmem
    rw [hid, hs₀] at hs₁
    rw [hrestore, Option.some.inj hs₁]

/-- **Reverting takes everything back**: the shapes that are left are record for record what they
    were at the beginning. -/
theorem Undoable.revert {store : Store α} (h : s.Undoable d₀ store.document) (hd₀ : d₀.Keyed)
    {id : ShapeId} {shape : Shape α} (hs : (store.update s.revert).document.get? id = some shape) :
    d₀.get? id = some shape := by
  rw [store.update_agree s.revert id] at hs
  exact h.get?_patchAll hd₀ (fun _ hp => h.restores_of_mem_revert hd₀ hp)
    (fun _ hp => List.mem_append_left _ hp) hs

/-- If no shape is gone, restoring the baseline brings the whole document back. -/
theorem Undoable.restore_agree (h : s.Undoable d₀ d) (hd₀ : d₀.Keyed) (htree : d.SameTree d₀) :
    (d.patchAll (s.baseline.toList.map Patch.restore)).Agree d₀ :=
  ((Document.sameTree_patchAll d _).trans htree).agree fun _ _ hs =>
    h.get?_patchAll hd₀ (fun _ hp => h.restores_of_mem_baseline hd₀ hp) (fun _ hp => hp) hs

end Session

/-! ## Runs -/

section
variable [Scalar α] {d₀ : Document α} {state : Editor α × Store α}

/-- A session is running that can take the store back to `d₀`. -/
def Editor.Undoing (d₀ : Document α) (state : Editor α × Store α) : Prop :=
  ∃ s, state.1.session? = some s ∧ s.Undoable d₀ state.2.document

/-- A session that has just begun can take the store back to where it is. -/
theorem Editor.undoing_withSession {e : Editor α} {store : Store α} {snapshot : Snapshot α}
    (h : e.capture? store.document = some snapshot) (hkeyed : store.document.Keyed)
    (kind : SessionKind) (origin : Point α) (flags : Flags) :
    Editor.Undoing store.document (e.withSession kind origin flags snapshot, store) :=
  ⟨_, session?_withSession e kind origin flags snapshot,
    Session.undoable_start fun _ hshape => Canvas.get?_of_mem_shapes h hkeyed hshape⟩

namespace Interim

/-- Every step keeps the session undoable: a step that steers it writes a batch, and no other step
    writes. -/
theorem undoing_run (hd₀ : d₀.Keyed) (h : Editor.Undoing d₀ state) (step : Interim α) :
    Editor.Undoing d₀ (step.run state) := by
  obtain ⟨e, store⟩ := state
  obtain ⟨s, hs, hundo⟩ := h
  cases hsteer : step.steer? e.config s with
  | some s' =>
      obtain ⟨-, -, hsnapshot, hbaseline⟩ := steer?_keeps hsteer
      rw [run_of_steer hs hsteer]
      exact ⟨_, Editor.session?_setSession hs _,
        (hundo.of_work hsnapshot hbaseline).commit hd₀ _ _⟩
  | none =>
      obtain ⟨⟨s', hs', hwork⟩, -, -, hstore⟩ := run_of_not_steer store hs hsteer
      have hundo' := hundo.of_work hwork.snapshot hwork.baseline
      refine ⟨s', hs', ?_⟩
      rcases hstore with hstore | ⟨id, -, hstore⟩
      · rw [hstore]; exact hundo'
      · rw [hstore]; exact hundo'.remove id

theorem undoing_runAll (hd₀ : d₀.Keyed) (h : Editor.Undoing d₀ state) (steps : List (Interim α)) :
    Editor.Undoing d₀ (runAll state steps) := by
  induction steps generalizing state with
  | nil => exact h
  | cons step steps ih => exact ih (undoing_run hd₀ h step)

/-- Only a removal changes which shapes there are. -/
theorem sameTree_run (h : Editor.Undoing d₀ state) {step : Interim α}
    (hstep : step.isRemoval = false) : (step.run state).2.document.SameTree state.2.document := by
  obtain ⟨e, store⟩ := state
  obtain ⟨s, hs, -⟩ := h
  cases hsteer : step.steer? e.config s with
  | some s' =>
      rw [run_of_steer hs hsteer]
      exact store.update_sameTree _
  | none =>
      rcases (run_of_not_steer store hs hsteer).2.2.2 with hstore | ⟨id, rfl, -⟩
      · rw [hstore]
      · exact Bool.noConfusion hstep

theorem sameTree_runAll (hd₀ : d₀.Keyed) (h : Editor.Undoing d₀ state) {steps : List (Interim α)}
    (hsteps : ∀ step ∈ steps, step.isRemoval = false) :
    (runAll state steps).2.document.SameTree state.2.document := by
  induction steps generalizing state with
  | nil => rfl
  | cons step steps ih =>
      have hrest := ih (undoing_run hd₀ h step) fun s hs => hsteps s (List.mem_cons_of_mem _ hs)
      exact hrest.trans (sameTree_run h (hsteps step List.mem_cons_self))

end Interim

/-- From before a session was opened on, only removals change which shapes there are. -/
theorem Opening.sameTree_runAll {e : Editor α} {store : Store α} {opening : Opening α}
    (hkeyed : store.document.Keyed) (hbefore : e.phase.isSession = false)
    (hopen : (opening.run (e, store)).1.phase.isSession = true) {steps : List (Interim α)}
    (hsteps : ∀ step ∈ steps, step.isRemoval = false) :
    (Interim.runAll (opening.run (e, store)) steps).2.document.SameTree store.document := by
  obtain ⟨kind, origin, flags, snapshot, hcapture, hrun⟩ := Opening.run_eq hbefore hopen
  have hstart := Editor.undoing_withSession hcapture hkeyed kind origin flags
  rw [hrun]
  exact (Interim.sameTree_runAll hkeyed (Interim.undoing_runAll hkeyed hstart _) hsteps).trans
    (Interim.sameTree_runAll hkeyed hstart fun _ h => Opening.isRemoval_of_mem_lead h)

/-! ## The end of a session -/

namespace Editor

theorem press_phase {e : Editor α} (h : e.phase.isSession = false) (d : Document α)
    (p : Press α) : (e.press d p).phase.isSession = false := by
  rw [press]
  split
  · next t ht =>
      rw [performPress?]
      cases t.action with
      | beginPointing => exact isSession_of_pointing (Interaction.pointing?_ofPress _ _)
      | _ => exact h
  · exact h

/-- The presses that are replayed at the end of a session start no session. -/
theorem finish_phase {e : Editor α} (h : e.phase.isSession = false) (d : Document α) :
    (e.finish d).phase.isSession = false := by
  have hfold : ∀ (presses : List (Press α)) (e : Editor α), e.phase.isSession = false →
      (presses.foldl (fun e p => e.press d p) e).phase.isSession = false := by
    intro presses
    induction presses with
    | nil => exact fun _ h => h
    | cons p presses ih => exact fun e h => ih _ (press_phase h d p)
  exact hfold _ _ h

theorem cancelSession_of_session {e : Editor α} {s : Session α} (h : e.session? = some s)
    (store : Store α) : e.cancelSession store =
      ({ e with interaction := .idle }.finish (store.update s.revert).document,
        store.update s.revert) := by
  rw [cancelSession, h]

end Editor

/-- However a session is undone, it is cancelled. -/
theorem Abort.run_eq {e : Editor α} {s : Session α} (h : e.session? = some s)
    (store : Store α) (abort : Abort) : abort.run (e, store) = e.cancelSession store := by
  cases abort with
  | cancelEvent => exact Editor.handle_of_isCancel h rfl
  | escapeKey => exact Editor.handle_of_isCancel h (beq_self_eq_true _)
  | cancelSession => rfl

/-- **A session can be undone.** However a session was opened, whatever was asked of the editor while
    it was running, whichever shapes others removed meanwhile and whatever the registry makes
    containers do: when the session is aborted, every shape that is still in the store has exactly
    the record that it had when the session began. The abort loses no shape, so the whole document is
    back if nothing was removed; and the presses that it replays write nothing. -/
theorem Abort.restores (e : Editor α) (store : Store α) (opening : Opening α)
    (steps : List (Interim α)) (abort : Abort) (hkeyed : store.document.Keyed)
    (hbefore : e.phase.isSession = false)
    (hopen : (opening.run (e, store)).1.phase.isSession = true) :
    let before := Interim.runAll (opening.run (e, store)) steps
    let after := abort.run before
    after.1.phase.isSession = false ∧
    (∀ id shape, after.2.document.get? id = some shape → store.document.get? id = some shape) ∧
    (∀ id, after.2.document.contains id = before.2.document.contains id) ∧
    ((∀ step ∈ steps, step.isRemoval = false) → after.2.document.Agree store.document) ∧
    after.2 = (abort.run ({ before.1 with deferred := [] }, before.2)).2 := by
  intro before after
  obtain ⟨kind, origin, flags, snapshot, hcapture, hrun⟩ := Opening.run_eq hbefore hopen
  have hstart := Editor.undoing_withSession hcapture hkeyed kind origin flags
  have hbegun := Interim.undoing_runAll hkeyed hstart opening.lead
  rw [← hrun] at hbegun
  obtain ⟨s, hs, hundo⟩ := Interim.undoing_runAll hkeyed hbegun steps
  have hafter : after = before.1.cancelSession before.2 := Abort.run_eq hs before.2 abort
  have hstore : after.2 = before.2.update s.revert := by
    rw [hafter, Editor.cancelSession_of_session hs]
  have hback : ∀ id shape, after.2.document.get? id = some shape →
      store.document.get? id = some shape := by
    intro id shape hshape
    rw [hstore] at hshape
    exact hundo.revert hkeyed hshape
  have htree : after.2.document.SameTree before.2.document := by
    rw [hstore]
    exact before.2.update_sameTree _
  refine ⟨?_, hback, htree.contains_eq, ?_, ?_⟩
  · rw [hafter, Editor.cancelSession_of_session hs]
    exact Editor.finish_phase rfl _
  · intro hsteps
    have hopened : (opening.run (e, store)).2.document.SameTree store.document := by
      rw [hrun]
      exact Interim.sameTree_runAll hkeyed hstart fun _ h => Opening.isRemoval_of_mem_lead h
    have hwhole : after.2.document.SameTree store.document :=
      (htree.trans (Interim.sameTree_runAll hkeyed hbegun hsteps)).trans hopened
    exact hwhole.agree hback
  · rw [hstore]
    have hs' : ({ before.1 with deferred := [] } : Editor α).session? = some s := hs
    rw [Abort.run_eq hs', Editor.cancelSession_of_session hs']

end

/-- The undoing of a drag, on double-precision numbers: a rectangle in a group, and a note beside
    them that is removed while the session is running. -/
theorem Abort.restores_dragged_rectangle :
    let d : Document Binary64 := ((Document.empty.put (Shape.group 1 5.0 5.0)).put
      ((Shape.rectangle 2 0 0 10.0 10.0).withParent (.shape 1))).put
        (Shape.note 3 40.0 40.0 8.0 8.0)
    let e : Editor Binary64 := { Editor.initial Config.standard with selection := [2] }
    let opening : Opening Binary64 := .begin .translate ⟨5.0, 5.0⟩ Modifiers.none
    let steps : List (Interim Binary64) := [.move ⟨25.0, 5.0⟩ Modifiers.none, .remove 3,
      .press ⟨⟨9.0, 9.0⟩, none, Modifiers.none, false⟩, .move ⟨30.0, 45.0⟩ Modifiers.shiftOnly]
    d.Keyed ∧ e.phase.isSession = false ∧ (opening.run (e, ⟨d, []⟩)).1.phase.isSession = true ∧
      ∀ id shape, (Abort.escapeKey.run (Interim.runAll (opening.run (e, ⟨d, []⟩))
        steps)).2.document.get? id = some shape → d.get? id = some shape := by
  intro d e opening steps
  have hbegun : (opening.run (e, ⟨d, []⟩)).1.phase.isSession = true := by decide +kernel +revert
  have hkeyed : d.Keyed := ((Document.keyed_empty.put _).put _).put _
  exact ⟨hkeyed, rfl, hbegun,
    (Abort.restores e ⟨d, []⟩ opening steps .escapeKey hkeyed rfl hbegun).2.1⟩

end CanvasTransform
