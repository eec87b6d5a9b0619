import CanvasTransform.Proofs.Editor.Calls
import CanvasTransform.Proofs.Session.Undo

set_option autoImplicit false

/-! # Presses that wait for the end of a session

A press that comes while a session is running is put into the queue, and that is all it does: a run
with presses in it is the run without them, but for the queue (`Interim.runAll_eq`). When the session
ends, the queue is replayed. The replay is a loop that hands one waiting press at a time to the
dispatcher (`Editor.replay?`), and what the dispatcher does could in principle begin a session or put
presses back into the queue. It does neither, because no press leads from a state in which something
is held, so the loop is over after as many turns as presses were waiting, and comes to what
`Editor.finish` computes in one go (`Editor.replay?_eq_finish`).

So the first press that is not on the canvas, as it finds the document when the session has ended, is
what the user is in the middle of then, and no other press has any effect (`Ending.resolves`). -/

namespace CanvasTransform

variable {α : Type}

/-! ## The end of a session -/

/-- The ways in which a session ends. -/
inductive Ending (α : Type)
  | release (p : Point α) (modifiers : Modifiers)
  | complete
  | abort (a : Abort)

namespace Ending

variable [Scalar α]

/-- Ask for the session to end. -/
def run (state : Editor α × Store α) : Ending α → Editor α × Store α
  | .release p m => state.1.handle state.2 (.release p m)
  | .complete => (state.1.completeSession state.2.document, state.2)
  | .abort a => a.run state

/-- The store that the end of a session leaves: as it was, or with everything undone. -/
def leave (store : Store α) (s : Session α) : Ending α → Store α
  | .abort _ => store.update s.revert
  | _ => store

/-- However a session ends, the store is settled first and the queue is replayed on it. -/
theorem run_eq {e : Editor α} {s : Session α} (h : e.session? = some s) (store : Store α)
    (ending : Ending α) : ending.run (e, store) =
      ({ e with interaction := .idle }.finish (ending.leave store s).document,
        ending.leave store s) := by
  have hcomplete : e.completeSession store.document =
      { e with interaction := .idle }.finish store.document := by
    rw [Editor.completeSession, h]
  cases ending with
  | release p m =>
      have hhandle : e.handle store (.release p m) = (e.completeSession store.document, store) :=
        Editor.handle_of_session h
      simp only [run, hhandle, hcomplete, leave]
  | complete => simp only [run, hcomplete, leave]
  | abort a => exact (Abort.run_eq h store a).trans (Editor.cancelSession_of_session h store)

end Ending

/-! ## Waiting -/

namespace Interim

/-- The press that a step brings, if it brings one. -/
def press? : Interim α → Option (Press α)
  | .press p => some p
  | _ => none

/-- The presses among steps, in their order. -/
def presses (steps : List (Interim α)) : List (Press α) := steps.filterMap press?

/-- The steps that are no presses. -/
def withoutPresses (steps : List (Interim α)) : List (Interim α) := steps.filter (·.press?.isNone)

variable [Scalar α] {e : Editor α} {s : Session α}

/-- A press joins the queue, and any other step does what it does whatever is in the queue. -/
theorem run_withQueue (store : Store α) (h : e.session? = some s) (step : Interim α)
    (queue : List (Press α)) :
    step.run ({ e with deferred := queue }, store) =
      match step.press? with
      | some p => ({ e with deferred := queue ++ [p] }, store)
      | none => ({ (step.run (e, store)).1 with deferred := queue }, (step.run (e, store)).2) := by
  have hqueue : ({ e with deferred := queue } : Editor α).session? = some s := h
  cases step with
  | press p => exact Editor.handle_press_of_session hqueue p
  | move p m =>
      simp only [run, press?]
      rw [Editor.handle_move_of_session h, Editor.handle_move_of_session hqueue]
      rfl
  | modifiers m now =>
      simp only [run, press?]
      rw [Editor.handle_modifiers_of_session h, Editor.handle_modifiers_of_session hqueue]
      rfl
  | tick now =>
      simp only [run, press?]
      rw [Editor.handle_tick_of_session h, Editor.handle_tick_of_session hqueue]
  | update p m =>
      simp only [run, press?, Editor.updateSession, h, hqueue]
      rfl
  | select ids =>
      simp only [run, press?, Editor.select, Editor.isSession_of_session h,
        Editor.isSession_of_session hqueue, if_true]
  | camera | resizeSelection | flipHorizontal | flipVertical | remove => rfl

/-- **Presses only queue up**: a run is the run without its presses, and these are in the queue, in the
    order in which they came. -/
theorem runAll_eq (store : Store α) (h : e.session? = some s) (steps : List (Interim α)) :
    runAll (e, store) steps =
      ({ (runAll (e, store) (withoutPresses steps)).1 with deferred := e.deferred ++ presses steps },
        (runAll (e, store) (withoutPresses steps)).2) := by
  -- told for any queue to begin with, since the queue grows along the run
  have hqueue : ∀ (steps : List (Interim α)) (e : Editor α) (store : Store α) (s : Session α),
      e.session? = some s → ∀ queue, runAll ({ e with deferred := queue }, store) steps =
        ({ (runAll (e, store) (withoutPresses steps)).1 with deferred := queue ++ presses steps },
          (runAll (e, store) (withoutPresses steps)).2) := by
    intro steps
    induction steps with
    | nil =>
        intro e store s _ queue
        simp [runAll, withoutPresses, presses]
    | cons step steps ih =>
        intro e store s h queue
        have hstep := run_withQueue store h step queue
        have hcons : runAll ({ e with deferred := queue }, store) (step :: steps) =
            runAll (step.run ({ e with deferred := queue }, store)) steps := rfl
        rw [hcons, hstep]
        cases hp : step.press? with
        | some p =>
            have hout : withoutPresses (step :: steps) = withoutPresses steps := by
              simp [withoutPresses, hp]
            have hin : presses (step :: steps) = p :: presses steps := by simp [presses, hp]
            rw [hout, hin, List.append_cons]
            exact ih e store s h _
        | none =>
            have hout : withoutPresses (step :: steps) = step :: withoutPresses steps := by
              simp [withoutPresses, hp]
            have hin : presses (step :: steps) = presses steps := by simp [presses, hp]
            obtain ⟨s', hs', -⟩ := kind_run store h step
            rw [hout, hin]
            exact ih (step.run (e, store)).1 (step.run (e, store)).2 s' hs' queue
  exact hqueue steps e store s h e.deferred

theorem exists_session_runAll (store : Store α) (h : e.session? = some s)
    (steps : List (Interim α)) :
    ∃ s', (runAll (e, store) steps).1.session? = some s' := by
  obtain ⟨s', hs', -⟩ := kind_runAll store h steps
  exact ⟨s', hs'⟩

/-- What is in the queue after a run without presses is what was there. -/
theorem deferred_runAll (store : Store α) (h : e.session? = some s)
    {steps : List (Interim α)} (hsteps : presses steps = []) :
    (runAll (e, store) steps).1.deferred = e.deferred := by
  rw [runAll_eq store h, hsteps, List.append_nil]

omit [Scalar α] in
theorem presses_withoutPresses (steps : List (Interim α)) : presses (withoutPresses steps) = [] := by
  simp only [presses, withoutPresses, List.filterMap_eq_nil_iff, List.mem_filter]
  exact fun step hstep => by simpa using hstep.2

end Interim

theorem Opening.presses_lead (opening : Opening α) : Interim.presses opening.lead = [] := by
  cases opening <;> rfl

/-! ## The replay as a loop -/

namespace Editor

variable [Scalar α] {e : Editor α} {store : Store α}

/-- One turn of the replay: while no session is running, the press that has waited longest leaves the
    queue and goes to the dispatcher. There is none when a session is running, or when no press is
    waiting. -/
def replayNext? (state : Editor α × Store α) : Option (Editor α × Store α) :=
  if state.1.phase.isSession then none
  else
    match state.1.deferred with
    | [] => none
    | p :: rest => some ({ state.1 with deferred := rest }.handle state.2 (.press p))

/-- Replay waiting presses until there is no further turn. No answer if that is not so after `n`
    turns. -/
def replay? : Nat → Editor α × Store α → Option (Editor α × Store α)
  | 0, state => if (replayNext? state).isNone then some state else none
  | n + 1, state =>
    match replayNext? state with
    | none => some state
    | some next => replay? n next

/-- A press does not look at the queue, unless it joins it. -/
theorem press_withQueue (h : e.phase.isSession = false) (d : Document α) (p : Press α)
    (queue : List (Press α)) :
    { e with deferred := queue }.press d p = { e.press d p with deferred := queue } := by
  have htarget : ({ e with deferred := queue } : Editor α).targetOf d p = e.targetOf d p := rfl
  rcases e.trichotomy with hi | ⟨held, hi⟩ | ⟨s, hi⟩
  · rw [press_of_idle hi, press_of_idle (e := { e with deferred := queue }) hi, htarget]
    split <;> rfl
  · rw [press_of_pointing hi, press_of_pointing (e := { e with deferred := queue }) hi]
  · rw [isSession_of_session hi] at h
    exact nomatch h

/-- The loop hands the waiting presses to the dispatcher in turn, and is over when the last one is
    taken. -/
theorem replay?_eq_foldl (queue : List (Press α)) (h : e.phase.isSession = false) {n : Nat}
    (hn : queue.length ≤ n) (hempty : e.deferred = []) :
    replay? n ({ e with deferred := queue }, store) =
      some (queue.foldl (fun e p => e.press store.document p) e, store) := by
  induction queue generalizing e n with
  | nil =>
      have hnext : replayNext? ({ e with deferred := [] }, store) = none := by
        simp [replayNext?]
      have hsame : ({ e with deferred := [] } : Editor α) = e := by rw [← hempty]
      rw [hsame] at hnext
      rw [hsame, List.foldl_nil]
      cases n with
      | zero => rw [replay?, hnext, Option.isNone_none, if_pos rfl]
      | succ n => simp only [replay?, hnext]
  | cons p rest ih =>
      obtain ⟨n, rfl⟩ : ∃ m, n = m + 1 := ⟨n - 1, by simp at hn; omega⟩
      have hnext : replayNext? ({ e with deferred := p :: rest }, store) =
          some ({ e.press store.document p with deferred := rest }, store) := by
        have hphase : ({ e with deferred := p :: rest } : Editor α).phase.isSession = false := h
        simp only [replayNext?, hphase, Bool.false_eq_true, if_false, handle_press]
        rw [← press_withQueue h]
      have hqueue : (e.press store.document p).deferred = [] := by
        have hpress := press_withQueue h store.document p []
        have hsame : ({ e with deferred := [] } : Editor α) = e := by rw [← hempty]
        rw [hsame] at hpress
        rw [hpress]
      simp only [replay?, hnext, List.foldl_cons]
      exact ih (press_phase h store.document p) (by simp at hn; omega) hqueue

/-- **The replay ends**, after as many turns as presses were waiting, with what is left when nothing
    is going on any more. -/
theorem replay?_eq_finish (h : e.phase.isSession = false) {n : Nat} (hn : e.deferred.length ≤ n) :
    replay? n ({ e with snapLines := [], cursor := Cursor.idle }, store) =
      some (e.finish store.document, store) :=
  replay?_eq_foldl (e := { e with snapLines := [], cursor := Cursor.idle, deferred := [] })
    e.deferred h hn rfl

/-! ## Presses and the end of a session -/

/-- What becomes of presses that waited for the end of a session, if `rested` is what is left without
    them and `after` is what is left with them. -/
structure Resolved (presses : List (Press α)) (rested after : Editor α × Store α) : Prop where
  /-- Without them, nothing is going on any more. -/
  idle : rested.1.interaction = .idle ∧ rested.1.deferred = []
  /-- They write nothing. -/
  store : after.2 = rested.2
  /-- None is waiting any more. -/
  queue : after.1.deferred = []
  /-- They do what the first of them does that is not on the canvas, and the others do nothing. -/
  first : after =
    match presses.find? fun p => rested.1.targetOf rested.2.document p != .canvas with
    | some p => rested.1.handle rested.2 (.press p)
    | none => rested
  /-- This press is held. -/
  held : after.1.interaction =
    match presses.find? fun p => rested.1.targetOf rested.2.document p != .canvas with
    | some p => p.held (rested.1.targetOf rested.2.document p)
    | none => .idle

/-- Presses taken in turn while nothing is held come to what the first of them does that is not on the
    canvas: it is held, and a press does nothing to what is held. -/
theorem foldl_press_eq_handle (store : Store α) (h : e.interaction = .idle)
    (presses : List (Press α)) :
    (presses.foldl (fun e p => e.press store.document p) e, store) =
      match presses.find? fun p => e.targetOf store.document p != .canvas with
      | some p => e.handle store (.press p)
      | none => (e, store) := by
  rw [foldl_press_of_idle h, holdFirst]
  cases hfirst : presses.find? fun p => e.targetOf store.document p != .canvas with
  | none => simp only [← h]
  | some p =>
      have htarget : ¬ e.targetOf store.document p = .canvas := by
        simpa using List.find?_some hfirst
      simp only [handle_press, press_of_idle h, if_neg htarget]

/-- Presses that waited are resolved when nothing is going on any more. -/
theorem resolved_finish (h : e.interaction = .idle) (hempty : e.deferred = []) (store : Store α)
    (presses : List (Press α)) :
    Resolved presses (e.finish store.document, store)
      ({ e with deferred := presses }.finish store.document, store) := by
  have hwithout : e.finish store.document =
      { e with snapLines := [], cursor := Cursor.idle, deferred := [] } := by
    rw [finish, hempty, List.foldl_nil]
  rw [hwithout]
  have hfirst := foldl_press_eq_handle store
    (e := { e with snapLines := [], cursor := Cursor.idle, deferred := [] }) h presses
  have hheld := foldl_press_of_idle (d := store.document)
    (e := { e with snapLines := [], cursor := Cursor.idle, deferred := [] }) h presses
  exact
    { idle := ⟨h, rfl⟩
      store := rfl
      queue := congrArg Editor.deferred hheld
      first := hfirst
      held := congrArg Editor.interaction hheld }

end Editor

/-- **Presses during a session are resolved once, in their order.** A session that has begun goes on
    for any number of steps and then ends in any way. The presses among the steps have no effect but
    to wait in the queue: editor and store are those of the run without them, and so they are after
    one press more. When the session ends, the loop that hands the waiting presses to the dispatcher
    is over after as many turns as presses were waiting, nothing is written by it and the queue is
    empty. And what is left is what the session without presses leaves, after the first press that is
    not on the canvas, as that is found on the document that the session leaves. -/
theorem Ending.resolves {ok : Store α → Prop} [Scalar α] {e : Editor α} (he : e.Reachable ok)
    (store : Store α) (opening : Opening α) (steps : List (Interim α)) (ending : Ending α)
    (hbefore : e.phase.isSession = false)
    (hopen : (opening.run (e, store)).1.phase.isSession = true) :
    let presses := Interim.presses steps
    let undisturbed := Interim.runAll (opening.run (e, store)) (Interim.withoutPresses steps)
    let before := Interim.runAll (opening.run (e, store)) steps
    let rested := ending.run undisturbed
    let after := ending.run before
    before = ({ undisturbed.1 with deferred := presses }, undisturbed.2) ∧
    (∀ p, before.1.handle before.2 (.press p) =
      ({ before.1 with deferred := presses ++ [p] }, before.2)) ∧
    (∀ n, presses.length ≤ n → Editor.replay? n ({ before.1 with
      interaction := .idle, snapLines := [], cursor := Cursor.idle }, rested.2) = some after) ∧
    Editor.Resolved presses rested after := by
  intro presses undisturbed before rested after
  obtain ⟨s, hs⟩ := Editor.exists_session_of_isSession hopen
  -- the queue is empty when the session begins
  have hopened : (opening.run (e, store)).1.deferred = [] := by
    obtain ⟨kind, origin, flags, snapshot, -, hrun⟩ := Opening.run_eq hbefore hopen
    rw [hrun, Interim.deferred_runAll _ (Editor.session?_withSession e _ _ _ _) opening.presses_lead]
    exact (he.consistent.resting hbefore).1
  have hqueue : before = ({ undisturbed.1 with deferred := presses }, undisturbed.2) := by
    have hrun := Interim.runAll_eq (opening.run (e, store)).2 hs steps
    rwa [hopened, List.nil_append] at hrun
  have hempty : undisturbed.1.deferred = [] :=
    (Interim.deferred_runAll _ hs (Interim.presses_withoutPresses steps)).trans hopened
  obtain ⟨t, ht⟩ : ∃ t, undisturbed.1.session? = some t :=
    Interim.exists_session_runAll _ hs _
  have hbefore' : before.1.session? = some t := by rw [hqueue]; exact ht
  have hrested : rested = ({ undisturbed.1 with interaction := .idle }.finish
      (ending.leave undisturbed.2 t).document, ending.leave undisturbed.2 t) :=
    ending.run_eq ht undisturbed.2
  have hafter : after = (({ undisturbed.1 with interaction := .idle, deferred := presses } :
      Editor α).finish (ending.leave undisturbed.2 t).document, ending.leave undisturbed.2 t) := by
    have hend := ending.run_eq hbefore' before.2
    rw [hqueue] at hend
    rw [← hend, ← hqueue]
  refine ⟨hqueue, fun p => ?_, fun n hn => ?_, ?_⟩
  · rw [Editor.handle_press_of_session hbefore' p, hqueue]
  · rw [hafter, hrested, hqueue]
    exact Editor.replay?_eq_finish
      (e := { undisturbed.1 with interaction := .idle, deferred := presses }) rfl hn
  · rw [hafter, hrested]
    exact Editor.resolved_finish (e := { undisturbed.1 with interaction := .idle }) rfl hempty _ _

/-- Presses that come while a note is dragged, on the canvas, on the selection and on a handle. The drag
    is cancelled, and the press on the selection is held. -/
theorem Ending.resolves_presses_on_dragged_note :
    let store : Store Binary64 := ⟨Document.empty.put (Shape.note 1 0 0 10.0 10.0), []⟩
    let e := (Call.run (Editor.initial Config.standard, store) (.select [1])).1
    let opening : Opening Binary64 := .begin .translate ⟨5.0, 5.0⟩ Modifiers.none
    let steps : List (Interim Binary64) := [
      .press ⟨⟨50.0, 5.0⟩, some .canvas, Modifiers.none, false⟩, .move ⟨405.0, 5.0⟩ Modifiers.none,
      .press ⟨⟨6.0, 4.0⟩, some .selection, Modifiers.none, true⟩, .tick 9,
      .press ⟨⟨0, 0⟩, some (.handle .rotate), Modifiers.none, false⟩]
    let after := (Ending.abort .escapeKey).run (Interim.runAll (opening.run (e, store)) steps)
    e.Reachable (fun _ => True) ∧ e.phase.isSession = false ∧
      (opening.run (e, store)).1.phase.isSession = true ∧
      after.1.interaction = .pointingSelection ⟨⟨6.0, 4.0⟩, none, true⟩ ∧
      after.1.deferred = [] := by
  intro store e opening steps after
  have hopen : (opening.run (e, store)).1.phase.isSession = true := by decide +kernel +revert
  have hreach : e.Reachable fun _ => True := .call (.initial Config.standard) trivial _
  have hresolved : Editor.Resolved (Interim.presses steps) _ after :=
    (Ending.resolves hreach store opening steps (.abort .escapeKey) rfl hopen).2.2.2
  refine ⟨hreach, rfl, hopen, hresolved.held.trans ?_, hresolved.queue⟩
  simp [Interim.presses, Interim.press?, steps, Editor.targetOf, Press.held, Target.phase,
    Target.handle?, Interaction.ofPress]

end CanvasTransform
