import CanvasTransform.Proofs.Editor.Journal
import CanvasTransform.Proofs.Editor.Replay

set_option autoImplicit false

/-! # Events and direct calls

A session can be run with input events, which go through the table of transitions, or with calls
that go past it. The two ways write different fields in different places. A press on a handle or on
the selection remembers itself and leaves the cursor alone, and the session begins with the move
that takes the press far enough; `Editor.beginSession` knows of no press. A cancel that comes while
something is held only lets go of it; `Editor.cancelSession` clears the snap lines and replays the
queue as well.

They come to the same (`Editor.Reachable.interfaces_agree`). Dragging is beginning and updating,
because what a press remembers is what the session is begun with, and nothing of the press is left
in the session (`Editor.runAll_drag`). Cancelling is cancelling on all editors that calls lead to,
because these show no snap lines and have an empty queue while no session is running
(`Editor.Consistent`). -/

namespace CanvasTransform

variable {α : Type}

/-- The kind of session that dragging what is under the pointer begins. The canvas begins none. -/
def Target.sessionKind? : Target → Option SessionKind
  | handle .rotate => some .rotate
  | handle h => some (.resize h)
  | selection => some .translate
  | canvas => none

theorem Target.sessionKind?_eq_some_iff {target : Target} {kind : SessionKind} :
    target.sessionKind? = some kind ↔
      target ≠ .canvas ∧ .ofDrag target.phase.dragged target.handle? = kind := by
  cases target with
  | handle h => cases h <;> simp [sessionKind?, phase, Phase.dragged, handle?, SessionKind.ofDrag]
  | selection => simp [sessionKind?, phase, Phase.dragged, handle?, SessionKind.ofDrag]
  | canvas => simp [sessionKind?]

/-- A press that is dragged: the press, where the pointer goes from there, and the move that is
    meant to begin a session. -/
structure Drag (α : Type) where
  press : Press α
  stray : List (Point α × Modifiers)
  goal : Point α
  modifiers : Modifiers

namespace Drag

/-- The drag as input events. -/
def events (drag : Drag α) : List (Call α) :=
  .handle (.press drag.press) :: drag.stray.map (fun q => .handle (.move q.1 q.2)) ++
    [.handle (.move drag.goal drag.modifiers)]

/-- The drag as direct calls. -/
def calls (drag : Drag α) (kind : SessionKind) : List (Call α) :=
  [.begin kind drag.press.point drag.modifiers, .update drag.goal drag.modifiers]

variable [Scalar α]

/-- The last move takes the press far enough to begin a session, and none before it does. -/
def Leaves (drag : Drag α) (e : Editor α) : Prop :=
  (∀ q ∈ drag.stray, ¬ e.dragsFrom drag.press.point drag.press.coarse q.1) ∧
    e.dragsFrom drag.press.point drag.press.coarse drag.goal

end Drag

namespace Editor

variable [Scalar α] {e : Editor α} {store : Store α}

/-! ## Dragging -/

/-- Moves that do not take a press far enough leave everything as it is. -/
theorem runAll_moves_of_pointing {held : Pointing α} (h : e.interaction.pointing? = some held)
    (store : Store α) {moves : List (Point α × Modifiers)}
    (hmoves : ∀ q ∈ moves, ¬ e.dragsFrom held.origin held.coarse q.1) :
    Call.runAll (e, store) (moves.map fun q => .handle (.move q.1 q.2)) = (e, store) := by
  induction moves with
  | nil => rfl
  | cons q moves ih =>
      have hq : q.1.distance held.origin ≤
          e.camera.screenDistance (e.config.dragThreshold held.coarse) :=
        not_not.mp (hmoves q List.mem_cons_self)
      have hstep : e.handle store (.move q.1 q.2) = (e, store) := by
        rw [handle_move_of_pointing h, startSessionIfDragged_of_pointing h]
        exact if_pos hq
      rw [List.map_cons, Call.runAll_cons, Call.run, hstep]
      exact ih fun r hr => hmoves r (List.mem_cons_of_mem _ hr)

/-- Beginning and updating in one go: from a state without a session, a session runs then, or there
    was nothing to transform and nothing is going on. -/
theorem runAll_begin_update (h : e.phase.isSession = false) (store : Store α) (kind : SessionKind)
    (origin p : Point α) (m : Modifiers) :
    Call.runAll (e, store) [.begin kind origin m, .update p m] =
      match e.capture? store.document with
      | none => ({ e with interaction := .idle }, store)
      | some snapshot => (e.withSession kind origin m.flags snapshot).recompute store
          ((Session.start kind origin m.flags snapshot).moveTo p m.flags) := by
  have hcalls : Call.runAll (e, store) [.begin kind origin m, .update p m] =
      (e.beginSession store.document kind origin m).2.updateSession store p m := rfl
  rw [hcalls, beginSession_of_not_isSession h]
  cases e.capture? store.document with
  | none => rfl
  | some snapshot => simp only [updateSession, session?_withSession]

/-- **Dragging is beginning and updating**, also when there is nothing to transform. -/
theorem runAll_drag (h : e.interaction = .idle) {drag : Drag α} {kind : SessionKind}
    (hkind : (e.targetOf store.document drag.press).sessionKind? = some kind)
    (hleaves : drag.Leaves e) :
    Call.runAll (e, store) drag.events = Call.runAll (e, store) (drag.calls kind) := by
  obtain ⟨htarget, hdrag⟩ := Target.sessionKind?_eq_some_iff.mp hkind
  let target := e.targetOf store.document drag.press
  let held : Pointing α := ⟨drag.press.point, target.handle?, drag.press.coarse⟩
  let pressed : Editor α := { e with interaction := drag.press.held target }
  have hheld : pressed.interaction.pointing? = some held := drag.press.pointing?_held target
  have hpressed : pressed.phase = target.phase := drag.press.phase_held target
  have hpress : e.handle store (.press drag.press) = (pressed, store) := by
    rw [handle_press, press_of_idle h, if_neg htarget]
  have hstray : Call.runAll (pressed, store)
      (drag.stray.map fun q => .handle (.move q.1 q.2)) = (pressed, store) :=
    runAll_moves_of_pointing hheld store hleaves.1
  have hevents : Call.runAll (e, store) drag.events =
      pressed.startSessionIfDragged store drag.goal drag.modifiers target.phase.dragged := by
    have hbefore : Call.runAll (e, store) (.handle (.press drag.press) ::
        drag.stray.map fun q => .handle (.move q.1 q.2)) = (pressed, store) := by
      rw [Call.runAll_cons, Call.run, hpress]
      exact hstray
    rw [Drag.events, Call.runAll_append, hbefore]
    rw [← hpressed]
    exact handle_move_of_pointing hheld _ _
  have hphase : e.phase.isSession = false := by rw [phase, h]; rfl
  rw [hevents, startSessionIfDragged_of_pointing hheld, Drag.calls, runAll_begin_update hphase,
    ← hdrag]
  -- neither the capture nor a new session looks at what is held
  exact if_neg hleaves.2

/-- A resize session may be begun by its handle as well. -/
theorem beginResize_eq_beginSession {target : Target} {handle : Handle}
    (h : target.sessionKind? = some (.resize handle)) (d : Document α) (origin : Point α)
    (m : Modifiers) :
    e.beginResize d handle origin m = e.beginSession d (.resize handle) origin m := by
  have hresize : handle.isResize = true := by
    cases target with
    | handle grabbed =>
        cases grabbed with
        | rotate => cases h
        | _ => cases h; rfl
    | _ => cases h
  rw [beginResize, if_pos hresize]

/-! ## Cancelling and completing -/

/-- A cancel that lets go of what is held leaves nothing for `Editor.cancelSession` to clear. -/
theorem cancelSession_of_pointing (he : e.Consistent) {held : Pointing α}
    (h : e.interaction.pointing? = some held) (store : Store α) :
    e.cancelSession store = ({ e with interaction := .idle, cursor := Cursor.idle }, store) := by
  obtain ⟨hdeferred, hlines, -⟩ := he.resting (isSession_of_pointing h)
  have hsession : e.session? = none := Interaction.session?_of_pointing? h
  rw [cancelSession_eq, hsession]
  simp only [resumption, holdFirst, hdeferred, List.find?_nil, ← hlines]

/-- The ways to cancel are one. -/
theorem abort_run_eq (he : e.Consistent) (h : e.interaction ≠ .idle) (store : Store α)
    (abort : Abort) : abort.run (e, store) = e.cancelSession store := by
  rcases e.trichotomy with hi | ⟨held, hi⟩ | ⟨s, hi⟩
  · exact absurd hi h
  · have hcancel : ∀ event : Event α, event.isCancel = true →
        e.handle store event = e.cancelSession store := by
      intro event hevent
      rw [handle_of_pointing hi, if_pos hevent, cancelSession_of_pointing he hi]
    cases abort with
    | cancelEvent => exact hcancel .cancel rfl
    | escapeKey => exact hcancel (.key Event.cancelKey) (beq_self_eq_true _)
    | cancelSession => rfl
  · exact Abort.run_eq hi store abort

/-- **The two interfaces agree**, on every editor that calls lead to, whatever the stores that they
    were on. While nothing is going on, a press on something that can be dragged, moves that do not
    take it far enough and one that does leave the editor and the store as beginning a session of
    the kind with the press and updating it with the last move do; a resize session may be begun by
    its handle. While something is going on, the event and the key that cancel do what cancelling
    does. And while a session is running, a release does what completing does. -/
theorem Reachable.interfaces_agree {ok : Store α → Prop} (h : e.Reachable ok) (store : Store α) :
    (e.interaction = .idle → ∀ (drag : Drag α) (kind : SessionKind),
      (e.targetOf store.document drag.press).sessionKind? = some kind → drag.Leaves e →
      Call.runAll (e, store) drag.events = Call.runAll (e, store) (drag.calls kind) ∧
      ∀ handle, kind = .resize handle → Call.runAll (e, store) drag.events = Call.runAll (e, store)
        [.beginResize handle drag.press.point drag.modifiers, .update drag.goal drag.modifiers]) ∧
    (e.interaction ≠ .idle → ∀ abort : Abort, abort.run (e, store) = e.cancelSession store) ∧
    ∀ s, e.session? = some s → ∀ p m,
      e.handle store (.release p m) = (e.completeSession store.document, store) := by
  refine ⟨fun hidle drag kind hkind hleaves => ?_,
    fun hbusy abort => abort_run_eq h.consistent hbusy store abort,
    fun _ hsession _ _ => handle_of_session hsession⟩
  have hdrag := runAll_drag hidle hkind hleaves
  refine ⟨hdrag, ?_⟩
  rintro handle rfl
  have hbegin : Call.run (e, store) (.beginResize handle drag.press.point drag.modifiers) =
      Call.run (e, store) (.begin (.resize handle) drag.press.point drag.modifiers) := by
    rw [Call.run, Call.run, beginResize_eq_beginSession hkind]
  rw [hdrag, Drag.calls, Call.runAll_cons, ← hbegin]
  rfl

/-- A note dragged by a corner, with a move on the way that is too short; the press of it cancelled
    with the key, and the session of it released. -/
theorem Reachable.interfaces_agree_dragged_corner :
    let store : Store Binary64 := ⟨Document.empty.put (Shape.note 1 0 0 10.0 10.0), []⟩
    let e := (Call.run (Editor.initial Config.standard, store) (.select [1])).1
    let press : Press Binary64 :=
      ⟨⟨10.0, 10.0⟩, some (.handle (.corner .bottomRight)), Modifiers.none, false⟩
    let drag : Drag Binary64 :=
      ⟨press, [(⟨12.0, 11.0⟩, Modifiers.shiftOnly)], ⟨30.0, 25.0⟩, Modifiers.none⟩
    let kind : SessionKind := .resize (.corner .bottomRight)
    let pressed := e.handle store (.press press)
    let begun := Call.run (e, store) (.begin kind ⟨10.0, 10.0⟩ Modifiers.none)
    e.Reachable (fun _ => True) ∧ e.interaction = .idle ∧
      (e.targetOf store.document press).sessionKind? = some kind ∧ drag.Leaves e ∧
      Call.runAll (e, store) drag.events = Call.runAll (e, store) (drag.calls kind) ∧
      pressed.1.interaction ≠ .idle ∧
      Abort.escapeKey.run pressed = pressed.1.cancelSession pressed.2 ∧
      begun.1.phase = .resizing ∧ begun.1.handle begun.2 (.release ⟨30.0, 25.0⟩ Modifiers.none) =
        (begun.1.completeSession begun.2.document, begun.2) := by
  intro store e press drag kind pressed begun
  have hphase : begun.1.phase = .resizing := by decide +kernel +revert
  have hstray : (⟨12.0, 11.0⟩ : Point Binary64).distance ⟨10.0, 10.0⟩ ≤
      e.camera.screenDistance (e.config.dragThreshold false) := by
    clear hphase
    decide +kernel +revert
  have hgoal : ¬ (⟨30.0, 25.0⟩ : Point Binary64).distance ⟨10.0, 10.0⟩ ≤
      e.camera.screenDistance (e.config.dragThreshold false) := by
    clear hphase hstray
    decide +kernel +revert
  have hkind : (e.targetOf store.document press).sessionKind? = some kind := rfl
  have hleaves : drag.Leaves e :=
    ⟨fun q hq => by rw [List.mem_singleton.mp hq]; exact not_not.mpr hstray, hgoal⟩
  have hpressed : pressed.1.interaction ≠ .idle := by
    rw [show pressed = e.handle store (.press press) from rfl, handle_press, press_of_idle rfl]
    exact nofun
  have hreach : e.Reachable fun _ => True := .call (.initial Config.standard) trivial _
  obtain ⟨s, hs⟩ := exists_session_of_isSession (e := begun.1) (by rw [hphase]; rfl)
  have hpress : pressed.1.Reachable fun _ => True := .call hreach trivial (.handle (.press press))
  have hbegin : begun.1.Reachable fun _ => True := .call hreach trivial _
  exact ⟨hreach, rfl, hkind, hleaves,
    ((Reachable.interfaces_agree hreach store).1 rfl drag kind hkind hleaves).1, hpressed,
    (Reachable.interfaces_agree hpress pressed.2).2.1 hpressed .escapeKey, hphase,
    (Reachable.interfaces_agree hbegin begun.2).2.2 s hs _ _⟩

end Editor

end CanvasTransform
