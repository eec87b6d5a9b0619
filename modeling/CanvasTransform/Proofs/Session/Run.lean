import CanvasTransform.Editor.Dispatch
import CanvasTransform.Editor.Resizing
import CanvasTransform.Proofs.Editor.Interaction

set_option autoImplicit false

/-! # Runs of a session

A session begins (`Opening`), goes on for a while (`Interim`), and is completed or aborted (`Abort`).
Each is a small vocabulary of things that are asked of an editor and its store, with a `run` that
asks for them through the editor's own operations.

What a step does to a running session is said once, by two lemmas: a step that steers the session
(`Interim.steer?`) recomputes it (`Interim.run_of_steer`), and any other step leaves the work of the
session alone and writes nothing (`Interim.run_of_not_steer`). Everything about runs is derived from
these two. -/

namespace CanvasTransform

variable {α : Type}

/-! ## The vocabulary -/

/-- What can be asked of an editor and its store while a session is running. -/
inductive Interim (α : Type)
  | move (p : Point α) (modifiers : Modifiers)
  | modifiers (modifiers : Modifiers) (now : Nat)
  | tick (now : Nat)
  | press (p : Press α)
  | update (p : Point α) (modifiers : Modifiers)
  | camera (c : Camera α)
  | select (ids : List ShapeId)
  | resizeSelection (factors : Vec α) (origin : ScaleOrigin α)
  | flipHorizontal
  | flipVertical
  /-- Someone else removes a shape from the store, with everything beneath it. -/
  | remove (id : ShapeId)

/-- The ways in which a session begins. -/
inductive Opening (α : Type)
  | begin (kind : SessionKind) (origin : Point α) (modifiers : Modifiers)
  | beginResize (h : Handle) (origin : Point α) (modifiers : Modifiers)
  /-- The pointer moves on after a press. -/
  | drag (p : Point α) (modifiers : Modifiers)

/-- The ways in which a session is undone. -/
inductive Abort
  | cancelEvent
  | escapeKey
  | cancelSession

/-- Whether a step takes shapes out of the store. -/
def Interim.isRemoval : Interim α → Bool
  | .remove _ => true
  | _ => false

section
variable [Scalar α]

/-- Ask an editor and its store for a step. -/
def Interim.run (state : Editor α × Store α) : Interim α → Editor α × Store α
  | .move p m => state.1.handle state.2 (.move p m)
  | .modifiers m now => state.1.handle state.2 (.modifiers m now)
  | .tick now => state.1.handle state.2 (.tick now)
  | .press p => state.1.handle state.2 (.press p)
  | .update p m => state.1.updateSession state.2 p m
  | .camera c => (state.1.withCamera c, state.2)
  | .select ids => (state.1.select ids, state.2)
  | .resizeSelection factors origin =>
    (state.1, (state.1.resizeSelection state.2 factors origin).2)
  | .flipHorizontal => (state.1, (state.1.flipHorizontal state.2).2)
  | .flipVertical => (state.1, (state.1.flipVertical state.2).2)
  | .remove id => (state.1, (state.2.remove id).2)

/-- Ask for steps in turn. -/
def Interim.runAll (state : Editor α × Store α) (steps : List (Interim α)) : Editor α × Store α :=
  steps.foldl Interim.run state

/-- Ask for a session to begin. -/
def Opening.run (state : Editor α × Store α) : Opening α → Editor α × Store α
  | .begin kind origin m => ((state.1.beginSession state.2.document kind origin m).2, state.2)
  | .beginResize h origin m => ((state.1.beginResize state.2.document h origin m).2, state.2)
  | .drag p m => state.1.handle state.2 (.move p m)

/-- Ask for the session to be undone. -/
def Abort.run (state : Editor α × Store α) : Abort → Editor α × Store α
  | .cancelEvent => state.1.handle state.2 .cancel
  | .escapeKey => state.1.handle state.2 (.key Event.cancelKey)
  | .cancelSession => state.1.cancelSession state.2

end

/-! ## The work of a session -/

namespace Session

/-- The sessions differ at most in the cloning indicator and its timer. -/
structure SameWork (s t : Session α) : Prop where
  kind : s.kind = t.kind
  origin : s.origin = t.origin
  current : s.current = t.current
  flags : s.flags = t.flags
  snapshot : s.snapshot = t.snapshot
  baseline : s.baseline = t.baseline

@[refl] theorem SameWork.refl (s : Session α) : s.SameWork s := ⟨rfl, rfl, rfl, rfl, rfl, rfl⟩

theorem sameWork_setAlt (s : Session α) (alt : Bool) (now delay : Nat) :
    (s.setAlt alt now delay).SameWork s := by
  unfold setAlt
  split
  · exact SameWork.refl s
  · split
    · split <;> exact ⟨rfl, rfl, rfl, rfl, rfl, rfl⟩
    · split
      · exact ⟨rfl, rfl, rfl, rfl, rfl, rfl⟩
      · exact SameWork.refl s

theorem sameWork_tick (s : Session α) (now : Nat) : (s.tick now).SameWork s := by
  have hfold : ∀ (due : List CosmeticTask) (t : Session α), t.SameWork s →
      (due.foldl perform t).SameWork s := by
    intro due
    induction due with
    | nil => intro t ht; exact ht
    | cons task due ih =>
        intro t ht
        cases task
        exact ih _ ⟨ht.kind, ht.origin, ht.current, ht.flags, ht.snapshot, ht.baseline⟩
  exact hfold _ _ ⟨rfl, rfl, rfl, rfl, rfl, rfl⟩

end Session

/-! ## Dispatch while a session is running -/

namespace Editor

variable {e : Editor α} {store : Store α} {s : Session α}

theorem trichotomy (e : Editor α) : e.interaction = .idle ∨
    (∃ held, e.interaction.pointing? = some held) ∨ ∃ s, e.session? = some s :=
  e.interaction.trichotomy

theorem isSession_of_session (h : e.session? = some s) : e.phase.isSession = true :=
  Interaction.isSession_of_session? h

theorem isPointing_of_pointing {held : Pointing α} (h : e.interaction.pointing? = some held) :
    e.phase.isPointing = true := Interaction.isPointing_of_pointing? h

/-- While something is held, no session is running. -/
theorem isSession_of_pointing {held : Pointing α} (h : e.interaction.pointing? = some held) :
    e.phase.isSession = false := Phase.isSession_of_isPointing (isPointing_of_pointing h)

/-- A session gives way to another, and the editor is otherwise as it was. -/
theorem session?_setSession (h : e.session? = some s) (s' : Session α) :
    ({ e with interaction := e.interaction.setSession s' } : Editor α).session? = some s' :=
  Interaction.session?_setSession h s'

variable [Scalar α]

/-- An event for which the table has a row is handed to what the row asks for. -/
theorem handle_of_find? {event : Event α} {trigger : Trigger} {t : Transition}
    (hc : e.classify? store.document event = some trigger)
    (ht : Transition.find? e.phase trigger = some t) :
    e.handle store event = (e.perform? store t event).getD (e, store) := by
  simp only [handle, hc, ht, Option.bind_eq_bind, Option.bind_some]

theorem handle_move_of_session (h : e.session? = some s) (p : Point α) (m : Modifiers) :
    e.handle store (.move p m) = e.recompute store (s.moveTo p m.flags) := by
  rw [handle_of_find? rfl (Transition.find?_session (isSession_of_session h) .move)]
  simp only [perform?, updateSession, h, Option.getD_some]

theorem handle_modifiers_of_session (h : e.session? = some s) (m : Modifiers) (now : Nat) :
    e.handle store (.modifiers m now) = e.recompute store
      ({ s with flags := m.flags }.setAlt m.alt now e.config.cloneRevertDelay.toNat) := by
  rw [handle_of_find? rfl (Transition.find?_session (isSession_of_session h) .modifiers)]
  simp only [perform?, updateModifiers, h, Option.getD_some]

theorem handle_tick_of_session (h : e.session? = some s) (now : Nat) :
    e.handle store (.tick now) =
      ({ e with interaction := e.interaction.setSession (s.tick now) }, store) := by
  rw [handle_of_find? rfl (Transition.find?_session (isSession_of_session h) .tick)]
  simp only [perform?, tick, h, Option.getD_some]

/-- A press that comes while a session is running waits for its end. -/
theorem handle_press_of_session (h : e.session? = some s) (p : Press α) :
    e.handle store (.press p) = ({ e with deferred := e.deferred ++ [p] }, store) := by
  rw [handle_of_find? rfl (Transition.find?_session_press (isSession_of_session h) _)]
  simp only [perform?, performPress?, Option.map_some, Option.getD_some]

theorem handle_of_isCancel (h : e.session? = some s) {event : Event α}
    (hc : event.isCancel = true) : e.handle store event = e.cancelSession store := by
  have hclass : e.classify? store.document event = some .cancel := by
    simp only [classify?, hc, if_true]
  rw [handle_of_find? hclass (Transition.find?_session (isSession_of_session h) .cancel)]
  simp only [perform?, Option.getD_some]

theorem resizeSelection_of_session (h : e.session? = some s) (factors : Vec α)
    (origin : ScaleOrigin α) : e.resizeSelection store factors origin = (.empty, store) := by
  rw [resizeSelection, if_pos (isSession_of_session h)]

end Editor

/-! ## Steps of a session -/

namespace Interim

/-- The session that a step recomputes, if it recomputes one. -/
def steer? (config : Config α) (s : Session α) : Interim α → Option (Session α)
  | .move p m | .update p m => some (s.moveTo p m.flags)
  | .modifiers m now =>
    some ({ s with flags := m.flags }.setAlt m.alt now config.cloneRevertDelay.toNat)
  | _ => none

variable {step : Interim α} {s s' : Session α}

/-- Steering changes where the pointer is and which flags are set, and neither what the session works
    on nor what it has written. -/
theorem steer?_keeps {config : Config α} (h : step.steer? config s = some s') :
    s'.kind = s.kind ∧ s'.origin = s.origin ∧ s'.snapshot = s.snapshot ∧
      s'.baseline = s.baseline := by
  cases step with
  | move p m | update p m =>
      obtain rfl := Option.some.inj h
      exact ⟨rfl, rfl, rfl, rfl⟩
  | modifiers m now =>
      obtain rfl := Option.some.inj h
      have := Session.sameWork_setAlt { s with flags := m.flags } m.alt now
        config.cloneRevertDelay.toNat
      exact ⟨this.kind, this.origin, this.snapshot, this.baseline⟩
  | _ => exact absurd h (by simp [steer?])

variable [Scalar α] {e : Editor α} {store : Store α}

/-- A step that steers the session recomputes it. -/
theorem run_of_steer (h : e.session? = some s) (hs : step.steer? e.config s = some s') :
    step.run (e, store) = e.recompute store s' := by
  cases step with
  | move p m =>
      obtain rfl := Option.some.inj hs
      exact Editor.handle_move_of_session h p m
  | modifiers m now =>
      obtain rfl := Option.some.inj hs
      exact Editor.handle_modifiers_of_session h m now
  | update p m =>
      obtain rfl := Option.some.inj hs
      simp only [run, Editor.updateSession, h]
  | _ => exact absurd hs (by simp [steer?])

/-- A step that does not steer the session leaves its work alone, and writes nothing: only a removal
    touches the store. -/
theorem run_of_not_steer (store : Store α) (h : e.session? = some s)
    (hs : step.steer? e.config s = none) :
    (∃ s', (step.run (e, store)).1.session? = some s' ∧ s'.SameWork s) ∧
      (step.run (e, store)).1.registry = e.registry ∧
      (step.run (e, store)).1.config = e.config ∧
      ((step.run (e, store)).2 = store ∨
        ∃ id, step = .remove id ∧ (step.run (e, store)).2 = (store.remove id).2) := by
  cases step with
  | move p m | modifiers m now | update p m => exact absurd hs (by simp [steer?])
  | tick now =>
      have hrun : (Interim.tick now).run (e, store) =
          ({ e with interaction := e.interaction.setSession (s.tick now) }, store) :=
        Editor.handle_tick_of_session h now
      rw [hrun]
      exact ⟨⟨_, Editor.session?_setSession h _, Session.sameWork_tick s now⟩, rfl, rfl, Or.inl rfl⟩
  | press p =>
      have hrun : (Interim.press p).run (e, store) =
          ({ e with deferred := e.deferred ++ [p] }, store) := Editor.handle_press_of_session h p
      rw [hrun]
      exact ⟨⟨s, h, Session.SameWork.refl s⟩, rfl, rfl, Or.inl rfl⟩
  | camera c => exact ⟨⟨s, h, Session.SameWork.refl s⟩, rfl, rfl, Or.inl rfl⟩
  | select ids =>
      have hrun : (Interim.select ids).run (e, store) = (e, store) := by
        simp only [run, Editor.select, Editor.isSession_of_session h, if_true]
      rw [hrun]
      exact ⟨⟨s, h, Session.SameWork.refl s⟩, rfl, rfl, Or.inl rfl⟩
  | resizeSelection factors origin =>
      -- refused while a session is running, and so are flips
      refine ⟨⟨s, h, Session.SameWork.refl s⟩, rfl, rfl, Or.inl ?_⟩
      exact congrArg Prod.snd (Editor.resizeSelection_of_session h factors origin)
  | flipHorizontal | flipVertical =>
      refine ⟨⟨s, h, Session.SameWork.refl s⟩, rfl, rfl, Or.inl ?_⟩
      exact congrArg Prod.snd (Editor.resizeSelection_of_session h _ _)
  | remove id => exact ⟨⟨s, h, Session.SameWork.refl s⟩, rfl, rfl, Or.inr ⟨id, rfl, rfl⟩⟩

/-- No step ends a session or changes its kind. -/
theorem kind_run (store : Store α) (h : e.session? = some s) (step : Interim α) :
    ∃ s', (step.run (e, store)).1.session? = some s' ∧ s'.kind = s.kind := by
  cases hsteer : step.steer? e.config s with
  | some s' =>
      rw [run_of_steer h hsteer]
      exact ⟨_, Editor.session?_setSession h _, (steer?_keeps hsteer).1⟩
  | none =>
      obtain ⟨⟨s', hs', hwork⟩, -⟩ := run_of_not_steer store h hsteer
      exact ⟨s', hs', hwork.kind⟩

theorem kind_runAll (store : Store α) (h : e.session? = some s) (steps : List (Interim α)) :
    ∃ s', (runAll (e, store) steps).1.session? = some s' ∧ s'.kind = s.kind := by
  induction steps generalizing e store s with
  | nil => exact ⟨s, h, rfl⟩
  | cons step steps ih =>
      obtain ⟨s', hs', hkind⟩ := kind_run store h step
      obtain ⟨s'', hs'', hkind'⟩ := ih _ hs'
      exact ⟨s'', hs'', hkind'.trans hkind⟩

end Interim

/-! ## The begin of a session -/

namespace Editor

variable [Scalar α] {e : Editor α} {store : Store α}

/-- The editor with a fresh session of a snapshot. -/
def withSession (e : Editor α) (kind : SessionKind) (origin : Point α) (flags : Flags)
    (snapshot : Snapshot α) : Editor α :=
  { e with
    cursor := sessionCursor kind snapshot.box.rotation
    interaction := .ofSession (Session.start kind origin flags snapshot) }

theorem session?_withSession (e : Editor α) (kind : SessionKind) (origin : Point α) (flags : Flags)
    (snapshot : Snapshot α) : (e.withSession kind origin flags snapshot).session? =
      some (Session.start kind origin flags snapshot) := Interaction.session?_ofSession _

/-- A session that begins is fresh, and captured from the document as it is. -/
theorem beginSession_of_isSession {d : Document α} {kind : SessionKind} {origin : Point α}
    {m : Modifiers} (h₀ : e.phase.isSession = false)
    (h : (e.beginSession d kind origin m).2.phase.isSession = true) :
    ∃ snapshot, e.capture? d = some snapshot ∧
      e.beginSession d kind origin m = (true, e.withSession kind origin m.flags snapshot) := by
  have hnot : ¬ e.phase.isSession = true := by rw [h₀]; exact Bool.noConfusion
  rw [beginSession, if_neg hnot] at h ⊢
  cases hc : e.capture? d with
  | none => rw [hc] at h; exact Bool.noConfusion h
  | some snapshot => exact ⟨snapshot, rfl, rfl⟩

/-- While a press is held, a move starts a session once it has come far enough. -/
theorem handle_move_of_pointing {held : Pointing α} (h : e.interaction.pointing? = some held)
    (p : Point α) (m : Modifiers) :
    e.handle store (.move p m) = e.startSessionIfDragged store p m e.phase.dragged := by
  rw [handle_of_find? rfl (Transition.find?_pointing (isPointing_of_pointing h) .move)]
  rfl

theorem handle_move_of_idle (h : e.interaction = .idle) (p : Point α) (m : Modifiers) :
    e.handle store (.move p m) = ({ e with cursor := e.hoverCursor store.document p }, store) := by
  have hphase : e.phase = .idle := congrArg Interaction.phase h
  have hfind : Transition.find? e.phase .move = some ⟨.idle, .move, .idle, .updateHover⟩ := by
    rw [hphase]
    rfl
  rw [handle_of_find? rfl hfind]
  rfl

/-- A drag that starts a session brings it to where the pointer is. -/
theorem startSessionIfDragged_of_isSession {p : Point α} {m : Modifiers} {next : Phase}
    (h₀ : e.phase.isSession = false)
    (h : (e.startSessionIfDragged store p m next).1.phase.isSession = true) :
    ∃ kind origin snapshot, e.capture? store.document = some snapshot ∧
      e.startSessionIfDragged store p m next =
        (e.withSession kind origin m.flags snapshot).updateSession store p m := by
  unfold startSessionIfDragged at h ⊢
  cases hi : e.interaction.pointing? with
  | none => simp only [hi, h₀] at h; exact Bool.noConfusion h
  | some held =>
      simp only [hi] at h ⊢
      by_cases hfar : p.distance held.origin ≤
          e.camera.screenDistance (e.config.dragThreshold held.coarse)
      · rw [if_pos hfar, h₀] at h
        exact Bool.noConfusion h
      · rw [if_neg hfar] at h ⊢
        have hbegan : (e.beginSession store.document (.ofDrag next held.handle?) held.origin
            m).2.phase.isSession = true := by
          -- a session that did not begin is not there to be updated either
          cases hb : (e.beginSession store.document (.ofDrag next held.handle?) held.origin m).1 with
          | false => simpa only [hb, Bool.false_eq_true, if_false] using h
          | true =>
              unfold beginSession at hb ⊢
              rw [if_neg (by rw [h₀]; exact Bool.noConfusion)] at hb ⊢
              cases hc : e.capture? store.document with
              | none => rw [hc] at hb; exact Bool.noConfusion hb
              | some snapshot => exact isSession_of_session (session?_withSession e _ _ _ snapshot)
        obtain ⟨snapshot, hc, hb⟩ := beginSession_of_isSession h₀ hbegan
        refine ⟨.ofDrag next held.handle?, held.origin, snapshot, hc, ?_⟩
        simp only [hb, if_true]

end Editor

/-- The steps of a session that opening it takes along: a drag brings it to where the pointer is. -/
def Opening.lead : Opening α → List (Interim α)
  | .drag p m => [.update p m]
  | _ => []

theorem Opening.isRemoval_of_mem_lead {opening : Opening α} {step : Interim α}
    (h : step ∈ opening.lead) : step.isRemoval = false := by
  cases opening with
  | drag p m => rw [List.mem_singleton.1 h]; rfl
  | _ => exact absurd h List.not_mem_nil

/-- **How sessions begin.** However a session was opened, the editor and the store are where a fresh
    session of a snapshot of the store leads, by a move if the session was opened by one. -/
theorem Opening.run_eq [Scalar α] {e : Editor α} {store : Store α} {opening : Opening α}
    (h₀ : e.phase.isSession = false)
    (h : (opening.run (e, store)).1.phase.isSession = true) :
    ∃ kind origin flags snapshot, e.capture? store.document = some snapshot ∧
      opening.run (e, store) =
        Interim.runAll (e.withSession kind origin flags snapshot, store) opening.lead := by
  cases opening with
  | begin kind origin m =>
      obtain ⟨snapshot, hc, hb⟩ := Editor.beginSession_of_isSession h₀ h
      refine ⟨kind, origin, m.flags, snapshot, hc, ?_⟩
      simp only [Opening.run, hb]
      rfl
  | beginResize handle origin m =>
      by_cases hr : handle.isResize = true
      · have hbegin : e.beginResize store.document handle origin m =
            e.beginSession store.document (.resize handle) origin m := by
          rw [Editor.beginResize, if_pos hr]
        simp only [Opening.run, hbegin] at h
        obtain ⟨snapshot, hc, hb⟩ := Editor.beginSession_of_isSession h₀ h
        refine ⟨.resize handle, origin, m.flags, snapshot, hc, ?_⟩
        simp only [Opening.run, hbegin, hb]
        rfl
      · -- the other handles start nothing
        simp only [Opening.run, Editor.beginResize, if_neg hr, h₀] at h
        exact Bool.noConfusion h
  | drag p m =>
      rcases e.trichotomy with hi | ⟨held, hi⟩ | ⟨s, hi⟩
      · -- without a press, a move starts nothing
        simp only [Opening.run, Editor.handle_move_of_idle hi] at h
        rw [Editor.phase] at h h₀
        rw [h₀] at h
        exact Bool.noConfusion h
      · simp only [Opening.run, Editor.handle_move_of_pointing hi] at h ⊢
        obtain ⟨kind, origin, snapshot, hc, hstart⟩ :=
          Editor.startSessionIfDragged_of_isSession h₀ h
        exact ⟨kind, origin, m.flags, snapshot, hc, hstart⟩
      · rw [Editor.isSession_of_session hi] at h₀
        exact Bool.noConfusion h₀

end CanvasTransform
