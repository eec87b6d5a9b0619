import CanvasTransform.Proofs.Session.Run

set_option autoImplicit false

/-! # The table of transitions and the editor's data

The table speaks of states and triggers, the dispatcher of what the editor holds. The transition that
an event causes (`Editor.transition?`) is told here in terms of the data, once for each thing that
the user can be in the middle of: nothing, a press that is held, or a session. Facts about the
dispatcher are proved from these three equations.

When a session has ended, the presses that waited for that are taken one after the other. The first
one that is on something is what the user is in the middle of then (`Editor.resumption`), and the
others find nothing to do (`Editor.finish_eq`). -/

namespace CanvasTransform

variable {α : Type}

namespace Editor

variable [Scalar α]

/-! ## The transition that an event causes -/

/-- The transition that an event causes. -/
def transition? (e : Editor α) (d : Document α) (event : Event α) : Option Transition :=
  (e.classify? d event).bind (Transition.find? e.phase)

variable {e : Editor α} {d : Document α} {store : Store α} {event : Event α}

theorem handle_of_transition? {t : Transition} (h : e.transition? store.document event = some t) :
    e.handle store event = (e.perform? store t event).getD (e, store) := by
  rw [transition?, Option.bind_eq_some_iff] at h
  obtain ⟨trigger, hc, hf⟩ := h
  exact handle_of_find? hc hf

/-- An event without a transition changes nothing. -/
theorem handle_of_transition?_eq_none (h : e.transition? store.document event = none) :
    e.handle store event = (e, store) := by
  rw [transition?, Option.bind_eq_none_iff] at h
  cases hc : e.classify? store.document event with
  | none => simp [handle, hc]
  | some trigger => simp [handle, hc, h trigger hc]

theorem transition?_of_isCancel (h : event.isCancel = true) :
    e.transition? d event = Transition.find? e.phase .cancel := by
  simp [transition?, classify?, h]

theorem transition?_press (p : Press α) :
    e.transition? d (.press p) = Transition.find? e.phase (e.targetOf d p).trigger := rfl

/-- A key that does not cancel means nothing. -/
theorem transition?_key {name : String} (h : (Event.key name : Event α).isCancel = false) :
    e.transition? d (.key name) = none := by
  simp [transition?, classify?, h]

theorem transition?_of_idle (h : e.interaction = .idle) (d : Document α) (event : Event α) :
    e.transition? d event = match event with
      | .press p => if e.targetOf d p = .canvas then none else some
          ⟨.idle, (e.targetOf d p).trigger, (e.targetOf d p).phase, .beginPointing⟩
      | .move _ _ => some ⟨.idle, .move, .idle, .updateHover⟩
      | _ => none := by
  have hphase : e.phase = .idle := by rw [phase, h]; rfl
  cases event with
  | press p => rw [transition?_press, hphase, Transition.find?_idle_press]
  | key name =>
      by_cases hcancel : (Event.key name : Event α).isCancel = true
      · rw [transition?_of_isCancel hcancel, hphase]
        rfl
      · exact transition?_key (by simpa using hcancel)
  | _ =>
      rw [transition?, hphase]
      rfl

theorem transition?_of_pointing {held : Pointing α} (h : e.interaction.pointing? = some held)
    (d : Document α) (event : Event α) : e.transition? d event =
      if event.isCancel then some ⟨e.phase, .cancel, .idle, .endPointing⟩
      else match event with
        | .move _ _ => some ⟨e.phase, .move, e.phase.dragged, .startSessionIfDragged⟩
        | .release _ _ => some ⟨e.phase, .release, .idle, .endPointing⟩
        | _ => none := by
  have hphase := isPointing_of_pointing h
  split
  · next hcancel => rw [transition?_of_isCancel hcancel, Transition.find?_pointing hphase]
  · next hcancel =>
      cases event with
      | press p => rw [transition?_press, Transition.find?_pointing_press hphase]
      | key name => exact transition?_key (by simpa using hcancel)
      | cancel => exact absurd rfl hcancel
      | move p m | release p m | modifiers m now | tick now =>
          exact Transition.find?_pointing hphase _

theorem transition?_of_session {s : Session α} (h : e.session? = some s)
    (d : Document α) (event : Event α) : e.transition? d event =
      if event.isCancel then some ⟨e.phase, .cancel, .idle, .revert⟩
      else match event with
        | .press p => some ⟨e.phase, (e.targetOf d p).trigger, e.phase, .defer⟩
        | .move _ _ => some ⟨e.phase, .move, e.phase, .update⟩
        | .modifiers _ _ => some ⟨e.phase, .modifiers, e.phase, .updateModifiers⟩
        | .release _ _ => some ⟨e.phase, .release, .idle, .commit⟩
        | .tick _ => some ⟨e.phase, .tick, e.phase, .runTimers⟩
        | _ => none := by
  have hphase := isSession_of_session h
  split
  · next hcancel => rw [transition?_of_isCancel hcancel, Transition.find?_session hphase]
  · next hcancel =>
      cases event with
      | press p => rw [transition?_press, Transition.find?_session_press hphase]
      | key name => exact transition?_key (by simpa using hcancel)
      | cancel => exact absurd rfl hcancel
      | move p m | release p m | modifiers m now | tick now =>
          exact Transition.find?_session hphase _

/-! ## What an event does -/

theorem handle_of_idle (h : e.interaction = .idle) :
    e.handle store event = match event with
      | .press p => (if e.targetOf store.document p = .canvas then e
          else { e with interaction := p.held (e.targetOf store.document p) }, store)
      | .move p _ => ({ e with cursor := e.hoverCursor store.document p }, store)
      | _ => (e, store) := by
  have ht := transition?_of_idle h store.document event
  cases event with
  | press p =>
      by_cases htarget : e.targetOf store.document p = .canvas
      · simp only [if_pos htarget] at ht ⊢
        exact handle_of_transition?_eq_none ht
      · simp only [if_neg htarget] at ht ⊢
        rw [handle_of_transition? ht]
        rfl
  | move p m =>
      rw [handle_of_transition? ht]
      rfl
  | _ => exact handle_of_transition?_eq_none ht

theorem handle_of_pointing {held : Pointing α} (h : e.interaction.pointing? = some held) :
    e.handle store event =
      if event.isCancel then ({ e with interaction := .idle, cursor := Cursor.idle }, store)
      else match event with
        | .move p m => e.startSessionIfDragged store p m e.phase.dragged
        | .release _ _ => ({ e with interaction := .idle, cursor := Cursor.idle }, store)
        | _ => (e, store) := by
  have ht := transition?_of_pointing h store.document event
  split
  · next hcancel =>
      rw [if_pos hcancel] at ht
      rw [handle_of_transition? ht]
      simp only [perform?, Option.getD_some]
  · next hcancel =>
      rw [if_neg hcancel] at ht
      cases event with
      | move p m | release p m =>
          rw [handle_of_transition? ht]
          rfl
      | _ => exact handle_of_transition?_eq_none ht

theorem handle_of_session {s : Session α} (h : e.session? = some s) :
    e.handle store event =
      if event.isCancel then e.cancelSession store
      else match event with
        | .press p => ({ e with deferred := e.deferred ++ [p] }, store)
        | .move p m => e.recompute store (s.moveTo p m.flags)
        | .modifiers m now => e.recompute store
            ({ s with flags := m.flags }.setAlt m.alt now e.config.cloneRevertDelay.toNat)
        | .release _ _ => (e.completeSession store.document, store)
        | .tick now => ({ e with interaction := e.interaction.setSession (s.tick now) }, store)
        | _ => (e, store) := by
  split
  · next hcancel => exact handle_of_isCancel h hcancel
  · next hcancel =>
      have ht := transition?_of_session h store.document event
      rw [if_neg hcancel] at ht
      cases event with
      | press p => exact handle_press_of_session h p
      | move p m => exact handle_move_of_session h p m
      | modifiers m now => exact handle_modifiers_of_session h m now
      | tick now => exact handle_tick_of_session h now
      | release p m =>
          rw [handle_of_transition? ht]
          rfl
      | key name => exact handle_of_transition?_eq_none ht
      | cancel => exact absurd rfl hcancel

/-! ## Presses, held and waiting -/

theorem press_of_idle (h : e.interaction = .idle) (p : Press α) :
    e.press d p = if e.targetOf d p = .canvas then e
      else { e with interaction := p.held (e.targetOf d p) } := by
  have hphase : e.phase = .idle := by rw [phase, h]; rfl
  rw [press, hphase, Transition.find?_idle_press]
  by_cases htarget : e.targetOf d p = .canvas
  · simp [htarget]
  · simp [htarget, performPress?, Press.held]

theorem press_of_pointing {held : Pointing α} (h : e.interaction.pointing? = some held) (p : Press α) :
    e.press d p = e := by
  rw [press, Transition.find?_pointing_press (isPointing_of_pointing h)]

theorem press_of_session {s : Session α} (h : e.session? = some s) (p : Press α) :
    e.press d p = { e with deferred := e.deferred ++ [p] } := by
  rw [press, Transition.find?_session_press (isSession_of_session h)]
  rfl

/-- A replayed press goes the way that a press goes through the dispatcher. -/
theorem handle_press (p : Press α) :
    e.handle store (.press p) = (e.press store.document p, store) := by
  rcases e.trichotomy with hi | ⟨held, hi⟩ | ⟨s, hi⟩
  · rw [handle_of_idle hi, press_of_idle hi]
  · rw [handle_of_pointing hi, press_of_pointing hi]
    rfl
  · rw [handle_press_of_session hi, press_of_session hi]

/-- What the first of the given presses that is not on the canvas takes hold of. -/
def holdFirst (e : Editor α) (d : Document α) (presses : List (Press α)) : Interaction α :=
  match presses.find? fun p => e.targetOf d p != .canvas with
  | some p => p.held (e.targetOf d p)
  | none => .idle

/-- What the user is in the middle of once a session has ended and left the document as given. -/
def resumption (e : Editor α) (d : Document α) : Interaction α := e.holdFirst d e.deferred

theorem foldl_press_of_pointing {held : Pointing α} (h : e.interaction.pointing? = some held)
    (presses : List (Press α)) : presses.foldl (fun e p => e.press d p) e = e := by
  induction presses with
  | nil => rfl
  | cons p presses ih => rw [List.foldl_cons, press_of_pointing h, ih]

theorem foldl_press_of_idle (h : e.interaction = .idle) (presses : List (Press α)) :
    presses.foldl (fun e p => e.press d p) e =
      { e with interaction := e.holdFirst d presses } := by
  induction presses with
  | nil => rw [List.foldl_nil, holdFirst, List.find?_nil, ← h]
  | cons p presses ih =>
      rw [List.foldl_cons, press_of_idle h]
      by_cases htarget : e.targetOf d p = .canvas
      · rw [if_pos htarget, ih, holdFirst, holdFirst, List.find?_cons_of_neg (by simp [htarget])]
      · rw [if_neg htarget, holdFirst, List.find?_cons_of_pos (by simp [htarget])]
        exact foldl_press_of_pointing (p.pointing?_held _) presses

/-- What is left when nothing is going on any more: no feedback, an empty queue, and what the waiting
    presses resume. -/
theorem finish_eq (h : e.interaction = .idle) (d : Document α) :
    e.finish d = { e with
      interaction := e.resumption d, snapLines := [], cursor := Cursor.idle, deferred := [] } :=
  foldl_press_of_idle (e := { e with snapLines := [], cursor := Cursor.idle, deferred := [] }) h _

/-- What is resumed is no session. -/
theorem session?_resumption (e : Editor α) (d : Document α) : (e.resumption d).session? = none := by
  rw [resumption, holdFirst]
  split
  · exact Interaction.session?_of_pointing? (Press.pointing?_held _ _)
  · rfl

/-- What is resumed is the state of the row for one of the waiting presses. -/
theorem phase_resumption (e : Editor α) (d : Document α) :
    (e.resumption d).phase = .idle ∨ ∃ p ∈ e.deferred, ∃ t,
      Transition.find? .idle (e.targetOf d p).trigger = some t ∧ t.action = .beginPointing ∧
        (e.resumption d).phase = t.next := by
  rw [resumption, holdFirst]
  split
  · next p hp =>
      have htarget : ¬ e.targetOf d p = .canvas := by simpa using List.find?_some hp
      have hrow := Transition.find?_idle_press (e.targetOf d p)
      rw [if_neg htarget] at hrow
      exact Or.inr ⟨p, List.mem_of_find?_eq_some hp, _, hrow, rfl, p.phase_held _⟩
  · exact Or.inl rfl

end Editor

end CanvasTransform
