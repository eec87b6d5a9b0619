import CanvasTransform.Binary64
import CanvasTransform.Proofs.Editor.Table

set_option autoImplicit false

/-! # Any sequence of calls

Everything that can be asked of an editor, input events as well as calls that go past the table of
transitions (`Call`), and the editors that such calls lead to from a new one (`Editor.Reachable`).

What is remembered and what is shown of a session are set apart from the state, by calls that go
through the table and by calls that do not. That they agree with it is a joint invariant
(`Editor.Consistent`): what is remembered goes with the state, and nothing is left of a session when
none is running. It holds of a new editor and every call keeps it (`Editor.Consistent.run`), so it
holds of all editors that calls lead to.

On those the dispatcher does what the table says (`Editor.Reachable.follows_table`): an event without
a transition changes nothing, the action of a transition always applies to the event, and the state
afterwards is the next state of the row, but for a drag that starts no session and for presses that
waited for the end of one. Where a drag leads depends on the invariant: a press that did not go with
its state would start another session than the row says. -/

namespace CanvasTransform

variable {α : Type}

/-- What can be asked of an editor. -/
inductive Call (α : Type)
  | handle (event : Event α)
  | begin (kind : SessionKind) (origin : Point α) (modifiers : Modifiers)
  | beginResize (h : Handle) (origin : Point α) (modifiers : Modifiers)
  | update (p : Point α) (modifiers : Modifiers)
  | complete
  | cancel
  | resizeSelection (factors : Vec α) (origin : ScaleOrigin α)
  | flipHorizontal
  | flipVertical
  | select (ids : List ShapeId)
  | camera (c : Camera α)
  | viewport (v : Size α)
  /-- The kinds of shapes are registered anew. -/
  | registry (r : Registry α)

/-- What an editor and a store are after a call. -/
def Call.run [Scalar α] (state : Editor α × Store α) : Call α → Editor α × Store α
  | .handle event => state.1.handle state.2 event
  | .begin kind origin m => ((state.1.beginSession state.2.document kind origin m).2, state.2)
  | .beginResize h origin m => ((state.1.beginResize state.2.document h origin m).2, state.2)
  | .update p m => state.1.updateSession state.2 p m
  | .complete => (state.1.completeSession state.2.document, state.2)
  | .cancel => state.1.cancelSession state.2
  | .resizeSelection factors origin =>
    (state.1, (state.1.resizeSelection state.2 factors origin).2)
  | .flipHorizontal => (state.1, (state.1.flipHorizontal state.2).2)
  | .flipVertical => (state.1, (state.1.flipVertical state.2).2)
  | .select ids => (state.1.select ids, state.2)
  | .camera c => (state.1.withCamera c, state.2)
  | .viewport v => (state.1.withViewport v, state.2)
  | .registry r => ({ state.1 with registry := r }, state.2)

namespace Editor

variable {e : Editor α}

/-- What an editor remembers goes with its state, and while no session is running, no press waits, no
    snap line is shown, and the cloning indicator is not shown. -/
structure Consistent (e : Editor α) : Prop where
  fits : e.interaction.Fits
  resting : e.phase.isSession = false → e.deferred = [] ∧ e.snapLines = [] ∧ e.isCloning = false

/-! ## The state tells what is held -/

theorem exists_session_of_isSession (h : e.phase.isSession = true) : ∃ s, e.session? = some s := by
  rw [phase, Interaction.isSession_phase] at h
  exact Option.isSome_iff_exists.1 h

theorem isSession_eq_false_iff : e.phase.isSession = false ↔ e.session? = none := by
  rw [phase, Interaction.isSession_phase, Option.isSome_eq_false_iff, Option.isNone_iff_eq_none]
  rfl

theorem isCloning_of_not_isSession (h : e.phase.isSession = false) : e.isCloning = false := by
  rw [isCloning, isSession_eq_false_iff.1 h]
  rfl

namespace Consistent

theorem of_session {s : Session α} (hfits : e.interaction.Fits) (hs : e.session? = some s) :
    e.Consistent := by
  refine ⟨hfits, fun h => ?_⟩
  rw [isSession_of_session hs] at h
  exact nomatch h

/-- Without a session there is no cloning indicator, so that the queue and the snap lines are all that
    could be left of one. -/
theorem of_nil (hfits : e.interaction.Fits) (hdeferred : e.deferred = [])
    (hlines : e.snapLines = []) : e.Consistent :=
  ⟨hfits, fun hphase => ⟨hdeferred, hlines, isCloning_of_not_isSession hphase⟩⟩

/-- It is kept by whatever leaves the queue and the snap lines alone and ends no session. -/
theorem of_eq {e' : Editor α} (h : e.Consistent) (hfits : e'.interaction.Fits)
    (hphase : e.phase.isSession = false) (hdeferred : e'.deferred = e.deferred)
    (hlines : e'.snapLines = e.snapLines) : e'.Consistent := by
  obtain ⟨hqueue, hnone, -⟩ := h.resting hphase
  exact of_nil hfits (hdeferred.trans hqueue) (hlines.trans hnone)

theorem setSession {s s' : Session α} (h : e.Consistent) (hs : e.session? = some s)
    (hkind : s'.kind = s.kind) :
    ({ e with interaction := e.interaction.setSession s' } : Editor α).Consistent :=
  of_session (h.fits.setSession hs hkind) (session?_setSession hs s')

/-- In the state for translations, the session is one. -/
theorem exists_translation (h : e.Consistent) (hphase : e.phase = .translating) :
    ∃ s, e.session? = some s ∧ s.kind = .translate := by
  obtain ⟨s, hs⟩ := exists_session_of_isSession (e := e) (by rw [hphase]; rfl)
  have hkind : s.kind.phase = .translating := (h.fits.phase_eq hs).symm.trans hphase
  refine ⟨s, hs, ?_⟩
  cases hk : s.kind <;> rw [hk] at hkind <;> first | rfl | cases hkind

end Consistent

variable [Scalar α] {store : Store α}

/-! ## What operations lead to -/

/-- A session that is recomputed goes on in the same state. -/
theorem phase_recompute (e : Editor α) (store : Store α) (s : Session α) :
    (e.recompute store s).1.phase = e.phase := Interaction.phase_setSession _ _

theorem beginSession_of_not_isSession (h : e.phase.isSession = false) (d : Document α)
    (kind : SessionKind) (origin : Point α) (m : Modifiers) :
    e.beginSession d kind origin m = match e.capture? d with
      | none => (false, { e with interaction := .idle })
      | some snapshot => (true, e.withSession kind origin m.flags snapshot) := by
  rw [beginSession, if_neg (by simp [h])]
  rfl

/-- A drag leaves a press that it does not take far enough, and gives up when there is nothing to
    transform; otherwise a session is running. -/
theorem startSessionIfDragged_of_pointing {held : Pointing α}
    (h : e.interaction.pointing? = some held) (store : Store α) (p : Point α) (m : Modifiers)
    (next : Phase) : e.startSessionIfDragged store p m next =
      let kind := SessionKind.ofDrag next held.handle?
      if p.distance held.origin ≤ e.camera.screenDistance (e.config.dragThreshold held.coarse)
      then (e, store)
      else match e.capture? store.document with
        | none => ({ e with interaction := .idle }, store)
        | some snapshot =>
          (e.withSession kind held.origin m.flags snapshot).recompute store
            ((Session.start kind held.origin m.flags snapshot).moveTo p m.flags) := by
  simp only [startSessionIfDragged, h, beginSession_of_not_isSession (isSession_of_pointing h)]
  split
  · rfl
  · cases e.capture? store.document with
    | none => rfl
    | some snapshot => simp only [if_true, updateSession, session?_withSession]

theorem completeSession_of_session {s : Session α} (h : e.session? = some s)
    (d : Document α) : e.completeSession d = { e with
      interaction := e.resumption d, snapLines := [], cursor := Cursor.idle, deferred := [] } := by
  rw [completeSession, h]
  exact finish_eq (e := { e with interaction := .idle }) rfl d

theorem cancelSession_eq (e : Editor α) (store : Store α) :
    e.cancelSession store =
      let store := match e.session? with
        | some s => store.update s.revert
        | none => store
      ({ e with
        interaction := e.resumption store.document, snapLines := [], cursor := Cursor.idle,
        deferred := [] }, store) :=
  congrArg (·, _) (finish_eq (e := { e with interaction := .idle }) rfl _)

theorem fits_resumption (e : Editor α) (d : Document α) : (e.resumption d).Fits := by
  rw [resumption, holdFirst]
  split
  · exact Press.fits_held _ _
  · trivial

/-! ## What every call keeps -/

namespace Consistent

theorem withSession (e : Editor α) (kind : SessionKind) (origin : Point α) (flags : Flags)
    (snapshot : Snapshot α) : (e.withSession kind origin flags snapshot).Consistent :=
  of_session (Interaction.fits_ofSession _) (session?_withSession e kind origin flags snapshot)

theorem beginSession (h : e.Consistent) (d : Document α) (kind : SessionKind) (origin : Point α)
    (m : Modifiers) : (e.beginSession d kind origin m).2.Consistent := by
  cases hphase : e.phase.isSession with
  | true =>
      rw [Editor.beginSession, if_pos hphase]
      exact h
  | false =>
      rw [beginSession_of_not_isSession hphase]
      cases e.capture? d with
      | none => exact h.of_eq trivial hphase rfl rfl
      | some snapshot => exact withSession e kind origin m.flags snapshot

theorem recompute {s s' : Session α} (h : e.Consistent) (hs : e.session? = some s)
    (hkind : s'.kind = s.kind) : (e.recompute store s').1.Consistent :=
  of_session (h.fits.setSession hs hkind) (session?_setSession hs _)

theorem updateSession (h : e.Consistent) (store : Store α) (p : Point α) (m : Modifiers) :
    (e.updateSession store p m).1.Consistent := by
  rw [Editor.updateSession]
  split
  · next s hs => exact h.recompute hs rfl
  · exact h

theorem completeSession (h : e.Consistent) (d : Document α) : (e.completeSession d).Consistent := by
  cases hs : e.session? with
  | some s =>
      rw [completeSession_of_session hs]
      exact of_nil (fits_resumption e d) rfl rfl
  | none =>
      rw [Editor.completeSession, hs]
      exact h

theorem cancelSession (e : Editor α) (store : Store α) : (e.cancelSession store).1.Consistent := by
  rw [cancelSession_eq]
  exact of_nil (fits_resumption e _) rfl rfl

theorem startSessionIfDragged (h : e.Consistent) {held : Pointing α}
    (hi : e.interaction.pointing? = some held) (store : Store α) (p : Point α) (m : Modifiers)
    (next : Phase) : (e.startSessionIfDragged store p m next).1.Consistent := by
  rw [startSessionIfDragged_of_pointing hi]
  dsimp only
  split
  · exact h
  · cases e.capture? store.document with
    | none => exact h.of_eq trivial (isSession_of_pointing hi) rfl rfl
    | some snapshot =>
        exact (withSession e _ _ _ snapshot).recompute (session?_withSession e _ _ _ snapshot) rfl

theorem handle (h : e.Consistent) (store : Store α) (event : Event α) :
    (e.handle store event).1.Consistent := by
  rcases e.trichotomy with hi | ⟨held, hi⟩ | ⟨s, hs⟩
  · have hphase : e.phase.isSession = false := by rw [phase, hi]; rfl
    rw [handle_of_idle hi]
    cases event with
    | press p =>
        dsimp only
        split
        · exact h
        · exact h.of_eq (p.fits_held _) hphase rfl rfl
    | _ => exact h.of_eq h.fits hphase rfl rfl
  · have hphase := isSession_of_pointing hi
    rw [handle_of_pointing hi]
    split
    · exact h.of_eq trivial hphase rfl rfl
    · cases event with
      | move p m => exact h.startSessionIfDragged hi store p m _
      | release p m => exact h.of_eq trivial hphase rfl rfl
      | _ => exact h
  · rw [handle_of_session hs]
    split
    · exact cancelSession e store
    · cases event with
      | press p => exact of_session h.fits hs
      | move p m => exact h.recompute hs rfl
      | modifiers m now => exact h.recompute hs (Session.sameWork_setAlt _ _ _ _).kind
      | release p m => exact h.completeSession store.document
      | tick now => exact h.setSession hs (Session.sameWork_tick s now).kind
      | key name | cancel => exact h

/-- **Every call keeps it**, on whatever store. -/
theorem run (h : e.Consistent) (store : Store α) (call : Call α) :
    (call.run (e, store)).1.Consistent := by
  cases call with
  | handle event => exact h.handle store event
  | begin kind origin m => exact h.beginSession store.document kind origin m
  | beginResize handle origin m =>
      rw [Call.run, Editor.beginResize]
      split
      · exact h.beginSession store.document _ origin m
      · exact h
  | update p m => exact h.updateSession store p m
  | complete => exact h.completeSession store.document
  | cancel => exact cancelSession e store
  | select ids =>
      rw [Call.run, Editor.select]
      split
      · exact h
      · next hphase => exact h.of_eq h.fits (by simpa using hphase) rfl rfl
  | resizeSelection factors origin => exact h
  | flipHorizontal => exact h
  | flipVertical => exact h
  | camera c => exact ⟨h.fits, h.resting⟩
  | viewport v => exact ⟨h.fits, h.resting⟩
  | registry r => exact ⟨h.fits, h.resting⟩

end Consistent

/-- The editors that calls lead to from a new one. Each call is on a store of its own, which may be
    any store that is `ok`. -/
inductive Reachable (ok : Store α → Prop) : Editor α → Prop
  | initial (config : Config α) : Reachable ok (Editor.initial config)
  | call {e : Editor α} {store : Store α} (h : Reachable ok e) (hstore : ok store)
      (call : Call α) : Reachable ok (call.run (e, store)).1

theorem Reachable.consistent {ok : Store α → Prop} (h : e.Reachable ok) : e.Consistent := by
  induction h with
  | initial config => exact .of_nil trivial rfl rfl
  | @call _ store _ _ call ih => exact ih.run store call

/-! ## The dispatcher and the table -/

/-- Where a transition has led. It is the next state of the row, with two exceptions. A drag leaves a
    press that it does not take far enough, and gives up when there is nothing to transform. And when
    a session has ended, one of the presses that waited for that may be held. -/
structure Follows (e : Editor α) (store : Store α) (event : Event α) (t : Transition)
    (after : Editor α × Store α) : Prop where
  drag : t.action = .startSessionIfDragged → ∃ held p m,
    e.interaction.pointing? = some held ∧ event = .move p m ∧ after.1.phase =
      if p.distance held.origin ≤ e.camera.screenDistance (e.config.dragThreshold held.coarse)
      then e.phase
      else if (e.capture? store.document).isNone then .idle else t.next
  ended : t.action = .commit ∨ t.action = .revert → t.next = .idle ∧
    (after.1.phase = .idle ∨ ∃ p ∈ e.deferred, ∃ row,
      Transition.find? .idle (e.targetOf after.2.document p).trigger = some row ∧
        row.action = .beginPointing ∧ after.1.phase = row.next)
  otherwise : t.action ∉ [.startSessionIfDragged, .commit, .revert] → after.1.phase = t.next

/-- Rows of all other actions lead to their next state. -/
theorem Follows.of_phase {event : Event α} {t : Transition} {after : Editor α × Store α}
    (haction : t.action ∉ [.startSessionIfDragged, .commit, .revert])
    (hphase : after.1.phase = t.next) : e.Follows store event t after where
  drag h := absurd (by simp [h]) haction
  ended h := absurd (by rcases h with h | h <;> simp [h]) haction
  otherwise _ := hphase

/-- Where a drag leads. The session that it starts is the one of the row, since what is held goes with
    the state. -/
theorem phase_startSessionIfDragged {held : Pointing α} (hfits : e.interaction.Fits)
    (h : e.interaction.pointing? = some held) (store : Store α) (p : Point α) (m : Modifiers) :
    (e.startSessionIfDragged store p m e.phase.dragged).1.phase =
      if p.distance held.origin ≤ e.camera.screenDistance (e.config.dragThreshold held.coarse)
      then e.phase
      else if (e.capture? store.document).isNone then .idle else e.phase.dragged := by
  rw [startSessionIfDragged_of_pointing h]
  dsimp only
  split
  · rfl
  · cases e.capture? store.document with
    | none => rfl
    | some snapshot =>
        rw [phase_recompute]
        exact (Interaction.phase_ofSession _).trans (hfits.phase_ofDrag h)

/-- **The action of a transition applies to the event**, and leads where the row says. -/
theorem perform?_of_transition? (hfits : e.interaction.Fits) {event : Event α} {t : Transition}
    (h : e.transition? store.document event = some t) :
    ∃ after, e.perform? store t event = some after ∧ e.Follows store event t after := by
  rcases e.trichotomy with hi | ⟨held, hi⟩ | ⟨s, hs⟩
  · rw [transition?_of_idle hi] at h
    cases event with
    | press p =>
        dsimp only at h
        split at h
        · cases h
        · obtain rfl := Option.some.inj h
          exact ⟨_, rfl, .of_phase (by simp) (p.phase_held _)⟩
    | move p m =>
        obtain rfl := Option.some.inj h
        refine ⟨_, rfl, .of_phase (by simp) ?_⟩
        exact congrArg Interaction.phase hi
    | _ => cases h
  · rw [transition?_of_pointing hi] at h
    split at h
    · obtain rfl := Option.some.inj h
      refine ⟨({ e with interaction := .idle, cursor := Cursor.idle }, store), ?_,
        .of_phase (by simp) rfl⟩
      simp only [perform?]
    · cases event with
      | move p m =>
          obtain rfl := Option.some.inj h
          exact ⟨_, rfl,
            fun _ => ⟨held, p, m, hi, rfl, phase_startSessionIfDragged hfits hi store p m⟩,
            fun h => by simp at h, fun h => by simp at h⟩
      | release p m =>
          obtain rfl := Option.some.inj h
          exact ⟨_, rfl, .of_phase (by simp) rfl⟩
      | _ => cases h
  · rw [transition?_of_session hs] at h
    split at h
    · obtain rfl := Option.some.inj h
      refine ⟨e.cancelSession store, ?_, fun h => by simp at h, fun _ => ⟨rfl, ?_⟩,
        fun h => by simp at h⟩
      · simp only [perform?]
      · rw [cancelSession_eq]
        exact e.phase_resumption _
    · cases event with
      | press p =>
          obtain rfl := Option.some.inj h
          exact ⟨_, rfl, .of_phase (by simp) rfl⟩
      | move p m =>
          obtain rfl := Option.some.inj h
          refine ⟨_, rfl, .of_phase (by simp) ?_⟩
          rw [updateSession, hs]
          exact phase_recompute _ _ _
      | modifiers m now =>
          obtain rfl := Option.some.inj h
          refine ⟨_, rfl, .of_phase (by simp) ?_⟩
          rw [updateModifiers, hs]
          exact phase_recompute _ _ _
      | release p m =>
          obtain rfl := Option.some.inj h
          refine ⟨(e.completeSession store.document, store), rfl, fun h => by simp at h,
            fun _ => ⟨rfl, ?_⟩, fun h => by simp at h⟩
          rw [completeSession_of_session hs]
          exact e.phase_resumption _
      | tick now =>
          obtain rfl := Option.some.inj h
          refine ⟨_, rfl, .of_phase (by simp) ?_⟩
          rw [tick, hs]
          exact Interaction.phase_setSession _ _
      | _ => cases h

/-- **The dispatcher does what the table says**, on every editor that calls lead to, whatever the
    stores that they were on. What the editor remembers goes with its state, and nothing is left of a
    session when none is running. An event without a transition changes neither editor nor store. The
    action of a transition always applies to the event, so the dispatcher performs it, and the state
    afterwards is the one that the row leads to. -/
theorem Reachable.follows_table {ok : Store α → Prop} (h : e.Reachable ok) (store : Store α)
    (event : Event α) :
    e.Consistent ∧
    (e.transition? store.document event = none → e.handle store event = (e, store)) ∧
    ∀ t, e.transition? store.document event = some t →
      ∃ after, e.perform? store t event = some after ∧ e.handle store event = after ∧
        e.Follows store event t after := by
  refine ⟨h.consistent, handle_of_transition?_eq_none, fun t ht => ?_⟩
  obtain ⟨after, hperform, hfollows⟩ := perform?_of_transition? h.consistent.fits ht
  refine ⟨after, hperform, ?_, hfollows⟩
  rw [handle_of_transition? ht, hperform, Option.getD_some]

/-- A press on the corner of a note, and what a move makes of it. -/
theorem Reachable.follows_table_pressed_corner :
    let store : Store Binary64 := ⟨Document.empty.put (Shape.note 1 0 0 10.0 10.0), []⟩
    let corner : Handle := .corner .bottomRight
    let press : Press Binary64 := ⟨⟨10.0, 10.0⟩, some (.handle corner), Modifiers.none, false⟩
    let e := (Call.run (Editor.initial Config.standard, store) (.handle (.press press))).1
    let t : Transition := ⟨.pointingResizeHandle, .move, .resizing, .startSessionIfDragged⟩
    let event : Event Binary64 := .move ⟨20.0, 10.0⟩ Modifiers.none
    e.Reachable (fun _ => True) ∧
      e.interaction = .pointingResizeHandle ⟨⟨10.0, 10.0⟩, some corner, false⟩ ∧
      e.transition? store.document event = some t ∧
      ∃ after, e.perform? store t event = some after ∧ e.handle store event = after ∧
        e.Follows store event t after := by
  intro store corner press e t event
  have hreach : e.Reachable fun _ => True := .call (.initial Config.standard) trivial _
  exact ⟨hreach, rfl, rfl, (Reachable.follows_table hreach store event).2.2 t rfl⟩

end Editor

end CanvasTransform
