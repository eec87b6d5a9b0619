import CanvasTransform.Proofs.Editor.Calls
import CanvasTransform.Proofs.Session.Undo

set_option autoImplicit false

/-! # What a call can come to

Calls are many, and what they come to is little. As far as sessions and shapes are concerned, a call
leaves the store alone and no session running; leaves the store alone and the running session, or
one that has just begun; commits the update of such a session; takes back what the running session
wrote; or commits the scaling of the selection. None of this changes how shapes behave
(`Call.effect_run`; the call that registers behaviours is left out). So an invariant of the shapes
in the store and in the session that the five keep is kept by every call. -/

namespace CanvasTransform

variable {α : Type} [Scalar α]

namespace Editor

/-- The session is at hand: it is the one that is running, up to where the pointer is and to what is
    shown, or it is fresh, from a snapshot of the document as it is. -/
inductive AtHand (e : Editor α) (d : Document α) (s : Session α) : Prop
  | running {s₀ : Session α} (h : e.session? = some s₀)
      (hsnapshot : s.snapshot = s₀.snapshot) (hbaseline : s.baseline = s₀.baseline)
  | fresh (h : e.capture? d = some s.snapshot) (hbaseline : s.baseline = Document.empty)

/-- What a call can come to. -/
inductive Effect (e : Editor α) (store : Store α) : Editor α × Store α → Prop
  /-- No session is running, and nothing was written. -/
  | rest {e' : Editor α} (hregistry : e'.registry = e.registry) (h : e'.phase.isSession = false) :
      Effect e store (e', store)
  /-- A session is running, and nothing was written. -/
  | hold {e' : Editor α} {s : Session α} (hregistry : e'.registry = e.registry)
      (hs : e.AtHand store.document s) (h : e'.session? = some s) :
      Effect e store (e', store)
  /-- A session has committed its update. -/
  | write {e' : Editor α} {s : Session α} {config : Config α} {zoom : α}
      (hregistry : e'.registry = e.registry) (hs : e.AtHand store.document s)
      (h : e'.session? = some (s.commit e.registry store
        (s.update (e.canvas store.document) config zoom).outcome.updates).1) :
      Effect e store (e', (s.commit e.registry store
        (s.update (e.canvas store.document) config zoom).outcome.updates).2)
  /-- A session was undone. -/
  | revert {e' : Editor α} {s : Session α} (hregistry : e'.registry = e.registry)
      (hs : e.session? = some s) (h : e'.phase.isSession = false) :
      Effect e store (e', store.update s.revert)
  /-- The selection was scaled in one step. -/
  | scale {snapshot : Snapshot α} {t : Affine α} (hphase : e.phase.isSession = false)
      (h : e.capture? store.document = some snapshot) :
      Effect e store (e, store.update ((e.canvas store.document).batch
        (snapshot.scale (e.canvas store.document) t).updates))

variable {e : Editor α} {store : Store α}

/-- What leaves the interaction and the store as they are. -/
theorem Effect.same {e' : Editor α} (hregistry : e'.registry = e.registry)
    (h : e'.interaction = e.interaction) : Effect e store (e', store) := by
  have hsession : e'.session? = e.session? := congrArg Interaction.session? h
  cases hs : e.session? with
  | some s => exact .hold hregistry (.running hs rfl rfl) (hsession.trans hs)
  | none => exact .rest hregistry (isSession_eq_false_iff.2 (hsession.trans hs))

theorem Effect.recompute {e' : Editor α} {s s' : Session α} (hs : e.AtHand store.document s)
    (hregistry : e'.registry = e.registry) (h : e'.session? = some s') :
    Effect e store (e'.recompute store s) := by
  rw [Editor.recompute, canvas, hregistry]
  exact .write rfl hs (session?_setSession h _)

theorem registry_finish (h : e.interaction = .idle) (d : Document α) :
    (e.finish d).registry = e.registry := by rw [finish_eq h]

theorem effect_beginSession (e : Editor α) (store : Store α) (kind : SessionKind)
    (origin : Point α) (m : Modifiers) :
    Effect e store ((e.beginSession store.document kind origin m).2, store) := by
  cases hphase : e.phase.isSession with
  | true =>
      rw [beginSession, if_pos hphase]
      exact .same rfl rfl
  | false =>
      rw [beginSession_of_not_isSession hphase]
      cases hc : e.capture? store.document with
      | none => exact .rest rfl rfl
      | some snapshot =>
          exact .hold rfl (.fresh hc rfl) (session?_withSession e kind origin m.flags snapshot)

theorem effect_updateSession (e : Editor α) (store : Store α) (p : Point α) (m : Modifiers) :
    Effect e store (e.updateSession store p m) := by
  rw [updateSession]
  cases hs : e.session? with
  | some s => exact .recompute (.running hs rfl rfl) rfl hs
  | none => exact .same rfl rfl

theorem effect_completeSession (e : Editor α) (store : Store α) :
    Effect e store (e.completeSession store.document, store) := by
  rw [completeSession]
  cases e.session? with
  | some s => exact .rest (registry_finish rfl _) (finish_phase rfl _)
  | none => exact .same rfl rfl

theorem effect_cancelSession (e : Editor α) (store : Store α) :
    Effect e store (e.cancelSession store) := by
  rw [cancelSession]
  cases hs : e.session? with
  | some s => exact .revert (registry_finish rfl _) hs (finish_phase rfl _)
  | none => exact .rest (registry_finish rfl _) (finish_phase rfl _)

theorem effect_startSessionIfDragged {held : Pointing α} (hi : e.interaction.pointing? = some held)
    (store : Store α) (p : Point α) (m : Modifiers) (next : Phase) :
    Effect e store (e.startSessionIfDragged store p m next) := by
  rw [startSessionIfDragged_of_pointing hi]
  dsimp only
  split
  · exact .same rfl rfl
  · cases hc : e.capture? store.document with
    | none => exact .rest rfl rfl
    | some snapshot =>
        exact .recompute (.fresh hc rfl) rfl (session?_withSession e _ _ _ snapshot)

theorem effect_handle (e : Editor α) (store : Store α) (event : Event α) :
    Effect e store (e.handle store event) := by
  rcases e.trichotomy with hi | ⟨held, hi⟩ | ⟨s, hs⟩
  · rw [handle_of_idle hi]
    cases event with
    | press p =>
        dsimp only
        split
        · exact .same rfl rfl
        · exact .rest rfl (isSession_of_pointing (p.pointing?_held _))
    | _ => exact .same rfl rfl
  · rw [handle_of_pointing hi]
    split
    · exact .rest rfl rfl
    · cases event with
      | move p m => exact effect_startSessionIfDragged hi store p m _
      | release p m => exact .rest rfl rfl
      | _ => exact .same rfl rfl
  · rw [handle_of_session hs]
    split
    · exact effect_cancelSession e store
    · cases event with
      | move p m => exact .recompute (.running hs rfl rfl) rfl hs
      | modifiers m now =>
          have hwork := Session.sameWork_setAlt { s with flags := m.flags } m.alt now
            e.config.cloneRevertDelay.toNat
          exact .recompute (.running hs hwork.snapshot hwork.baseline) rfl hs
      | release p m => exact effect_completeSession e store
      | tick now =>
          have hwork := Session.sameWork_tick s now
          exact .hold rfl (.running hs hwork.snapshot hwork.baseline) (session?_setSession hs _)
      | _ => exact .same rfl rfl

theorem effect_resizeSelection (e : Editor α) (store : Store α) (factors : Vec α)
    (origin : ScaleOrigin α) : Effect e store (e, (e.resizeSelection store factors origin).2) := by
  cases hphase : e.phase.isSession with
  | true =>
      rw [resizeSelection, if_pos hphase]
      exact .same rfl rfl
  | false =>
      rw [resizeSelection, if_neg (by simp [hphase])]
      cases hc : e.capture? store.document with
      | none => exact .same rfl rfl
      | some snapshot => exact .scale hphase hc

end Editor

variable {e : Editor α} {store : Store α}

/-- **What a call can come to**, unless it registers the kinds of shapes anew. -/
theorem Call.effect_run (e : Editor α) (store : Store α) {call : Call α}
    (h : ∀ r, call ≠ .registry r) : Editor.Effect e store (call.run (e, store)) := by
  cases call with
  | handle event => exact Editor.effect_handle e store event
  | begin kind origin m => exact Editor.effect_beginSession e store kind origin m
  | beginResize handle origin m =>
      rw [run, Editor.beginResize]
      split
      · exact Editor.effect_beginSession e store _ origin m
      · exact .same rfl rfl
  | update p m => exact Editor.effect_updateSession e store p m
  | complete => exact Editor.effect_completeSession e store
  | cancel => exact Editor.effect_cancelSession e store
  | resizeSelection factors origin => exact Editor.effect_resizeSelection e store factors origin
  | flipHorizontal | flipVertical => exact Editor.effect_resizeSelection e store _ _
  | select ids =>
      rw [run, Editor.select]
      split <;> exact .same rfl rfl
  | camera c | viewport v => exact .same rfl rfl
  | registry r => exact absurd rfl (h r)

end CanvasTransform
