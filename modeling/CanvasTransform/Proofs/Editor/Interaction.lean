import CanvasTransform.Editor.Basic

set_option autoImplicit false

/-! # States and what is remembered in them

The state of an interaction and what is remembered in it are set in different places: the table of
transitions says which state is next, the press and the drag say what to remember. That the two go
together (`Interaction.Fits`) is an invariant. It is what makes a drag end up in the state that the
table asks for (`Interaction.Fits.phase_ofDrag`): the choice of the session has arms for presses and
states that do not go together, and they all start a translation. -/

namespace CanvasTransform

variable {α : Type}

/-! ## States by name -/

/-- The state that the table of transitions has for a drag, in a state in which something is pressed. -/
def Phase.dragged : Phase → Phase
  | pointingResizeHandle => resizing
  | pointingRotateHandle => rotating
  | pointingSelection => translating
  | phase => phase

/-- The state for sessions of the kind. -/
def SessionKind.phase : SessionKind → Phase
  | resize _ => .resizing
  | rotate => .rotating
  | translate => .translating

/-- The state that the table of transitions has for a press on the target. -/
def Target.phase : Target → Phase
  | handle .rotate => .pointingRotateHandle
  | handle _ => .pointingResizeHandle
  | selection | canvas => .pointingSelection

/-- What the user is in the middle of when a press on the target is held. -/
def Press.held (p : Press α) (target : Target) : Interaction α :=
  .ofPress target.phase ⟨p.point, target.handle?, p.coarse⟩

theorem Target.isPointing_phase (target : Target) : target.phase.isPointing = true := by
  cases target with
  | handle h => cases h <;> rfl
  | _ => rfl

theorem Phase.isSession_of_isPointing {phase : Phase} (h : phase.isPointing = true) :
    phase.isSession = false := by
  cases phase <;> first | rfl | cases h

/-! ## The rows of a state -/

namespace Transition

variable {phase : Phase}

/-- A press on the canvas begins nothing, any other press is held. -/
theorem find?_idle_press (target : Target) :
    find? .idle target.trigger = if target = .canvas then none
      else some ⟨.idle, target.trigger, target.phase, .beginPointing⟩ := by
  cases target with
  | handle h => cases h <;> rfl
  | selection => rfl
  | canvas => rfl

/-- While something is pressed, a move may start a session; a release and a cancel give up. -/
theorem find?_pointing (h : phase.isPointing = true) (trigger : Trigger) :
    find? phase trigger = match trigger with
      | .move => some ⟨phase, .move, phase.dragged, .startSessionIfDragged⟩
      | .release => some ⟨phase, .release, .idle, .endPointing⟩
      | .cancel => some ⟨phase, .cancel, .idle, .endPointing⟩
      | _ => none := by
  cases phase <;> cases trigger <;> first | rfl | cases h

theorem find?_pointing_press (h : phase.isPointing = true) (target : Target) :
    find? phase target.trigger = none := by
  rw [find?_pointing h]
  cases target with
  | handle h => cases h <;> rfl
  | selection => rfl
  | canvas => rfl

/-- While a session is running, there is a row for every trigger. -/
theorem find?_session (h : phase.isSession = true) (trigger : Trigger) :
    find? phase trigger = some (match trigger with
      | .move => ⟨phase, .move, phase, .update⟩
      | .modifiers => ⟨phase, .modifiers, phase, .updateModifiers⟩
      | .release => ⟨phase, .release, .idle, .commit⟩
      | .cancel => ⟨phase, .cancel, .idle, .revert⟩
      | .tick => ⟨phase, .tick, phase, .runTimers⟩
      | press => ⟨phase, press, phase, .defer⟩) := by
  cases phase <;> cases trigger <;> first | rfl | cases h

theorem find?_session_press (h : phase.isSession = true) (target : Target) :
    find? phase target.trigger = some ⟨phase, target.trigger, phase, .defer⟩ := by
  rw [find?_session h]
  cases target with
  | handle h => cases h <;> rfl
  | selection => rfl
  | canvas => rfl

end Transition

namespace Interaction

variable {i : Interaction α} {held : Pointing α} {s s' : Session α}

/-! ## Nothing, a press, or a session -/

/-- The user is in the middle of nothing, of a press, or of a session. -/
theorem trichotomy (i : Interaction α) :
    i = idle ∨ (∃ held, i.pointing? = some held) ∨ ∃ s, i.session? = some s := by
  cases i <;> simp [pointing?, session?]

theorem isPointing_phase (i : Interaction α) : i.phase.isPointing = i.pointing?.isSome := by
  cases i <;> rfl

theorem isSession_phase (i : Interaction α) : i.phase.isSession = i.session?.isSome := by
  cases i <;> rfl

theorem isPointing_of_pointing? (h : i.pointing? = some held) : i.phase.isPointing = true := by
  rw [isPointing_phase, h, Option.isSome_some]

theorem isSession_of_session? (h : i.session? = some s) : i.phase.isSession = true := by
  rw [isSession_phase, h, Option.isSome_some]

theorem session?_of_pointing? (h : i.pointing? = some held) : i.session? = none := by
  cases i <;> first | rfl | cases h

@[simp] theorem pointing?_ofPress (next : Phase) (held : Pointing α) :
    (ofPress next held).pointing? = some held := by
  cases next <;> rfl

/-- A press is held in the state that was asked for, if that is one for presses. -/
theorem phase_ofPress {next : Phase} (h : next.isPointing = true) (held : Pointing α) :
    (ofPress next held).phase = next := by
  cases next <;> first | rfl | cases h

@[simp] theorem session?_ofSession (s : Session α) : (ofSession s).session? = some s := by
  unfold ofSession
  split <;> rfl

/-- A session is begun in the state for its kind. -/
@[simp] theorem phase_ofSession (s : Session α) : (ofSession s).phase = s.kind.phase := by
  unfold ofSession
  split <;> next h => rw [h]; rfl

@[simp] theorem phase_setSession (i : Interaction α) (s : Session α) :
    (i.setSession s).phase = i.phase := by
  cases i <;> rfl

theorem session?_setSession (h : i.session? = some s) (s' : Session α) :
    (i.setSession s').session? = some s' := by
  cases i <;> first | rfl | cases h

/-! ## What goes together -/

/-- What is remembered goes with the state: a press in a state for handles was on a handle of that
    sort, and any other press on none; and a session is of the kind that its state is for. -/
def Fits : Interaction α → Prop
  | idle => True
  | pointingResizeHandle held => ∃ h, held.handle? = some h ∧ h.isResize = true
  | pointingRotateHandle held => held.handle? = some .rotate
  | pointingSelection held => held.handle? = none
  | resizing s => ∃ h, s.kind = .resize h
  | rotating s => s.kind = .rotate
  | translating s => s.kind = .translate

theorem fits_ofSession (s : Session α) : (ofSession s).Fits := by
  unfold ofSession
  split
  · next h hkind => exact ⟨h, hkind⟩
  · next hkind => exact hkind
  · next hkind => exact hkind

/-- A session gives way to one of the same kind. -/
theorem Fits.setSession (h : i.Fits) (hs : i.session? = some s) (hkind : s'.kind = s.kind) :
    (i.setSession s').Fits := by
  cases i with
  | resizing _ =>
      obtain ⟨handle, hhandle⟩ := h
      obtain rfl := Option.some.inj hs
      exact ⟨handle, hkind.trans hhandle⟩
  | rotating _ | translating _ =>
      obtain rfl := Option.some.inj hs
      exact hkind.trans h
  | _ => exact nomatch hs

theorem Fits.phase_eq (h : i.Fits) (hs : i.session? = some s) : i.phase = s.kind.phase := by
  cases i with
  | resizing _ =>
      obtain ⟨handle, hhandle⟩ := h
      obtain rfl := Option.some.inj hs
      rw [hhandle]
      rfl
  | rotating _ | translating _ =>
      obtain rfl := Option.some.inj hs
      rw [show _ = _ from h]
      rfl
  | _ => exact nomatch hs

/-- **A drag starts the session that its state leads to.** -/
theorem Fits.phase_ofDrag (h : i.Fits) (hheld : i.pointing? = some held) :
    (SessionKind.ofDrag i.phase.dragged held.handle?).phase = i.phase.dragged := by
  cases i with
  | pointingResizeHandle _ =>
      obtain ⟨handle, hhandle, -⟩ := h
      obtain rfl := Option.some.inj hheld
      rw [hhandle]
      rfl
  | pointingRotateHandle _ | pointingSelection _ => rfl
  | _ => exact nomatch hheld

end Interaction

theorem Press.fits_held (p : Press α) (target : Target) : (p.held target).Fits := by
  cases target with
  | handle h => cases h <;> first | rfl | exact ⟨_, rfl, rfl⟩
  | _ => rfl

theorem Press.pointing?_held (p : Press α) (target : Target) :
    (p.held target).pointing? = some ⟨p.point, target.handle?, p.coarse⟩ :=
  Interaction.pointing?_ofPress _ _

theorem Press.phase_held (p : Press α) (target : Target) : (p.held target).phase = target.phase :=
  Interaction.phase_ofPress target.isPointing_phase _

end CanvasTransform
