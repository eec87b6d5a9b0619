import CanvasTransform.Proofs.Editor.Calls
import CanvasTransform.Proofs.Session.Cloning

set_option autoImplicit false

/-! # The cloning indicator

Modifiers reach a session in three ways: with the call that begins it, with every move of the
pointer, and with an explicit change. All three set the flags of the session, but the indicator
follows alt in the first and the last way only.

What the indicator does is told without a queue of tasks (`Indicator`), and what calls make known of
the alt key without looking at the session (`AltKey`). Along every sequence of calls, the
alt flag of a translation is the one that came last, by whatever way, and the indicator shows
exactly when this account says so (`Editor.Tracks.alt_and_isCloning`). So it shows whenever alt is
held as far as the begin of the translation and explicit changes have told; alt that comes with a
move sets the flag and nothing else (`Editor.not_isCloning_of_alt_moved`). -/

namespace CanvasTransform

variable {α : Type}

/-! ## What is told of alt, and what it comes to -/

/-- What is known of the alt key while a session is running. -/
structure AltKey where
  /-- Whether alt was held when modifiers came last, by whatever way. -/
  held : Bool
  /-- What an indicator does that follows the begin of the session and explicit changes. -/
  indicator : Indicator
deriving DecidableEq

namespace AltKey

/-- What the begin of a session tells. -/
def start (alt : Bool) : AltKey := ⟨alt, .start alt⟩

/-- What a call tells a session that is running. -/
def during (k : AltKey) (delay : Nat) : Call α → AltKey
  | .handle (.modifiers m now) => ⟨m.alt, k.indicator.follow m.alt now delay⟩
  | .handle (.tick now) => { k with indicator := k.indicator.tick now }
  | .handle (.move _ m) | .update _ m => { k with held := m.alt }
  | _ => k

/-- The indicator shows alt as it was when modifiers came last, up to the delay of a release. -/
def Agrees (k : AltKey) : Prop := k.held = true ↔ k.indicator = .shown

theorem agrees_start (alt : Bool) : (start alt).Agrees := by
  cases alt <;> simp [Agrees, start, Indicator.start]

/-- Only moves that bring another alt come between the flag and the indicator. -/
theorem Agrees.during {k : AltKey} (h : k.Agrees) (delay : Nat) {call : Call α}
    (hcall : ∀ p m, call = .handle (.move p m) ∨ call = .update p m → m.alt = k.held) :
    (k.during delay call).Agrees := by
  cases call with
  | update p m =>
      rw [Agrees, AltKey.during, hcall p m (Or.inr rfl)]
      exact h
  | handle event =>
      cases event with
      | move p m =>
          rw [Agrees, AltKey.during, hcall p m (Or.inl rfl)]
          exact h
      | modifiers m now =>
          cases halt : m.alt <;> cases hi : k.indicator <;>
            simp [Agrees, AltKey.during, Indicator.follow, halt, hi]
      | tick now =>
          cases hi : k.indicator with
          | fading due =>
              rw [Agrees, hi] at h
              simp only [Agrees, AltKey.during, hi, Indicator.tick, h]
              split <;> simp
          | _ => simpa [Agrees, AltKey.during, Indicator.tick, hi] using h
      | _ => exact h
  | _ => exact h

end AltKey

/-- Whether a call that begins a session comes with alt held. -/
def Call.alt : Call α → Bool
  | .begin _ _ m | .beginResize _ _ m | .handle (.move _ m) => m.alt
  | _ => false

/-- What is known of the alt key after a call. -/
def AltKey.after (k : AltKey) (e : Editor α) (call : Call α) : AltKey :=
  match e.session? with
  | some _ => k.during e.config.cloneRevertDelay.toNat call
  | none => .start call.alt

/-- A call keeps the indicator in agreement, unless it moves a session that is running and brings
    another alt. -/
theorem AltKey.Agrees.after {k : AltKey} (h : k.Agrees) {e : Editor α} {call : Call α}
    (hcall : ∀ s, e.session? = some s → ∀ p m,
      call = .handle (.move p m) ∨ call = .update p m → m.alt = k.held) :
    (k.after e call).Agrees := by
  unfold AltKey.after
  split
  · next s hs => exact h.during _ (hcall s hs)
  · exact agrees_start _

/-! ## Sessions follow it -/

namespace Session

variable {s : Session α}

/-- The session has the alt flag that came last, and shows what a session of its kind shows. -/
structure Tells (s : Session α) (k : AltKey) : Prop where
  alt : s.flags.alt = k.held
  shows : s.Shows (if s.kind = .translate then k.indicator else .hidden)

theorem tells_start (kind : SessionKind) (origin : Point α) (m : Modifiers)
    (snapshot : Snapshot α) : (start kind origin m.flags snapshot).Tells (.start m.alt) :=
  ⟨rfl, shows_start kind origin m.flags snapshot⟩

namespace Tells

variable {k : AltKey}

theorem moveTo (h : s.Tells k) (p : Point α) (m : Modifiers) :
    (s.moveTo p m.flags).Tells { k with held := m.alt } :=
  ⟨rfl, h.shows.congr rfl rfl rfl⟩

theorem setAlt (h : s.Tells k) (m : Modifiers) (now delay : Nat) :
    ({ s with flags := m.flags }.setAlt m.alt now delay).Tells
      ⟨m.alt, k.indicator.follow m.alt now delay⟩ := by
  have hwork := sameWork_setAlt { s with flags := m.flags } m.alt now delay
  refine ⟨by rw [hwork.flags]; rfl, ?_⟩
  have hshows := h.shows
  rw [hwork.kind]
  by_cases hkind : s.kind = .translate
  · rw [if_pos hkind] at hshows ⊢
    exact (hshows.congr (t := { s with flags := m.flags }) rfl rfl rfl).setAlt hkind m.alt now delay
  · rw [if_neg hkind] at hshows ⊢
    rw [setAlt_of_ne_translate (s := { s with flags := m.flags }) hkind]
    exact hshows.congr rfl rfl rfl

theorem tick (h : s.Tells k) (now : Nat) :
    (s.tick now).Tells { k with indicator := k.indicator.tick now } := by
  have hwork := sameWork_tick s now
  refine ⟨by rw [hwork.flags]; exact h.alt, ?_⟩
  have hshows := h.shows.tick now
  rw [hwork.kind]
  by_cases hkind : s.kind = .translate
  · rw [if_pos hkind] at hshows ⊢
    exact hshows
  · rw [if_neg hkind] at hshows ⊢
    exact hshows

end Tells

end Session

/-! ## Editors track it -/

namespace Editor

/-- The session that is running, if one is, tells what is known of the alt key. -/
def Tells (e : Editor α) (k : AltKey) : Prop := ∀ s, e.session? = some s → s.Tells k

theorem Tells.of_none {e : Editor α} {k : AltKey} (h : e.session? = none) : e.Tells k := by
  intro s hs
  rw [h] at hs
  exact nomatch hs

theorem Tells.of_session {e : Editor α} {s : Session α} {k : AltKey}
    (h : e.session? = some s) (hs : s.Tells k) : e.Tells k := fun s' hs' => by
  rw [h] at hs'
  cases hs'
  exact hs

variable [Scalar α] {e : Editor α} {store : Store α} {s : Session α} {k : AltKey}

/-- A session that is recomputed shows what it showed. -/
theorem Tells.recompute {s₀ : Session α} (hi : e.session? = some s₀) (h : s.Tells k)
    (store : Store α) : (e.recompute store s).1.Tells k :=
  .of_session (session?_setSession hi _) ⟨h.alt, h.shows.congr rfl rfl rfl⟩

theorem tells_beginSession (h : e.session? = none) (d : Document α) (kind : SessionKind)
    (origin : Point α) (m : Modifiers) :
    (e.beginSession d kind origin m).2.Tells (.start m.alt) := by
  rw [beginSession_of_not_isSession (isSession_eq_false_iff.2 h)]
  cases e.capture? d with
  | none => exact .of_none rfl
  | some snapshot =>
      exact .of_session (session?_withSession e kind origin m.flags snapshot)
        (Session.tells_start kind origin m snapshot)

theorem tells_completeSession (h : e.session? = some s) (d : Document α) (k : AltKey) :
    (e.completeSession d).Tells k := by
  rw [completeSession_of_session h]
  exact .of_none (e.session?_resumption d)

theorem tells_cancelSession (e : Editor α) (store : Store α) (k : AltKey) :
    (e.cancelSession store).1.Tells k := by
  rw [cancelSession_eq]
  exact .of_none (e.session?_resumption _)

/-- What a call tells a session that is running. -/
theorem tells_run_of_session (hi : e.session? = some s) (h : s.Tells k) (store : Store α)
    (call : Call α) :
    (call.run (e, store)).1.Tells (k.during e.config.cloneRevertDelay.toNat call) := by
  have hsession := isSession_of_session hi
  have hsame : e.Tells k := .of_session hi h
  cases call with
  | handle event =>
      rw [Call.run, handle_of_session hi]
      split
      · exact tells_cancelSession e store _
      · cases event with
        | press p => exact .of_session hi h
        | move p m => exact .recompute hi (h.moveTo p m) store
        | modifiers m now => exact .recompute hi (h.setAlt m now _) store
        | release p m => exact tells_completeSession hi _ _
        | tick now => exact .of_session (session?_setSession hi _) (h.tick now)
        | key name | cancel => exact hsame
  | begin kind origin m =>
      rw [Call.run, beginSession, if_pos hsession]
      exact hsame
  | beginResize handle origin m =>
      rw [Call.run, beginResize, beginSession, if_pos hsession, ite_self]
      exact hsame
  | update p m =>
      rw [Call.run, updateSession, hi]
      exact .recompute hi (h.moveTo p m) store
  | complete => exact tells_completeSession hi _ _
  | cancel => exact tells_cancelSession e store _
  | select ids =>
      rw [Call.run, select, if_pos hsession]
      exact hsame
  | resizeSelection factors origin => exact hsame
  | flipHorizontal | flipVertical => exact hsame
  | camera c | viewport v | registry r => exact .of_session hi h

/-- What an event tells the session that it begins. -/
theorem tells_handle_of_none (h : e.session? = none) (store : Store α) (event : Event α) :
    (e.handle store event).1.Tells (.start (Call.alt (.handle event))) := by
  have hsame : e.Tells (.start (Call.alt (.handle event))) := .of_none h
  rcases e.trichotomy with hi | ⟨held, hi⟩ | ⟨s, hs⟩
  · rw [handle_of_idle hi]
    cases event with
    | press p =>
        dsimp only
        split
        · exact hsame
        · exact .of_none (Interaction.session?_of_pointing? (p.pointing?_held _))
    | move p m => exact .of_none h
    | _ => exact hsame
  · rw [handle_of_pointing hi]
    split
    · exact .of_none rfl
    · cases event with
      | move p m =>
          dsimp only
          rw [startSessionIfDragged_of_pointing hi]
          dsimp only
          split
          · exact hsame
          · cases e.capture? store.document with
            | none => exact .of_none rfl
            | some snapshot =>
                -- the move that begins the session also brings it to where the pointer is
                exact .recompute (session?_withSession e _ _ _ snapshot)
                  ((Session.tells_start _ _ m snapshot).moveTo p m) store
      | release p m => exact .of_none rfl
      | _ => exact hsame
  · rw [h] at hs
    exact nomatch hs

/-- What a call tells the session that it begins. -/
theorem tells_run_of_none (h : e.session? = none) (store : Store α) (call : Call α) :
    (call.run (e, store)).1.Tells (.start call.alt) := by
  have hphase := isSession_eq_false_iff.2 h
  have hsame : e.Tells (.start call.alt) := .of_none h
  cases call with
  | handle event => exact tells_handle_of_none h store event
  | begin kind origin m => exact tells_beginSession h _ kind origin m
  | beginResize handle origin m =>
      rw [Call.run, beginResize]
      split
      · exact tells_beginSession h _ _ origin m
      · exact hsame
  | update p m =>
      rw [Call.run, updateSession, h]
      exact hsame
  | complete =>
      rw [Call.run, completeSession, h]
      exact hsame
  | cancel => exact tells_cancelSession e store _
  | select ids => exact .of_none (by rw [Call.run, select, if_neg (by simp [hphase])]; exact h)
  | resizeSelection factors origin => exact hsame
  | flipHorizontal | flipVertical => exact hsame
  | camera c | viewport v | registry r => exact .of_none h

/-- The editors that calls lead to from a new one, as in `Reachable`, with what the calls have made
    known of the alt key. -/
inductive Tracks (ok : Store α → Prop) : Editor α → AltKey → Prop
  | initial (config : Config α) : Tracks ok (Editor.initial config) (.start false)
  | call {e : Editor α} {k : AltKey} {store : Store α} (h : Tracks ok e k) (hstore : ok store)
      (call : Call α) : Tracks ok (call.run (e, store)).1 (k.after e call)

namespace Tracks

variable {ok : Store α → Prop}

theorem exists_tracks_iff_reachable : (∃ k, e.Tracks ok k) ↔ e.Reachable ok := by
  constructor
  · rintro ⟨k, h⟩
    induction h with
    | initial config => exact .initial config
    | call h hstore call ih => exact .call ih hstore call
  · intro h
    induction h with
    | initial config => exact ⟨_, .initial config⟩
    | call h hstore call ih =>
        obtain ⟨k, hk⟩ := ih
        exact ⟨_, .call hk hstore call⟩

theorem tells (h : e.Tracks ok k) : e.Tells k := by
  induction h with
  | initial config => exact .of_none rfl
  | @call e k store _ _ call ih =>
      rw [AltKey.after]
      cases hs : e.session? with
      | some s => exact tells_run_of_session hs (ih s hs) store call
      | none => exact tells_run_of_none hs store call

end Tracks

/-- **The cloning indicator follows the begin of a translation and explicit changes.** Wherever calls
    have led, the alt flag of a translation that is running is the one that came last, and the
    indicator shows exactly when it shows by the account. So it shows alt when the flag is set,
    unless it is hidden by the account: a move has brought alt then, and nothing else has. As long as
    moves bring no alt but what the begin and the changes have told, it always does. -/
theorem Tracks.alt_and_isCloning {ok : Store α → Prop} (h : e.Tracks ok k)
    (hs : e.session? = some s) (hkind : s.kind = .translate) :
    s.flags.alt = k.held ∧ (e.isCloning = true ↔ k.indicator ≠ .hidden) ∧
      ((s.flags.alt = true → e.isCloning = true) ↔
        ¬ (k.held = true ∧ k.indicator = .hidden)) ∧
      (k.Agrees → s.flags.alt = true → e.isCloning = true) := by
  obtain ⟨halt, hshows⟩ := h.tells s hs
  rw [if_pos hkind] at hshows
  have hcloning : e.isCloning = true ↔ k.indicator ≠ .hidden := by
    rw [← hshows.cloning_iff, isCloning, hs]
    simp
  refine ⟨halt, hcloning, ?_, fun hagrees hheld => ?_⟩
  · rw [halt, hcloning, not_and]
  · rw [halt] at hheld
    rw [hcloning, hagrees.1 hheld]
    exact Indicator.noConfusion

/-- A rectangle is dragged, alt is pressed and released on the way, and the indicator still shows. -/
theorem Tracks.alt_and_isCloning_fading :
    let store : Store Binary64 := ⟨Document.empty.put (Shape.rectangle 1 0 0 100.0 100.0), []⟩
    let selected := (Call.run (Editor.initial Config.standard, store) (.select [1])).1
    let begun := (Call.run (selected, store)
      (.begin .translate ⟨50.0, 50.0⟩ Modifiers.none)).1
    let pressed := (Call.run (begun, store) (.handle (.modifiers Modifiers.altOnly 1000))).1
    let e := (Call.run (pressed, store) (.handle (.modifiers Modifiers.none 1200))).1
    e.Tracks (fun _ => True) ⟨false, .fading 1350⟩ ∧
      ∃ s, e.session? = some s ∧ s.kind = .translate ∧ s.flags.alt = false ∧
        e.isCloning = true := by
  intro store selected begun pressed e
  have hselected : selected.Tracks (fun _ => True) (.start false) :=
    .call (.initial Config.standard) trivial _
  have hbegun : begun.Tracks (fun _ => True) (.start false) := .call hselected trivial _
  have hpressed : pressed.Tracks (fun _ => True) ⟨true, .shown⟩ := by
    have hk : (AltKey.start false).after begun (.handle (.modifiers Modifiers.altOnly 1000)) =
        ⟨true, .shown⟩ := by
      clear hbegun hselected e pressed
      decide +kernel +revert
    exact hk ▸ .call hbegun trivial _
  have he : e.Tracks (fun _ => True) ⟨false, .fading 1350⟩ := by
    have hk : AltKey.after ⟨true, .shown⟩ pressed (.handle (.modifiers Modifiers.none 1200)) =
        ⟨false, .fading 1350⟩ := by
      clear hpressed hbegun hselected e
      decide +kernel +revert
    exact hk ▸ .call hpressed trivial _
  have hphase : e.phase = .translating := by
    clear he hpressed hbegun hselected
    decide +kernel +revert
  obtain ⟨s, hs, hkind⟩ :=
    (exists_tracks_iff_reachable.1 ⟨_, he⟩).consistent.exists_translation hphase
  obtain ⟨halt, hcloning, -⟩ := Tracks.alt_and_isCloning he hs hkind
  exact ⟨he, s, hs, hkind, halt, hcloning.2 (by decide)⟩

/-- **Alt that comes with a move does not show.** A rectangle is dragged without alt, then alt is held
    and the pointer moves on. -/
theorem not_isCloning_of_alt_moved :
    ¬ ∀ (ok : Store Binary64 → Prop) (e : Editor Binary64), e.Reachable ok →
      ∀ s, e.session? = some s → s.kind = .translate → s.flags.alt = true →
        e.isCloning = true := by
  intro hall
  let store : Store Binary64 := ⟨Document.empty.put (Shape.rectangle 1 0 0 100.0 100.0), []⟩
  let selected := (Call.run (Editor.initial Config.standard, store) (.select [1])).1
  let begun := (Call.run (selected, store)
    (.begin .translate ⟨50.0, 50.0⟩ Modifiers.none)).1
  let e := (Call.run (begun, store) (.handle (.move ⟨90.0, 50.0⟩ Modifiers.altOnly))).1
  have hbegun : begun.Tracks (fun _ => True) (.start false) :=
    .call (.call (.initial Config.standard) trivial _) trivial _
  have he : e.Tracks (fun _ => True) ⟨true, .hidden⟩ := by
    have hk : (AltKey.start false).after begun (.handle (.move ⟨90.0, 50.0⟩ Modifiers.altOnly)) =
        ⟨true, .hidden⟩ := by
      clear hbegun e hall
      decide +kernel +revert
    exact hk ▸ .call hbegun trivial _
  have hphase : e.phase = .translating := by
    clear he hbegun hall
    decide +kernel +revert
  have hreach := Tracks.exists_tracks_iff_reachable.1 ⟨_, he⟩
  obtain ⟨s, hs, hkind⟩ := hreach.consistent.exists_translation hphase
  obtain ⟨halt, hshows⟩ := he.tells s hs
  rw [if_pos hkind] at hshows
  have hcloning : e.isCloning = true := hall _ e hreach s hs hkind halt
  rw [isCloning, hs] at hcloning
  exact absurd (hshows.cloning_iff.1 (by simpa using hcloning)) (by simp)

end Editor

end CanvasTransform
