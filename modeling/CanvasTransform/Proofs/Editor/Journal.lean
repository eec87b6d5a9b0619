import CanvasTransform.Proofs.Editor.Calls
import CanvasTransform.Proofs.Session.Undo

set_option autoImplicit false

/-! # What a store reports

A store reports every batch that it applies, and whoever keeps a copy of the document by the reports
wants each call of the editor to come down to one report at most. It does: a call leaves the store
alone or writes a single batch (`Call.writes_run`), even the move that begins a session, updates it
and refits containers, and even the end of a session that replays the presses that waited for it. So
a copy that replays the reports is the document after every call (`Call.reports`).

No batch names a shape twice. Staged batches do not (`Staging.Tracks`), and a revert does not because
the baseline and the snapshot file each shape under its own identity (`Session.Filed`), and because
it takes from the snapshot only what is not in the baseline. -/

namespace CanvasTransform

variable {α : Type}

/-! ## One step of a store -/

/-- What a report is to be: not empty, at most one patch for each shape, each patch to some effect and
    for a shape of the document. -/
structure Document.Accepts (d : Document α) (batch : List (Patch α)) : Prop where
  nonempty : batch ≠ []
  nodup : (batch.map (·.id)).Nodup
  effective : ∀ p ∈ batch, p.isEmpty = false
  known : ∀ p ∈ batch, d.contains p.id = true

namespace Store

variable {s s' : Store α}

/-- The store has not changed, or it has taken one batch and reported what it has taken. -/
def Advance (s s' : Store α) : Prop :=
  s' = s ∨ ∃ batch, s.document.Accepts batch ∧
    s' = ⟨s.document.patchAll batch, s.journal ++ [batch]⟩

@[refl] theorem Advance.refl (s : Store α) : s.Advance s := Or.inl rfl

theorem Advance.keyed (h : s.Advance s') (hs : s.document.Keyed) : s'.document.Keyed := by
  rcases h with rfl | ⟨batch, -, rfl⟩
  · exact hs
  · exact (Document.sameTree_patchAll _ _).keyed hs

theorem Advance.replay (h : s.Advance s') : ∃ reported, s'.journal = s.journal ++ reported ∧
    s'.document = reported.foldl Document.patchAll s.document := by
  rcases h with rfl | ⟨batch, -, rfl⟩
  · exact ⟨[], (List.append_nil _).symm, rfl⟩
  · exact ⟨[batch], rfl, rfl⟩

theorem advance_update (s : Store α) {batch : List (Patch α)} (h : (batch.map (·.id)).Nodup) :
    s.Advance (s.update batch) := by
  rw [update]
  split
  · exact Advance.refl s
  · next hne =>
      refine Or.inr ⟨_, ⟨?_, ?_, ?_, ?_⟩, rfl⟩
      · simpa using hne
      · exact (List.filter_sublist.map _).nodup h
      · intro p hp
        have htaken := (List.mem_filter.1 hp).2
        simp only [Bool.and_eq_true, Bool.not_eq_true'] at htaken
        exact htaken.2
      · intro p hp
        have htaken := (List.mem_filter.1 hp).2
        simp only [Bool.and_eq_true] at htaken
        exact htaken.1

end Store

/-! ## Reverts -/

namespace Session

variable {s s' : Session α}

/-- The shapes that the session would restore are filed under their own identities. -/
structure Filed (s : Session α) : Prop where
  baseline : s.baseline.Keyed
  captured : ∀ id m, s.snapshot.get? id = some m → m.shape.id = id

theorem Filed.of_work (h : s.Filed) (hsnapshot : s'.snapshot = s.snapshot)
    (hbaseline : s'.baseline = s.baseline) : s'.Filed where
  baseline := hbaseline ▸ h.baseline
  captured := hsnapshot ▸ h.captured

theorem Filed.recordBaseline (h : s.Filed) (d : Document α) (batch : List (Patch α)) :
    { s with baseline := s.recordBaseline d batch }.Filed where
  baseline := by
    show (batch.foldl d.recordShape s.baseline).Keyed
    have hb := h.baseline
    generalize s.baseline = baseline at hb ⊢
    induction batch generalizing baseline with
    | nil => exact hb
    | cons p batch ih =>
        refine ih _ ?_
        rw [Document.recordShape]
        split
        · exact hb
        · cases d.get? p.id with
          | none => exact hb
          | some shape => exact hb.put shape
  captured := h.captured

/-- A revert names each shape once. -/
theorem Filed.nodup_revert (h : s.Filed) : (s.revert.map (·.id)).Nodup := by
  have hbaseline : (s.baseline.toList.map (·.id)).Nodup :=
    Document.nodup_map_values h.baseline
  have hcaptured : (s.snapshot.shapes.map (·.id)).Nodup := by
    rw [Snapshot.shapes, List.map_map]
    exact Document.nodup_map_values h.captured
  rw [revert, List.map_append, List.map_map, List.map_map]
  refine hbaseline.append ((List.filter_sublist.map _).nodup hcaptured) ?_
  intro id hid hid'
  obtain ⟨shape, hshape, rfl⟩ := List.mem_map.1 hid
  obtain ⟨shape', hshape', hsame⟩ := List.mem_map.1 hid'
  have hout : s.baseline.contains shape'.id = false := by
    simpa using (List.mem_filter.1 hshape').2
  have hin := Document.contains_of_get? ((Document.mem_toList_iff h.baseline).1 hshape)
  rw [show shape'.id = shape.id from hsame, hin] at hout
  cases hout

end Session

/-! ## What a call writes -/

namespace Editor

variable {e : Editor α}

/-- A session that is running can be reverted by a batch that names each shape once. -/
def Filed (e : Editor α) : Prop := ∀ s, e.session? = some s → s.Filed

theorem filed_of_not_isSession (h : e.phase.isSession = false) : e.Filed := by
  intro s hs
  rw [isSession_of_session hs] at h
  exact nomatch h

theorem filed_of_session {s : Session α} (h : e.session? = some s) (hs : s.Filed) :
    e.Filed := by
  intro s' hs'
  obtain rfl := Option.some.inj (h.symm.trans hs')
  exact hs

/-- What an operation of the editor leaves behind: at most one more report, and a session that can
    still be reverted. -/
structure Writes (store : Store α) (after : Editor α × Store α) : Prop where
  advance : store.Advance after.2
  filed : after.1.Filed

theorem writes_nothing (h : e.Filed) (store : Store α) : Writes store (e, store) :=
  ⟨Store.Advance.refl store, h⟩

variable [Scalar α] {store : Store α}

theorem writes_recompute {s s' : Session α} (hi : e.session? = some s) (store : Store α)
    (hs' : s'.Filed) : Writes store (e.recompute store s') where
  advance := store.advance_update (Canvas.nodup_batch _ _)
  filed := filed_of_session (session?_setSession hi _) (hs'.recordBaseline _ _)

theorem filed_start {d : Document α} (hd : d.Keyed) {snapshot : Snapshot α}
    (h : e.capture? d = some snapshot) (kind : SessionKind) (origin : Point α) (flags : Flags) :
    (Session.start kind origin flags snapshot).Filed where
  baseline := Document.keyed_empty
  captured id m hm := hd id m.shape
    (Canvas.member?_eq_some_iff.1 (Canvas.member?_of_capture? h hm)).1

theorem filed_beginSession (h : e.Filed) {d : Document α} (hd : d.Keyed) (kind : SessionKind)
    (origin : Point α) (m : Modifiers) : (e.beginSession d kind origin m).2.Filed := by
  cases hphase : e.phase.isSession with
  | true =>
      rw [beginSession, if_pos hphase]
      exact h
  | false =>
      rw [beginSession_of_not_isSession hphase]
      cases hc : e.capture? d with
      | none => exact filed_of_not_isSession rfl
      | some snapshot =>
          exact filed_of_session (session?_withSession e _ _ _ _) (filed_start hd hc _ _ _)

theorem writes_updateSession (h : e.Filed) (store : Store α) (p : Point α) (m : Modifiers) :
    Writes store (e.updateSession store p m) := by
  rw [updateSession]
  split
  · next s hi => exact writes_recompute hi store ((h s hi).of_work rfl rfl)
  · exact writes_nothing h store

/-- A drag that starts a session begins it and updates it, and writes once. -/
theorem writes_startSessionIfDragged (h : e.Filed) (hstore : store.document.Keyed)
    {held : Pointing α} (hi : e.interaction.pointing? = some held) (p : Point α) (m : Modifiers)
    (next : Phase) : Writes store (e.startSessionIfDragged store p m next) := by
  rw [startSessionIfDragged_of_pointing hi]
  dsimp only
  split
  · exact writes_nothing h store
  · cases hc : e.capture? store.document with
    | none => exact ⟨Store.Advance.refl store, filed_of_not_isSession rfl⟩
    | some snapshot =>
        have hs := filed_start hstore hc (.ofDrag next held.handle?) held.origin m.flags
        exact writes_recompute (session?_withSession e _ _ _ _) store (hs.of_work rfl rfl)

theorem filed_completeSession (h : e.Filed) (d : Document α) : (e.completeSession d).Filed := by
  rw [completeSession]
  split
  · exact filed_of_not_isSession (finish_phase rfl d)
  · exact h

theorem writes_cancelSession (h : e.Filed) (store : Store α) :
    Writes store (e.cancelSession store) where
  advance := by
    rw [cancelSession]
    dsimp only
    split
    · next s hi => exact store.advance_update (h s hi).nodup_revert
    · exact Store.Advance.refl store
  filed := filed_of_not_isSession (finish_phase rfl _)

theorem writes_handle (h : e.Filed) (hstore : store.document.Keyed) (event : Event α) :
    Writes store (e.handle store event) := by
  rcases e.trichotomy with hi | ⟨held, hi⟩ | ⟨s, hi⟩
  · have hphase : e.phase.isSession = false := by rw [phase, hi]; rfl
    rw [handle_of_idle hi]
    cases event with
    | press p =>
        refine ⟨Store.Advance.refl store, ?_⟩
        dsimp only
        split
        · exact h
        · exact filed_of_not_isSession (isSession_of_pointing (p.pointing?_held _))
    | move p m => exact ⟨Store.Advance.refl store, filed_of_not_isSession hphase⟩
    | _ => exact writes_nothing h store
  · rw [handle_of_pointing hi]
    split
    · exact ⟨Store.Advance.refl store, filed_of_not_isSession rfl⟩
    · cases event with
      | move p m => exact writes_startSessionIfDragged h hstore hi p m _
      | release p m => exact ⟨Store.Advance.refl store, filed_of_not_isSession rfl⟩
      | _ => exact writes_nothing h store
  · rw [handle_of_session hi]
    split
    · exact writes_cancelSession h store
    · cases event with
      | press p => exact ⟨Store.Advance.refl store, filed_of_session hi (h s hi)⟩
      | move p m => exact writes_recompute hi store ((h s hi).of_work rfl rfl)
      | modifiers m now =>
          have hwork := Session.sameWork_setAlt { s with flags := m.flags } m.alt now
            e.config.cloneRevertDelay.toNat
          exact writes_recompute hi store ((h s hi).of_work hwork.snapshot hwork.baseline)
      | release p m => exact ⟨Store.Advance.refl store, filed_completeSession h _⟩
      | tick now =>
          have hwork := Session.sameWork_tick s now
          exact ⟨Store.Advance.refl store, filed_of_session (session?_setSession hi _)
            ((h s hi).of_work hwork.snapshot hwork.baseline)⟩
      | _ => exact writes_nothing h store

theorem advance_resizeSelection (e : Editor α) (store : Store α) (factors : Vec α)
    (origin : ScaleOrigin α) : store.Advance (e.resizeSelection store factors origin).2 := by
  rw [resizeSelection]
  split
  · exact Store.Advance.refl store
  · cases e.capture? store.document with
    | none => exact Store.Advance.refl store
    | some snapshot => exact store.advance_update (Canvas.nodup_batch _ _)

end Editor

section
variable [Scalar α] {e : Editor α} {store : Store α}

/-- **A call writes once at most.** -/
theorem Call.writes_run (h : e.Filed) (hstore : store.document.Keyed) (call : Call α) :
    Editor.Writes store (call.run (e, store)) := by
  cases call with
  | handle event => exact Editor.writes_handle h hstore event
  | begin kind origin m =>
      exact ⟨Store.Advance.refl store, Editor.filed_beginSession h hstore kind origin m⟩
  | beginResize handle origin m =>
      refine ⟨Store.Advance.refl store, ?_⟩
      rw [run, Editor.beginResize]
      split
      · exact Editor.filed_beginSession h hstore _ origin m
      · exact h
  | update p m => exact Editor.writes_updateSession h store p m
  | complete => exact ⟨Store.Advance.refl store, Editor.filed_completeSession h _⟩
  | cancel => exact Editor.writes_cancelSession h store
  | resizeSelection factors origin => exact ⟨e.advance_resizeSelection store factors origin, h⟩
  | flipHorizontal => exact ⟨e.advance_resizeSelection store _ _, h⟩
  | flipVertical => exact ⟨e.advance_resizeSelection store _ _, h⟩
  | select ids =>
      refine ⟨Store.Advance.refl store, ?_⟩
      rw [run, Editor.select]
      split
      · exact h
      · exact h
  | camera c => exact ⟨Store.Advance.refl store, h⟩
  | viewport v => exact ⟨Store.Advance.refl store, h⟩
  | registry r => exact ⟨Store.Advance.refl store, h⟩

theorem Editor.Reachable.filed (h : e.Reachable fun store => store.document.Keyed) : e.Filed := by
  induction h with
  | initial config => exact Editor.filed_of_not_isSession rfl
  | @call e store _ hstore call ih => exact (call.writes_run ih hstore).filed

/-- What an editor and a store are after calls in turn. -/
def Call.runAll (state : Editor α × Store α) (calls : List (Call α)) : Editor α × Store α :=
  calls.foldl Call.run state

theorem Call.runAll_cons (state : Editor α × Store α) (call : Call α) (calls : List (Call α)) :
    Call.runAll state (call :: calls) = Call.runAll (call.run state) calls := rfl

theorem Call.runAll_append (state : Editor α × Store α) (calls calls' : List (Call α)) :
    Call.runAll state (calls ++ calls') = Call.runAll (Call.runAll state calls) calls' :=
  List.foldl_append

/-- Calls keep what single calls need. -/
theorem Call.filed_runAll (h : e.Filed) (hstore : store.document.Keyed) (calls : List (Call α)) :
    (Call.runAll (e, store) calls).1.Filed ∧ (Call.runAll (e, store) calls).2.document.Keyed := by
  induction calls generalizing e store with
  | nil => exact ⟨h, hstore⟩
  | cons call calls ih =>
      have hwrites := call.writes_run h hstore
      exact ih hwrites.filed (hwrites.advance.keyed hstore)

/-- A copy of the document that replays the reports keeps up with it. -/
theorem Call.replay_runAll (h : e.Filed) (hstore : store.document.Keyed) (calls : List (Call α)) :
    ∃ reported, (Call.runAll (e, store) calls).2.journal = store.journal ++ reported ∧
      (Call.runAll (e, store) calls).2.document =
        reported.foldl Document.patchAll store.document := by
  induction calls generalizing e store with
  | nil => exact ⟨[], (List.append_nil _).symm, rfl⟩
  | cons call calls ih =>
      have hwrites := call.writes_run h hstore
      obtain ⟨first, hjournal, hdocument⟩ := hwrites.advance.replay
      obtain ⟨rest, hjournal', hdocument'⟩ :=
        ih hwrites.filed (hwrites.advance.keyed hstore)
      refine ⟨first ++ rest, ?_, ?_⟩
      · rw [← List.append_assoc, ← hjournal]
        exact hjournal'
      · rw [List.foldl_append, ← hdocument]
        exact hdocument'

/-! ## Events that write nothing -/

/-- Events that never write: presses, releases, ticks, and keys that do not cancel. -/
def Event.isQuiet : Event α → Bool
  | .press _ | .release _ _ | .tick _ => true
  | .key name => name != cancelKey
  | _ => false

namespace Editor

theorem store_handle_of_isQuiet (e : Editor α) (store : Store α) {event : Event α}
    (h : event.isQuiet = true) : (e.handle store event).2 = store := by
  have hcancel : event.isCancel = false := by
    cases event with
    | key name => simpa [Event.isQuiet, Event.isCancel] using h
    | cancel => exact nomatch h
    | _ => rfl
  rcases e.trichotomy with hi | ⟨held, hi⟩ | ⟨s, hi⟩
  · rw [handle_of_idle hi]
    cases event <;> rfl
  · rw [handle_of_pointing hi, if_neg (by simp [hcancel])]
    cases event with
    | move p m => exact nomatch h
    | _ => rfl
  · rw [handle_of_session hi, if_neg (by simp [hcancel])]
    cases event with
    | move p m => exact nomatch h
    | modifiers m now => exact nomatch h
    | _ => rfl

/-- Whether a move to `p` takes a press at `origin` far enough to start a session. -/
def dragsFrom (e : Editor α) (origin : Point α) (coarse : Bool) (p : Point α) : Prop :=
  ¬ p.distance origin ≤ e.camera.screenDistance (e.config.dragThreshold coarse)

/-- Before a session starts, only a move that takes the press far enough writes. -/
theorem drags_of_store_handle_ne {event : Event α} (h : e.phase.isSession = false)
    (hne : (e.handle store event).2 ≠ store) : ∃ held p m,
      e.interaction.pointing? = some held ∧ event = .move p m ∧
        e.dragsFrom held.origin held.coarse p := by
  rcases e.trichotomy with hi | ⟨held, hi⟩ | ⟨s, hi⟩
  · rw [handle_of_idle hi] at hne
    cases event <;> exact absurd rfl hne
  · rw [handle_of_pointing hi] at hne
    split at hne
    · exact absurd rfl hne
    · cases event with
      | move p m =>
          refine ⟨held, p, m, hi, rfl, fun hle => hne ?_⟩
          dsimp only
          rw [startSessionIfDragged_of_pointing hi]
          dsimp only
          rw [if_pos hle]
      | _ => exact absurd rfl hne
  · rw [isSession_of_session hi] at h
    exact nomatch h

/-! ## Clicks -/

/-- The press that counts once another one has come: the one that is held, if there is one. -/
def heldAfter (e : Editor α) (press : Press α) : Point α × Bool :=
  match e.interaction.pointing? with
  | some held => (held.origin, held.coarse)
  | none => (press.point, press.coarse)

/-- What a click may have led to before it ends: nothing, or the press is held. -/
structure Clicking (e : Editor α) (press : Point α × Bool) (e' : Editor α) : Prop where
  config : e'.config = e.config
  camera : e'.camera = e.camera
  interaction : e'.interaction = .idle ∨
    ∃ handle?, e'.interaction.pointing? = some ⟨press.1, handle?, press.2⟩

theorem clicking_press (h : e.phase.isSession = false) (store : Store α) (press : Press α) :
    ∃ e', e.handle store (.press press) = (e', store) ∧ e.Clicking (e.heldAfter press) e' := by
  rw [handle_press, heldAfter]
  refine ⟨_, rfl, ?_⟩
  rcases e.trichotomy with hi | ⟨held, hi⟩ | ⟨s, hi⟩
  · rw [press_of_idle hi, hi]
    by_cases htarget : e.targetOf store.document press = .canvas
    · rw [if_pos htarget]
      exact ⟨rfl, rfl, Or.inl hi⟩
    · rw [if_neg htarget]
      exact ⟨rfl, rfl, Or.inr ⟨_, press.pointing?_held _⟩⟩
  · rw [press_of_pointing hi, hi]
    exact ⟨rfl, rfl, Or.inr ⟨held.handle?, hi⟩⟩
  · rw [isSession_of_session hi] at h
    exact nomatch h

variable {press : Point α × Bool} {e' : Editor α}

/-- A move that does not take the press far enough leaves it. -/
theorem Clicking.move (h : e.Clicking press e') (store : Store α) {p : Point α}
    (hp : ¬ e.dragsFrom press.1 press.2 p) (m : Modifiers) :
    ∃ e'', e'.handle store (.move p m) = (e'', store) ∧ e.Clicking press e'' := by
  rcases h.interaction with hi | ⟨handle?, hi⟩
  · rw [handle_of_idle hi]
    exact ⟨_, rfl, h.config, h.camera, Or.inl hi⟩
  · rw [dragsFrom, not_not] at hp
    rw [handle_move_of_pointing hi, startSessionIfDragged_of_pointing hi]
    dsimp only
    rw [if_pos]
    · exact ⟨e', rfl, h⟩
    · rw [h.camera, h.config]
      exact hp

theorem Clicking.moves (h : e.Clicking press e') (store : Store α)
    {moves : List (Point α × Modifiers)} (hmoves : ∀ q ∈ moves, ¬ e.dragsFrom press.1 press.2 q.1) :
    ∃ e'', Call.runAll (e', store) (moves.map fun q => .handle (.move q.1 q.2)) = (e'', store) ∧
      e.Clicking press e'' := by
  induction moves generalizing e' with
  | nil => exact ⟨e', rfl, h⟩
  | cons q moves ih =>
      obtain ⟨e₁, hrun, h₁⟩ := h.move store (hmoves q List.mem_cons_self) q.2
      obtain ⟨e₂, hruns, h₂⟩ := ih h₁ fun r hr => hmoves r (List.mem_cons_of_mem _ hr)
      refine ⟨e₂, ?_, h₂⟩
      rw [List.map_cons, Call.runAll_cons, Call.run, hrun]
      exact hruns

/-- A release and a cancel end the click. -/
theorem Clicking.finish (h : e.Clicking press e') (store : Store α) {ending : Event α}
    (hending : (∃ p m, ending = .release p m) ∨ ending.isCancel = true) :
    (e'.handle store ending).2 = store ∧ (e'.handle store ending).1.phase = .idle := by
  rcases h.interaction with hi | ⟨handle?, hi⟩
  · have hphase : e'.phase = .idle := by rw [phase, hi]; rfl
    rw [handle_of_idle hi]
    rcases hending with ⟨p, m, rfl⟩ | hcancel
    · exact ⟨rfl, hphase⟩
    · cases ending with
      | key name => exact ⟨rfl, hphase⟩
      | cancel => exact ⟨rfl, hphase⟩
      | _ => cases hcancel
  · rw [handle_of_pointing hi]
    rcases hending with ⟨p, m, rfl⟩ | hcancel
    · exact ⟨rfl, rfl⟩
    · rw [if_pos hcancel]
      exact ⟨rfl, rfl⟩

/-- A press, moves that do not take it far enough and a release or a cancel come to nothing. -/
theorem click (h : e.phase.isSession = false) (store : Store α) (press : Press α)
    {moves : List (Point α × Modifiers)}
    (hmoves : ∀ q ∈ moves, ¬ e.dragsFrom (e.heldAfter press).1 (e.heldAfter press).2 q.1)
    {ending : Event α} (hending : (∃ p m, ending = .release p m) ∨ ending.isCancel = true) :
    let after := Call.runAll (e, store) (.handle (.press press) ::
      (moves.map fun q => .handle (.move q.1 q.2)) ++ [.handle ending])
    after.2 = store ∧ after.1.phase = .idle := by
  intro after
  obtain ⟨e₁, hpress, h₁⟩ := clicking_press h store press
  obtain ⟨e₂, hruns, h₂⟩ := h₁.moves store hmoves
  have hafter : after = e₂.handle store ending := by
    have hbefore : Call.runAll (e, store) (.handle (.press press) ::
        moves.map fun q => .handle (.move q.1 q.2)) = (e₂, store) := by
      rw [Call.runAll_cons, Call.run, hpress]
      exact hruns
    show Call.runAll (e, store) (_ ++ [_]) = _
    rw [Call.runAll_append, hbefore]
    rfl
  rw [hafter]
  exact h₂.finish store hending

end Editor

/-- **Whoever listens to the store misses nothing.** From an editor that calls have led to, on any
    store of shapes filed under their own identities, whatever is called: each call leaves the store
    alone or applies and reports one batch that the document accepts, and replaying the reports on a
    copy of the document gives the document after every call. In any state, presses, releases,
    ticks and keys that do not cancel write nothing. While no session is running, nothing writes but
    a move that takes a press far enough to begin one; and a press that no move takes that far comes
    to nothing. -/
theorem Call.reports (he : e.Reachable fun store => store.document.Keyed)
    (hstore : store.document.Keyed) (calls : List (Call α)) :
    (∀ before call, before ++ [call] <+: calls →
      (Call.runAll (e, store) before).2.Advance (Call.runAll (e, store) (before ++ [call])).2) ∧
    (∀ before, before <+: calls → ∃ reported,
      (Call.runAll (e, store) before).2.journal = store.journal ++ reported ∧
      (Call.runAll (e, store) before).2.document =
        reported.foldl Document.patchAll store.document) ∧
    (∀ (e : Editor α) (store : Store α) (event : Event α), event.isQuiet = true →
      (e.handle store event).2 = store) ∧
    (∀ (e : Editor α) (store : Store α) (event : Event α), e.phase.isSession = false →
      (e.handle store event).2 ≠ store → ∃ held p m, e.interaction.pointing? = some held ∧
        event = .move p m ∧ e.dragsFrom held.origin held.coarse p) ∧
    ∀ (e : Editor α) (store : Store α) (press : Press α) (moves : List (Point α × Modifiers))
      (ending : Event α), e.phase.isSession = false →
      (∀ q ∈ moves, ¬ e.dragsFrom (e.heldAfter press).1 (e.heldAfter press).2 q.1) →
      ((∃ p m, ending = .release p m) ∨ ending.isCancel = true) →
      let after := Call.runAll (e, store) (.handle (.press press) ::
        (moves.map fun q => .handle (.move q.1 q.2)) ++ [.handle ending])
      after.2 = store ∧ after.1.phase = .idle := by
  refine ⟨fun before call _ => ?_, fun before _ => Call.replay_runAll he.filed hstore before,
    fun e store _ h => e.store_handle_of_isQuiet store h,
    fun _ _ _ h hne => Editor.drags_of_store_handle_ne h hne,
    fun _ store press _ _ h hmoves hending => Editor.click h store press hmoves hending⟩
  obtain ⟨hfiled, hkeyed⟩ := Call.filed_runAll he.filed hstore before
  have hwrites := call.writes_run hfiled hkeyed
  rw [Call.runAll_append]
  exact hwrites.advance

end

/-- A note dragged by the press on its body, and the drag cancelled: the move that begins the session
    is one report and the cancel another. -/
theorem Call.reports_dragged_note :
    let store : Store Binary64 := ⟨Document.empty.put (Shape.note 1 0 0 10.0 10.0), []⟩
    let e := (Call.run (Editor.initial Config.standard, store) (.select [1])).1
    let calls : List (Call Binary64) :=
      [.handle (.press ⟨⟨1.0, 1.0⟩, some .selection, Modifiers.none, false⟩),
        .handle (.move ⟨41.0, 1.0⟩ Modifiers.none), .handle .cancel]
    e.Reachable (fun store => store.document.Keyed) ∧ store.document.Keyed ∧
      (Call.runAll (e, store) calls).2.journal.length = 2 ∧
      ∃ reported, (Call.runAll (e, store) calls).2.journal = store.journal ++ reported ∧
        (Call.runAll (e, store) calls).2.document =
          reported.foldl Document.patchAll store.document := by
  intro store e calls
  have hcount : (Call.runAll (e, store) calls).2.journal.length = 2 := by decide +kernel +revert
  have hkeyed : store.document.Keyed := Document.keyed_empty.put _
  have hreach : e.Reachable fun store => store.document.Keyed :=
    .call (.initial Config.standard) hkeyed _
  refine ⟨hreach, hkeyed, hcount, ?_⟩
  exact (Call.reports hreach hkeyed calls).2.1 calls List.prefix_rfl

end CanvasTransform
