import CanvasTransform.Proofs.Editor.Journal
import CanvasTransform.Proofs.Group.Refit
import CanvasTransform.Proofs.Transform.Targets

set_option autoImplicit false

/-! # In which order shapes are listed

A session restores its baseline, and its snapshot, shape by shape, and the order in which it comes
upon them is an accident of the maps that they are kept in. The order decides in which order a batch
touches shapes, and so in which order groups of the same depth are refitted. None of it shows: with
the built-in behaviours each shape is named by the same patches in the same order
(`Document.reactions_alike`), so the batches have the same patches (`Canvas.batch_perm`), and the
sessions that come of it record the same shapes and go on alike (`Session.Twins`). -/

namespace CanvasTransform

variable {α : Type}

namespace Document

variable {d d' : Document α}

/-- Documents that answer alike list their shapes alike. -/
theorem Agree.toList_eq (h : d.Agree d') : d.toList = d'.toList := by
  have hequiv : d.shapes.Equiv d'.shapes := Std.TreeMap.Equiv.of_forall_constGet?_eq h
  rw [Document.toList_eq, Document.toList_eq, hequiv.toList_eq]

theorem Agree.contains_eq (h : d.Agree d') (id : ShapeId) : d.contains id = d'.contains id :=
  h.sameTree.contains_eq id

end Document

section
variable [Scalar α] {d d' : Document α}

/-- What updates and the reactions to them name does not depend on the order of updates of different
    shapes. -/
theorem Document.changes_alike (h : d.Agree d') (hd : d.Keyed) (hshallow : d.Shallow)
    {updates updates' : List (Patch α)} (hupdates : Document.Alike updates updates') :
    Document.Alike (d.changes Registry.builtin updates) (d'.changes Registry.builtin updates') := by
  have hreached : ∀ id, id ∈ d.reached updates ↔ id ∈ d'.reached updates' := fun id => by
    rw [mem_reached_iff, mem_reached_iff, hupdates.mem_map_id_iff, h.contains_eq]
  have hcontainers : ∀ a, a ∈ d.containers (d.reached updates) ↔
      a ∈ d'.containers (d'.reached updates') := fun a => by
    simp only [hshallow.mem_containers, (h.symm.sameTree.shallow hshallow).mem_containers, hreached,
      h.sameTree.ancestors_eq]
  exact hupdates.append
    (reactions_containers_alike h.sameTree hd hshallow (hupdates.agree h) hcontainers)

/-- **A batch has the same patches** in whatever order the updates come. -/
theorem Canvas.batch_perm (h : d.Agree d') (hd : d.Keyed) (hshallow : d.Shallow)
    {updates updates' : List (Patch α)} (hupdates : Document.Alike updates updates') :
    (Canvas.batch ⟨d, Registry.builtin⟩ updates).Perm
      (Canvas.batch ⟨d', Registry.builtin⟩ updates') := by
  have hpending := Staging.alike_pending h.contains_eq
    (Document.changes_alike h hd hshallow hupdates)
  rw [← Canvas.batch_eq ⟨d, Registry.builtin⟩, ← Canvas.batch_eq ⟨d', Registry.builtin⟩] at hpending
  exact hpending.perm (Canvas.nodup_batch _ _) (Canvas.nodup_batch _ _)

end

theorem Store.update_perm_agree {store store' : Store α}
    (h : store.document.Agree store'.document) {batch batch' : List (Patch α)}
    (hbatch : Document.Alike batch batch') :
    (store.update batch).document.Agree (store'.update batch').document :=
  ((store.update_agree batch).trans (hbatch.agree h)).trans (store'.update_agree batch').symm

/-! ## Sessions that list their shapes in any order -/

namespace Session

/-- Write updates on top of the baseline, listed in the given order. -/
def commitIn [Scalar α] (s : Session α) (order : List (Shape α)) (store : Store α)
    (updates : List (Patch α)) : Session α × Store α :=
  let batch := Canvas.batch ⟨store.document, Registry.builtin⟩ (order.map Patch.restore ++ updates)
  ({ s with baseline := s.recordBaseline store.document batch }, store.update batch)

theorem commit_eq_commitIn [Scalar α] (s : Session α) (store : Store α) (updates : List (Patch α)) :
    s.commit Registry.builtin store updates = s.commitIn s.baseline.toList store updates := rfl

/-- The patches that undo everything, with the baseline and the captured shapes listed in the given
    orders. -/
def revertIn (s : Session α) (order captured : List (Shape α)) : List (Patch α) :=
  order.map Patch.restore ++
    (captured.filter fun shape => !s.baseline.contains shape.id).map Patch.restore

theorem revertIn_perm (s : Session α) {order captured : List (Shape α)}
    (horder : order.Perm s.baseline.toList) (hcaptured : captured.Perm s.snapshot.shapes) :
    (s.revertIn order captured).Perm s.revert :=
  (horder.map _).append ((hcaptured.filter _).map _)

/-- A session that is moved from place to place, and lists its baseline in some order each time. -/
inductive Moves [Scalar α] (config : Config α) (zoom : α) :
    List (Point α × Flags) → Session α × Store α → Session α × Store α → Prop
  | nil (state : Session α × Store α) : Moves config zoom [] state state
  | cons {s : Session α} {store : Store α} {p : Point α} {flags : Flags}
      {rest : List (Point α × Flags)} {after : Session α × Store α} (order : List (Shape α))
      (horder : order.Perm s.baseline.toList)
      (hrest : Moves config zoom rest ((s.moveTo p flags).commitIn order store
        ((s.moveTo p flags).update ⟨store.document, Registry.builtin⟩ config
          zoom).outcome.updates) after) :
      Moves config zoom ((p, flags) :: rest) (s, store) after

/-- The sessions differ at most in how their maps came about, and so do their documents. -/
structure Twins (s t : Session α) (d d' : Document α) : Prop where
  rest : t = { s with baseline := t.baseline }
  baseline : s.baseline.Agree t.baseline
  document : d.Agree d'

theorem Twins.refl (s : Session α) (d : Document α) : s.Twins s d d where
  rest := rfl
  baseline := Document.Agree.refl _
  document := Document.Agree.refl _

variable {s t : Session α} {store store' : Store α}

theorem Twins.moveTo {d d' : Document α} (h : s.Twins t d d') (p : Point α) (flags : Flags) :
    (s.moveTo p flags).Twins (t.moveTo p flags) d d' where
  rest := by
    rw [h.rest]
    rfl
  baseline := h.baseline
  document := h.document

theorem Filed.moveTo (h : s.Filed) (p : Point α) (flags : Flags) : (s.moveTo p flags).Filed :=
  h.of_work rfl rfl

/-- Twins undo the same, in whatever order they list it. -/
theorem Twins.revertIn_agree (h : s.Twins t store.document store'.document) (hs : s.Filed)
    {order captured order' captured' : List (Shape α)} (horder : order.Perm s.baseline.toList)
    (hcaptured : captured.Perm s.snapshot.shapes) (horder' : order'.Perm t.baseline.toList)
    (hcaptured' : captured'.Perm t.snapshot.shapes) :
    (store.update (s.revertIn order captured)).document.Agree
      (store'.update (t.revertIn order' captured')).document := by
  have hrevert : t.revert = s.revert := by
    rw [h.rest, revert, revert, ← h.baseline.toList_eq]
    simp only [h.baseline.contains_eq]
  have hperm : (s.revertIn order captured).Perm (t.revertIn order' captured') := by
    have ht := t.revertIn_perm horder' hcaptured'
    rw [hrevert] at ht
    exact (s.revertIn_perm horder hcaptured).trans ht.symm
  have hnodup : ((s.revertIn order captured).map (·.id)).Nodup :=
    ((s.revertIn_perm horder hcaptured).map _).nodup_iff.2 hs.nodup_revert
  exact Store.update_perm_agree h.document (Document.Alike.of_perm hperm hnodup)

variable [Scalar α]

theorem Filed.commitIn (h : s.Filed) (order : List (Shape α)) (store : Store α)
    (updates : List (Patch α)) : (s.commitIn order store updates).1.Filed :=
  h.recordBaseline _ _

/-- Twins ask for the same updates. -/
theorem Twins.update_eq {d d' : Document α} (h : s.Twins t d d') (config : Config α) (zoom : α) :
    s.update ⟨d, Registry.builtin⟩ config zoom = t.update ⟨d', Registry.builtin⟩ config zoom := by
  rw [update_congr h.document.contains_eq]
  rw [h.rest]
  exact update_eq_of_pointer rfl rfl rfl rfl rfl _ _ _

/-- **Twins stay twins**: they write the same batch and record the same shapes, in whatever order they
    list what they restore. -/
theorem Twins.commitIn (h : s.Twins t store.document store'.document) (hs : s.Filed)
    (hd : store.document.Keyed) (hshallow : store.document.Shallow) {order order' : List (Shape α)}
    (horder : order.Perm s.baseline.toList) (horder' : order'.Perm t.baseline.toList)
    (updates : List (Patch α)) :
    (s.commitIn order store updates).1.Twins (t.commitIn order' store' updates).1
      (s.commitIn order store updates).2.document (t.commitIn order' store' updates).2.document := by
  have hperm : (order.map Patch.restore).Perm (order'.map Patch.restore) := by
    rw [← h.baseline.toList_eq] at horder'
    exact (horder.trans horder'.symm).map _
  have hnodup : ((order.map Patch.restore).map (·.id)).Nodup := by
    rw [List.map_map, (horder.map _).nodup_iff]
    exact Document.nodup_map_values hs.baseline
  have halike := (Document.Alike.of_perm hperm hnodup).append (Document.Alike.refl updates)
  have hbatch := Canvas.batch_perm h.document hd hshallow halike
  refine ⟨?_, fun id => ?_, ?_⟩
  · rw [Session.commitIn, Session.commitIn, h.rest]
  · have hd' : store'.document.Keyed := h.document.symm.sameTree.keyed hd
    simp only [Session.commitIn]
    rw [s.get?_recordBaseline hd, t.get?_recordBaseline hd', h.baseline id, h.document id]
    simp only [(hbatch.map (·.id)).mem_iff]
  · exact Store.update_perm_agree h.document (Document.Alike.of_perm hbatch (Canvas.nodup_batch _ _))

theorem Moves.filed {config : Config α} {zoom : α} {moves : List (Point α × Flags)}
    {before after : Session α × Store α} (h : Moves config zoom moves before after)
    (hs : before.1.Filed) : after.1.Filed := by
  induction h with
  | nil state => exact hs
  | cons order horder hrest ih => exact ih ((hs.moveTo _ _).commitIn _ _ _)

/-- Twins that are moved to the same places stay twins. -/
theorem Moves.twins {config : Config α} {zoom : α} {moves : List (Point α × Flags)}
    {before after before' after' : Session α × Store α} (h : Moves config zoom moves before after)
    (h' : Moves config zoom moves before' after')
    (hbefore : before.1.Twins before'.1 before.2.document before'.2.document)
    (hs : before.1.Filed) (hd : before.2.document.Keyed) (hshallow : before.2.document.Shallow) :
    after.1.Twins after'.1 after.2.document after'.2.document := by
  induction h generalizing before' with
  | nil state =>
      cases h'
      exact hbefore
  | @cons s store p flags rest after order horder hrest ih =>
      cases h' with
      | @cons t store' _ _ _ _ order' horder' hrest' =>
          have hmoved := hbefore.moveTo p flags
          have htree := store.update_sameTree (Canvas.batch ⟨store.document, Registry.builtin⟩
            (order.map Patch.restore ++ ((s.moveTo p flags).update
              ⟨store.document, Registry.builtin⟩ config zoom).outcome.updates))
          refine ih hrest' ?_ ((hs.moveTo p flags).commitIn _ _ _) (htree.keyed hd)
            (htree.shallow hshallow)
          rw [← hmoved.update_eq config zoom]
          exact hmoved.commitIn (hs.moveTo p flags) hd hshallow horder horder' _

/-- The updates of a session in an editor are such moves: the editor lists the baseline by
    identity. -/
theorem moves_runAll {e : Editor α} (h : e.session? = some s)
    (hregistry : e.registry = Registry.builtin) (store : Store α)
    (moves : List (Point α × Modifiers)) :
    ∃ s', (Interim.runAll (e, store) (moves.map fun q => .update q.1 q.2)).1.session? = some s' ∧
      Moves e.config e.camera.zoom (moves.map fun q => (q.1, q.2.flags)) (s, store)
        (s', (Interim.runAll (e, store) (moves.map fun q => .update q.1 q.2)).2) := by
  induction moves generalizing e s store with
  | nil => exact ⟨s, h, .nil _⟩
  | cons q moves ih =>
      have hrun : (Interim.update q.1 q.2).run (e, store) =
          e.recompute store (s.moveTo q.1 q.2.flags) := by
        simp only [Interim.run, Editor.updateSession, h]
      obtain ⟨s', hs', hmoves⟩ := ih (e := (e.recompute store (s.moveTo q.1 q.2.flags)).1)
        (Editor.session?_setSession h _) hregistry (e.recompute store (s.moveTo q.1 q.2.flags)).2
      have hcons : Interim.runAll (e, store) ((q :: moves).map fun q => .update q.1 q.2) =
          Interim.runAll (e.recompute store (s.moveTo q.1 q.2.flags))
            (moves.map fun q => .update q.1 q.2) := by
        rw [← hrun]
        rfl
      rw [hcons]
      refine ⟨s', hs', .cons s.baseline.toList (List.Perm.refl _) ?_⟩
      simp only [Editor.recompute, Editor.canvas, hregistry] at hmoves ⊢
      exact hmoves

/-- **The order in which shapes are listed never shows.** On a document of shapes filed under their
    own identities, with no chain of parents longer than queries follow:

    * Updates of different shapes come to the same in every order: the batches have the same patches
      and leave the same document.
    * A session can list its baseline in any order when it commits. Two sessions that are moved to
      the same places, and list it in any order each time, leave the same document and have the same
      baseline.
    * So it is when they revert, listing baseline and captured shapes in any order. -/
theorem order_never_shows {store : Store α} (hd : store.document.Keyed)
    (hshallow : store.document.Shallow) :
    (∀ updates updates' : List (Patch α), updates.Perm updates' → (updates.map (·.id)).Nodup →
      let batch := Canvas.batch ⟨store.document, Registry.builtin⟩ updates
      let batch' := Canvas.batch ⟨store.document, Registry.builtin⟩ updates'
      batch.Perm batch' ∧ (store.update batch).document.Agree (store.update batch').document) ∧
    (∀ s : Session α, s.Filed → ∀ order, order.Perm s.baseline.toList → ∀ updates,
      (s.commitIn order store updates).2.document.Agree
        (s.commit Registry.builtin store updates).2.document) ∧
    ∀ s : Session α, s.Filed → ∀ config zoom moves after after',
      Moves config zoom moves (s, store) after → Moves config zoom moves (s, store) after' →
      after.2.document.Agree after'.2.document ∧ after.1.baseline.Agree after'.1.baseline ∧
      ∀ order captured order' captured' : List (Shape α),
        order.Perm after.1.baseline.toList → captured.Perm after.1.snapshot.shapes →
        order'.Perm after'.1.baseline.toList → captured'.Perm after'.1.snapshot.shapes →
        (after.2.update (after.1.revertIn order captured)).document.Agree
          (after'.2.update (after'.1.revertIn order' captured')).document := by
  refine ⟨fun updates updates' hperm hnodup => ?_, fun s hs order horder updates => ?_,
    fun s hs config zoom moves after after' hafter hafter' => ?_⟩
  · have hbatch := Canvas.batch_perm (Document.Agree.refl store.document) hd hshallow
      (Document.Alike.of_perm hperm hnodup)
    exact ⟨hbatch, Store.update_perm_agree (Document.Agree.refl _)
      (Document.Alike.of_perm hbatch (Canvas.nodup_batch _ _))⟩
  · have htwins : s.Twins s store.document store.document := Twins.refl s store.document
    rw [commit_eq_commitIn]
    exact (htwins.commitIn hs hd hshallow horder (List.Perm.refl _) updates).document
  · have htwins := hafter.twins hafter' (Twins.refl s store.document) hs hd hshallow
    exact ⟨htwins.document, htwins.baseline, fun order captured order' captured' h₁ h₂ h₃ h₄ =>
      htwins.revertIn_agree (hafter.filed hs) h₁ h₂ h₃ h₄⟩

end Session

/-- Two groups of the same depth with a rectangle each. The rectangles are moved in either order, and
    then dragged together. -/
theorem Session.order_never_shows_two_groups :
    let d : Document Binary64 :=
      (((Document.empty.put (Shape.group 1 5.0 5.0)).put (Shape.group 2 80.0 5.0)).put
        ((Shape.rectangle 3 0 0 10.0 10.0).withParent (.shape 1))).put
          ((Shape.rectangle 4 0 0 10.0 10.0).withParent (.shape 2))
    let updates : List (Patch Binary64) := [Patch.position 3 20.0 0, Patch.position 4 0 30.0]
    let e : Editor Binary64 := { Editor.initial Config.standard with selection := [3, 4] }
    let origin : Point Binary64 := ⟨5.0, 5.0⟩
    let moves : List (Point Binary64 × Modifiers) :=
      [(⟨25.0, 5.0⟩, Modifiers.none), (⟨30.0, 45.0⟩, Modifiers.shiftOnly)]
    d.Keyed ∧ d.Shallow ∧ d.ancestors 3 = [1] ∧ d.ancestors 4 = [2] ∧
      (Canvas.batch ⟨d, Registry.builtin⟩ updates).Perm
        (Canvas.batch ⟨d, Registry.builtin⟩ updates.reverse) ∧
      ∃ snapshot, e.capture? d = some snapshot ∧
        let s := Session.start .translate origin Modifiers.none.flags snapshot
        s.Filed ∧ ∃ after, Session.Moves e.config e.camera.zoom (moves.map fun q => (q.1, q.2.flags))
            (s, ⟨d, []⟩) after ∧
          ∀ after', Session.Moves e.config e.camera.zoom (moves.map fun q => (q.1, q.2.flags))
            (s, ⟨d, []⟩) after' → after.2.document.Agree after'.2.document := by
  intro d updates e origin moves
  have hkeyed : d.Keyed := (((Document.keyed_empty.put _).put _).put _).put _
  have hshallow : d.Shallow := by
    refine hkeyed.shallow ?_
    clear hkeyed moves origin e updates
    decide +kernel +revert
  have hleft : d.ancestors 3 = [1] := by
    clear hkeyed hshallow moves origin e updates
    decide +kernel +revert
  have hright : d.ancestors 4 = [2] := by
    clear hkeyed hshallow hleft moves origin e updates
    decide +kernel +revert
  have hnodup : (updates.map (·.id)).Nodup := by
    clear hkeyed hshallow hleft hright moves origin e d
    decide +kernel +revert
  have hopen : (e.beginSession d .translate origin Modifiers.none).2.phase.isSession = true := by
    clear hkeyed hshallow hleft hright hnodup moves updates
    decide +kernel +revert
  obtain ⟨hperm, -, hmoves⟩ :=
    @Session.order_never_shows Binary64 _ ⟨d, []⟩ hkeyed hshallow
  obtain ⟨snapshot, hcapture, -⟩ := Editor.beginSession_of_isSession rfl hopen
  have hfiled : (Session.start .translate origin Modifiers.none.flags snapshot).Filed :=
    Editor.filed_start hkeyed hcapture _ _ _
  obtain ⟨s', -, hmoved⟩ := Session.moves_runAll
    (Editor.session?_withSession e .translate origin Modifiers.none.flags snapshot) rfl ⟨d, []⟩ moves
  refine ⟨hkeyed, hshallow, hleft, hright,
    (hperm updates updates.reverse updates.reverse_perm.symm hnodup).1, snapshot, hcapture, hfiled,
    _, hmoved, fun after' hafter' => ?_⟩
  exact (hmoves _ hfiled _ _ _ _ after' hmoved hafter').1

end CanvasTransform
