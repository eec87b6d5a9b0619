import CanvasTransform.Proofs.Document.Commit
import Mathlib.Data.List.Induction

set_option autoImplicit false

/-! # Staging as an overlay

A staging area has a working copy of the whole document. What is said of it here is that it need not
have one: an overlay that keeps the shapes that were patched, and looks everything else up in the
document that it lies over (`Overlay`), answers like the working copy and gathers the same batch
(`Overlay.shows_update`).

Whatever batches an overlay was given, it answers as the document would if they had been written to
it, and writing the gathered batch leaves what writing them all leaves (`Overlay.commit_eq_updates`).
The two maps of the overlay and the merging of patches are dealt with one patch at a time. -/

namespace CanvasTransform

variable {α : Type}

/-- A document with changes laid over it. -/
structure Overlay (α : Type) where
  base : Document α
  /-- The shapes that were patched, as they are now. -/
  changed : Std.TreeMap ShapeId (Shape α) compare
  pending : List (Patch α)

namespace Overlay

/-- The overlay freshly laid over a document. -/
def on (d : Document α) : Overlay α := ⟨d, ∅, []⟩

/-- A shape as it is now: from the changes, or else from the document beneath. -/
def get? (o : Overlay α) (id : ShapeId) : Option (Shape α) := o.changed[id]? <|> o.base.get? id

/-- Lay one patch over the document. A patch for an unknown shape is dropped. -/
def apply (o : Overlay α) (p : Patch α) : Overlay α :=
  match o.get? p.id with
  | none => o
  | some s =>
    { o with changed := o.changed.insert p.id (s.patch p), pending := Staging.record p o.pending }

/-- Lay a batch over the document. -/
def update (o : Overlay α) (batch : List (Patch α)) : Overlay α := batch.foldl apply o

/-- No patch changes the tree, so one level of it is read off the document beneath. -/
def children (o : Overlay α) (parent : Parent) : List ShapeId := o.base.children parent

/-- The map from the shape's frame into the page, read off the chain of parents as it is now. -/
def pageTransform? [Scalar α] (o : Overlay α) (id : ShapeId) : Option (Affine α) :=
  (o.get? id).bind fun s => Document.pageTransformVia o.get? Document.maxDepth s Affine.identity

/-! ## The overlay and the working copy -/

@[simp] theorem get?_on (d : Document α) (id : ShapeId) : (on d).get? id = d.get? id := by
  simp [get?, on]

@[simp] theorem base_apply (o : Overlay α) (p : Patch α) : (o.apply p).base = o.base := by
  unfold apply
  split <;> rfl

/-- Nothing reaches the document beneath. -/
@[simp] theorem base_update (o : Overlay α) (batch : List (Patch α)) :
    (o.update batch).base = o.base := by
  induction batch generalizing o with
  | nil => rfl
  | cons p batch ih => exact (ih (o.apply p)).trans (o.base_apply p)

/-- A patch reaches the shape it names and no other. -/
theorem get?_apply (o : Overlay α) (p : Patch α) (id : ShapeId) :
    (o.apply p).get? id = if p.id = id then (o.get? id).map (·.patch p) else o.get? id := by
  unfold apply
  cases hs : o.get? p.id with
  | none =>
      by_cases hid : p.id = id
      · rw [if_pos hid, ← hid, hs, Option.map_none]
      · rw [if_neg hid]
  | some s =>
      by_cases hid : p.id = id
      · rw [if_pos hid, ← hid, hs]
        simp [get?]
      · rw [if_neg hid]
        simp [get?, Std.TreeMap.getElem?_insert, hid]

/-- The overlay answers like the working copy and has gathered the same batch. -/
structure Shows (o : Overlay α) (s : Staging α) : Prop where
  get? : ∀ id, o.get? id = s.document.get? id
  pending : o.pending = s.pending

theorem shows_on (d : Document α) : (on d).Shows (Staging.on d) := ⟨get?_on d, rfl⟩

variable {o : Overlay α} {s : Staging α}

theorem Shows.apply (h : o.Shows s) (p : Patch α) : (o.apply p).Shows (s.apply p) := by
  refine ⟨fun id => ?_, ?_⟩
  · rw [get?_apply, Staging.document_apply, Document.get?_patch, h.get? id]
  · have hget := h.get? p.id
    unfold Overlay.apply Staging.apply
    cases hs : s.document.get? p.id with
    | none =>
        rw [hs] at hget
        rw [hget, if_neg (by simp [Document.contains, hs])]
        exact h.pending
    | some shape =>
        rw [hs] at hget
        rw [hget, if_pos (Document.contains_of_get? hs)]
        exact congrArg (Staging.record p) h.pending

theorem Shows.update (h : o.Shows s) (batch : List (Patch α)) :
    (o.update batch).Shows (s.applyAll batch) := by
  induction batch generalizing o s with
  | nil => exact h
  | cons p batch ih => exact ih (h.apply p)

/-- What answers alike has the same page transforms. -/
theorem pageTransform?_eq [Scalar α] {d : Document α} (h : ∀ id, o.get? id = d.get? id)
    (id : ShapeId) : o.pageTransform? id = d.pageTransform? id := by
  rw [Document.pageTransform?_eq_via, pageTransform?, (funext h : o.get? = d.get?)]

end Overlay

/-! ## Many batches -/

namespace Staging

/-- Recording a patch names its shape, unless it is named already. -/
theorem map_id_record_eq_eraseDups {p : Patch α} {ps : List (Patch α)} {named : List ShapeId}
    (h : ps.map (·.id) = named.eraseDups) :
    (record p ps).map (·.id) = (named ++ [p.id]).eraseDups := by
  rw [map_id_record, h, List.eraseDups_append]
  by_cases hmem : p.id ∈ named
  · have hnone : [p.id].removeAll named = [] := by simp [List.removeAll, hmem]
    rw [if_pos (List.mem_eraseDups.2 hmem), hnone, List.eraseDups_nil, List.append_nil]
  · have hone : [p.id].removeAll named = [p.id] := by simp [List.removeAll, hmem]
    rw [if_neg (mt List.mem_eraseDups.1 hmem), hone, List.eraseDups_cons, List.filter_nil,
      List.eraseDups_nil]

/-- The touched shapes are the ones that patches name, if they exist, in the order in which they are
    first named. -/
theorem touched_applyAll (d : Document α) (ps : List (Patch α)) :
    ((on d).applyAll ps).touched = ((ps.map (·.id)).filter d.contains).eraseDups := by
  -- along the patches from the front: each one is looked at in the light of those before it
  induction ps using List.reverseRecOn with
  | nil => rfl
  | append_singleton ps p ih =>
      have happend : (on d).applyAll (ps ++ [p]) = ((on d).applyAll ps).apply p := by
        rw [applyAll, List.foldl_append]
        rfl
      have hcontains : ((on d).applyAll ps).document.contains p.id = d.contains p.id := by
        rw [document_applyAll]
        exact (Document.sameTree_patchAll d ps).contains_eq p.id
      rw [happend, List.map_append, List.map_singleton, List.filter_append, apply, hcontains]
      by_cases hp : d.contains p.id = true
      · rw [if_pos hp, List.filter_cons_of_pos hp, List.filter_nil]
        exact map_id_record_eq_eraseDups ih
      · rw [if_neg hp, List.filter_cons_of_neg hp, List.filter_nil, List.append_nil]
        exact ih

end Staging

theorem Store.foldl_update_agree (store : Store α) (batches : List (List (Patch α))) :
    (batches.foldl Store.update store).document.Agree (store.document.patchAll batches.flatten) := by
  induction batches generalizing store with
  | nil => exact Document.Agree.refl _
  | cons batch batches ih =>
      rw [List.foldl_cons, List.flatten_cons, Document.patchAll_append]
      exact (ih _).trans ((store.update_agree batch).patchAll _)

namespace Overlay

/-- **Gathering and writing is writing directly.** Batches are laid over the document of a store. The
    document beneath stays as it is. Every shape, every level of the tree and every page transform
    is what it is after the batches were written to the store. The gathered batch has one patch for
    each shape that exists and was named, in the order in which they were first named. And writing it
    in one go leaves the document that writing the batches one by one leaves. All this is the same
    for a staging area with a working copy. -/
theorem commit_eq_updates [Scalar α] (store : Store α) (batches : List (List (Patch α))) :
    let overlay := batches.foldl update (on store.document)
    let staged := batches.foldl Staging.applyAll (Staging.on store.document)
    let direct := batches.foldl Store.update store
    overlay.base = store.document ∧
    (∀ id, overlay.get? id = direct.document.get? id) ∧
    (∀ id, overlay.pageTransform? id = direct.document.pageTransform? id) ∧
    (∀ parent, overlay.children parent = direct.document.children parent) ∧
    overlay.pending.map (·.id) =
      ((batches.flatten.map (·.id)).filter store.document.contains).eraseDups ∧
    (overlay.pending.map (·.id)).Nodup ∧
    (store.update overlay.pending).document.Agree direct.document ∧
    overlay.Shows staged := by
  intro overlay staged direct
  have hflat : overlay = (on store.document).update batches.flatten := by
    rw [update, List.foldl_flatten]
    rfl
  have hstaged : staged = (Staging.on store.document).applyAll batches.flatten := by
    rw [Staging.applyAll, List.foldl_flatten]
    rfl
  have hshows : overlay.Shows staged := by
    rw [hflat, hstaged]
    exact (shows_on _).update _
  have hbase : overlay.base = store.document := by rw [hflat, base_update]; rfl
  have hdirect := store.foldl_update_agree batches
  have hget : ∀ id, overlay.get? id = direct.document.get? id := by
    intro id
    rw [hshows.get?, hstaged, Staging.document_applyAll]
    exact (hdirect id).symm
  have htracks : staged.Tracks store.document := by
    rw [hstaged]
    exact (Staging.tracks_on _).applyAll _
  refine ⟨hbase, hget, fun id => pageTransform?_eq hget id, fun parent => ?_, ?_, ?_, ?_, hshows⟩
  · rw [children, hbase]
    have htree : direct.document.SameTree store.document :=
      hdirect.sameTree.trans (Document.sameTree_patchAll _ _)
    exact (htree.children_eq parent).symm
  · rw [hshows.pending, hstaged]
    exact Staging.touched_applyAll _ _
  · rw [hshows.pending]
    exact htracks.nodup
  · rw [hshows.pending]
    exact (store.update_agree _).trans fun id =>
      (htracks.replay id).trans ((hshows.get? id).symm.trans (hget id))

end Overlay

end CanvasTransform
