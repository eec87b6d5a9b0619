import CanvasTransform.Proofs.Document.Ancestry
import Mathlib.Data.List.Nodup
import Mathlib.Tactic.Tauto

set_option autoImplicit false

/-! # What committing a batch does to the document

A staging area keeps a working copy and the batch that leads to it. The batch never loses track
(`Staging.Tracks`): it has one patch per touched shape, and replaying it on the document that the
area was opened on gives the working copy. So a committed batch can be forgotten: what it leaves in
the store is the document with the updates applied and the containers refitted one by one, deepest
first (`Document.settle`, `commit_agree`). -/

namespace CanvasTransform

variable {α : Type}

/-! ## Staging -/

namespace Staging

theorem map_id_record (p : Patch α) (ps : List (Patch α)) :
    (record p ps).map (·.id) =
      if p.id ∈ ps.map (·.id) then ps.map (·.id) else ps.map (·.id) ++ [p.id] := by
  induction ps with
  | nil => rfl
  | cons q ps ih =>
      unfold record
      by_cases h : q.id = p.id
      · simp [h, Patch.merge]
      · rw [if_neg h, List.map_cons, ih, List.map_cons]
        by_cases hmem : p.id ∈ ps.map (·.id)
        · rw [if_pos hmem, if_pos (List.mem_cons_of_mem _ hmem)]
        · have hne : p.id ∉ q.id :: ps.map (·.id) :=
            fun hc => (List.mem_cons.1 hc).elim (fun he => h he.symm) hmem
          rw [if_neg hmem, if_neg hne, List.cons_append]

/-- Recording a patch in a batch does what the batch and then the patch do. -/
theorem patchAll_record (s : Shape α) (p : Patch α) {ps : List (Patch α)}
    (hnd : (ps.map (·.id)).Nodup) (id : ShapeId) :
    s.patchAll (Document.patchesFor (record p ps) id) =
      if p.id = id then (s.patchAll (Document.patchesFor ps id)).patch p
      else s.patchAll (Document.patchesFor ps id) := by
  induction ps generalizing s with
  | nil => by_cases h : p.id = id <;> simp [record, Document.patchesFor, h]
  | cons q ps ih =>
      rw [List.map_cons, List.nodup_cons] at hnd
      unfold record
      by_cases hqp : q.id = p.id
      · rw [if_pos hqp]
        by_cases hid : p.id = id
        · -- the only patch for `id` is `q`, which takes in `p`
          have hrest : Document.patchesFor ps id = [] :=
            Document.patchesFor_eq_nil (by rw [← hid, ← hqp]; exact hnd.1)
          have hq : Document.patchesFor (q :: ps) id = [q] := by
            rw [Document.patchesFor, List.filter_cons_of_pos (by simp [hqp, hid])]
            exact congrArg _ hrest
          have hm : Document.patchesFor (q.merge p :: ps) id = [q.merge p] := by
            rw [Document.patchesFor, List.filter_cons_of_pos (by simp [Patch.merge, hqp, hid])]
            exact congrArg _ hrest
          rw [hq, hm, if_pos hid]
          exact Shape.patch_merge s q p
        · have hne : q.id ≠ id := fun h => hid (hqp ▸ h)
          simp [Document.patchesFor, Patch.merge, hne, hid]
      · rw [if_neg hqp]
        by_cases hid : q.id = id
        · have := ih (s.patch q) hnd.2
          simpa [Document.patchesFor, hid] using this
        · have := ih s hnd.2
          simpa [Document.patchesFor, hid] using this

/-- The batch leads from `base` to the working copy, with one patch per touched shape. -/
structure Tracks (s : Staging α) (base : Document α) : Prop where
  nodup : s.touched.Nodup
  known : ∀ id ∈ s.touched, base.contains id = true
  replay : (base.patchAll s.pending).Agree s.document

theorem tracks_on (d : Document α) : (Staging.on d).Tracks d :=
  ⟨List.nodup_nil, fun _ h => absurd h List.not_mem_nil, Document.Agree.refl d⟩

theorem mem_touched_apply (s : Staging α) (p : Patch α) (id : ShapeId) :
    id ∈ (s.apply p).touched ↔ id ∈ s.touched ∨ id = p.id ∧ s.document.contains id = true := by
  unfold apply
  by_cases h : s.document.contains p.id = true
  · rw [if_pos h, touched, map_id_record]
    by_cases hmem : p.id ∈ s.pending.map (·.id)
    · rw [if_pos hmem]
      refine ⟨Or.inl, ?_⟩
      rintro (hin | ⟨rfl, -⟩)
      · exact hin
      · exact hmem
    · rw [if_neg hmem, List.mem_append, List.mem_singleton]
      refine ⟨?_, fun hor => hor.imp_right And.left⟩
      rintro (hin | rfl)
      · exact Or.inl hin
      · exact Or.inr ⟨rfl, h⟩
  · rw [if_neg h]
    refine ⟨Or.inl, ?_⟩
    rintro (hin | ⟨rfl, hc⟩)
    · exact hin
    · exact absurd hc h

theorem Tracks.apply {s : Staging α} {base : Document α} (h : s.Tracks base) (p : Patch α) :
    (s.apply p).Tracks base := by
  have htree : s.document.SameTree base :=
    h.replay.symm.sameTree.trans (Document.sameTree_patchAll base _)
  by_cases hp : s.document.contains p.id = true
  · refine ⟨?_, ?_, ?_⟩
    · rw [Staging.apply, if_pos hp, touched, map_id_record]
      by_cases hmem : p.id ∈ s.pending.map (·.id)
      · rw [if_pos hmem]; exact h.nodup
      · rw [if_neg hmem]
        exact h.nodup.append (List.nodup_singleton _) (List.disjoint_singleton.2 hmem)
    · intro id hid
      rcases (mem_touched_apply s p id).1 hid with hid | ⟨-, hid⟩
      · exact h.known id hid
      · rw [← htree.contains_eq]; exact hid
    · intro id
      have hreplay := h.replay id
      rw [Document.get?_patchAll] at hreplay
      rw [Staging.apply, if_pos hp, Document.get?_patchAll, Document.get?_patch, ← hreplay]
      cases base.get? id with
      | none => simp
      | some t =>
          rw [Option.map_some, Option.map_some, patchAll_record t p h.nodup id]
          by_cases hid : p.id = id <;> simp [hid]
  · rw [Staging.apply, if_neg hp]
    exact h

theorem Tracks.applyAll {s : Staging α} {base : Document α} (h : s.Tracks base)
    (ps : List (Patch α)) : (s.applyAll ps).Tracks base := by
  induction ps generalizing s with
  | nil => exact h
  | cons p ps ih => exact ih (h.apply p)

theorem document_apply (s : Staging α) (p : Patch α) :
    (s.apply p).document = s.document.patch p := by
  unfold apply
  by_cases h : s.document.contains p.id = true
  · rw [if_pos h]
  · rw [if_neg h, Document.patch_of_not_contains h]

/-- The working copy is the document with the staged patches applied in turn. -/
theorem document_applyAll (s : Staging α) (ps : List (Patch α)) :
    (s.applyAll ps).document = s.document.patchAll ps := by
  induction ps generalizing s with
  | nil => rfl
  | cons p ps ih =>
      have : s.applyAll (p :: ps) = (s.apply p).applyAll ps := rfl
      rw [this, ih, document_apply, Document.patchAll_cons]

theorem mem_touched_applyAll (s : Staging α) (ps : List (Patch α)) (id : ShapeId) :
    id ∈ (s.applyAll ps).touched ↔
      id ∈ s.touched ∨ id ∈ ps.map (·.id) ∧ s.document.contains id = true := by
  induction ps generalizing s with
  | nil => simp [applyAll]
  | cons p ps ih =>
      have : s.applyAll (p :: ps) = (s.apply p).applyAll ps := rfl
      have hcontains : (s.apply p).document.contains id = s.document.contains id := by
        rw [document_apply]
        exact (Document.sameTree_patch s.document p).contains_eq id
      rw [this, ih, mem_touched_apply, hcontains, List.map_cons, List.mem_cons]
      tauto

theorem patchesFor_record (p : Patch α) (ps : List (Patch α)) (id : ShapeId) :
    Document.patchesFor (record p ps) id =
      if p.id = id then record p (Document.patchesFor ps id) else Document.patchesFor ps id := by
  induction ps with
  | nil => by_cases hid : p.id = id <;> simp [record, Document.patchesFor, hid]
  | cons q ps ih =>
      unfold Document.patchesFor at ih ⊢
      rw [record]
      by_cases hqp : q.id = p.id
      · rw [if_pos hqp]
        by_cases hid : p.id = id
        · have hmerge : (q.merge p).id = id := hqp.trans hid
          simp [hqp, hid, hmerge, record]
        · have hmerge : (q.merge p).id ≠ id := fun h => hid (hqp.symm.trans h)
          simp [hqp, hid, hmerge]
      · rw [if_neg hqp]
        by_cases hid : p.id = id
        · have hq : q.id ≠ id := fun h => hqp (h.trans hid.symm)
          simp [hid, hq, ih]
        · by_cases hq : q.id = id <;> simp [hid, hq, ih]

/-- What is pending for a shape is made from the patches for it, if it exists, and from no others. -/
theorem patchesFor_pending_applyAll (s : Staging α) (ps : List (Patch α)) (id : ShapeId) :
    Document.patchesFor (s.applyAll ps).pending id =
      if s.document.contains id = true then
        (Document.patchesFor ps id).foldl (fun merged p => record p merged)
          (Document.patchesFor s.pending id)
      else Document.patchesFor s.pending id := by
  induction ps generalizing s with
  | nil => simp [applyAll, Document.patchesFor]
  | cons p ps ih =>
      have hcons : s.applyAll (p :: ps) = (s.apply p).applyAll ps := rfl
      have hcontains : (s.apply p).document.contains id = s.document.contains id := by
        rw [document_apply]
        exact (Document.sameTree_patch s.document p).contains_eq id
      have hpending : Document.patchesFor (s.apply p).pending id =
          if p.id = id ∧ s.document.contains id = true then
            record p (Document.patchesFor s.pending id)
          else Document.patchesFor s.pending id := by
        unfold apply
        by_cases hc : s.document.contains p.id = true
        · rw [if_pos hc, patchesFor_record]
          by_cases hid : p.id = id
          · rw [if_pos hid, if_pos ⟨hid, hid ▸ hc⟩]
          · rw [if_neg hid, if_neg fun h => hid h.1]
        · have hout : ¬ (p.id = id ∧ s.document.contains id = true) := by
            rintro ⟨rfl, hid⟩
            exact hc hid
          rw [if_neg hc, if_neg hout]
      rw [hcons, ih, hcontains, hpending]
      by_cases hc : s.document.contains id = true
      · by_cases hid : p.id = id <;> simp [hc, hid, Document.patchesFor]
      · simp [hc]

/-- What is pending depends on the patches for each shape, and of the document on which shapes there
    are. -/
theorem alike_pending {d d' : Document α} (hcontains : ∀ id, d.contains id = d'.contains id)
    {ps qs : List (Patch α)} (h : Document.Alike ps qs) :
    Document.Alike ((on d).applyAll ps).pending ((on d').applyAll qs).pending := by
  intro id
  rw [patchesFor_pending_applyAll, patchesFor_pending_applyAll, h id,
    show (on d).document.contains id = (on d').document.contains id from hcontains id]
  rfl

end Staging

namespace Document

/-- The shapes that updates reach. -/
def reached (d : Document α) (updates : List (Patch α)) : List ShapeId :=
  ((Staging.on d).applyAll updates).touched

theorem mem_reached_iff {d : Document α} {updates : List (Patch α)} {id : ShapeId} :
    id ∈ d.reached updates ↔ id ∈ updates.map (·.id) ∧ d.contains id = true := by
  rw [reached, Staging.mem_touched_applyAll]
  simp [Staging.on, Staging.touched]

end Document

/-! ## Refitting one container -/

section
variable [Scalar α]

namespace Document

/-- Let one container of the document react to what its children are now. -/
def refit (d : Document α) (registry : Registry α) (id : ShapeId) : Document α :=
  match d.get? id with
  | some container => d.patchAll (registry.refit d container)
  | none => d

theorem sameTree_refit (d : Document α) (registry : Registry α) (id : ShapeId) :
    (d.refit registry id).SameTree d := by
  unfold refit
  cases d.get? id with
  | none => exact SameTree.refl d
  | some container => exact sameTree_patchAll d _

/-- What one container of the document asks for, as its children are now. -/
def reaction (registry : Registry α) (id : ShapeId) (d : Document α) : List (Patch α) :=
  match d.get? id with
  | some container => registry.refit d container
  | none => []

theorem refit_eq (d : Document α) (registry : Registry α) (id : ShapeId) :
    d.refit registry id = d.patchAll (d.reaction registry id) := by
  unfold refit reaction
  cases d.get? id <;> rfl

/-- Let containers react in turn. -/
def refitAll (d : Document α) (registry : Registry α) (ids : List ShapeId) : Document α :=
  ids.foldl (fun d id => d.refit registry id) d

@[simp] theorem refitAll_cons (d : Document α) (registry : Registry α) (id : ShapeId)
    (ids : List ShapeId) :
    d.refitAll registry (id :: ids) = (d.refit registry id).refitAll registry ids := rfl

/-- What containers ask for in turn, each on the document that the ones before it left. -/
def reactions (registry : Registry α) : List ShapeId → Document α → List (Patch α)
  | [], _ => []
  | id :: ids, d => d.reaction registry id ++ (d.refit registry id).reactions registry ids

theorem refitAll_eq (d : Document α) (registry : Registry α) (ids : List ShapeId) :
    d.refitAll registry ids = d.patchAll (d.reactions registry ids) := by
  induction ids generalizing d with
  | nil => rfl
  | cons id ids ih => rw [refitAll_cons, ih, reactions, patchAll_append, ← refit_eq]

/-- Updates, and what the containers around them ask for, deepest first. -/
def changes (d : Document α) (registry : Registry α) (updates : List (Patch α)) : List (Patch α) :=
  updates ++ (d.patchAll updates).reactions registry (d.containers (d.reached updates))

/-- The document with updates applied and the containers around them refitted, deepest first. -/
def settle (d : Document α) (registry : Registry α) (updates : List (Patch α)) : Document α :=
  (d.patchAll updates).refitAll registry (d.containers (d.reached updates))

theorem settle_eq (d : Document α) (registry : Registry α) (updates : List (Patch α)) :
    d.settle registry updates = d.patchAll (d.changes registry updates) := by
  rw [settle, changes, patchAll_append, refitAll_eq]

theorem sameTree_settle (d : Document α) (registry : Registry α) (updates : List (Patch α)) :
    (d.settle registry updates).SameTree d := by
  rw [settle_eq]
  exact sameTree_patchAll d _

end Document

namespace Staging

theorem refit_eq (s : Staging α) (registry : Registry α) (id : ShapeId) :
    s.refit registry id = s.applyAll (s.document.reaction registry id) := by
  rw [refit, Document.reaction]
  cases s.document.get? id <;> rfl

/-- Reactions that are staged one after the other are staged as one list. -/
theorem foldl_refit_eq (s : Staging α) (registry : Registry α) (ids : List ShapeId) :
    ids.foldl (fun s id => s.refit registry id) s =
      s.applyAll (s.document.reactions registry ids) := by
  induction ids generalizing s with
  | nil => rfl
  | cons id ids ih =>
      have happend : ∀ ps qs, s.applyAll (ps ++ qs) = (s.applyAll ps).applyAll qs :=
        fun _ _ => List.foldl_append
      rw [List.foldl_cons, ih, refit_eq, document_applyAll, ← Document.refit_eq,
        Document.reactions, happend]

end Staging

/-! ## Committing -/

namespace Canvas

/-- A batch is what is pending when the updates and the reactions to them are staged. -/
theorem batch_eq (c : Canvas α) (updates : List (Patch α)) : c.batch updates =
    ((Staging.on c.document).applyAll (c.document.changes c.registry updates)).pending := by
  have hfold : c.batch updates = ((c.document.containers (c.document.reached updates)).foldl
      (fun s id => s.refit c.registry id) ((Staging.on c.document).applyAll updates)).pending := by
    rw [Document.containers, List.foldl_map]
    rfl
  rw [hfold, Staging.foldl_refit_eq, Staging.document_applyAll, Document.changes]
  exact congrArg Staging.pending List.foldl_append.symm

theorem tracks_changes (c : Canvas α) (updates : List (Patch α)) :
    ((Staging.on c.document).applyAll (c.document.changes c.registry updates)).Tracks c.document :=
  (Staging.tracks_on _).applyAll _

/-- A batch names each shape once. -/
theorem nodup_batch (c : Canvas α) (updates : List (Patch α)) :
    ((c.batch updates).map (·.id)).Nodup := by
  rw [batch_eq]
  exact (c.tracks_changes updates).nodup

/-- A batch names the shapes that the updates and the reactions to them name, if they exist. -/
theorem mem_batch_iff (c : Canvas α) (updates : List (Patch α)) (id : ShapeId) :
    id ∈ (c.batch updates).map (·.id) ↔
      id ∈ (c.document.changes c.registry updates).map (·.id) ∧ c.document.contains id = true := by
  rw [batch_eq]
  exact Document.mem_reached_iff

/-- Replaying a batch leaves the document with the updates applied and the containers refitted. -/
theorem patchAll_batch_agree (c : Canvas α) (updates : List (Patch α)) :
    (c.document.patchAll (c.batch updates)).Agree (c.document.settle c.registry updates) := by
  have hreplay := (c.tracks_changes updates).replay
  rw [Staging.document_applyAll, ← batch_eq] at hreplay
  rw [Document.settle_eq]
  exact hreplay

end Canvas

end

namespace Store

/-- Whether the store takes a patch at all. -/
def takes (s : Store α) (p : Patch α) : Bool := s.document.contains p.id && !p.isEmpty

/-- A patch that the store leaves out would do nothing. -/
theorem patch_agree_of_not_takes {s : Store α} {p : Patch α} (h : ¬ s.takes p = true)
    {d : Document α} (hd : d.SameTree s.document) : d.Agree (d.patch p) := by
  by_cases hc : s.document.contains p.id = true
  · obtain ⟨id, x, y, rotation, form⟩ := p
    simp only [takes, hc, Bool.true_and, Bool.not_eq_true, Bool.not_eq_false', Patch.isEmpty,
      Bool.and_eq_true, Option.isNone_iff_eq_none] at h
    obtain ⟨⟨⟨rfl, rfl⟩, rfl⟩, rfl⟩ := h
    intro id'
    rw [Document.get?_patch]
    by_cases hid : id = id'
    · rw [if_pos hid]
      exact Option.map_id'.symm
    · rw [if_neg hid]
  · rw [← hd.contains_eq] at hc
    rw [Document.patch_of_not_contains hc]

theorem patchAll_filter_takes_agree (s : Store α) (ps : List (Patch α)) {d : Document α}
    (hd : d.SameTree s.document) : (d.patchAll (ps.filter s.takes)).Agree (d.patchAll ps) := by
  induction ps generalizing d with
  | nil => exact Document.Agree.refl d
  | cons p ps ih =>
      have hnext := ih ((Document.sameTree_patch d p).trans hd)
      by_cases hp : s.takes p = true
      · rw [List.filter_cons_of_pos hp]
        exact hnext
      · rw [List.filter_cons_of_neg hp, Document.patchAll_cons]
        exact ((patch_agree_of_not_takes hp hd).patchAll _).trans hnext

/-- An update does what its patches do; the ones that the store leaves out do nothing. -/
theorem update_agree (s : Store α) (batch : List (Patch α)) :
    (s.update batch).document.Agree (s.document.patchAll batch) := by
  have hfilter := patchAll_filter_takes_agree s batch (Document.SameTree.refl _)
  have hupdate : s.update batch =
      if (batch.filter s.takes).isEmpty then s
      else ⟨s.document.patchAll (batch.filter s.takes), s.journal ++ [batch.filter s.takes]⟩ := rfl
  rw [hupdate]
  by_cases h : (batch.filter s.takes).isEmpty = true
  · rw [List.isEmpty_iff.1 h] at hfilter
    rw [if_pos h]
    exact hfilter
  · rw [if_neg h]
    exact hfilter

theorem update_sameTree (s : Store α) (batch : List (Patch α)) :
    (s.update batch).document.SameTree s.document :=
  (s.update_agree batch).sameTree.trans (Document.sameTree_patchAll _ _)

/-- **What a committed batch leaves in the store**: the document with the updates applied and the
    containers around them refitted one by one, deepest first. -/
theorem commit_agree [Scalar α] (s : Store α) (registry : Registry α) (updates : List (Patch α)) :
    (s.update (Canvas.batch ⟨s.document, registry⟩ updates)).document.Agree
      (s.document.settle registry updates) :=
  (s.update_agree _).trans (Canvas.patchAll_batch_agree ⟨s.document, registry⟩ updates)

end Store

end CanvasTransform
