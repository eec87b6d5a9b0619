import CanvasTransform.Binary64
import CanvasTransform.Proofs.Document.Forest
import Mathlib.Data.List.Induction

set_option autoImplicit false

/-! # Any sequence of requests to a store

The requests that a store takes, answered one after the other, and what they do to the tree of
shapes. An insertion, a removal and a batch of patches keep a forest a forest. A shape that is to
hang from another parent is looked for among the parent and its nearest ancestors, so one request
gets past the store: the shape lies above its new parent, further up than the store looks
(`Store.Tangles`). A store is a forest up to the first such request, and no longer after it
(`Store.forest_serveAll_iff`). In documents as shallow as queries expect there is none. -/

namespace CanvasTransform

variable {α : Type}

namespace Store

/-- A change that a store is asked for. -/
inductive Request (α : Type)
  | insert (shape : Shape α)
  | reparent (id : ShapeId) (parent : Parent)
  | remove (id : ShapeId)
  | update (batch : List (Patch α))

/-- The answer to a request: the store after it, or why it is refused. -/
def attempt (s : Store α) : Request α → Except StoreError (Store α)
  | .insert shape => s.insert shape
  | .reparent id parent => s.reparent id parent
  | .remove id => .ok (s.remove id).2
  | .update batch => .ok (s.update batch)

/-- The store after a request, which is the store before it when the request is refused. -/
def serve (s : Store α) (r : Request α) : Store α :=
  match s.attempt r with
  | .ok s' => s'
  | .error _ => s

/-- The store after requests in turn. -/
def serveAll (s : Store α) (rs : List (Request α)) : Store α := rs.foldl serve s

/-- The request hangs a shape from one that it lies above, and the store does not notice: the shape
    is not among the new parent's nearest ancestors. -/
def Tangles (s : Store α) : Request α → Prop
  | .reparent id (.shape target) => s.document.Above id target ∧
      id ∉ s.document.ancestorsWithin (Document.maxDepth - 1) target
  | _ => False

/-! ## One request -/

variable {s s' : Store α}

@[simp] theorem serve_of_error {r : Request α} {e : StoreError} (h : s.attempt r = .error e) :
    s.serve r = s := by
  rw [serve, h]

@[simp] theorem serve_of_ok {r : Request α} (h : s.attempt r = .ok s') : s.serve r = s' := by
  rw [serve, h]

theorem grown_serve (hs : s.Grown) (r : Request α) : (s.serve r).Grown := by
  cases h : s.attempt r with
  | error e =>
      rw [serve_of_error h]
      exact hs
  | ok s' =>
      rw [serve_of_ok h]
      cases r with
      | insert shape => exact .insert hs h
      | reparent id parent => exact .reparent hs h
      | remove id => exact Except.ok.inj h ▸ .remove id hs
      | update batch => exact Except.ok.inj h ▸ .update batch hs

theorem grown_serveAll (hs : s.Grown) (rs : List (Request α)) : (s.serveAll rs).Grown := by
  induction rs generalizing s with
  | nil => exact hs
  | cons r rs ih => exact ih (grown_serve hs r)

/-- Every request but one that tangles keeps a forest. -/
theorem forest_serve (hkeyed : s.document.Keyed) (hf : s.document.Forest) {r : Request α}
    (hr : ¬ s.Tangles r) : (s.serve r).document.Forest := by
  cases h : s.attempt r with
  | error e =>
      rw [serve_of_error h]
      exact hf
  | ok s' =>
      rw [serve_of_ok h]
      cases r with
      | insert shape =>
          obtain ⟨hnew, hparent, hdoc⟩ := insert_eq_ok h
          rw [hdoc]
          refine hf.put hnew ?_
          cases hp : shape.parent with
          | page => exact .page
          | shape parent => exact hf.rooted parent (hparent parent hp)
      | reparent id parent =>
          obtain ⟨hchecked, hdoc⟩ := reparent_eq_ok h
          rw [hdoc]
          cases hs : s.document.get? id with
          | none => exact hf
          | some shape =>
              refine hf.put_withParent hkeyed hs ?_ fun target ht => ?_
              · cases parent with
                | page => exact .page
                | shape target => exact hf.rooted target (hchecked target rfl).1
              · subst ht
                obtain ⟨-, hne, hnear⟩ := hchecked target rfl
                exact ⟨hne.symm, fun habove => hr ⟨habove, hnear⟩⟩
      | remove id => exact Except.ok.inj h ▸ hf.remove hkeyed id
      | update batch =>
          rw [← Except.ok.inj h, update]
          split
          · exact hf
          · exact (Document.sameTree_patchAll _ _).forest hf

/-- A request that tangles is granted, and the shape lies above itself afterwards. -/
theorem Tangles.not_forest_serve {r : Request α} (hr : s.Tangles r) (hkeyed : s.document.Keyed)
    (hf : s.document.Forest) : ¬ (s.serve r).document.Forest := by
  match r, hr with
  | .reparent id (.shape target), ⟨habove, hnear⟩ =>
      obtain ⟨shape, hs⟩ := Document.contains_iff.1 (hf.contains_of_above habove)
      have hne : id ≠ target := by
        rintro rfl
        exact hf.acyclic id habove
      have hgranted : s.attempt (.reparent id (.shape target)) =
          .ok { s with document := s.document.put (shape.withParent (.shape target)) } := by
        simp [attempt, reparent, habove.contains, hne, hnear, hs]
      rw [serve_of_ok hgranted]
      exact habove.not_forest_put hf.acyclic hkeyed hs

theorem forest_serve_iff (hkeyed : s.document.Keyed) (hf : s.document.Forest) (r : Request α) :
    (s.serve r).document.Forest ↔ ¬ s.Tangles r :=
  ⟨fun h hr => hr.not_forest_serve hkeyed hf h, forest_serve hkeyed hf⟩

/-- As long as chains of parents are no longer than queries follow, the store notices every circle. -/
theorem not_tangles_of_shallow (hd : s.document.Shallow) (r : Request α) : ¬ s.Tangles r := by
  intro hr
  match r, hr with
  | .reparent id (.shape target), ⟨habove, hnear⟩ =>
      have hlen : (s.document.ancestorsWithin Document.maxDepth target).length ≤
          Document.maxDepth - 1 := Nat.le_sub_one_of_lt (hd target)
      rw [Document.ancestorsWithin_eq_take (Nat.sub_le Document.maxDepth 1) target,
        List.take_of_length_le hlen] at hnear
      exact hnear (hd.above_iff.1 habove)

/-! ## Any number of requests -/

theorem serveAll_append (s : Store α) (rs rs' : List (Request α)) :
    s.serveAll (rs ++ rs') = (s.serveAll rs).serveAll rs' := List.foldl_append

theorem keyed_serveAll (rs : List (Request α)) : ((empty : Store α).serveAll rs).document.Keyed :=
  (grown_serveAll .empty rs).keyed

/-- Requests of which none tangles make a forest. -/
theorem forest_serveAll {rs : List (Request α)}
    (h : ∀ before r, before ++ [r] <+: rs → ¬ ((empty : Store α).serveAll before).Tangles r) :
    ((empty : Store α).serveAll rs).document.Forest := by
  induction rs using List.reverseRecOn with
  | nil => exact Document.forest_empty
  | append_singleton rs r ih =>
      have hbefore := ih fun before r' hpre => h before r' (hpre.trans (List.prefix_append rs [r]))
      rw [serveAll_append]
      exact forest_serve (keyed_serveAll rs) hbefore (h rs r List.prefix_rfl)

/-- In particular as long as chains of parents are no longer than queries follow. -/
theorem forest_serveAll_of_shallow {rs : List (Request α)}
    (h : ∀ before, before <+: rs → ((empty : Store α).serveAll before).document.Shallow) :
    ((empty : Store α).serveAll rs).document.Forest :=
  forest_serveAll fun before r hpre =>
    not_tangles_of_shallow (h before ((List.prefix_append before [r]).trans hpre)) r

/-- **The store is a forest as long as no request tangles it.** From the empty store on, every
    request that is refused leaves the store as it is, and the store is a forest after each of the
    requests exactly if none of them hangs a shape from one beneath it that is further down than the
    store looks. -/
theorem forest_serveAll_iff (rs : List (Request α)) :
    ((∀ before, before <+: rs → ((empty : Store α).serveAll before).document.Forest) ↔
      ∀ before r, before ++ [r] <+: rs → ¬ ((empty : Store α).serveAll before).Tangles r) ∧
    ∀ before r e, before ++ [r] <+: rs → ((empty : Store α).serveAll before).attempt r = .error e →
      (empty : Store α).serveAll (before ++ [r]) = (empty : Store α).serveAll before := by
  refine ⟨⟨fun h before r hpre => ?_, fun h before hpre => ?_⟩, fun before r e _ herr => ?_⟩
  · have hbefore := h before ((List.prefix_append before [r]).trans hpre)
    have hafter := h (before ++ [r]) hpre
    rw [serveAll_append] at hafter
    exact (forest_serve_iff (keyed_serveAll before) hbefore r).1 hafter
  · exact forest_serveAll fun before' r hpre' => h before' r (hpre'.trans hpre)
  · rw [serveAll_append]
    exact serve_of_error herr

/-! ## A tower too high -/

/-- Frames, each hanging from the one before it, the first from the page. -/
def tower (n : Nat) : List (Request Binary64) :=
  (List.range n).map fun i =>
    let parent := if i = 0 then Parent.page else .shape (BitVec.ofNat 128 i)
    .insert ((Shape.frame (BitVec.ofNat 128 (i + 1)) 0 0 10.0 10.0).withParent parent)

/-- Hung from the last of 257 frames, the first one closes a circle that the store does not see. -/
theorem serveAll_tower_not_forest :
    ¬ ((empty : Store Binary64).serveAll
      (tower 257 ++ [.reparent 1 (.shape 257)])).document.Forest := by
  intro h
  refine h.acyclic 1 (Document.above_iff_exists_mem.2 ⟨257, ?_⟩)
  decide +kernel

end Store

end CanvasTransform
