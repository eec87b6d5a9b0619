import CanvasTransform.Document.Store
import Mathlib.Data.List.Nodup

set_option autoImplicit false

/-! # Documents seen through `get?`

Two documents that answer `get?` alike (`Document.Agree`) are the same document: everything that is
read off one is read off the other, whatever the layout of the maps. Patches change less than that.
They leave the *stem* of every shape alone (identity, kind, parent and place among the siblings), so
the documents before and after a patch have the same tree (`Document.SameTree`), and every walk over
the tree gives the same answer in both.

A document is `Keyed` when each shape is filed under its own identity. Every operation of the store
keeps that, so a store that grew from the empty one has it (`Store.Grown.keyed`). -/

namespace CanvasTransform

variable {α : Type}

/-! ## What a patch leaves alone -/

namespace Shape

/-- What no patch can change: identity, kind, parent and place among the siblings. -/
def stem (s : Shape α) : ShapeId × Kind × Parent × Int64 := (s.id, s.kind, s.parent, s.index)

theorem id_of_stem {s t : Shape α} (h : s.stem = t.stem) : s.id = t.id := congrArg Prod.fst h

theorem kind_of_stem {s t : Shape α} (h : s.stem = t.stem) : s.kind = t.kind :=
  congrArg (fun stem => stem.2.1) h

@[simp] theorem stem_patch (s : Shape α) (p : Patch α) : (s.patch p).stem = s.stem := rfl

/-- The shape after patches in turn. -/
def patchAll (s : Shape α) (ps : List (Patch α)) : Shape α := ps.foldl patch s

@[simp] theorem patchAll_nil (s : Shape α) : s.patchAll [] = s := rfl

@[simp] theorem patchAll_cons (s : Shape α) (p : Patch α) (ps : List (Patch α)) :
    s.patchAll (p :: ps) = (s.patch p).patchAll ps := rfl

@[simp] theorem stem_patchAll (s : Shape α) (ps : List (Patch α)) :
    (s.patchAll ps).stem = s.stem := by
  induction ps generalizing s with
  | nil => rfl
  | cons p ps ih => rw [patchAll_cons, ih, stem_patch]

/-- What each of the patches keeps, all of them keep. -/
theorem patchAll_induction {P : Shape α → Prop} {s : Shape α} {ps : List (Patch α)} (hs : P s)
    (h : ∀ p ∈ ps, ∀ t, P t → P (t.patch p)) : P (s.patchAll ps) := by
  induction ps generalizing s with
  | nil => exact hs
  | cons p ps ih =>
      exact ih (h p List.mem_cons_self s hs) fun q hq => h q (List.mem_cons_of_mem _ hq)

/-- A restoring patch brings back the shape it was made from, on any shape with the same stem. -/
theorem patch_restore_of_stem {s t : Shape α} (h : s.stem = t.stem) :
    s.patch (Patch.restore t) = t := by
  obtain ⟨sid, skind, sparent, sindex, sx, sy, srot, sform⟩ := s
  obtain ⟨tid, tkind, tparent, tindex, tx, ty, trot, tform⟩ := t
  simp only [stem, Prod.mk.injEq] at h
  obtain ⟨rfl, rfl, rfl, rfl⟩ := h
  rfl

theorem patch_patch_self (s : Shape α) (p : Patch α) : (s.patch p).patch p = s.patch p := by
  obtain ⟨id, x, y, rotation, form⟩ := p
  cases x <;> cases y <;> cases rotation <;> cases form <;> rfl

/-- The same patch, any number of times but none. -/
theorem patchAll_of_forall_eq (s : Shape α) {p : Patch α} {ps : List (Patch α)}
    (h : ∀ q ∈ ps, q = p) (hne : ps ≠ []) : s.patchAll ps = s.patch p := by
  induction ps generalizing s with
  | nil => exact absurd rfl hne
  | cons q ps ih =>
      rw [patchAll_cons, h q List.mem_cons_self]
      by_cases hnil : ps = []
      · rw [hnil, patchAll_nil]
      · rw [ih _ (fun r hr => h r (List.mem_cons_of_mem _ hr)) hnil, patch_patch_self]

theorem patchAll_restores {s t : Shape α} (h : s.stem = t.stem) {ps : List (Patch α)}
    (hps : ∀ p ∈ ps, p = Patch.restore t) (hne : ps ≠ []) : s.patchAll ps = t := by
  rw [patchAll_of_forall_eq s hps hne, patch_restore_of_stem h]

end Shape

namespace Document

variable {d d' d'' : Document α}

/-! ## Documents that answer alike -/

/-- The documents have the same shapes, record for record. -/
def Agree (d d' : Document α) : Prop := ∀ id, d.get? id = d'.get? id

/-- The documents have the same tree: the same shapes up to what patches can change. -/
def SameTree (d d' : Document α) : Prop :=
  ∀ id, (d.get? id).map Shape.stem = (d'.get? id).map Shape.stem

/-- Every shape is filed under its own identity. -/
def Keyed (d : Document α) : Prop := ∀ id s, d.get? id = some s → s.id = id

@[refl] theorem Agree.refl (d : Document α) : d.Agree d := fun _ => rfl

theorem Agree.symm (h : d.Agree d') : d'.Agree d := fun id => (h id).symm

theorem Agree.trans (h : d.Agree d') (h' : d'.Agree d'') : d.Agree d'' :=
  fun id => (h id).trans (h' id)

theorem Agree.sameTree (h : d.Agree d') : d.SameTree d' := fun id => by rw [h id]

@[refl] theorem SameTree.refl (d : Document α) : d.SameTree d := fun _ => rfl

theorem SameTree.symm (h : d.SameTree d') : d'.SameTree d := fun id => (h id).symm

theorem SameTree.trans (h : d.SameTree d') (h' : d'.SameTree d'') : d.SameTree d'' :=
  fun id => (h id).trans (h' id)

theorem SameTree.get? (h : d.SameTree d') {id : ShapeId} {s : Shape α} (hs : d.get? id = some s) :
    ∃ s', d'.get? id = some s' ∧ s'.stem = s.stem := by
  have := h id
  rw [hs, Option.map_some] at this
  exact Option.map_eq_some_iff.1 this.symm

theorem SameTree.contains_eq (h : d.SameTree d') (id : ShapeId) :
    d.contains id = d'.contains id := by
  have := congrArg Option.isSome (h id)
  simpa [contains] using this

theorem SameTree.keyed (h : d.SameTree d') (hd : d'.Keyed) : d.Keyed := by
  intro id s hs
  obtain ⟨s', hs', hstem⟩ := h.get? hs
  have : s'.id = s.id := Shape.id_of_stem hstem
  rw [← this]
  exact hd id s' hs'

/-- With the same tree, it is enough that the shapes of one document are in the other. -/
theorem SameTree.agree (h : d.SameTree d') (hsub : ∀ id s, d.get? id = some s → d'.get? id = some s) :
    d.Agree d' := by
  intro id
  cases hs : d.get? id with
  | some s => exact (hsub id s hs).symm
  | none =>
      have hnone := h id
      rw [hs, Option.map_none] at hnone
      exact (Option.map_eq_none_iff.1 hnone.symm).symm

theorem contains_of_get? {id : ShapeId} {s : Shape α} (h : d.get? id = some s) :
    d.contains id = true := by
  rw [contains, h]; rfl

theorem contains_iff {id : ShapeId} : d.contains id = true ↔ ∃ s, d.get? id = some s :=
  Option.isSome_iff_exists

theorem get?_of_not_contains {id : ShapeId} (h : ¬ d.contains id = true) : d.get? id = none := by
  rw [contains, Bool.not_eq_true, Option.isSome_eq_false_iff] at h
  exact Option.isNone_iff_eq_none.1 h

/-! ## Patching -/

@[simp] theorem patchAll_nil (d : Document α) : d.patchAll [] = d := rfl

@[simp] theorem patchAll_cons (d : Document α) (p : Patch α) (ps : List (Patch α)) :
    d.patchAll (p :: ps) = (d.patch p).patchAll ps := rfl

theorem patchAll_append (d : Document α) (ps qs : List (Patch α)) :
    d.patchAll (ps ++ qs) = (d.patchAll ps).patchAll qs := List.foldl_append

/-- The patches for one shape, in their order. -/
def patchesFor (ps : List (Patch α)) (id : ShapeId) : List (Patch α) := ps.filter (·.id = id)

theorem mem_patchesFor {ps : List (Patch α)} {id : ShapeId} {p : Patch α} :
    p ∈ patchesFor ps id ↔ p ∈ ps ∧ p.id = id := by simp [patchesFor]

theorem patchesFor_eq_nil {ps : List (Patch α)} {id : ShapeId} (h : id ∉ ps.map (·.id)) :
    patchesFor ps id = [] := by
  rw [patchesFor, List.filter_eq_nil_iff]
  intro p hp hid
  exact h (List.mem_map.2 ⟨p, hp, by simpa using hid⟩)

/-- **The view of patching.** Each shape sees the patches that name it, in their order, and nothing
    else. -/
theorem get?_patchAll (d : Document α) (ps : List (Patch α)) (id : ShapeId) :
    (d.patchAll ps).get? id = (d.get? id).map (·.patchAll (patchesFor ps id)) := by
  induction ps generalizing d with
  | nil => simp [patchesFor]
  | cons p ps ih =>
      rw [patchAll_cons, ih, get?_patch]
      by_cases h : p.id = id
      · simp [patchesFor, h, Function.comp_def]
      · simp [patchesFor, h]

theorem get?_patchAll_of_not_mem {ps : List (Patch α)} {id : ShapeId} (h : id ∉ ps.map (·.id)) :
    (d.patchAll ps).get? id = d.get? id := by
  rw [get?_patchAll, patchesFor_eq_nil h]
  exact Option.map_id'

theorem get?_patchAll_of_mem {ps : List (Patch α)} {p : Patch α} {id : ShapeId} (hp : p ∈ ps)
    (hid : p.id = id) (h : ∀ q ∈ ps, q.id = id → q = p) :
    (d.patchAll ps).get? id = (d.get? id).map (·.patch p) := by
  have hne : patchesFor ps id ≠ [] := List.ne_nil_of_mem (mem_patchesFor.2 ⟨hp, hid⟩)
  have hall : ∀ q ∈ patchesFor ps id, q = p := by
    intro q hq
    obtain ⟨hmem, hqid⟩ := mem_patchesFor.1 hq
    exact h q hmem hqid
  rw [get?_patchAll]
  congr 1
  funext s
  exact s.patchAll_of_forall_eq hall hne

theorem sameTree_patchAll (d : Document α) (ps : List (Patch α)) : (d.patchAll ps).SameTree d := by
  intro id
  rw [get?_patchAll, Option.map_map]
  cases d.get? id with
  | none => rfl
  | some s => exact congrArg some (Shape.stem_patchAll s _)

theorem sameTree_patch (d : Document α) (p : Patch α) : (d.patch p).SameTree d :=
  sameTree_patchAll d [p]

theorem Agree.patchAll (h : d.Agree d') (ps : List (Patch α)) :
    (d.patchAll ps).Agree (d'.patchAll ps) := by
  intro id
  rw [get?_patchAll, get?_patchAll, h id]

theorem patch_of_not_contains {p : Patch α} (h : ¬ d.contains p.id = true) : d.patch p = d := by
  rw [patch, get?_of_not_contains h]

/-! ## Lists of patches that come to the same -/

/-- Every shape is named by the same patches in the same order. -/
def Alike (ps qs : List (Patch α)) : Prop := ∀ id, patchesFor ps id = patchesFor qs id

@[refl] theorem Alike.refl (ps : List (Patch α)) : Alike ps ps := fun _ => rfl

theorem Alike.symm {ps qs : List (Patch α)} (h : Alike ps qs) : Alike qs ps := fun id => (h id).symm

theorem Alike.trans {ps qs rs : List (Patch α)} (h : Alike ps qs) (h' : Alike qs rs) : Alike ps rs :=
  fun id => (h id).trans (h' id)

theorem patchesFor_append (ps qs : List (Patch α)) (id : ShapeId) :
    patchesFor (ps ++ qs) id = patchesFor ps id ++ patchesFor qs id := List.filter_append ..

theorem Alike.append {ps ps' qs qs' : List (Patch α)} (h : Alike ps ps') (h' : Alike qs qs') :
    Alike (ps ++ qs) (ps' ++ qs') := by
  intro id
  rw [patchesFor_append, patchesFor_append, h id, h' id]

/-- Lists that have no shape in common can change places. -/
theorem alike_append_comm {ps qs : List (Patch α)}
    (h : ∀ id ∈ ps.map (·.id), id ∉ qs.map (·.id)) : Alike (ps ++ qs) (qs ++ ps) := by
  intro id
  rw [patchesFor_append, patchesFor_append]
  by_cases hid : id ∈ ps.map (·.id)
  · rw [patchesFor_eq_nil (h id hid), List.append_nil, List.nil_append]
  · rw [patchesFor_eq_nil hid, List.append_nil, List.nil_append]

/-- Patches of different shapes can be given in any order. -/
theorem Alike.of_perm {ps qs : List (Patch α)} (h : ps.Perm qs) (hnd : (ps.map (·.id)).Nodup) :
    Alike ps qs := by
  induction h with
  | nil => rfl
  | cons p _ ih => exact (Alike.refl [p]).append (ih (List.nodup_cons.1 hnd).2)
  | swap p q l =>
      have hne : q.id ≠ p.id := fun heq => (List.nodup_cons.1 hnd).1 (by simp [heq])
      have hcomm : Alike ([q] ++ [p]) ([p] ++ [q]) := alike_append_comm (by simpa using hne)
      exact hcomm.append (Alike.refl l)
  | trans h₁ _ ih₁ ih₂ => exact (ih₁ hnd).trans (ih₂ ((h₁.map _).nodup hnd))

theorem mem_map_id_iff {ps : List (Patch α)} {id : ShapeId} :
    id ∈ ps.map (·.id) ↔ patchesFor ps id ≠ [] := by
  refine ⟨fun h hnil => ?_, fun h => ?_⟩
  · obtain ⟨p, hp, hid⟩ := List.mem_map.1 h
    have hmem : p ∈ patchesFor ps id := mem_patchesFor.2 ⟨hp, hid⟩
    rw [hnil] at hmem
    exact absurd hmem List.not_mem_nil
  · by_contra hout
    exact h (patchesFor_eq_nil hout)

theorem Alike.mem_map_id_iff {ps qs : List (Patch α)} (h : Alike ps qs) (id : ShapeId) :
    id ∈ ps.map (·.id) ↔ id ∈ qs.map (·.id) := by
  rw [Document.mem_map_id_iff, Document.mem_map_id_iff, h id]

/-- Lists that name each shape once come to the same only if they have the same patches. -/
theorem Alike.perm {ps qs : List (Patch α)} (h : Alike ps qs) (hps : (ps.map (·.id)).Nodup)
    (hqs : (qs.map (·.id)).Nodup) : ps.Perm qs := by
  refine (List.perm_ext_iff_of_nodup (hps.of_map _) (hqs.of_map _)).2 fun p => ?_
  have hmem : ∀ rs : List (Patch α), p ∈ rs ↔ p ∈ patchesFor rs p.id := fun rs => by
    rw [mem_patchesFor, and_iff_left rfl]
  rw [hmem ps, hmem qs, h p.id]

theorem Alike.agree {ps qs : List (Patch α)} (h : Alike ps qs) (hd : d.Agree d') :
    (d.patchAll ps).Agree (d'.patchAll qs) := by
  intro id
  rw [get?_patchAll, get?_patchAll, hd id, h id]

/-! ## Page transforms -/

section
variable [Scalar α]

/-- The walk to the page, for anything that shapes can be looked up in. -/
def pageTransformVia (get : ShapeId → Option (Shape α)) :
    Nat → Shape α → Affine α → Option (Affine α)
  | 0, _, _ => none
  | n + 1, s, inner =>
    let outer := s.localTransform * inner
    match s.parent with
    | .page => some outer
    | .shape parent => (get parent).bind fun p => pageTransformVia get n p outer

/-- A page transform is found by looking shapes up, and by nothing else. -/
theorem pageTransform?_eq_via (d : Document α) (id : ShapeId) : d.pageTransform? id =
    (d.get? id).bind fun s => pageTransformVia d.get? maxDepth s Affine.identity := by
  have hfrom : ∀ (n : Nat) (s : Shape α) (inner : Affine α),
      d.pageTransformFrom n s inner = pageTransformVia d.get? n s inner := by
    intro n
    induction n with
    | zero => intro s inner; rfl
    | succ n ih =>
        intro s inner
        rw [pageTransformFrom, pageTransformVia]
        cases s.parent with
        | page => rfl
        | shape parent => simp only [ih]
  simp only [pageTransform?, hfrom]

theorem Agree.pageTransform?_eq (h : d.Agree d') (id : ShapeId) :
    d.pageTransform? id = d'.pageTransform? id := by
  rw [pageTransform?_eq_via, pageTransform?_eq_via, (funext h : d.get? = d'.get?)]

end

/-! ## Listing -/

theorem values_eq_map_toList {β : Type} (t : Std.TreeMap ShapeId β compare) :
    t.values = t.toList.map Prod.snd := by
  have : t.values = t.foldr (fun _ b acc => b :: acc) [] := rfl
  rw [this, Std.TreeMap.foldr_eq_foldr_toList]
  induction t.toList with
  | nil => rfl
  | cons e es ih => rw [List.foldr_cons, ih, List.map_cons]

/-- Values that are filed under their own keys have different keys. -/
theorem nodup_map_values {β : Type} {t : Std.TreeMap ShapeId β compare} {key : β → ShapeId}
    (h : ∀ id b, t[id]? = some b → key b = id) : (t.values.map key).Nodup := by
  have hkeys : t.values.map key = t.keys := by
    rw [values_eq_map_toList, ← Std.TreeMap.map_fst_toList_eq_keys, List.map_map]
    refine List.map_congr_left fun e he => ?_
    exact h e.1 e.2 (Std.TreeMap.mem_toList_iff_getElem?_eq_some.1 he)
  rw [hkeys]
  exact Std.TreeMap.nodup_keys

theorem toList_eq (d : Document α) : d.toList = d.shapes.toList.map Prod.snd :=
  values_eq_map_toList d.shapes

theorem exists_of_mem_toList {s : Shape α} (h : s ∈ d.toList) : ∃ id, d.get? id = some s := by
  rw [toList_eq, List.mem_map] at h
  obtain ⟨⟨id, t⟩, hmem, rfl⟩ := h
  exact ⟨id, Std.TreeMap.mem_toList_iff_getElem?_eq_some.1 hmem⟩

theorem mem_toList_iff (hd : d.Keyed) {s : Shape α} : s ∈ d.toList ↔ d.get? s.id = some s := by
  rw [toList_eq, List.mem_map]
  constructor
  · rintro ⟨⟨id, t⟩, hmem, rfl⟩
    have hget : d.get? id = some t := Std.TreeMap.mem_toList_iff_getElem?_eq_some.1 hmem
    rw [hd id t hget]
    exact hget
  · intro h
    exact ⟨(s.id, s), Std.TreeMap.mem_toList_iff_getElem?_eq_some.2 h, rfl⟩

/-- Documents with the same tree list the same stems in the same order. -/
theorem SameTree.map_stem_toList (h : d.SameTree d') :
    d.shapes.toList.map (fun e => (e.1, e.2.stem)) = d'.shapes.toList.map fun e => (e.1, e.2.stem) := by
  have hequiv : (d.shapes.map fun _ s => s.stem).Equiv (d'.shapes.map fun _ s => s.stem) := by
    apply Std.TreeMap.Equiv.of_forall_constGet?_eq
    intro id
    rw [Std.TreeMap.getElem?_map, Std.TreeMap.getElem?_map]
    exact h id
  have := hequiv.toList_eq
  rwa [Std.TreeMap.toList_map, Std.TreeMap.toList_map] at this

theorem SameTree.size_eq (h : d.SameTree d') : d.size = d'.size := by
  have := congrArg List.length h.map_stem_toList
  simpa [size, Std.TreeMap.length_toList] using this

/-! ## Children -/

/-- The order of siblings, read off their stems. -/
def stemBehind (s t : ShapeId × Kind × Parent × Int64) : Bool :=
  s.2.2.2 < t.2.2.2 || (s.2.2.2 == t.2.2.2 && s.1.ule t.1)

theorem children_eq (d : Document α) (parent : Parent) :
    d.children parent =
      ((((d.shapes.toList.map fun e => (e.1, e.2.stem)).filter (·.2.2.2.1 = parent)).map
        Prod.snd).mergeSort stemBehind).map Prod.fst := by
  have hfold : d.shapes.foldr (fun _ s acc => if s.parent = parent then s :: acc else acc) [] =
      (d.shapes.toList.filter (·.2.parent = parent)).map Prod.snd := by
    rw [Std.TreeMap.foldr_eq_foldr_toList]
    induction d.shapes.toList with
    | nil => rfl
    | cons e es ih =>
        rw [List.foldr_cons, ih]
        by_cases h : e.2.parent = parent <;> simp [h]
  have hsort : ∀ l : List (Shape α), (l.mergeSort behind).map Shape.stem =
      (l.map Shape.stem).mergeSort stemBehind :=
    fun l => List.map_mergeSort fun _ _ _ _ => rfl
  have hid : (fun s : Shape α => s.id) = Prod.fst ∘ Shape.stem := rfl
  rw [children, hfold, hid, ← List.map_map, hsort, List.map_map, List.filter_map, List.map_map]
  rfl

/-- The children depend on the tree alone. -/
theorem SameTree.children_eq (h : d.SameTree d') (parent : Parent) :
    d.children parent = d'.children parent := by
  rw [Document.children_eq, Document.children_eq, h.map_stem_toList]

theorem mem_children_iff (hd : d.Keyed) {parent : Parent} {id : ShapeId} :
    id ∈ d.children parent ↔ ∃ s, d.get? id = some s ∧ s.parent = parent := by
  rw [Document.children_eq, List.mem_map]
  simp only [List.mem_mergeSort, List.mem_map, List.mem_filter]
  constructor
  · rintro ⟨_, ⟨_, ⟨⟨⟨key, s⟩, hmem, rfl⟩, hp⟩, rfl⟩, rfl⟩
    have hget : d.get? key = some s := Std.TreeMap.mem_toList_iff_getElem?_eq_some.1 hmem
    have hkey : s.id = key := hd key s hget
    exact ⟨s, by rw [← hget]; exact congrArg d.get? hkey, of_decide_eq_true hp⟩
  · rintro ⟨s, hget, hp⟩
    refine ⟨s.stem, ⟨(id, s.stem), ⟨⟨(id, s), ?_, rfl⟩, decide_eq_true hp⟩, rfl⟩, ?_⟩
    · exact Std.TreeMap.mem_toList_iff_getElem?_eq_some.2 hget
    · exact hd id s hget

/-- No shape is listed twice among the children. -/
theorem Keyed.nodup_children (hd : d.Keyed) (parent : Parent) : (d.children parent).Nodup := by
  rw [Document.children_eq, ((List.mergeSort_perm _ _).map Prod.fst).nodup_iff, List.filter_map,
    List.map_map, List.map_map]
  have hkeys : ∀ e ∈ d.shapes.toList, e.2.id = e.1 := fun e he =>
    hd e.1 e.2 (Std.TreeMap.mem_toList_iff_getElem?_eq_some.1 he)
  have hmap : d.shapes.toList.map (fun e => e.2.id) = d.shapes.keys := by
    rw [← Std.TreeMap.map_fst_toList_eq_keys, List.map_congr_left hkeys]
  refine List.Nodup.sublist ?_ (Std.TreeMap.nodup_keys : d.shapes.keys.Nodup)
  rw [← hmap]
  exact List.filter_sublist.map _

end Document

end CanvasTransform
