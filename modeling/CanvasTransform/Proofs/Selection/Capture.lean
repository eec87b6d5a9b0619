import CanvasTransform.Proofs.Document.Forest
import CanvasTransform.Selection.Snapshot

set_option autoImplicit false

/-! # What a snapshot holds

A snapshot has a member for every shape that it reaches and that has a place on the page, and every
member is the record of its shape as it was in the document (`Canvas.get?_capture?`). Which shapes
these are is a matter of the tree alone (`Document.Captured`): the top-level selected shapes and what
lies inside them, as far as following parents from there ends at the page. -/

namespace CanvasTransform

variable {α : Type}

theorem Snapshot.mem_shapes_iff {s : Snapshot α} {shape : Shape α} :
    shape ∈ s.shapes ↔ ∃ id m, s.get? id = some m ∧ m.shape = shape := by
  rw [shapes, Document.values_eq_map_toList, List.map_map, List.mem_map]
  constructor
  · rintro ⟨⟨id, m⟩, hmem, rfl⟩
    exact ⟨id, m, Std.TreeMap.mem_toList_iff_getElem?_eq_some.1 hmem, rfl⟩
  · rintro ⟨id, m, hget, rfl⟩
    exact ⟨(id, m), Std.TreeMap.mem_toList_iff_getElem?_eq_some.2 hget, rfl⟩

/-- Every member is filed under the identity of its shape. -/
def Snapshot.Keyed (s : Snapshot α) : Prop := ∀ id m, s.get? id = some m → m.shape.id = id

namespace Document

variable {d d' : Document α} {selection : List ShapeId} {id : ShapeId}

theorem mem_topLevel_iff : id ∈ d.topLevel selection ↔
    id ∈ selection ∧ d.contains id = true ∧ ∀ a ∈ d.ancestors id, a ∉ selection := by
  rw [topLevel, List.mem_eraseDups, List.mem_filter]
  simp

theorem nodup_eraseDups (ids : List ShapeId) : ids.eraseDups.Nodup := by
  match ids with
  | [] => exact List.nodup_nil
  | id :: ids =>
      rw [List.eraseDups_cons, List.nodup_cons, List.mem_eraseDups]
      exact ⟨by simp, nodup_eraseDups _⟩
termination_by ids.length
decreasing_by exact Nat.lt_succ_of_le (List.length_filter_le _ _)

theorem nodup_topLevel (d : Document α) (selection : List ShapeId) :
    (d.topLevel selection).Nodup := nodup_eraseDups _

/-- Whether a snapshot of the selection holds the shape: it is a selected shape without a selected
    ancestor or lies inside one, and has a place on the page. -/
structure Captured (d : Document α) (selection : List ShapeId) (id : ShapeId) : Prop where
  rooted : d.Rooted (.shape id)
  inside : ∃ top ∈ d.topLevel selection, d.Inside top id

theorem SameTree.topLevel_eq (h : d.SameTree d') (selection : List ShapeId) :
    d.topLevel selection = d'.topLevel selection := by
  simp only [topLevel, h.contains_eq, h.ancestors_eq]

theorem SameTree.captured_iff (h : d.SameTree d') {id : ShapeId} :
    d.Captured selection id ↔ d'.Captured selection id := by
  have hcaptured : ∀ {d d' : Document α}, d.SameTree d' → d.Captured selection id →
      d'.Captured selection id := by
    intro d d' h hid
    obtain ⟨top, htop, hinside⟩ := hid.inside
    exact ⟨h.symm.rooted hid.rooted, top, h.topLevel_eq selection ▸ htop, h.inside_iff.1 hinside⟩
  exact ⟨hcaptured h, hcaptured h.symm⟩

end Document

namespace Canvas

variable [Scalar α] {c : Canvas α}

omit [Scalar α] in
theorem shape_toOption (c : Canvas α) (id : ShapeId) :
    (c.shape id).toOption = c.document.get? id := by
  unfold shape
  cases c.document.get? id <;> rfl

theorem pageTransform_toOption (c : Canvas α) (id : ShapeId) :
    (c.pageTransform id).toOption = c.document.pageTransform? id := by
  unfold pageTransform
  cases c.document.pageTransform? id <;> rfl

theorem pageTransform_eq_ok {id : ShapeId} {page : Affine α}
    (h : c.document.pageTransform? id = some page) : c.pageTransform id = .ok page := by
  rw [pageTransform, h]

/-- A shape with a place on the page shows the corners of its bounds. -/
theorem pageCorners_eq {id : ShapeId} {shape : Shape α} {page : Affine α}
    (hs : c.document.get? id = some shape) (hpage : c.document.pageTransform? id = some page) :
    c.pageCorners id = .ok ((c.registry.bounds c.document shape).corners.map page.apply) := by
  rw [pageCorners, pageTransform_eq_ok hpage, localBounds, Canvas.shape, hs]
  rfl

/-- A shape with bounds on the page is one with a place there. -/
theorem pageBounds_eq_ok_iff {id : ShapeId} {bounds : Rect α} : c.pageBounds id = .ok bounds ↔
    ∃ shape page, c.document.get? id = some shape ∧ c.document.pageTransform? id = some page ∧
      (c.registry.bounds c.document shape).transformedBounds page = bounds := by
  rw [pageBounds, pageTransform, localBounds, Canvas.shape]
  cases c.document.pageTransform? id with
  | none => simp [bind, Except.bind]
  | some page =>
      cases c.document.get? id with
      | none => simp [bind, Except.bind, Except.map]
      | some shape => simp [bind, pure, Except.bind, Except.pure, Except.map]

/-- A member is the record of its shape, with its place on the page and its children. -/
theorem member?_eq_some_iff {id : ShapeId} {m : Member α} :
    c.member? id = some m ↔
      c.document.get? id = some m.shape ∧ c.document.pageTransform? id = some m.pageTransform ∧
      (c.parentPageTransform id).toOption = some m.parentPageTransform ∧
      m.children = c.document.children (.shape id) := by
  simp only [member?, shape_toOption, pageTransform_toOption, Option.bind_eq_bind,
    Option.bind_eq_some_iff, Option.pure_def, Option.some.injEq]
  constructor
  · rintro ⟨shape, hshape, page, hpage, parent, hparent, rfl⟩
    exact ⟨hshape, hpage, hparent, rfl⟩
  · rintro ⟨hshape, hpage, hparent, hchildren⟩
    exact ⟨m.shape, hshape, m.pageTransform, hpage, m.parentPageTransform, hparent,
      by rw [← hchildren]⟩

theorem getElem?_foldl_member? (c : Canvas α) (ids : List ShapeId)
    (found : Std.TreeMap ShapeId (Member α) compare) (id : ShapeId) :
    (ids.foldl (fun found id => match c.member? id with
      | some m => found.insert id m
      | none => found) found)[id]? =
      if id ∈ ids then (c.member? id).or found[id]? else found[id]? := by
  induction ids generalizing found with
  | nil => simp
  | cons a ids ih =>
      rw [List.foldl_cons, ih]
      by_cases ha : a = id
      · subst ha
        cases c.member? a <;> simp
      · have hne : id ≠ a := fun h => ha h.symm
        cases c.member? a <;> simp [hne, Std.TreeMap.getElem?_insert, ha]

theorem get?_membersOf (c : Canvas α) (ids : List ShapeId) (id : ShapeId) :
    (c.membersOf ids)[id]? = if id ∈ ids then c.member? id else none := by
  refine (c.getElem?_foldl_member? ids ∅ id).trans ?_
  by_cases h : id ∈ ids <;> simp [h]

/-- **What a capture holds.** The members are the top-level shapes and their descendants, as they are
    in the document. -/
theorem get?_capture? {selection : List ShapeId} {camera : Camera α} {s : Snapshot α}
    (h : c.capture? selection camera = some s) (id : ShapeId) :
    s.topLevel = c.document.topLevel selection ∧ c.selectionBox? s.topLevel = some s.box ∧
      s.get? id = if id ∈ s.topLevel.flatMap (fun id => id :: c.document.descendants id)
        then c.member? id else none := by
  simp only [capture?, Option.bind_eq_bind, Option.bind_eq_some_iff, Option.pure_def,
    Option.some.injEq] at h
  obtain ⟨box, hbox, pageBounds, -, rfl⟩ := h
  exact ⟨rfl, hbox, get?_membersOf c _ id⟩

theorem member?_of_capture? {selection : List ShapeId} {camera : Camera α} {s : Snapshot α}
    (h : c.capture? selection camera = some s) {id : ShapeId} {m : Member α}
    (hm : s.get? id = some m) : c.member? id = some m := by
  rw [(get?_capture? h id).2.2] at hm
  split at hm
  · exact hm
  · exact nomatch hm

/-- A captured shape is the shape that the document has. -/
theorem get?_of_mem_shapes {selection : List ShapeId} {camera : Camera α} {s : Snapshot α}
    (h : c.capture? selection camera = some s) (hkeyed : c.document.Keyed) {shape : Shape α}
    (hs : shape ∈ s.shapes) : c.document.get? shape.id = some shape := by
  obtain ⟨id, m, hget, rfl⟩ := Snapshot.mem_shapes_iff.1 hs
  have hshape := (member?_eq_some_iff.1 (member?_of_capture? h hget)).1
  rw [hkeyed id m.shape hshape]
  exact hshape

theorem keyed_capture? {selection : List ShapeId} {camera : Camera α} {s : Snapshot α}
    (h : c.capture? selection camera = some s) (hkeyed : c.document.Keyed) : s.Keyed :=
  fun id m hm => hkeyed id m.shape (member?_eq_some_iff.1 (member?_of_capture? h hm)).1

/-- The place of a member's parent. -/
theorem parentPageTransform_toOption {id : ShapeId} {shape : Shape α}
    (hs : c.document.get? id = some shape) :
    (c.parentPageTransform id).toOption =
      (c.document.parentId? id).elim (some Affine.identity) c.document.pageTransform? := by
  have hshape : c.shape id = .ok shape := by rw [Canvas.shape, hs]
  have hparent : c.document.parentId? id = shape.parent.shapeId? := by
    rw [Document.parentId?, hs]
    rfl
  rw [hparent, parentPageTransform, hshape]
  cases hp : shape.parent with
  | page => simp [hp, Parent.shapeId?, Bind.bind, Except.bind]; rfl
  | shape parent =>
      simp [hp, Parent.shapeId?, pageTransform_toOption, Bind.bind, Except.bind]

/-- In a shallow document, a shape has a record if and only if it has a place on the page. -/
theorem exists_member?_iff (hshallow : c.document.Shallow) {id : ShapeId} :
    (∃ m, c.member? id = some m) ↔ c.document.Rooted (.shape id) := by
  constructor
  · rintro ⟨m, hm⟩
    exact hshallow.rooted_iff.2 ⟨_, (member?_eq_some_iff.1 hm).2.1⟩
  · intro h
    obtain ⟨shape, hs⟩ := Document.contains_iff.1 h.contains
    obtain ⟨page, hpage⟩ := hshallow.rooted_iff.1 h
    have hparent : ∃ t, (c.parentPageTransform id).toOption = some t := by
      rw [parentPageTransform_toOption hs]
      cases hp : c.document.parentId? id with
      | none => exact ⟨_, rfl⟩
      | some parent => exact hshallow.rooted_iff.1 (h.above (.parent hp))
    obtain ⟨t, ht⟩ := hparent
    exact ⟨⟨shape, page, t, c.document.children (.shape id)⟩,
      member?_eq_some_iff.2 ⟨hs, hpage, ht, rfl⟩⟩

/-- A member is the record of a shape that is a top-level shape or below one. -/
theorem get?_eq_some_iff (hkeyed : c.document.Keyed) (hshallow : c.document.Shallow)
    {selection : List ShapeId} {camera : Camera α} {s : Snapshot α}
    (h : c.capture? selection camera = some s) {id : ShapeId} {m : Member α} :
    s.get? id = some m ↔
      (∃ top ∈ s.topLevel, c.document.Inside top id) ∧ c.member? id = some m := by
  rw [(get?_capture? h id).2.2]
  simp only [List.mem_flatMap, List.mem_cons, hshallow.mem_descendants_iff hkeyed]
  split_ifs with hmem
  · exact (and_iff_right hmem).symm
  · exact iff_of_false nofun fun hand => hmem hand.1

/-- **Which shapes a snapshot holds** is a matter of the tree. -/
theorem contains_iff_captured (hkeyed : c.document.Keyed) (hshallow : c.document.Shallow)
    {selection : List ShapeId} {camera : Camera α} {s : Snapshot α}
    (h : c.capture? selection camera = some s) {id : ShapeId} :
    s.contains id = true ↔ c.document.Captured selection id := by
  rw [Snapshot.contains, Option.isSome_iff_exists]
  simp only [get?_eq_some_iff hkeyed hshallow h, exists_and_left, exists_member?_iff hshallow,
    (get?_capture? h id).1]
  exact ⟨fun ⟨hinside, hrooted⟩ => ⟨hrooted, hinside⟩, fun h => ⟨h.inside, h.rooted⟩⟩

end Canvas

end CanvasTransform
