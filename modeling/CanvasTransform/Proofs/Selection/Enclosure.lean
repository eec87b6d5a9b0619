import CanvasTransform.Proofs.Selection.Box
import CanvasTransform.Proofs.Selection.Handles

set_option autoImplicit false

/-! # What bounds enclose

The bounds of a group are asked of its children, and theirs of their children where they are groups.
`Document.Measures` says when that comes to an end and with what; where nothing lies above itself it
does, with the bounds that the registry answers (`Document.measures_iff`).

Boxes are put around boxes at every level, each turned against the last. Nothing gets lost on the
way: what a box encloses at one level, the box around it at the next level encloses, since
rectangles are convex (`Document.Wraps.contains`). The same step leads from the page corners of a
group to those of the shapes in it, so the box around a selection encloses both
(`Canvas.contains_of_wraps`). -/

namespace CanvasTransform

namespace Document

/-! ## Asking for bounds -/

section
variable {α : Type} [Scalar α] {d : Document α}

/-- Asking for the bounds of a shape, and before that for those of its children if it is a group,
    comes to an end and answers `r`. -/
inductive Measures (d : Document α) : Shape α → Rect α → Prop
  | alone {s : Shape α} : s.kind ≠ .group →
      Measures d s ((Registry.builtin.behaviour s.kind).bounds d (fun _ => Rect.zero) s)
  | group {s : Shape α} {f : Shape α → Rect α} : s.kind = .group →
      (∀ c ∈ Behaviour.childrenOf d s, Measures d c (f c)) →
      Measures d s (Behaviour.groupBounds d f s)

/-- **Asking for bounds ends** where nothing lies above itself, with what the registry answers. -/
theorem measures_iff (hkeyed : d.Keyed) (hacyclic : d.Acyclic) {s : Shape α} {r : Rect α} :
    d.Measures s r ↔ r = Registry.builtin.bounds d s := by
  constructor
  · intro h
    induction h with
    | alone hk =>
        rw [Registry.bounds_eq hkeyed hacyclic]
        exact Registry.bounds_behaviour_of_ne_group hk _ _
    | @group s f hk _ ih =>
        rw [Registry.bounds_eq hkeyed hacyclic, ← Registry.bounds_behaviour_congr ih, hk]
        rfl
  · rintro rfl
    generalize hid : s.id = id
    induction id using hacyclic.induction_children generalizing s with
    | step id ih =>
        rw [Registry.bounds_eq hkeyed hacyclic]
        by_cases hk : s.kind = .group
        · rw [hk]
          refine .group hk fun c hc => ?_
          obtain ⟨hget, hparent⟩ := (Behaviour.mem_childrenOf hkeyed).1 hc
          rw [hid] at hparent
          exact ih c.id (parentId?_eq_some_iff.2 ⟨c, hget, hparent⟩) rfl
        · rw [Registry.bounds_behaviour_of_ne_group hk _ fun _ => Rect.zero]
          exact .alone hk

end

/-! ## Boxes around boxes -/

variable {d : Document ℝ} {g s : Shape ℝ} {t page : Affine ℝ}

/-- The shape `s` is reached from `g` through groups only, and `t` is the chain of placements that
    leads from its frame into that of `g`. -/
inductive Wraps (d : Document ℝ) (g : Shape ℝ) : Shape ℝ → Affine ℝ → Prop
  | child {c : Shape ℝ} : d.get? c.id = some c → c.parent = .shape g.id →
      Wraps d g c c.localTransform
  | step {c s : Shape ℝ} {t : Affine ℝ} : Wraps d g c t → c.kind = .group →
      d.get? s.id = some s → s.parent = .shape c.id → Wraps d g s (t * s.localTransform)

theorem Wraps.get? (h : d.Wraps g s t) : d.get? s.id = some s := by
  cases h with
  | child hget _ => exact hget
  | step _ _ hget _ => exact hget

/-- A group encloses the boxes of its children. -/
theorem contains_of_child (hkeyed : d.Keyed) (hacyclic : d.Acyclic) (hg : d.get? g.id = some g)
    (hk : g.kind = .group) (hs : d.get? s.id = some s) (hparent : s.parent = .shape g.id)
    {p : Point ℝ} (hp : (Registry.builtin.bounds d s).contains p = true) :
    (Registry.builtin.bounds d g).contains (s.localTransform.apply p) = true := by
  have hchild : s.id ∈ d.children (.shape g.id) :=
    (mem_children_shape_iff hkeyed).2 (parentId?_eq_some_iff.2 ⟨s, hs, hparent⟩)
  have hspans := Registry.spans_bounds_group hkeyed hacyclic hg hk (List.ne_nil_of_mem hchild)
  refine Rect.contains_apply (fun q hq => hspans.contains ?_) hp
  exact ⟨s, (Behaviour.mem_childrenOf hkeyed).2 ⟨hs, hparent⟩, q, hq, rfl⟩

/-- **A group encloses what it is reached from through groups**, at any depth and however it is
    turned. -/
theorem Wraps.contains (h : d.Wraps g s t) (hkeyed : d.Keyed) (hacyclic : d.Acyclic)
    (hg : d.get? g.id = some g) (hk : g.kind = .group) {p : Point ℝ}
    (hp : (Registry.builtin.bounds d s).contains p = true) :
    (Registry.builtin.bounds d g).contains (t.apply p) = true := by
  induction h generalizing p with
  | child hs hparent => exact contains_of_child hkeyed hacyclic hg hk hs hparent hp
  | step hwraps hkind hs hparent ih =>
      rw [Affine.apply_mul]
      exact ih (contains_of_child hkeyed hacyclic hwraps.get? hkind hs hparent hp)

/-- A group is no larger than the boxes of its children make it. -/
theorem isLeast_region_group (hkeyed : d.Keyed) (hacyclic : d.Acyclic) (hg : d.get? g.id = some g)
    (hk : g.kind = .group) (hchildren : d.children (.shape g.id) ≠ []) :
    IsLeast {R : Set (Point ℝ) | (∃ b : Rect ℝ, R = b.region) ∧ ∀ c ∈ Behaviour.childrenOf d g,
      c.localTransform.apply '' (Registry.builtin.bounds d c).region ⊆ R}
      (Registry.builtin.bounds d g).region := by
  constructor
  · refine ⟨⟨_, rfl⟩, fun c hc => ?_⟩
    obtain ⟨hs, hparent⟩ := (Behaviour.mem_childrenOf hkeyed).1 hc
    rintro _ ⟨p, hp, rfl⟩
    exact contains_of_child hkeyed hacyclic hg hk hs hparent hp
  · rintro _ ⟨⟨b, rfl⟩, hb⟩
    have hspans := Registry.spans_bounds_group hkeyed hacyclic hg hk hchildren
    refine hspans.region_subset ?_
    rintro _ ⟨c, hc, p, hp, rfl⟩
    exact hb c hc ⟨p, Rect.contains_of_mem_corners hp, rfl⟩

/-- The place on the page of what a group wraps is that of the group, and then the chain. -/
theorem Wraps.pageTransform?_eq (h : d.Wraps g s t) (hshallow : d.Shallow) :
    d.pageTransform? s.id = (d.pageTransform? g.id).map (· * t) := by
  have hchild : ∀ {c s : Shape ℝ}, d.get? s.id = some s → s.parent = .shape c.id →
      d.pageTransform? s.id = (d.pageTransform? c.id).map (· * s.localTransform) := by
    intro c s hs hparent
    rw [hshallow.pageTransform?_eq, hs, Option.bind_some, hparent]
  induction h with
  | child hs hparent => exact hchild hs hparent
  | step _ _ hs hparent ih =>
      rw [hchild hs hparent, ih, Option.map_map]
      refine congrArg (Option.map · _) (funext fun page => ?_)
      exact Affine.mul_assoc page _ _

end Document

/-! ## The box around a selection -/

namespace Canvas

open Registry

variable {d : Document ℝ} {ids : List ShapeId} {id : ShapeId} {box : OrientedBox ℝ}

theorem contains_of_mem_cornerSet {c : Canvas ℝ} (hbox : c.selectionBox? ids = some box)
    (hid : id ∈ ids) {p : Point ℝ} (hp : p ∈ c.cornerSet id) : box.contains p = true :=
  (selectionBox?_eq_some_iff.1 hbox).2.contains ⟨p, ⟨id, hid, hp⟩, rfl⟩

/-- The box around a selected group encloses on the page what the group wraps. -/
theorem contains_of_wraps (hkeyed : d.Keyed) (hshallow : d.Shallow)
    (hbox : Canvas.selectionBox? ⟨d, builtin⟩ ids = some box) (hid : id ∈ ids) {g s : Shape ℝ}
    {t : Affine ℝ} (hg : d.get? id = some g) (hk : g.kind = .group) (h : d.Wraps g s t) {p : Point ℝ}
    (hp : p ∈ Canvas.cornerSet ⟨d, builtin⟩ s.id) : box.contains p = true := by
  obtain rfl := hkeyed id g hg
  cases hpage : d.pageTransform? g.id with
  | none =>
      rw [cornerSet_eq_empty (by rw [h.pageTransform?_eq hshallow, hpage]; rfl)] at hp
      exact absurd hp (Set.notMem_empty p)
  | some page =>
      have hspage : d.pageTransform? s.id = some (page * t) := by
        rw [h.pageTransform?_eq hshallow, hpage]
        rfl
      rw [cornerSet_eq h.get? hspage] at hp
      obtain ⟨q, hq, rfl⟩ := hp
      have hin := h.contains hkeyed hshallow.acyclic hg hk (Rect.contains_of_mem_corners hq)
      -- from the frame of the group it is one map to the frame of the box
      have hmap : ∀ u : Point ℝ, box.toFrame.apply (page.apply u) = (box.toFrame * page).apply u :=
        fun u => (Affine.apply_mul _ _ u).symm
      rw [Affine.apply_mul, OrientedBox.contains, hmap]
      refine Rect.contains_apply (fun u hu => ?_) hin
      rw [← hmap]
      refine contains_of_mem_cornerSet hbox hid ?_
      rw [cornerSet_eq hg hpage]
      exact ⟨u, hu, rfl⟩

/-- Each side of the box touches a corner of one of the shapes. -/
theorem exists_corner_on_side {c : Canvas ℝ} (hbox : c.selectionBox? ids = some box) (e : Edge) :
    ∃ id ∈ ids, ∃ p ∈ c.cornerSet id, e.axis.coord (box.toFrame.apply p) = e.side box.rect := by
  have hspans := (selectionBox?_eq_some_iff.1 hbox).2
  cases e with
  | top =>
      obtain ⟨_, ⟨p, ⟨id, hid, hp⟩, rfl⟩, hside⟩ := hspans.top.1
      exact ⟨id, hid, p, hp, hside⟩
  | right =>
      obtain ⟨_, ⟨p, ⟨id, hid, hp⟩, rfl⟩, hside⟩ := hspans.right.1
      exact ⟨id, hid, p, hp, hside⟩
  | bottom =>
      obtain ⟨_, ⟨p, ⟨id, hid, hp⟩, rfl⟩, hside⟩ := hspans.bottom.1
      exact ⟨id, hid, p, hp, hside⟩
  | left =>
      obtain ⟨_, ⟨p, ⟨id, hid, hp⟩, rfl⟩, hside⟩ := hspans.left.1
      exact ⟨id, hid, p, hp, hside⟩

/-- **Bounds enclose what they stand for.** In a document in which nothing lies above itself, asking
    a group with children for its bounds ends, the bounds contain the corners of every shape that
    the group is reached from through groups, and they are least among the boxes that contain the
    boxes of its children. Where chains of parents are no longer than queries follow, the box around
    some shapes contains the page corners of each of them and of what the groups among them wrap,
    each of its sides touches a corner of one of the shapes, and there is a box as soon as one has a
    place on the page. -/
theorem bounds_enclose (hkeyed : d.Keyed) (hacyclic : d.Acyclic) :
    (∀ g, d.get? g.id = some g → g.kind = .group → d.children (.shape g.id) ≠ [] →
      (∀ r, d.Measures g r ↔ r = builtin.bounds d g) ∧
      (∀ s t, d.Wraps g s t → ∀ p ∈ (builtin.bounds d s).corners,
        (builtin.bounds d g).contains (t.apply p) = true) ∧
      IsLeast {R : Set (Point ℝ) | (∃ b : Rect ℝ, R = b.region) ∧ ∀ c ∈ Behaviour.childrenOf d g,
        c.localTransform.apply '' (builtin.bounds d c).region ⊆ R} (builtin.bounds d g).region) ∧
    (d.Shallow → ∀ ids, let c : Canvas ℝ := ⟨d, builtin⟩
      ((∃ box, c.selectionBox? ids = some box) ↔
        ∃ id ∈ ids, ∃ page, d.pageTransform? id = some page) ∧
      ∀ box, c.selectionBox? ids = some box →
        (∀ id ∈ ids, ∀ p ∈ c.cornerSet id, box.contains p = true) ∧
        (∀ id ∈ ids, ∀ g s t, d.get? id = some g → g.kind = .group → d.Wraps g s t →
          ∀ p ∈ c.cornerSet s.id, box.contains p = true) ∧
        ∀ e : Edge, ∃ id ∈ ids, ∃ p ∈ c.cornerSet id,
          e.axis.coord (box.toFrame.apply p) = e.side box.rect) := by
  constructor
  · intro g hg hk hchildren
    refine ⟨fun r => Document.measures_iff hkeyed hacyclic, fun s t h p hp => ?_, ?_⟩
    · exact h.contains hkeyed hacyclic hg hk (Rect.contains_of_mem_corners hp)
    · exact Document.isLeast_region_group hkeyed hacyclic hg hk hchildren
  · intro hshallow ids c
    refine ⟨exists_selectionBox?_iff, fun box hbox => ⟨?_, ?_, exists_corner_on_side hbox⟩⟩
    · intro id hid p hp
      exact contains_of_mem_cornerSet hbox hid hp
    · intro id hid g s t hg hk h p hp
      exact contains_of_wraps hkeyed hshallow hbox hid hg hk h hp

/-- A turned group with a rectangle in it that is turned against it. -/
theorem bounds_enclose_turned_group :
    let d : Document ℝ := (Document.empty.put ((Shape.group 1 5 5).withRotation 2)).put
      (((Shape.rectangle 2 3 4 10 20).withRotation 1).withParent (.shape 1))
    let c : Canvas ℝ := ⟨d, builtin⟩
    d.Keyed ∧ d.Shallow ∧
    (∃ g s, d.get? 1 = some g ∧ d.get? 2 = some s ∧ d.Measures g (builtin.bounds d g) ∧
      ∀ p ∈ (builtin.bounds d s).corners,
        (builtin.bounds d g).contains (s.localTransform.apply p) = true) ∧
    ∃ box, c.selectionBox? [1] = some box ∧ (∀ p ∈ c.cornerSet 2, box.contains p = true) ∧
      ∀ e : Edge, ∃ p ∈ c.cornerSet 1, e.axis.coord (box.toFrame.apply p) = e.side box.rect := by
  intro d c
  have hchildren : d.children (.shape 1) = [2] := by
    clear c
    decide +kernel +revert
  have hkeyed : d.Keyed := (Document.keyed_empty.put _).put _
  have hshallow : d.Shallow := Document.shallow_put_put rfl rfl (by decide)
  let g : Shape ℝ := (Shape.group 1 5 5).withRotation 2
  let s : Shape ℝ := ((Shape.rectangle 2 3 4 10 20).withRotation 1).withParent (.shape 1)
  have hg : d.get? 1 = some g := rfl
  have hs : d.get? 2 = some s := rfl
  have hwraps : d.Wraps g s s.localTransform := .child hs rfl
  have hpage : d.pageTransform? 1 = some (Affine.placement 5 5 (Angle.normalize 2)) := by
    rw [hshallow.pageTransform?_eq, hg]
    rfl
  obtain ⟨hgroup, hselection⟩ := bounds_enclose hkeyed hshallow.acyclic
  obtain ⟨hmeasures, hcorners, -⟩ :=
    hgroup g hg rfl (List.ne_nil_of_mem (hchildren ▸ List.mem_singleton_self 2))
  obtain ⟨hsome, hbox⟩ := hselection hshallow [1]
  obtain ⟨box, hsome⟩ := hsome.2 ⟨1, List.mem_singleton_self 1, _, hpage⟩
  obtain ⟨-, hmembers, hsides⟩ := hbox box hsome
  refine ⟨hkeyed, hshallow, ⟨_, _, hg, hs, (hmeasures _).2 rfl, hcorners _ _ hwraps⟩, box, hsome,
    ?_, ?_⟩
  · exact hmembers 1 (List.mem_singleton_self 1) _ _ _ hg rfl hwraps
  · intro e
    obtain ⟨id, hid, p, hp, hside⟩ := hsides e
    rw [List.mem_singleton.1 hid] at hp
    exact ⟨p, hp, hside⟩

/-- **A shape that is selected along with the frame around it does not count.** Where it overhangs
    the frame, the box does not contain it. Were it to count, a side of the box would touch no
    corner of the frame. -/
theorem overhanging_child_outside :
    let d : Document ℝ := (Document.empty.put (Shape.frame 1 0 0 10 10)).put
      ((Shape.rectangle 2 0 0 20 10).withParent (.shape 1))
    let c : Canvas ℝ := ⟨d, builtin⟩
    d.Keyed ∧ d.Shallow ∧ d.topLevel [1, 2] = [1] ∧
    (∃ box, c.selectionBox? (d.topLevel [1, 2]) = some box ∧
      ∃ p ∈ c.cornerSet 2, box.contains p = false) ∧
    ∃ box, c.selectionBox? [1, 2] = some box ∧
      ∀ p ∈ c.cornerSet 1, Axis.x.coord (box.toFrame.apply p) ≠ Edge.right.side box.rect := by
  intro d c
  have htop : d.topLevel [1, 2] = [1] := by
    clear c
    decide +kernel +revert
  have hkeyed : d.Keyed := (Document.keyed_empty.put _).put _
  have hshallow : d.Shallow := Document.shallow_put_put rfl rfl (by decide)
  have hframe : d.get? 1 = some (Shape.frame 1 0 0 10 10) := rfl
  have hchild : d.get? 2 = some ((Shape.rectangle 2 0 0 20 10).withParent (.shape 1)) := rfl
  have hpage : d.pageTransform? 1 = some Affine.identity := by
    rw [hshallow.pageTransform?_eq, hframe, ← Affine.placement_zero]
    rfl
  have hpage' : d.pageTransform? 2 = some Affine.identity := by
    rw [hshallow.pageTransform?_eq, hchild, Option.bind_some]
    show (d.pageTransform? 1).map (· * Affine.placement 0 0 0) = _
    rw [hpage, Affine.placement_zero, Option.map_some, Affine.mul_identity]
  have hcorner : (⟨20, 0⟩ : Point ℝ) ∈ c.cornerSet 2 := by
    rw [cornerSet_eq hchild hpage']
    refine ⟨⟨20, 0⟩, ?_, Affine.apply_identity _⟩
    exact List.mem_cons_of_mem _ List.mem_cons_self
  have hflat : ∀ box : OrientedBox ℝ, box.rotation = 0 → box.toFrame = Affine.identity := by
    intro box hrotation
    rw [OrientedBox.toFrame, hrotation, neg_zero, Affine.rotate_zero]
  refine ⟨hkeyed, hshallow, htop, ?_, ?_⟩
  · rw [htop]
    obtain ⟨box, hbox⟩ := (@exists_selectionBox?_iff c [1]).2 ⟨1, List.mem_singleton_self 1, _, hpage⟩
    obtain rfl : box = ⟨⟨0, 0, 10, 10⟩, 0⟩ := by
      refine selectionBox?_of_identity hframe hpage ?_ (by norm_num) (by norm_num) hbox
      rfl
    refine ⟨_, hbox, _, hcorner, Bool.eq_false_iff.2 fun hin => ?_⟩
    rw [OrientedBox.contains, hflat _ rfl, Affine.apply_identity, Rect.contains_iff] at hin
    norm_num [Set.mem_uIcc] at hin
  · obtain ⟨box, hbox⟩ := (@exists_selectionBox?_iff c [1, 2]).2 ⟨1, List.mem_cons_self, _, hpage⟩
    obtain ⟨hturn, hspans⟩ := selectionBox?_eq_some_iff.1 hbox
    have hrotation : ∀ id, d.pageTransform? id = some Affine.identity →
        (c.pageRotation id).toOption = some 0 := by
      intro id hid
      rw [pageRotation, pageTransform_eq_ok hid, ← Affine.rotation_identity]
      rfl
    have hzero : box.rotation = 0 := by
      simp only [turn?, List.filterMap_cons, hrotation 1 hpage, hrotation 2 hpage',
        List.filterMap_nil, List.head?_cons, Option.map_some, ite_self, Option.some.injEq] at hturn
      exact hturn.symm
    refine ⟨box, hbox, fun p hp hside => ?_⟩
    rw [hflat box hzero, Affine.apply_identity] at hside
    have hright : (20 : ℝ) ≤ box.rect.x1 := by
      refine hspans.right.2 ⟨_, ⟨_, ⟨2, by simp, hcorner⟩, rfl⟩, ?_⟩
      rw [hflat box hzero, Affine.apply_identity]
    rw [cornerSet_eq hframe hpage] at hp
    obtain ⟨q, hq, rfl⟩ := hp
    rw [Affine.apply_identity] at hside
    have hx : q.x = 0 ∨ q.x = 10 := ((Rect.mem_corners_iff ⟨0, 0, 10, 10⟩ q).1 hq).1
    have hside : q.x = box.rect.x1 := hside
    rcases hx with hx | hx <;> linarith

end Canvas

end CanvasTransform
