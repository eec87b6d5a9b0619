import CanvasTransform.Proofs.Document.Frames
import CanvasTransform.Proofs.Document.Growth
import CanvasTransform.Proofs.Group.Refit

set_option autoImplicit false

/-! # Groups that fit their children

Read exactly, refitting a group moves its origin and moves its children back by as much, so that no
shape but the group itself has another page transform afterwards (`pageTransform?_refit`). A group
that was refitted fits its children (`fits_refit`), and goes on to do so while containers are
refitted that are no deeper (`Fits.refit`). Refitting the containers of a batch deepest first
therefore leaves all of them fitting (`fits_refitAll`). -/

namespace CanvasTransform

/-! ## What a refit does to the records -/

namespace Shape

/-- The shape moved within its parent's frame. -/
def moveBy (s : Shape ℝ) (v : Vec ℝ) : Shape ℝ := { s with x := s.x + v.x, y := s.y + v.y }

@[simp] theorem moveBy_parent (s : Shape ℝ) (v : Vec ℝ) : (s.moveBy v).parent = s.parent := rfl

@[simp] theorem moveBy_zero (s : Shape ℝ) : s.moveBy Vec.zero = s := by
  show { s with x := s.x + 0, y := s.y + 0 } = s
  rw [add_zero, add_zero]

theorem localTransform_moveBy (s : Shape ℝ) (v : Vec ℝ) :
    (s.moveBy v).localTransform = Affine.translate v * s.localTransform :=
  (Affine.translate_mul_placement s.x s.y s.rotation v).symm

theorem localTransform_moveBy_rotate (s : Shape ℝ) (v : Vec ℝ) :
    (s.moveBy (v.rotate s.rotation)).localTransform = s.localTransform * Affine.translate v :=
  (Affine.placement_mul_translate s.x s.y s.rotation v).symm

end Shape

@[simp] theorem Vec.rotate_zero_vec (angle : ℝ) : (Vec.zero : Vec ℝ).rotate angle = Vec.zero := by
  ext <;> simp [Vec.rotate, Vec.zero]

@[simp] theorem Vec.neg_zero_vec : -(Vec.zero : Vec ℝ) = Vec.zero := by
  ext <;> simp [Vec.zero]

namespace Document

variable {d d' : Document ℝ}

/-- How far the top left of a group's children is from the group's origin, if that is far enough for
    the group to react. -/
noncomputable def refitOffset (d : Document ℝ) (g : ShapeId) : Vec ℝ :=
  match d.get? g with
  | some s =>
    let offset := (Behaviour.groupBounds d (Registry.builtin.bounds d) s).origin.toVec
    if s.kind = .group ∧ d.children (.shape s.id) ≠ [] ∧ ¬ offset.length ≤ Scalar.coordTolerance
      then offset else Vec.zero
  | none => Vec.zero

theorem refitOffset_of_kind {g : ShapeId} {s : Shape ℝ} (hs : d.get? g = some s)
    (hk : s.kind ≠ .group) : d.refitOffset g = Vec.zero := by
  simp [refitOffset, hs, hk]

/-- Only groups with something in them react. -/
theorem refitOffset_eq_zero {g : ShapeId} (hd : d.Keyed)
    (h : ¬ d.IsGroup g ∨ d.children (.shape g) = []) : d.refitOffset g = Vec.zero := by
  cases hs : d.get? g with
  | none => simp [refitOffset, hs]
  | some s =>
      rcases h with h | h
      · exact refitOffset_of_kind hs fun hk => h ⟨s, hs, hk⟩
      · simp [refitOffset, hs, hd g s hs, h]

/-- The patches that move a group by `v` in its own frame, and its children back by as much. -/
noncomputable def shiftPatches (d : Document ℝ) (s : Shape ℝ) (v : Vec ℝ) : List (Patch ℝ) :=
  Patch.position s.id (s.x + (v.rotate s.rotation).x) (s.y + (v.rotate s.rotation).y) ::
    (Behaviour.childrenOf d s).map fun c => Patch.position c.id (c.x + (-v).x) (c.y + (-v).y)

/-- A reaction is nothing, or it moves the group and its children. -/
theorem refit_cases {g : ShapeId} {s : Shape ℝ} (hs : d.get? g = some s) :
    Registry.builtin.refit d s = [] ∧ d.refitOffset g = Vec.zero ∨
      Registry.builtin.refit d s = d.shiftPatches s (d.refitOffset g) := by
  by_cases hk : s.kind = .group
  · rw [Registry.refit_group hk, Behaviour.refitGroup, refitOffset, hs]
    by_cases hempty : d.children (.shape s.id) = []
    · simp [hempty]
    · by_cases hsmall : (Behaviour.groupBounds d (Registry.builtin.bounds d) s).origin.toVec.length ≤
          Scalar.coordTolerance
      · simp [hempty, hsmall]
      · refine Or.inr ?_
        simp only [hk, hempty, hsmall, List.isEmpty_iff, ne_eq, not_false_eq_true, and_self,
          if_true, if_false, sub_eq_add_neg]
        rfl
  · exact Or.inl ⟨Registry.refit_eq_nil hk, refitOffset_of_kind hs hk⟩

/-- Every patch of a shift but the first moves a child back. -/
theorem mem_tail_shiftPatches (hd : d.Keyed) {s : Shape ℝ} {v : Vec ℝ} {p : Patch ℝ}
    (hp : p ∈ (d.shiftPatches s v).tail) :
    ∃ c, d.get? p.id = some c ∧ d.parentId? p.id = some s.id ∧
      p = Patch.position c.id (c.x + (-v).x) (c.y + (-v).y) := by
  obtain ⟨c, hc, rfl⟩ := List.mem_map.1 hp
  obtain ⟨hget, hparent⟩ := (Behaviour.mem_childrenOf hd).1 hc
  exact ⟨c, hget, parentId?_eq_some_iff.2 ⟨c, hget, hparent⟩, rfl⟩

theorem get?_shiftPatches (hd : d.Keyed) (hshallow : d.Shallow) {g : ShapeId} {s : Shape ℝ}
    (hg : d.get? g = some s) (v : Vec ℝ) (id : ShapeId) :
    (d.patchAll (d.shiftPatches s v)).get? id = (d.get? id).map fun s =>
      if id = g then s.moveBy (v.rotate s.rotation)
      else if d.parentId? id = some g then s.moveBy (-v)
      else s := by
  have hid : s.id = g := hd g s hg
  by_cases hg' : id = g
  · -- no child of the group is the group itself
    refine (get?_patchAll_of_mem List.mem_cons_self (hid.trans hg'.symm) ?_).trans ?_
    · intro q hq hqid
      rcases List.mem_cons.1 hq with rfl | hq
      · rfl
      · obtain ⟨c, -, hp, -⟩ := mem_tail_shiftPatches hd hq
        rw [hqid, hg', hid] at hp
        exact absurd rfl (hshallow.ne_of_parentId? hp)
    · simp only [hg', hg, if_true, Option.map_some]
      rfl
  · have hhead : s.id ≠ id := fun h => hg' (by rw [← h, hid])
    by_cases hp : d.parentId? id = some g
    · obtain ⟨c, hc, hcp⟩ := parentId?_eq_some_iff.1 hp
      have hmem : c ∈ Behaviour.childrenOf d s :=
        (Behaviour.mem_childrenOf hd).2 ⟨by rw [hd id c hc]; exact hc, by rw [hcp, hid]⟩
      refine (get?_patchAll_of_mem (List.mem_cons_of_mem _ (List.mem_map_of_mem hmem))
        (hd id c hc) ?_).trans ?_
      · intro q hq hqid
        rcases List.mem_cons.1 hq with rfl | hq
        · exact absurd hqid hhead
        · obtain ⟨c', hc', -, rfl⟩ := mem_tail_shiftPatches hd hq
          rw [hqid, hc] at hc'
          rw [Option.some.inj hc']
      · simp only [hc, hg', hp, if_true, if_false, Option.map_some]
        rfl
    · rw [get?_patchAll_of_not_mem]
      · simp [hg', hp]
      · intro hmem
        obtain ⟨q, hq, hqid⟩ := List.mem_map.1 hmem
        rcases List.mem_cons.1 hq with rfl | hq
        · exact hhead hqid
        · obtain ⟨c, -, hp', -⟩ := mem_tail_shiftPatches hd hq
          rw [hqid, hid] at hp'
          exact hp hp'

/-- **What a refit does.** The group moves by the offset, its children move back, and nothing else
    changes. -/
theorem get?_refit (hd : d.Keyed) (hshallow : d.Shallow) (g id : ShapeId) :
    (d.refit Registry.builtin g).get? id = (d.get? id).map fun s =>
      if id = g then s.moveBy ((d.refitOffset g).rotate s.rotation)
      else if d.parentId? id = some g then s.moveBy (-d.refitOffset g)
      else s := by
  unfold refit
  cases hg : d.get? g with
  | none => simp [refitOffset, hg]
  | some s =>
      rcases refit_cases hg with ⟨hnil, hzero⟩ | hpatches
      · simp [hnil, hzero]
      · simp only [hpatches]
        exact get?_shiftPatches hd hshallow hg _ id

/-! ## Page transforms -/

/-- **A refit moves nothing on the page** but the origin of the group itself. -/
theorem pageTransform?_refit (hd : d.Keyed) (hshallow : d.Shallow) (g id : ShapeId) :
    (d.refit Registry.builtin g).pageTransform? id =
      if id = g then (d.pageTransform? g).map (· * Affine.translate (d.refitOffset g))
      else d.pageTransform? id := by
  have hback : Affine.translate (d.refitOffset g) * Affine.translate (-d.refitOffset g) =
      Affine.identity := by
    rw [Affine.translate_mul_translate]
    ext <;> simp [Affine.translate, Affine.identity]
  have hshallow' := (sameTree_refit d Registry.builtin g).shallow hshallow
  refine hshallow'.pageTransform?_unique (fun id =>
    if id = g then (d.pageTransform? g).map (· * Affine.translate (d.refitOffset g))
    else d.pageTransform? id) (fun id => ?_) id
  rw [get?_refit hd hshallow, hshallow.pageTransform?_eq id, hshallow.pageTransform?_eq g]
  cases hs : d.get? id with
  | none =>
      by_cases hg : id = g
      · subst hg
        simp [hs]
      · simp [hg]
  | some s =>
      simp only [Option.map_some, Option.bind_some]
      cases hp : s.parent with
      | page =>
          have hparent := parentId?_eq_none hs hp
          by_cases hg : id = g
          · subst hg
            simp [hs, hp, Shape.localTransform_moveBy_rotate]
          · simp [hg, hparent, hp]
      | shape parent =>
          have hparent : d.parentId? id = some parent := parentId?_eq_some_iff.2 ⟨s, hs, hp⟩
          by_cases hg : id = g
          · -- the group itself: its parent stays
            subst hg
            have hne : parent ≠ id := (hshallow.ne_of_parentId? hparent).symm
            simp only [if_true, Shape.moveBy_parent, hp, hne, if_false, hs,
              Shape.localTransform_moveBy_rotate, Option.bind_some, Option.map_map]
            congr 1
            funext t
            exact Affine.mul_assoc _ _ _
          · by_cases hg' : parent = g
            · -- a child of the group: it moves back by as much as the group moves
              subst hg'
              simp only [hg, hparent, if_true, if_false, Shape.moveBy_parent, hp,
                Shape.localTransform_moveBy, ← hshallow.pageTransform?_eq parent, Option.map_map]
              congr 1
              funext t
              simp only [Function.comp_apply]
              rw [Affine.mul_assoc, ← Affine.mul_assoc _ _ s.localTransform, hback,
                Affine.identity_mul]
            · simp [hg, hparent, hg', hp]

/-- Refitting containers turns no shape and leaves every form alone. -/
theorem get?_refitAll (hd : d.Keyed) (hshallow : d.Shallow) (ids : List ShapeId) {id : ShapeId}
    {s : Shape ℝ} (hs : d.get? id = some s) :
    ∃ s', (d.refitAll Registry.builtin ids).get? id = some s' ∧ s'.kind = s.kind ∧
      s'.rotation = s.rotation ∧ s'.form = s.form := by
  induction ids generalizing d s with
  | nil => exact ⟨s, hs, rfl, rfl, rfl⟩
  | cons g ids ih =>
      have htree := sameTree_refit d Registry.builtin g
      have hget := get?_refit hd hshallow g id
      rw [hs, Option.map_some] at hget
      obtain ⟨s', hs', hkind, hrotation, hform⟩ := ih (htree.keyed hd) (htree.shallow hshallow) hget
      refine ⟨s', hs', hkind.trans ?_, hrotation.trans ?_, hform.trans ?_⟩ <;> split_ifs <;> rfl

/-- Refitting containers moves nothing on the page but the groups among them. -/
theorem pageTransform?_refitAll (hd : d.Keyed) (hshallow : d.Shallow) {ids : List ShapeId}
    {id : ShapeId} (h : id ∈ ids → ∀ s, d.get? id = some s → s.kind ≠ .group) :
    (d.refitAll Registry.builtin ids).pageTransform? id = d.pageTransform? id := by
  induction ids generalizing d with
  | nil => rfl
  | cons g ids ih =>
      have htree := sameTree_refit d Registry.builtin g
      rw [refitAll_cons, ih (htree.keyed hd) (htree.shallow hshallow),
        pageTransform?_refit hd hshallow]
      · split_ifs with hg
        · subst hg
          have hzero : d.refitOffset id = Vec.zero := by
            cases hs : d.get? id with
            | none => simp [refitOffset, hs]
            | some s => exact refitOffset_of_kind hs (h List.mem_cons_self s hs)
          simp [hzero]
        · rfl
      · intro hmem s hs
        obtain ⟨s', hs', hstem⟩ := htree.get? hs
        have hkind : s'.kind = s.kind := Shape.kind_of_stem hstem
        rw [← hkind]
        exact h (List.mem_cons_of_mem _ hmem) s' hs'

/-- Refitting containers displaces a group with something in it within its own frame, and moves
    nothing else on the page. -/
theorem exists_pageTransform?_refitAll (hd : d.Keyed) (hshallow : d.Shallow) (ids : List ShapeId)
    (id : ShapeId) :
    ∃ v : Vec ℝ, (d.refitAll Registry.builtin ids).pageTransform? id =
        (d.pageTransform? id).map (· * Affine.translate v) ∧
      (¬ d.IsGroup id ∨ d.children (.shape id) = [] → v = Vec.zero) := by
  induction ids generalizing d with
  | nil => exact ⟨Vec.zero, by simp [refitAll], fun _ => rfl⟩
  | cons g ids ih =>
      have htree := sameTree_refit d Registry.builtin g
      obtain ⟨v, hv, hzero⟩ := ih (htree.keyed hd) (htree.shallow hshallow)
      rw [htree.children_eq] at hzero
      have hzero' : ¬ d.IsGroup id ∨ d.children (.shape id) = [] → v = Vec.zero := fun h =>
        hzero (h.imp_left fun h hg => h (htree.isGroup hg))
      rw [refitAll_cons, hv, pageTransform?_refit hd hshallow]
      split_ifs with hg
      · subst hg
        refine ⟨d.refitOffset id + v, ?_, fun h => ?_⟩
        · rw [Option.map_map]
          congr 1
          funext t
          rw [Function.comp_apply, Affine.mul_assoc, Affine.translate_mul_translate]
        · rw [hzero' h, refitOffset_eq_zero hd h]
          ext <;> simp [Vec.zero]
      · exact ⟨v, rfl, hzero'⟩

/-! ## Fitting the children -/

/-- The box around the children of a group starts at the group's origin, within tolerance. -/
def Fits (d : Document ℝ) (g : ShapeId) : Prop :=
  ∀ s, d.get? g = some s → s.kind = .group → d.children (.shape g) ≠ [] →
    (Behaviour.groupBounds d (Registry.builtin.bounds d) s).origin.toVec.length ≤
      Scalar.coordTolerance

/-- A group with children has a box around them. -/
theorem exists_unionAll? (hd : d.Keyed) {g : ShapeId} {s : Shape ℝ} (hs : d.get? g = some s)
    (hchildren : d.children (.shape g) ≠ []) (f : Shape ℝ → Rect ℝ) :
    ∃ r, Rect.unionAll? ((Behaviour.childrenOf d s).map f) = some r := by
  obtain ⟨id, hid⟩ := List.exists_mem_of_ne_nil _ hchildren
  obtain ⟨c, hc, hcp⟩ := (mem_children_iff hd).1 hid
  have hmem : c ∈ Behaviour.childrenOf d s :=
    (Behaviour.mem_childrenOf hd).2 ⟨by rw [hd id c hc]; exact hc, by rw [hcp, hd g s hs]⟩
  cases hl : (Behaviour.childrenOf d s).map f with
  | nil =>
      rw [List.map_eq_nil_iff] at hl
      rw [hl] at hmem
      exact absurd hmem List.not_mem_nil
  | cons r rs => exact ⟨_, rfl⟩

/-- What lies strictly inside a child of the group is not changed by refitting the group. -/
theorem get?_refit_of_mem_ancestors (hd : d.Keyed) (hshallow : d.Shallow) {g c id : ShapeId}
    (hne : c ≠ g) (hc : c ∉ d.ancestors g) (hid : c ∈ d.ancestors id) :
    (d.refit Registry.builtin g).get? id = d.get? id := by
  have hg : id ≠ g := by
    rintro rfl
    exact hc hid
  have hparent : d.parentId? id ≠ some g := by
    intro hp
    rw [hshallow.ancestors_eq_cons hp, List.mem_cons] at hid
    exact hid.elim hne hc
  rw [get?_refit hd hshallow]
  simp [hg, hparent]

/-- The children of a group that was refitted have moved back. -/
theorem childrenOf_refit (hd : d.Keyed) (hshallow : d.Shallow) {g : ShapeId} {s s' : Shape ℝ}
    (hs : s.id = g) (hs' : s'.id = g) :
    Behaviour.childrenOf (d.refit Registry.builtin g) s' =
      (Behaviour.childrenOf d s).map (·.moveBy (-d.refitOffset g)) := by
  rw [Behaviour.childrenOf, Behaviour.childrenOf, hs, hs',
    (sameTree_refit d Registry.builtin g).children_eq, List.map_filterMap]
  refine List.filterMap_congr fun id hid => ?_
  have hp := (mem_children_shape_iff hd).1 hid
  have hne : id ≠ g := hshallow.ne_of_parentId? hp
  rw [get?_refit hd hshallow]
  simp [hne, hp]

/-- The bounds of a child, in its own frame, are not changed by refitting the group. -/
theorem bounds_refit_child (hd : d.Keyed) (hshallow : d.Shallow) {g : ShapeId} {c : Shape ℝ}
    (hp : d.parentId? c.id = some g) (v : Vec ℝ) :
    Registry.builtin.bounds (d.refit Registry.builtin g) (c.moveBy v) =
      Registry.builtin.bounds d c := by
  have htree := sameTree_refit d Registry.builtin g
  have hmem : c.id ∉ d.ancestors g := by
    intro hmem
    have := hshallow.depth_lt_of_mem_ancestors hmem
    rw [hshallow.depth_eq_succ hp] at this
    omega
  have hbelow : ∀ id parent, d.parentId? id = some parent → c.id ∈ d.ancestors parent →
      c.id ∈ d.ancestors id := fun id parent hp hmem =>
    hshallow.mem_ancestors_iff.2 ⟨parent, hp, Or.inr hmem⟩
  rw [Registry.bounds, Registry.bounds, htree.size_eq]
  -- the child itself has moved, but what is inside it has not
  refine (Registry.boundsWithin_congr htree.symm hd hbelow (fun id hid => ?_) _ ?_ ?_ ?_
    fun id hp => ?_).symm
  · exact (get?_refit_of_mem_ancestors hd hshallow (hshallow.ne_of_parentId? hp) hmem hid).symm
  · rfl
  · rfl
  · rfl
  · exact hshallow.mem_ancestors_iff.2 ⟨c.id, hp, Or.inl rfl⟩

/-- The children of a group that was refitted, with their bounds. -/
theorem map_bounds_childrenOf_refit (hd : d.Keyed) (hshallow : d.Shallow) {g : ShapeId}
    {s s' : Shape ℝ} (hs : s.id = g) (hs' : s'.id = g) :
    ((Behaviour.childrenOf (d.refit Registry.builtin g) s').map fun c =>
      (Registry.builtin.bounds (d.refit Registry.builtin g) c).transformedBounds c.localTransform) =
    ((Behaviour.childrenOf d s).map fun c =>
      (Registry.builtin.bounds d c).transformedBounds c.localTransform).map
        fun r => (r + -d.refitOffset g : Rect ℝ) := by
  rw [childrenOf_refit hd hshallow hs hs', List.map_map, List.map_map]
  refine List.map_congr_left fun c hc => ?_
  obtain ⟨hget, hcp⟩ := (Behaviour.mem_childrenOf hd).1 hc
  rw [hs] at hcp
  simp only [Function.comp_apply]
  rw [bounds_refit_child hd hshallow (parentId?_eq_some_iff.2 ⟨c, hget, hcp⟩),
    Shape.localTransform_moveBy, Rect.transformedBounds_translate]

/-- **A group that was refitted fits its children.** -/
theorem fits_refit (hd : d.Keyed) (hshallow : d.Shallow) (g : ShapeId) :
    (d.refit Registry.builtin g).Fits g := by
  intro s' hs' hkind hchildren
  have htree := sameTree_refit d Registry.builtin g
  obtain ⟨s, hs, hstem⟩ := htree.get? hs'
  have hk : s.kind = .group := (Shape.kind_of_stem hstem).trans hkind
  have hid' : s'.id = g := htree.keyed hd g s' hs'
  rw [htree.children_eq] at hchildren
  obtain ⟨r, hr⟩ := exists_unionAll? hd hs hchildren fun c =>
    (Registry.builtin.bounds d c).transformedBounds c.localTransform
  have hold : Behaviour.groupBounds d (Registry.builtin.bounds d) s = r := by
    rw [Behaviour.groupBounds, hr]
    rfl
  have hnew : Behaviour.groupBounds (d.refit Registry.builtin g)
      (Registry.builtin.bounds (d.refit Registry.builtin g)) s' = r + -d.refitOffset g := by
    rw [Behaviour.groupBounds, map_bounds_childrenOf_refit hd hshallow (hd g s hs) hid',
      Rect.unionAll?_map_add, hr]
    rfl
  rw [hnew]
  by_cases hsmall : r.origin.toVec.length ≤ Scalar.coordTolerance
  · -- the group fitted already, and did not move
    have hzero : d.refitOffset g = Vec.zero := by simp [refitOffset, hs, hold, hsmall]
    have hsame : (r + -d.refitOffset g : Rect ℝ) = r := by
      rw [hzero]
      ext <;> simp [Vec.zero]
    rw [hsame]
    exact hsmall
  · have hoffset : d.refitOffset g = r.origin.toVec := by
      simp [refitOffset, hs, hold, hsmall, hk, hd g s hs, hchildren]
    have horigin : (r + -d.refitOffset g : Rect ℝ).origin.toVec = Vec.zero := by
      rw [hoffset]
      ext <;> simp [Rect.origin, Point.toVec, Vec.zero]
    rw [horigin]
    show Real.sqrt ((0 : ℝ) * 0 + 0 * 0) ≤ Scalar.coordTolerance
    simpa using Scalar.coordTolerance_pos.le

/-- A group goes on to fit its children while a container is refitted that is not inside it. -/
theorem Fits.refit (hd : d.Keyed) (hshallow : d.Shallow) {g g' : ShapeId} (h : d.Fits g)
    (hne : g ≠ g') (hg : g ∉ d.ancestors g') : (d.refit Registry.builtin g').Fits g := by
  intro s' hs' hkind hchildren
  -- what is inside the group is the same before and after, and the bounds read nothing else
  have htree := sameTree_refit d Registry.builtin g'
  obtain ⟨s, hs, hstem⟩ := htree.get? hs'
  have hk : s.kind = .group := (Shape.kind_of_stem hstem).trans hkind
  have hid : s.id = g := hd g s hs
  have hinside : ∀ id, g ∈ d.ancestors id →
      d.get? id = (d.refit Registry.builtin g').get? id := fun id hmem =>
    (get?_refit_of_mem_ancestors hd hshallow hne hg hmem).symm
  have hchild : ∀ id, d.parentId? id = some s.id → g ∈ d.ancestors id := fun id hp =>
    hshallow.mem_ancestors_iff.2 ⟨s.id, hp, Or.inl hid.symm⟩
  have hbelow : ∀ id parent, d.parentId? id = some parent → g ∈ d.ancestors parent →
      g ∈ d.ancestors id := fun id parent hp hmem =>
    hshallow.mem_ancestors_iff.2 ⟨parent, hp, Or.inr hmem⟩
  have hbounds : Behaviour.groupBounds d (Registry.builtin.bounds d) s =
      Behaviour.groupBounds (d.refit Registry.builtin g')
        (Registry.builtin.bounds (d.refit Registry.builtin g')) s' := by
    refine Behaviour.groupBounds_congr htree.symm hd ?_ (fun id hp => hinside id (hchild id hp)) ?_
    · exact Shape.id_of_stem hstem
    · intro c hc
      obtain ⟨hget, hparent⟩ := (Behaviour.mem_childrenOf hd).1 hc
      have hmem := hchild c.id (parentId?_eq_some_iff.2 ⟨c, hget, hparent⟩)
      exact Registry.bounds_congr htree.symm hd hbelow hinside fun id hp => hbelow id c.id hp hmem
  rw [← hbounds]
  rw [htree.children_eq] at hchildren
  exact h s hs hk hchildren

theorem Fits.refitAll (hd : d.Keyed) (hshallow : d.Shallow) {g : ShapeId} {ids : List ShapeId}
    (h : d.Fits g) (hids : ∀ id ∈ ids, g ≠ id ∧ d.depth id ≤ d.depth g) :
    (d.refitAll Registry.builtin ids).Fits g := by
  induction ids generalizing d with
  | nil => exact h
  | cons id ids ih =>
      have htree := sameTree_refit d Registry.builtin id
      obtain ⟨hne, hdepth⟩ := hids id List.mem_cons_self
      have hmem : g ∉ d.ancestors id := by
        intro hmem
        have := hshallow.depth_lt_of_mem_ancestors hmem
        omega
      refine ih (htree.keyed hd) (htree.shallow hshallow) (h.refit hd hshallow hne hmem) ?_
      intro id' hid'
      rw [htree.depth_eq, htree.depth_eq]
      exact hids id' (List.mem_cons_of_mem _ hid')

/-- **Deepest first is the right order**: when all containers have been refitted, all of them fit
    their children. -/
theorem fits_refitAll (hd : d.Keyed) (hshallow : d.Shallow) {ids : List ShapeId}
    (hnodup : ids.Nodup) (hids : ids.Pairwise fun a b => d.depth b ≤ d.depth a) {g : ShapeId}
    (hg : g ∈ ids) : (d.refitAll Registry.builtin ids).Fits g := by
  induction ids generalizing d with
  | nil => exact absurd hg List.not_mem_nil
  | cons id ids ih =>
      have htree := sameTree_refit d Registry.builtin id
      obtain ⟨hnotMem, hnodup⟩ := List.nodup_cons.1 hnodup
      obtain ⟨hfirst, hrest⟩ := List.pairwise_cons.1 hids
      rw [refitAll_cons]
      rcases List.mem_cons.1 hg with rfl | hg
      · refine (fits_refit hd hshallow g).refitAll (htree.keyed hd) (htree.shallow hshallow) ?_
        intro id hid
        rw [htree.depth_eq, htree.depth_eq]
        exact ⟨fun h => hnotMem (h ▸ hid), hfirst id hid⟩
      · refine ih (htree.keyed hd) (htree.shallow hshallow) hnodup ?_ hg
        simp only [htree.depth_eq]
        exact hrest

theorem Agree.fits (h : d.Agree d') (hd : d.Keyed) {g : ShapeId} (hfits : d.Fits g) :
    d'.Fits g := by
  intro s hs hkind hchildren
  rw [← h g] at hs
  rw [← h.sameTree.children_eq] at hchildren
  have hbounds : Behaviour.groupBounds d (Registry.builtin.bounds d) s =
      Behaviour.groupBounds d' (Registry.builtin.bounds d') s := by
    refine Behaviour.groupBounds_congr h.sameTree hd rfl (fun id _ => h id) fun c _ => ?_
    exact Registry.bounds_congr h.sameTree hd (fun _ _ _ _ => trivial) (fun id _ => h id)
      fun _ _ => trivial
  rw [← hbounds]
  exact hfits s hs hkind hchildren

/-- Whether a shape is a group with an updated shape somewhere inside. -/
def IsGroupAround (d : Document ℝ) (updates : List (Patch ℝ)) (id : ShapeId) : Prop :=
  (∃ s, d.get? id = some s ∧ s.kind = .group) ∧
    ∃ u ∈ updates, d.contains u.id = true ∧ id ∈ d.ancestors u.id

end Document

/-- **Refitting restores the groups and moves nothing on the page.** Compared with the bare updates,
    a batch in which the containers have reacted leaves every shape where it is on the page, but for
    the groups around the updated shapes; and every such group that has children starts where the box
    around their bounds, in its own frame, starts. -/
theorem Store.commit_fits (store : Store ℝ) (updates : List (Patch ℝ))
    (hkeyed : store.document.Keyed) (hshallow : store.document.Shallow) :
    let a := (store.update updates).document
    let b := (store.update (Canvas.batch ⟨store.document, Registry.builtin⟩ updates)).document
    (∀ id, ¬ store.document.IsGroupAround updates id → b.pageTransform? id = a.pageTransform? id) ∧
    ∀ g, store.document.IsGroupAround updates g → b.children (.shape g) ≠ [] →
      ∃ s r, b.get? g = some s ∧
        Rect.unionAll? ((Behaviour.childrenOf b s).map fun c =>
          (Registry.builtin.bounds b c).transformedBounds c.localTransform) = some r ∧
        r.origin.distance Point.origin ≤ Scalar.coordTolerance := by
  intro a b
  have ha : a.Agree (store.document.patchAll updates) := store.update_agree updates
  have hb : b.Agree (store.document.settle Registry.builtin updates) :=
    store.commit_agree Registry.builtin updates
  have htree := Document.sameTree_patchAll store.document updates
  have hmem : ∀ g, g ∈ store.document.containers (store.document.reached updates) ↔
      ∃ u ∈ updates, store.document.contains u.id = true ∧ g ∈ store.document.ancestors u.id := by
    intro g
    rw [hshallow.mem_containers]
    simp only [Document.mem_reached_iff, List.mem_map]
    constructor
    · rintro ⟨_, ⟨⟨u, hu, rfl⟩, hc⟩, hg⟩
      exact ⟨u, hu, hc, hg⟩
    · rintro ⟨u, hu, hc, hg⟩
      exact ⟨u.id, ⟨⟨u, hu, rfl⟩, hc⟩, hg⟩
  constructor
  · intro id hid
    rw [hb.pageTransform?_eq, ha.pageTransform?_eq, Document.settle]
    refine Document.pageTransform?_refitAll (htree.keyed hkeyed) (htree.shallow hshallow) ?_
    intro hcontainer s hs hkind
    obtain ⟨s', hs', hstem⟩ := htree.get? hs
    have hkind' : s'.kind = .group := (Shape.kind_of_stem hstem).trans hkind
    exact hid ⟨⟨s', hs', hkind'⟩, (hmem id).1 hcontainer⟩
  · intro g hg hchildren
    obtain ⟨⟨s₀, hs₀, hkind₀⟩, haround⟩ := hg
    have hsorted := hshallow.pairwise_containers (store.document.reached updates)
    simp only [← htree.depth_eq] at hsorted
    have hfits : b.Fits g := by
      refine hb.symm.fits ((Document.sameTree_settle _ _ _).keyed hkeyed) ?_
      exact Document.fits_refitAll (htree.keyed hkeyed) (htree.shallow hshallow)
        (Document.nodup_containers _ _) hsorted ((hmem g).2 haround)
    have hbtree : b.SameTree store.document := store.update_sameTree _
    obtain ⟨s, hs, hstem⟩ := hbtree.symm.get? hs₀
    obtain ⟨r, hr⟩ := Document.exists_unionAll? (hbtree.keyed hkeyed) hs hchildren fun c =>
      (Registry.builtin.bounds b c).transformedBounds c.localTransform
    refine ⟨s, r, hs, hr, ?_⟩
    have hbound := hfits s hs ((Shape.kind_of_stem hstem).trans hkind₀) hchildren
    rw [Behaviour.groupBounds, hr] at hbound
    have hvec : r.origin - (Point.origin : Point ℝ) = r.origin.toVec := by
      ext <;> simp [Point.origin, Point.toVec]
    rw [Point.distance, hvec]
    exact hbound

/-- A rectangle in a turned group is moved out to the lower right: it stays there, and the group
    follows it. -/
theorem Store.commit_fits_moved_rectangle :
    let d : Document ℝ := (Document.empty.put ((Shape.group 1 5 5).withRotation 2)).put
      ((Shape.rectangle 2 0 0 10 10).withParent (.shape 1))
    let updates : List (Patch ℝ) := [Patch.position 2 30 40]
    let a := (Store.update ⟨d, []⟩ updates).document
    let b := (Store.update ⟨d, []⟩ (Canvas.batch ⟨d, Registry.builtin⟩ updates)).document
    d.Keyed ∧ d.Shallow ∧ b.pageTransform? 2 = a.pageTransform? 2 ∧
      ∃ s r, b.get? 1 = some s ∧
        Rect.unionAll? ((Behaviour.childrenOf b s).map fun c =>
          (Registry.builtin.bounds b c).transformedBounds c.localTransform) = some r ∧
        r.origin.distance Point.origin ≤ Scalar.coordTolerance := by
  intro d updates a b
  have hancestors : d.ancestors 2 = [1] := by clear a b updates; decide +kernel +revert
  have hchildren : d.children (.shape 1) = [2] := by
    clear hancestors a b updates
    decide +kernel +revert
  have hkeyed : d.Keyed := (Document.keyed_empty.put _).put _
  have hshallow : d.Shallow := Document.shallow_put_put rfl rfl (by decide)
  obtain ⟨hplace, hfits⟩ := Store.commit_fits ⟨d, []⟩ updates hkeyed hshallow
  refine ⟨hkeyed, hshallow, hplace 2 ?_, hfits 1 ?_ ?_⟩
  · rintro ⟨-, u, hu, -, hmem⟩
    rw [List.mem_singleton.1 hu] at hmem
    exact hshallow.not_mem_ancestors_self 2 hmem
  · refine ⟨⟨(Shape.group 1 5 5).withRotation 2, rfl, rfl⟩, _, List.mem_singleton.2 rfl, rfl, ?_⟩
    show 1 ∈ d.ancestors 2
    rw [hancestors]
    exact List.mem_singleton.2 rfl
  · have htree : b.SameTree d := Store.update_sameTree ⟨d, []⟩ _
    show b.children (.shape 1) ≠ []
    rw [htree.children_eq, hchildren]
    exact List.cons_ne_nil _ _

end CanvasTransform
