import CanvasTransform.Proofs.Document.View
import CanvasTransform.Transform.Batch
import Mathlib.Tactic.SplitIfs

set_option autoImplicit false

/-! # Chains of parents

A document is `Shallow` when no chain of parents is longer than queries follow. Then every walk
upward is complete: the ancestors of a shape are its parent and the ancestors of that
(`Shallow.ancestors_eq_cons`), ancestry is transitive, nothing is its own ancestor, and the number of
ancestors is a depth that grows by one from parent to child.

The containers of some shapes, in the order in which a batch lets them react, are then exactly the
ancestors of the shapes, each once, deepest first. -/

namespace CanvasTransform.Document

variable {α : Type} {d d' : Document α}

/-! ## Walks depend on the tree alone -/

theorem SameTree.parentId?_eq (h : d.SameTree d') (id : ShapeId) :
    d.parentId? id = d'.parentId? id := by
  have hparent : ∀ o : Option (Shape α), o.bind (·.parent.shapeId?) =
      (o.map Shape.stem).bind (·.2.2.1.shapeId?) := by
    intro o
    cases o <;> rfl
  rw [parentId?, parentId?, hparent, hparent, h id]

theorem SameTree.ancestorsWithin_eq (h : d.SameTree d') (n : Nat) (id : ShapeId) :
    d.ancestorsWithin n id = d'.ancestorsWithin n id := by
  induction n generalizing id with
  | zero => rfl
  | succ n ih =>
      rw [ancestorsWithin, ancestorsWithin, h.parentId?_eq id]
      cases d'.parentId? id with
      | none => rfl
      | some parent => exact congrArg (parent :: ·) (ih parent)

theorem SameTree.ancestors_eq (h : d.SameTree d') (id : ShapeId) :
    d.ancestors id = d'.ancestors id := h.ancestorsWithin_eq maxDepth id

theorem parentId?_eq_some_iff {id parent : ShapeId} :
    d.parentId? id = some parent ↔ ∃ s, d.get? id = some s ∧ s.parent = .shape parent := by
  rw [parentId?, Option.bind_eq_some_iff]
  constructor
  · rintro ⟨s, hs, hp⟩
    refine ⟨s, hs, ?_⟩
    cases hparent : s.parent with
    | page => rw [hparent] at hp; exact absurd hp (by simp [Parent.shapeId?])
    | shape p => rw [hparent] at hp; exact congrArg Parent.shape (Option.some.inj hp)
  · rintro ⟨s, hs, hp⟩
    exact ⟨s, hs, by rw [hp]; rfl⟩

theorem parentId?_eq_none {id : ShapeId} {s : Shape α} (hs : d.get? id = some s)
    (hp : s.parent = .page) : d.parentId? id = none := by
  simp [parentId?, hs, hp, Parent.shapeId?]

theorem mem_children_shape_iff (hd : d.Keyed) {id parent : ShapeId} :
    id ∈ d.children (.shape parent) ↔ d.parentId? id = some parent :=
  (mem_children_iff hd).trans parentId?_eq_some_iff.symm

/-! ## Shallow documents -/

/-- No chain of parents is longer than queries follow: a shape together with what lies above it makes
    at most `maxDepth` shapes. In particular no chain of parents returns to where it started. -/
def Shallow (d : Document α) : Prop := ∀ id, (d.ancestors id).length < maxDepth

/-- The number of shapes above a shape. -/
def depth (d : Document α) (id : ShapeId) : Nat := (d.ancestors id).length

theorem SameTree.shallow (h : d.SameTree d') (hd : d'.Shallow) : d.Shallow := fun id => by
  rw [h.ancestors_eq]; exact hd id

theorem SameTree.depth_eq (h : d.SameTree d') (id : ShapeId) : d.depth id = d'.depth id := by
  rw [depth, depth, h.ancestors_eq]

/-- A walk that stops before its bound is not changed by a higher bound. -/
theorem ancestorsWithin_succ_of_length_lt {n : Nat} {id : ShapeId}
    (h : (d.ancestorsWithin n id).length < n) :
    d.ancestorsWithin (n + 1) id = d.ancestorsWithin n id := by
  induction n generalizing id with
  | zero => exact absurd h (Nat.not_lt_zero _)
  | succ n ih =>
      rw [ancestorsWithin, ancestorsWithin]
      unfold ancestorsWithin at h
      cases hp : d.parentId? id with
      | none => rfl
      | some parent =>
          rw [hp] at h
          have : (d.ancestorsWithin n parent).length < n := by simpa using h
          exact congrArg (parent :: ·) (ih this)

theorem ancestors_eq_nil {id : ShapeId} (h : d.parentId? id = none) : d.ancestors id = [] := by
  rw [ancestors, maxDepth, ancestorsWithin, h]

/-- A document is shallow if every shape hangs from the page, or from a shape that does. -/
theorem shallow_of_flat (h : ∀ id parent, d.parentId? id = some parent → d.parentId? parent = none) :
    d.Shallow := by
  intro id
  cases hp : d.parentId? id with
  | none => rw [ancestors_eq_nil hp]; decide
  | some parent =>
      simp only [ancestors, maxDepth, ancestorsWithin, hp, h id parent hp, List.length_singleton]
      decide

/-- It is enough to look at the shapes of the document, since nothing else has a parent. -/
theorem Keyed.shallow (hd : d.Keyed)
    (h : ∀ s ∈ d.toList, (d.ancestors s.id).length < maxDepth) : d.Shallow := by
  intro id
  cases hs : d.get? id with
  | none =>
      have hp : d.parentId? id = none := by rw [parentId?, hs, Option.bind_none]
      rw [ancestors_eq_nil hp]
      decide
  | some s =>
      have hid := hd id s hs
      rw [← hid]
      exact h s ((mem_toList_iff hd).2 (by rw [hid]; exact hs))

/-- A shape on the page, alone. -/
theorem shallow_put {s : Shape α} (hs : s.parent = .page) : (empty.put s).Shallow := by
  refine shallow_of_flat fun id parent hp => ?_
  obtain ⟨u, hu, hparent⟩ := parentId?_eq_some_iff.1 hp
  rw [get?_put, get?_empty] at hu
  split_ifs at hu
  obtain rfl := Option.some.inj hu
  rw [hs] at hparent
  exact nomatch hparent

/-- A shape on the page and one in it. -/
theorem shallow_put_put {s t : Shape α} (hs : s.parent = .page) (ht : t.parent = .shape s.id)
    (hne : t.id ≠ s.id) : ((empty.put s).put t).Shallow := by
  refine shallow_of_flat fun id parent hp => ?_
  obtain ⟨u, hu, hparent⟩ := parentId?_eq_some_iff.1 hp
  rw [get?_put, get?_put, get?_empty] at hu
  split_ifs at hu
  · obtain rfl := Option.some.inj hu
    rw [ht] at hparent
    obtain rfl := Parent.shape.inj hparent
    simp [parentId?, get?_put, hne, hs, Parent.shapeId?]
  · obtain rfl := Option.some.inj hu
    rw [hs] at hparent
    exact nomatch hparent

theorem ancestors_eq_cons_within {id parent : ShapeId} (h : d.parentId? id = some parent) :
    d.ancestors id = parent :: d.ancestorsWithin 255 parent := by
  rw [ancestors, maxDepth, ancestorsWithin, h]

/-- Below the bound, there is room above a parent for one more. -/
theorem Shallow.length_ancestorsWithin_lt (hd : d.Shallow) {id parent : ShapeId}
    (h : d.parentId? id = some parent) : (d.ancestorsWithin 255 parent).length < 255 := by
  have hlen := hd id
  rw [ancestors_eq_cons_within h, List.length_cons, maxDepth] at hlen
  omega

theorem Shallow.ancestors_eq_cons (hd : d.Shallow) {id parent : ShapeId}
    (h : d.parentId? id = some parent) : d.ancestors id = parent :: d.ancestors parent := by
  rw [ancestors_eq_cons_within h]
  exact congrArg (parent :: ·)
    (ancestorsWithin_succ_of_length_lt (hd.length_ancestorsWithin_lt h)).symm

theorem Shallow.depth_eq_succ (hd : d.Shallow) {id parent : ShapeId}
    (h : d.parentId? id = some parent) : d.depth id = d.depth parent + 1 := by
  rw [depth, hd.ancestors_eq_cons h, List.length_cons, depth]

theorem Shallow.mem_ancestors_iff (hd : d.Shallow) {a id : ShapeId} :
    a ∈ d.ancestors id ↔
      ∃ parent, d.parentId? id = some parent ∧ (a = parent ∨ a ∈ d.ancestors parent) := by
  constructor
  · intro h
    cases hp : d.parentId? id with
    | none => rw [ancestors_eq_nil hp] at h; exact absurd h List.not_mem_nil
    | some parent =>
        rw [hd.ancestors_eq_cons hp] at h
        exact ⟨parent, rfl, List.mem_cons.1 h⟩
  · rintro ⟨parent, hp, h⟩
    rw [hd.ancestors_eq_cons hp]
    exact List.mem_cons.2 h

/-- Induction from a shape to its parent, which ends because the number of ancestors falls. -/
theorem Shallow.induction (hd : d.Shallow) {P : ShapeId → Prop}
    (step : ∀ id, (∀ parent, d.parentId? id = some parent → P parent) → P id) (id : ShapeId) :
    P id := by
  generalize hn : d.depth id = n
  induction n generalizing id with
  | zero =>
      refine step id fun parent hp => ?_
      rw [hd.depth_eq_succ hp] at hn
      exact absurd hn (Nat.succ_ne_zero _)
  | succ n ih =>
      refine step id fun parent hp => ih parent ?_
      rw [hd.depth_eq_succ hp] at hn
      exact Nat.succ.inj hn

/-- What lies above an ancestor lies above the shape, right behind the ancestor in the list. -/
theorem Shallow.ancestors_suffix (hd : d.Shallow) {a id : ShapeId} (h : a ∈ d.ancestors id) :
    a :: d.ancestors a <:+ d.ancestors id := by
  induction id using hd.induction with
  | step id ih =>
      obtain ⟨parent, hp, rfl | ha⟩ := hd.mem_ancestors_iff.1 h
      · exact (hd.ancestors_eq_cons hp).symm ▸ List.suffix_refl _
      · rw [hd.ancestors_eq_cons hp]
        exact (ih parent hp ha).trans (List.suffix_cons _ _)

theorem Shallow.mem_ancestors_trans (hd : d.Shallow) {a b id : ShapeId}
    (hab : a ∈ d.ancestors b) (hb : b ∈ d.ancestors id) : a ∈ d.ancestors id :=
  (hd.ancestors_suffix hb).subset (List.mem_cons_of_mem _ hab)

/-- An ancestor is less deep. -/
theorem Shallow.depth_lt_of_mem_ancestors (hd : d.Shallow) {a id : ShapeId}
    (h : a ∈ d.ancestors id) : d.depth a < d.depth id := by
  have := (hd.ancestors_suffix h).length_le
  rwa [List.length_cons] at this

theorem Shallow.not_mem_ancestors_self (hd : d.Shallow) (id : ShapeId) : id ∉ d.ancestors id :=
  fun h => Nat.lt_irrefl _ (hd.depth_lt_of_mem_ancestors h)

theorem Shallow.ne_of_parentId? (hd : d.Shallow) {id parent : ShapeId}
    (h : d.parentId? id = some parent) : id ≠ parent := by
  rintro rfl
  exact hd.not_mem_ancestors_self id (hd.mem_ancestors_iff.2 ⟨id, h, Or.inl rfl⟩)

/-! ## Inside a shape -/

/-- Whether `id` is the shape `g` or lies inside it, at any depth. -/
def Inside (d : Document α) (g id : ShapeId) : Prop := id = g ∨ g ∈ d.ancestors id

theorem SameTree.inside_iff (h : d.SameTree d') {g id : ShapeId} :
    d.Inside g id ↔ d'.Inside g id := by
  rw [Inside, Inside, h.ancestors_eq]

theorem Shallow.inside_of_parentId? (hd : d.Shallow) {g id parent : ShapeId}
    (hp : d.parentId? id = some parent) (h : d.Inside g parent) : d.Inside g id :=
  Or.inr (hd.mem_ancestors_iff.2 ⟨parent, hp, h.imp_left Eq.symm⟩)

/-- What lies above something inside a shape is inside the shape too, or lies above it. -/
theorem Shallow.inside_or_above (hd : d.Shallow) {g a id : ShapeId} (ha : a ∈ d.ancestors id)
    (h : d.Inside g id) : d.Inside g a ∨ a ∈ d.ancestors g := by
  induction id using hd.induction with
  | step id ih =>
      obtain rfl | hg := h
      · exact Or.inr ha
      · obtain ⟨parent, hp, hor⟩ := hd.mem_ancestors_iff.1 hg
        obtain ⟨parent', hp', rfl | ha⟩ := hd.mem_ancestors_iff.1 ha
        · obtain rfl := Option.some.inj (hp.symm.trans hp')
          exact Or.inl (hor.imp_left Eq.symm)
        · obtain rfl := Option.some.inj (hp.symm.trans hp')
          exact ih parent hp ha (hor.imp_left Eq.symm)

/-- Shapes of the same depth have nothing inside in common. -/
theorem Shallow.eq_of_inside (hd : d.Shallow) {g₁ g₂ id : ShapeId} (hdepth : d.depth g₁ = d.depth g₂)
    (h₁ : d.Inside g₁ id) (h₂ : d.Inside g₂ id) : g₁ = g₂ := by
  -- both lie on the chain of parents of `id`, where each depth occurs once
  induction id using hd.induction with
  | step id ih =>
      rcases h₁ with rfl | h₁
      · rcases h₂ with rfl | h₂
        · rfl
        · exact absurd (hd.depth_lt_of_mem_ancestors h₂) (by omega)
      · rcases h₂ with rfl | h₂
        · exact absurd (hd.depth_lt_of_mem_ancestors h₁) (by omega)
        · obtain ⟨parent, hp, h₁⟩ := hd.mem_ancestors_iff.1 h₁
          obtain ⟨parent', hp', h₂⟩ := hd.mem_ancestors_iff.1 h₂
          rw [hp] at hp'
          obtain rfl := Option.some.inj hp'
          exact ih parent hp (h₁.imp_left Eq.symm) (h₂.imp_left Eq.symm)

theorem Inside.refl (d : Document α) (id : ShapeId) : d.Inside id id := Or.inl rfl

theorem Shallow.inside_trans (hd : d.Shallow) {a b id : ShapeId} (hab : d.Inside a b)
    (hb : d.Inside b id) : d.Inside a id := by
  rcases hb with rfl | hb
  · exact hab
  · rcases hab with rfl | hab
    · exact Or.inr hb
    · exact Or.inr (hd.mem_ancestors_trans hab hb)

/-- Of two shapes around a third one, one lies inside the other. -/
theorem Shallow.inside_total (hd : d.Shallow) {a b id : ShapeId} (ha : d.Inside a id)
    (hb : d.Inside b id) : d.Inside a b ∨ d.Inside b a := by
  rcases ha with rfl | ha
  · exact Or.inr hb
  · exact (hd.inside_or_above ha hb).symm.imp_left Or.inr

theorem Shallow.not_inside_parent (hd : d.Shallow) {id parent : ShapeId}
    (hp : d.parentId? id = some parent) : ¬ d.Inside id parent := by
  rintro (heq | hmem)
  · exact hd.ne_of_parentId? hp heq.symm
  · have hlt := hd.depth_lt_of_mem_ancestors hmem
    rw [hd.depth_eq_succ hp] at hlt
    omega

/-- Neither shape lies inside the other. -/
def Apart (d : Document α) (a b : ShapeId) : Prop := ¬ d.Inside a b ∧ ¬ d.Inside b a

theorem Apart.symm {a b : ShapeId} (h : d.Apart a b) : d.Apart b a := ⟨h.2, h.1⟩

/-- What lies inside shapes that are apart is apart. -/
theorem Shallow.apart_of_inside (hd : d.Shallow) {a b x y : ShapeId} (h : d.Apart a b)
    (hx : d.Inside a x) (hy : d.Inside b y) : d.Apart x y := by
  have hnot : ∀ z, d.Inside a z → d.Inside b z → False := fun z ha hb =>
    (hd.inside_total ha hb).elim h.1 h.2
  exact ⟨fun hxy => hnot y (hd.inside_trans hx hxy) hy,
    fun hyx => hnot x hx (hd.inside_trans hy hyx)⟩

/-- Different children of one shape are apart. -/
theorem Shallow.apart_of_parentId? (hd : d.Shallow) {a b parent : ShapeId}
    (ha : d.parentId? a = some parent) (hb : d.parentId? b = some parent) (hne : a ≠ b) :
    d.Apart a b := by
  have hdepth : d.depth a = d.depth b := by rw [hd.depth_eq_succ ha, hd.depth_eq_succ hb]
  exact ⟨fun h => hne (hd.eq_of_inside hdepth h (Inside.refl d b)),
    fun h => hne (hd.eq_of_inside hdepth (Inside.refl d a) h)⟩

/-! ## Downward -/

/-- What lies above a shape lies above it by way of a child. -/
theorem Shallow.mem_ancestors_iff_child (hd : d.Shallow) {a id : ShapeId} :
    a ∈ d.ancestors id ↔
      ∃ child, d.parentId? child = some a ∧ (id = child ∨ child ∈ d.ancestors id) := by
  constructor
  · intro h
    induction id using hd.induction with
    | step id ih =>
        obtain ⟨parent, hp, rfl | ha⟩ := hd.mem_ancestors_iff.1 h
        · exact ⟨id, hp, Or.inl rfl⟩
        · obtain ⟨child, hchild, rfl | hmem⟩ := ih parent hp ha
          · exact ⟨parent, hchild, Or.inr (hd.mem_ancestors_iff.2 ⟨parent, hp, Or.inl rfl⟩)⟩
          · exact ⟨child, hchild, Or.inr (hd.mem_ancestors_iff.2 ⟨parent, hp, Or.inr hmem⟩)⟩
  · rintro ⟨child, hchild, rfl | hmem⟩
    · exact hd.mem_ancestors_iff.2 ⟨a, hchild, Or.inl rfl⟩
    · exact hd.mem_ancestors_trans (hd.mem_ancestors_iff.2 ⟨a, hchild, Or.inl rfl⟩) hmem

theorem Shallow.mem_below_iff (hd : d.Shallow) (hkeyed : d.Keyed) (n : Nat) {a id : ShapeId} :
    id ∈ d.below n a ↔ a ∈ d.ancestors id ∧ d.depth id ≤ d.depth a + n := by
  -- each level of the walk is one step of depth, so the bound is a bound on the depth
  induction n generalizing a with
  | zero =>
      refine iff_of_false List.not_mem_nil ?_
      rintro ⟨hmem, hle⟩
      have := hd.depth_lt_of_mem_ancestors hmem
      omega
  | succ n ih =>
      simp only [below, List.mem_flatMap, mem_children_shape_iff hkeyed, List.mem_cons, ih]
      constructor
      · rintro ⟨child, hchild, rfl | ⟨hmem, hle⟩⟩
        · refine ⟨hd.mem_ancestors_iff_child.2 ⟨id, hchild, Or.inl rfl⟩, ?_⟩
          rw [hd.depth_eq_succ hchild]
          omega
        · refine ⟨hd.mem_ancestors_iff_child.2 ⟨child, hchild, Or.inr hmem⟩, ?_⟩
          rw [hd.depth_eq_succ hchild] at hle
          omega
      · rintro ⟨hmem, hle⟩
        obtain ⟨child, hchild, hor⟩ := hd.mem_ancestors_iff_child.1 hmem
        refine ⟨child, hchild, hor.imp_right fun hmem => ⟨hmem, ?_⟩⟩
        rw [hd.depth_eq_succ hchild]
        omega

/-- The descendants of a shape are the shapes that it is an ancestor of. -/
theorem Shallow.mem_descendants_iff (hd : d.Shallow) (hkeyed : d.Keyed) {a id : ShapeId} :
    id ∈ d.descendants a ↔ a ∈ d.ancestors id := by
  have hdepth : d.depth id < maxDepth := hd id
  rw [descendants, hd.mem_below_iff hkeyed]
  exact and_iff_left_of_imp fun _ => by omega

/-! ## Containers, deepest first -/

/-- The containers of the given shapes in the order in which a batch lets them react. -/
def containers (d : Document α) (ids : List ShapeId) : List ShapeId :=
  (d.containersOf ids).map Prod.snd

theorem Shallow.mem_withDepth_ancestors (hd : d.Shallow) {c : Nat × ShapeId} {id : ShapeId} :
    c ∈ withDepth (d.ancestors id) ↔ c.2 ∈ d.ancestors id ∧ c.1 = d.depth c.2 := by
  induction id using hd.induction with
  | step id ih =>
      cases hp : d.parentId? id with
      | none => simp [ancestors_eq_nil hp, withDepth]
      | some parent =>
          rw [hd.ancestors_eq_cons hp, withDepth, List.mem_cons, ih parent hp, List.mem_cons]
          constructor
          · rintro (rfl | ⟨hmem, hdepth⟩)
            · exact ⟨Or.inl rfl, rfl⟩
            · exact ⟨Or.inr hmem, hdepth⟩
          · rintro ⟨heq | hmem, hdepth⟩
            · exact Or.inl (Prod.ext (by rw [hdepth, heq]; rfl) heq)
            · exact Or.inr ⟨hmem, hdepth⟩

/-- Dropping repeated keys keeps the keys. -/
theorem mem_map_snd_eraseDupsBy (l : List (Nat × ShapeId)) (id : ShapeId) :
    id ∈ (l.eraseDupsBy fun a b => a.2 == b.2).map Prod.snd ↔ id ∈ l.map Prod.snd := by
  match l with
  | [] => simp
  | c :: rest =>
      rw [List.eraseDupsBy_cons, List.map_cons, List.map_cons, List.mem_cons, List.mem_cons,
        mem_map_snd_eraseDupsBy]
      by_cases hc : id = c.2
      · simp [hc]
      · simp only [hc, false_or, List.mem_map, List.mem_filter]
        constructor
        · rintro ⟨b, ⟨hb, -⟩, rfl⟩
          exact ⟨b, hb, rfl⟩
        · rintro ⟨b, hb, rfl⟩
          exact ⟨b, ⟨hb, by simpa using hc⟩, rfl⟩
termination_by l.length
decreasing_by exact Nat.lt_succ_of_le (List.length_filter_le _ _)

theorem eraseDupsBy_sublist (l : List (Nat × ShapeId)) :
    (l.eraseDupsBy fun a b => a.2 == b.2).Sublist l := by
  match l with
  | [] => simp
  | c :: rest =>
      rw [List.eraseDupsBy_cons]
      exact ((eraseDupsBy_sublist _).trans List.filter_sublist).cons_cons c
termination_by l.length
decreasing_by exact Nat.lt_succ_of_le (List.length_filter_le _ _)

theorem nodup_map_snd_eraseDupsBy (l : List (Nat × ShapeId)) :
    ((l.eraseDupsBy fun a b => a.2 == b.2).map Prod.snd).Nodup := by
  match l with
  | [] => simp
  | c :: rest =>
      rw [List.eraseDupsBy_cons, List.map_cons, List.nodup_cons, mem_map_snd_eraseDupsBy]
      exact ⟨by simp, nodup_map_snd_eraseDupsBy _⟩
termination_by l.length
decreasing_by exact Nat.lt_succ_of_le (List.length_filter_le _ _)

/-- The containers of some shapes are their ancestors. -/
theorem Shallow.mem_containers (hd : d.Shallow) {ids : List ShapeId} {a : ShapeId} :
    a ∈ d.containers ids ↔ ∃ id ∈ ids, a ∈ d.ancestors id := by
  rw [containers, containersOf, ((List.mergeSort_perm _ _).map Prod.snd).mem_iff,
    mem_map_snd_eraseDupsBy]
  simp only [List.mem_map, List.mem_flatMap, hd.mem_withDepth_ancestors]
  constructor
  · rintro ⟨c, ⟨id, hid, hmem, -⟩, rfl⟩
    exact ⟨id, hid, hmem⟩
  · rintro ⟨id, hid, hmem⟩
    exact ⟨(d.depth a, a), ⟨id, hid, hmem, rfl⟩, rfl⟩

theorem nodup_containers (d : Document α) (ids : List ShapeId) : (d.containers ids).Nodup := by
  rw [containers, containersOf, ((List.mergeSort_perm _ _).map Prod.snd).nodup_iff]
  exact nodup_map_snd_eraseDupsBy _

/-- Containers come deepest first. -/
theorem Shallow.pairwise_containers (hd : d.Shallow) (ids : List ShapeId) :
    (d.containers ids).Pairwise fun a b => d.depth b ≤ d.depth a := by
  rw [containers, List.pairwise_map]
  have hdepth : ∀ c ∈ d.containersOf ids, c.1 = d.depth c.2 := by
    intro c hc
    rw [containersOf, List.mem_mergeSort] at hc
    obtain ⟨id, -, hmem⟩ := List.mem_flatMap.1 ((eraseDupsBy_sublist _).subset hc)
    exact (hd.mem_withDepth_ancestors.1 hmem).2
  have hsorted : (d.containersOf ids).Pairwise fun a b => decide (b.1 ≤ a.1) = true :=
    List.pairwise_mergeSort (by simp only [decide_eq_true_eq]; omega)
      (by simp only [Bool.or_eq_true, decide_eq_true_eq]; omega) _
  refine hsorted.imp_of_mem fun {a b} ha hb hab => ?_
  rw [← hdepth a ha, ← hdepth b hb]
  exact of_decide_eq_true hab

end CanvasTransform.Document
