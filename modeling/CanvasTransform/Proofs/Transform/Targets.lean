import CanvasTransform.Proofs.Selection.Capture
import CanvasTransform.Session.Update

set_option autoImplicit false

/-! # Which shapes an update concerns

How a session moves its shapes depends on the pointer; which shapes it moves does not. As long as
nothing is skipped, the updates of a session name the same shapes at every pointer position, its
`Session.targets`: the captured top-level shapes for a translation or a rotation, and everything
captured for a resize (`Session.ids_update`). Of the document an update needs no more than which
shapes there are (`Session.update_congr`). -/

namespace CanvasTransform

variable {α : Type}

/-! ## Outcomes of several shapes -/

namespace Outcome

theorem updates_concat (os : List (Outcome α)) :
    (concat os).updates = os.flatMap (·.updates) := by
  induction os with
  | nil => rfl
  | cons o os ih =>
      rw [List.flatMap_cons, ← ih]
      rfl

theorem skipped_concat (os : List (Outcome α)) :
    (concat os).skipped = os.flatMap (·.skipped) := by
  induction os with
  | nil => rfl
  | cons o os ih =>
      rw [List.flatMap_cons, ← ih]
      rfl

/-- The shapes of several outcomes, if the shapes of each one are known where it skips nothing. -/
theorem ids_concat_map {β : Type} {f : β → Outcome α} {g : β → List ShapeId} {l : List β}
    (h : ∀ b ∈ l, (f b).skipped = [] → (f b).updates.map (·.id) = g b)
    (hskip : (concat (l.map f)).skipped = []) :
    (concat (l.map f)).updates.map (·.id) = l.flatMap g := by
  rw [skipped_concat, List.flatMap_map, List.flatMap_eq_nil_iff] at hskip
  rw [updates_concat, List.flatMap_map, List.map_flatMap, List.flatMap, List.flatMap,
    List.map_congr_left fun b hb => h b hb (hskip b hb)]

end Outcome

/-! ## The shapes that a walk over the captured tree meets -/

namespace Snapshot

/-- The captured shapes from `id` downward, at most `n` levels. -/
def visit (s : Snapshot α) : Nat → ShapeId → List ShapeId
  | 0, _ => []
  | n + 1, id =>
    match s.get? id with
    | none => []
    | some m => id :: m.children.flatMap (s.visit n)

theorem visit_eq_nil {s : Snapshot α} {id : ShapeId} (h : s.get? id = none) (n : Nat) :
    s.visit n id = [] := by
  cases n with
  | zero => rfl
  | succ n => rw [visit, h]

/-- Move every top-level shape by itself. -/
def moveEach (s : Snapshot α) (d : Document α) (move : Member α → Except TransformError (Patch α)) :
    Outcome α :=
  .concat (s.topLevel.map fun id =>
    match s.get? id with
    | none => .empty
    | some m => if d.contains id then .ofExcept (move m) else .skip (.shapeNotFound id))

theorem mem_updates_moveEach {s : Snapshot α} {d : Document α}
    {move : Member α → Except TransformError (Patch α)} {p : Patch α} :
    p ∈ (s.moveEach d move).updates ↔ ∃ id ∈ s.topLevel, ∃ m, s.get? id = some m ∧
      d.contains id = true ∧ move m = .ok p := by
  rw [moveEach, Outcome.updates_concat, List.flatMap_map, List.mem_flatMap]
  refine exists_congr fun id => and_congr_right fun _ => ?_
  cases s.get? id with
  | none => simp [Outcome.empty]
  | some m =>
      by_cases hc : d.contains id = true
      · cases hmove : move m <;>
          simp [hc, hmove, Outcome.ofExcept, Outcome.update, Outcome.skip, eq_comm]
      · simp [hc, Outcome.skip]

end Snapshot

/-- The session moves its selection as one piece. -/
def SessionKind.isRigid : SessionKind → Bool
  | .resize _ => false
  | .rotate | .translate => true

/-- The shapes that a session moves. -/
def Session.targets (s : Session α) : List ShapeId :=
  match s.kind with
  | .resize _ => s.snapshot.topLevel.flatMap (s.snapshot.visit s.snapshot.members.size)
  | _ => s.snapshot.topLevel.filter s.snapshot.contains

section
variable [Scalar α] {d d' : Document α}

theorem Placement.id_moveTo (p : Placement α) (s : Shape α) (origin : Point α) :
    (p.moveTo s origin).id = s.id := by
  unfold moveTo
  split <;> rfl

/-- The built-in behaviours resize the shape that they are asked to resize. -/
theorem Registry.id_resize (s : Shape α) (p : Placement α) : (builtin.resize s p).id = s.id := by
  have hbox : (Behaviour.resizeBox s p).id = s.id := Placement.id_moveTo p s _
  have hfixed : (Behaviour.resizeFixed s p).id = s.id := Placement.id_moveTo p s _
  have himage : (Behaviour.resizeImage s p).id = s.id := by
    unfold Behaviour.resizeImage
    cases s.form with
    | image w h flipX flipY => exact Placement.id_moveTo p s _
    | _ => exact hbox
  have hline : (Behaviour.resizeLine s p).id = s.id := Placement.id_moveTo p s _
  have hgroup : (Behaviour.resizeGroup s p).id = s.id := Placement.id_moveTo p s _
  unfold resize
  split
  · cases hk : s.kind with
    | rectangle | ellipse | frame => exact hbox
    | text | note => exact hfixed
    | image => exact himage
    | line => exact hline
    | group => exact hgroup
  · exact hfixed

namespace Member

/-- Where the member is put in its parent's frame when the parent's page transform has become
    `parentPage`. -/
def placementUnder (m : Member α) (t parentPage : Affine α) : Placement α :=
  .ofAffine (parentPage.inverse * t * (m.parentPageTransform * m.shape.localTransform))
    m.shape.rotation

/-- The patch of a scaled member is finite, and is the one that its kind makes of a placement. -/
theorem of_scale_eq_ok {m : Member α} {registry : Registry α} {t parentPage : Affine α}
    {p : Patch α} (h : m.scale registry t parentPage = .ok p) :
    p = registry.resize m.shape (m.placementUnder t parentPage) ∧ p.isFinite = true := by
  unfold scale at h
  dsimp only at h
  split at h
  · split at h
    · split at h
      · next hfinite =>
        obtain rfl := Except.ok.inj h
        exact ⟨rfl, hfinite⟩
      · exact nomatch h
    · exact nomatch h
  · exact nomatch h

theorem id_scale {m : Member α} {t parentPage : Affine α} {p : Patch α}
    (h : m.scale Registry.builtin t parentPage = .ok p) : p.id = m.shape.id := by
  rw [(of_scale_eq_ok h).1]
  exact Registry.id_resize _ _

theorem eq_of_turn {m : Member α} {t : Affine α} {p : Patch α} (h : m.turn t = .ok p) :
    ∃ x y rotation, p = (Patch.position m.shape.id x y).withRotation rotation := by
  unfold turn at h
  dsimp only at h
  split at h
  · exact ⟨_, _, _, (Except.ok.inj h).symm⟩
  · exact nomatch h

theorem id_turn {m : Member α} {t : Affine α} {p : Patch α} (h : m.turn t = .ok p) :
    p.id = m.shape.id := by
  obtain ⟨x, y, rotation, rfl⟩ := eq_of_turn h
  rfl

theorem eq_of_shift {m : Member α} {delta : Vec α} {p : Patch α} (h : m.shift delta = .ok p) :
    ∃ x y, p = Patch.position m.shape.id x y := by
  rw [shift] at h
  split at h
  · exact ⟨_, _, (Except.ok.inj h).symm⟩
  · exact nomatch h

theorem id_shift {m : Member α} {delta : Vec α} {p : Patch α} (h : m.shift delta = .ok p) :
    p.id = m.shape.id := by
  obtain ⟨x, y, rfl⟩ := eq_of_shift h
  rfl

end Member

namespace Snapshot

variable {s : Snapshot α}

section
variable {c : Canvas α} {id : ShapeId} {m : Member α} {t parentPage : Affine α}

theorem scaleSubtree_of_gone (hm : s.get? id = some m) (hgone : c.document.contains id = false)
    (n : Nat) : s.scaleSubtree c t (n + 1) id parentPage = .skip (.shapeNotFound id) := by
  rw [scaleSubtree, hm]
  exact if_neg (by simp [hgone])

theorem scaleSubtree_of_error (hm : s.get? id = some m) (hthere : c.document.contains id = true)
    {e : TransformError} (he : m.scale c.registry t parentPage = .error e) (n : Nat) :
    s.scaleSubtree c t (n + 1) id parentPage = .skip e := by
  rw [scaleSubtree, hm]
  dsimp only
  rw [if_pos hthere, he]

theorem scaleSubtree_of_ok (hm : s.get? id = some m) (hthere : c.document.contains id = true)
    {p : Patch α} (hp : m.scale c.registry t parentPage = .ok p) (n : Nat) :
    s.scaleSubtree c t (n + 1) id parentPage = .update p ++ .concat (m.children.map fun child =>
      s.scaleSubtree c t n child (parentPage * (m.shape.patch p).localTransform)) := by
  rw [scaleSubtree, hm]
  dsimp only
  rw [if_pos hthere, hp]

/-- All that a walk can do at a captured shape: report that the shape is gone or cannot be scaled, or
    scale it and go on below it. -/
theorem scaleSubtree_cases (hm : s.get? id = some m) (t : Affine α) (n : Nat)
    (parentPage : Affine α) :
    (c.document.contains id = false ∧
      s.scaleSubtree c t (n + 1) id parentPage = .skip (.shapeNotFound id)) ∨
    (∃ e, c.document.contains id = true ∧ m.scale c.registry t parentPage = .error e ∧
      s.scaleSubtree c t (n + 1) id parentPage = .skip e) ∨
    ∃ p, c.document.contains id = true ∧ m.scale c.registry t parentPage = .ok p ∧
      s.scaleSubtree c t (n + 1) id parentPage = .update p ++ .concat (m.children.map fun child =>
        s.scaleSubtree c t n child (parentPage * (m.shape.patch p).localTransform)) := by
  cases hc : c.document.contains id with
  | false => exact Or.inl ⟨rfl, scaleSubtree_of_gone hm hc n⟩
  | true =>
      cases hscale : m.scale c.registry t parentPage with
      | error e => exact Or.inr (Or.inl ⟨e, rfl, rfl, scaleSubtree_of_error hm hc hscale n⟩)
      | ok p => exact Or.inr (Or.inr ⟨p, rfl, rfl, scaleSubtree_of_ok hm hc hscale n⟩)

end

theorem scaleSubtree_eq_empty {c : Canvas α} {id : ShapeId} (hm : s.get? id = none) (t : Affine α)
    (n : Nat) (parentPage : Affine α) : s.scaleSubtree c t n id parentPage = .empty := by
  cases n with
  | zero => rfl
  | succ n => rw [scaleSubtree, hm]

omit [Scalar α] in
theorem visit_succ {id : ShapeId} {m : Member α} (hm : s.get? id = some m) (n : Nat) :
    s.visit (n + 1) id = id :: m.children.flatMap (s.visit n) := by
  rw [visit, hm]

theorem ids_scaleSubtree (hs : s.Keyed) {t : Affine α} (n : Nat) {id : ShapeId}
    {parentPage : Affine α}
    (hskip : (s.scaleSubtree ⟨d, Registry.builtin⟩ t n id parentPage).skipped = []) :
    (s.scaleSubtree ⟨d, Registry.builtin⟩ t n id parentPage).updates.map (·.id) =
      s.visit n id := by
  induction n generalizing id parentPage with
  | zero => rfl
  | succ n ih =>
      cases hm : s.get? id with
      | none =>
          rw [scaleSubtree_eq_empty hm, visit_eq_nil hm]
          rfl
      | some m =>
          obtain ⟨-, heq⟩ | ⟨e, -, -, heq⟩ | ⟨p, -, hp, heq⟩ :=
            scaleSubtree_cases (c := ⟨d, Registry.builtin⟩) hm t n parentPage
          · rw [heq] at hskip
            exact absurd hskip (List.cons_ne_nil _ _)
          · rw [heq] at hskip
            exact absurd hskip (List.cons_ne_nil _ _)
          · rw [heq, Outcome.skipped_append, List.append_eq_nil_iff] at hskip
            rw [heq, Outcome.updates_append, List.map_append,
              Outcome.ids_concat_map (fun child _ h => ih h) hskip.2, visit_succ hm]
            have hid : p.id = id := (Member.id_scale hp).trans (hs id m hm)
            rw [Outcome.update, List.map_singleton, hid]
            rfl

theorem ids_scale (hs : s.Keyed) {t : Affine α}
    (hskip : (s.scale ⟨d, Registry.builtin⟩ t).skipped = []) :
    (s.scale ⟨d, Registry.builtin⟩ t).updates.map (·.id) =
      s.topLevel.flatMap (s.visit s.members.size) := by
  unfold scale at hskip ⊢
  refine Outcome.ids_concat_map (fun id _ h => ?_) hskip
  cases hm : s.get? id with
  | some m =>
      simp only [hm] at h ⊢
      exact ids_scaleSubtree hs _ h
  | none => rw [visit_eq_nil hm]; rfl

omit [Scalar α] in
/-- The updates of a move of the top-level shapes name the ones that were captured. -/
theorem ids_moveEach (hs : s.Keyed) {move : Member α → Except TransformError (Patch α)}
    (hmove : ∀ m p, move m = .ok p → p.id = m.shape.id)
    (hskip : (s.moveEach d move).skipped = []) :
    (s.moveEach d move).updates.map (·.id) = s.topLevel.filter s.contains := by
  have hfilter : ∀ ids : List ShapeId,
      (ids.flatMap fun id => if s.contains id then [id] else []) = ids.filter s.contains := by
    intro ids
    induction ids with
    | nil => rfl
    | cons id ids ih =>
        rw [List.flatMap_cons, List.filter_cons, ih]
        by_cases h : s.contains id = true <;> simp [h]
  rw [← hfilter]
  refine Outcome.ids_concat_map (fun id _ h => ?_) hskip
  cases hm : s.get? id with
  | none => simp [contains, hm, Outcome.empty]
  | some m =>
      simp only [hm] at h ⊢
      split at h
      · next hc =>
        rw [if_pos hc]
        cases hp : move m with
        | error e => rw [hp] at h; exact absurd h (List.cons_ne_nil _ _)
        | ok p => simp [contains, hm, Outcome.ofExcept, Outcome.update, hmove m p hp, hs id m hm]
      · exact absurd h (List.cons_ne_nil _ _)

end Snapshot

/-! ## Updates stay with their targets -/

namespace Snapshot

variable {s : Snapshot α} {id x : ShapeId}

omit [Scalar α] in
theorem contains_of_mem_visit {n : Nat} (h : x ∈ s.visit n id) : s.contains x = true := by
  induction n generalizing id with
  | zero => exact absurd h List.not_mem_nil
  | succ n ih =>
      unfold visit at h
      cases hm : s.get? id with
      | none => rw [hm] at h; exact absurd h List.not_mem_nil
      | some m =>
          rw [hm] at h
          rcases List.mem_cons.1 h with rfl | h
          · rw [contains, hm, Option.isSome_some]
          · obtain ⟨child, -, h⟩ := List.mem_flatMap.1 h
            exact ih h

theorem mem_visit_of_mem_updates (hs : s.Keyed) {t : Affine α} (n : Nat) {parentPage : Affine α}
    {p : Patch α} (hp : p ∈ (s.scaleSubtree ⟨d, Registry.builtin⟩ t n id parentPage).updates) :
    p.id ∈ s.visit n id := by
  induction n generalizing id parentPage with
  | zero => exact absurd hp List.not_mem_nil
  | succ n ih =>
      cases hm : s.get? id with
      | none => rw [scaleSubtree_eq_empty hm] at hp; exact absurd hp List.not_mem_nil
      | some m =>
          rw [visit_succ hm]
          obtain ⟨-, heq⟩ | ⟨e, -, -, heq⟩ | ⟨q, -, hq, heq⟩ :=
            scaleSubtree_cases (c := ⟨d, Registry.builtin⟩) hm t n parentPage
          · rw [heq] at hp; exact absurd hp List.not_mem_nil
          · rw [heq] at hp; exact absurd hp List.not_mem_nil
          · rw [heq, Outcome.updates_append, Outcome.updates_concat, List.flatMap_map] at hp
            rcases List.mem_append.1 hp with hp | hp
            · obtain rfl := List.mem_singleton.1 hp
              rw [(Member.id_scale hq).trans (hs id m hm)]
              exact List.mem_cons_self
            · obtain ⟨child, hchild, hp⟩ := List.mem_flatMap.1 hp
              exact List.mem_cons_of_mem _ (List.mem_flatMap.2 ⟨child, hchild, ih hp⟩)

theorem mem_visit_of_mem_scale (hs : s.Keyed) {t : Affine α} {p : Patch α}
    (hp : p ∈ (s.scale ⟨d, Registry.builtin⟩ t).updates) :
    p.id ∈ s.topLevel.flatMap (s.visit s.members.size) := by
  rw [scale, Outcome.updates_concat, List.flatMap_map] at hp
  obtain ⟨top, htop, hp⟩ := List.mem_flatMap.1 hp
  refine List.mem_flatMap.2 ⟨top, htop, ?_⟩
  cases hm : s.get? top with
  | none => rw [hm] at hp; exact absurd hp List.not_mem_nil
  | some m =>
      rw [hm] at hp
      exact mem_visit_of_mem_updates hs _ hp

end Snapshot

namespace Session

variable {s : Session α} {id : ShapeId}

omit [Scalar α] in
theorem contains_of_mem_targets (h : id ∈ s.targets) : s.snapshot.contains id = true := by
  unfold targets at h
  split at h
  · obtain ⟨top, -, h⟩ := List.mem_flatMap.1 h
    exact Snapshot.contains_of_mem_visit h
  · exact (List.mem_filter.1 h).2

omit [Scalar α] in
theorem mem_topLevel_of_mem_targets (hrigid : s.kind.isRigid = true) (h : id ∈ s.targets) :
    id ∈ s.snapshot.topLevel := by
  unfold targets at h
  split at h
  · next hk => rw [hk] at hrigid; exact Bool.noConfusion hrigid
  · exact (List.mem_filter.1 h).1

/-- A patch that a session of the kind may ask for: it moves a target of the session, turns it unless
    the session is a translation, and changes its form only if the session is a resize. -/
structure Allows (s : Session α) (p : Patch α) : Prop where
  target : p.id ∈ s.targets
  rotation : p.rotation = none ∨ s.kind ≠ .translate
  form : p.form = none ∨ s.kind.isRigid = false

/-- Scaling is what a resize may ask for. -/
theorem allows_of_mem_scale {handle : Handle} (hk : s.kind = .resize handle) (hs : s.snapshot.Keyed)
    {t : Affine α} {p : Patch α}
    (hp : p ∈ (s.snapshot.scale ⟨d, Registry.builtin⟩ t).updates) : s.Allows p where
  target := by
    rw [targets, hk]
    exact Snapshot.mem_visit_of_mem_scale hs hp
  rotation := Or.inr (by simp [hk])
  form := Or.inr (by rw [hk]; rfl)

/-- **What a session asks for**, skipped shapes or not. -/
theorem allows_of_mem_update (hs : s.snapshot.Keyed) {config : Config α} {zoom : α} {p : Patch α}
    (hp : p ∈ (s.update ⟨d, Registry.builtin⟩ config zoom).outcome.updates) : s.Allows p := by
  -- a translation or a rotation moves the captured top-level shapes, each by itself
  have heach : ∀ {move : Member α → Except TransformError (Patch α)},
      (∀ m p, move m = .ok p → p.id = m.shape.id) →
      p ∈ (s.snapshot.moveEach d move).updates →
      p.id ∈ s.snapshot.topLevel.filter s.snapshot.contains ∧ ∃ m, move m = .ok p := by
    intro move hid hp
    obtain ⟨id, hid', m, hm, -, hmove⟩ := Snapshot.mem_updates_moveEach.1 hp
    obtain rfl : p.id = id := (hid m p hmove).trans (hs id m hm)
    refine ⟨List.mem_filter.2 ⟨hid', ?_⟩, m, hmove⟩
    rw [Snapshot.contains, hm, Option.isSome_some]
  unfold update at hp
  cases hk : s.kind with
  | resize h =>
      simp only [hk, resizeUpdate] at hp
      exact allows_of_mem_scale hk hs hp
  | rotate =>
      simp only [hk] at hp
      obtain ⟨htarget, m, hm⟩ := heach (fun _ _ h => Member.id_turn h) hp
      obtain ⟨x, y, rotation, rfl⟩ := Member.eq_of_turn hm
      exact ⟨by rw [targets, hk]; exact htarget, Or.inr (by simp [hk]), Or.inl rfl⟩
  | translate =>
      simp only [hk] at hp
      obtain ⟨htarget, m, hm⟩ := heach (fun _ _ h => Member.id_shift h) hp
      obtain ⟨x, y, rfl⟩ := Member.eq_of_shift hm
      exact ⟨by rw [targets, hk]; exact htarget, Or.inl rfl, Or.inl rfl⟩

end Session

/-! ## What an update needs of the document -/

namespace Snapshot

variable {s : Snapshot α} {registry : Registry α}

theorem scaleSubtree_congr (h : ∀ id, d.contains id = d'.contains id) (t : Affine α) (n : Nat)
    (id : ShapeId) (parentPage : Affine α) :
    s.scaleSubtree ⟨d, registry⟩ t n id parentPage =
      s.scaleSubtree ⟨d', registry⟩ t n id parentPage := by
  induction n generalizing id parentPage with
  | zero => rfl
  | succ n ih =>
      have hrec : s.scaleSubtree ⟨d, registry⟩ t n = s.scaleSubtree ⟨d', registry⟩ t n :=
        funext fun id => funext fun parentPage => ih id parentPage
      rw [scaleSubtree, scaleSubtree, hrec, h id]

theorem scale_congr (h : ∀ id, d.contains id = d'.contains id) (t : Affine α) :
    s.scale ⟨d, registry⟩ t = s.scale ⟨d', registry⟩ t := by
  have hrec : s.scaleSubtree ⟨d, registry⟩ t = s.scaleSubtree ⟨d', registry⟩ t :=
    funext fun n => funext fun id => funext fun parentPage => scaleSubtree_congr h t n id parentPage
  rw [scale, scale, hrec]

end Snapshot

namespace Session

variable {s : Session α} {config : Config α} {zoom : α}

/-- An update depends on the snapshot, on the way of the pointer and on the flags, and on nothing else
    that the session keeps. -/
theorem update_eq_of_pointer {s t : Session α} (hkind : s.kind = t.kind)
    (horigin : s.origin = t.origin) (hcurrent : s.current = t.current) (hflags : s.flags = t.flags)
    (hsnapshot : s.snapshot = t.snapshot) (c : Canvas α) (config : Config α) (zoom : α) :
    s.update c config zoom = t.update c config zoom := by
  obtain ⟨kind, origin, current, flags, snapshot, _, _, _, _⟩ := s
  obtain ⟨kind', origin', current', flags', snapshot', _, _, _, _⟩ := t
  dsimp only at hkind horigin hcurrent hflags hsnapshot
  subst hkind horigin hcurrent hflags hsnapshot
  rfl

/-- An update needs no more of the document than which shapes there are. -/
theorem update_congr (h : ∀ id, d.contains id = d'.contains id) (registry : Registry α) :
    s.update ⟨d, registry⟩ config zoom = s.update ⟨d', registry⟩ config zoom := by
  have hcontains : d.contains = d'.contains := funext h
  rw [update, update]
  cases hk : s.kind with
  | resize handle =>
      simp only [resizeUpdate, hk]
      rw [Snapshot.scale_congr h]
  | rotate => simp only [rotateUpdate, Snapshot.turn, hcontains]
  | translate => simp only [translateUpdate, Snapshot.shift, hcontains]

/-- **Which shapes a session moves does not depend on the pointer.** -/
theorem ids_update (hs : s.snapshot.Keyed)
    (hskip : (s.update ⟨d, Registry.builtin⟩ config zoom).outcome.skipped = []) :
    (s.update ⟨d, Registry.builtin⟩ config zoom).outcome.updates.map (·.id) = s.targets := by
  unfold update at hskip ⊢
  unfold targets
  cases hk : s.kind with
  | resize h =>
      simp only [hk, resizeUpdate] at hskip ⊢
      exact Snapshot.ids_scale hs hskip
  | rotate =>
      simp only [hk, rotateUpdate] at hskip ⊢
      exact Snapshot.ids_moveEach hs (fun _ _ h => Member.id_turn h) hskip
  | translate =>
      simp only [hk, translateUpdate] at hskip ⊢
      exact Snapshot.ids_moveEach hs (fun _ _ h => Member.id_shift h) hskip

end Session

end

end CanvasTransform
