import CanvasTransform.Proofs.Transform.Reach
import CanvasTransform.Proofs.Transform.Resize

set_option autoImplicit false

/-! # What a resize leaves out

A shape that is gone, or that cannot be given finite geometry, is left out of a resize together with
what lies inside it, and reported once. Nothing else is left out: each shape that the walk meets
either has its patch or lies inside a reported one (`Outcome.Settles`), whatever the registry makes of
the shapes, and what is reported is what fails (`Snapshot.Fails`). Since the walk meets every captured
shape once and parents first, so do the patches (`Snapshot.Drops`). How a shape is scaled does not
depend on what is left out beside it (`Snapshot.Reflects.exists_scales_both`). In exact arithmetic
every shape can be scaled, so that only what is gone is left out
(`Snapshot.Reflects.exists_of_mem_scale`). -/

namespace CanvasTransform

variable {α : Type}

namespace Outcome

/-- The shapes that have a patch. -/
def updatedIds (o : Outcome α) : List ShapeId := o.updates.map (·.id)

/-- The shapes that are reported as left out. -/
def skippedIds (o : Outcome α) : List ShapeId := o.skipped.map (·.id)

/-! ## Outcomes that account for shapes -/

/-- Whether the outcome says of each of the given shapes what becomes of it: it has a patch, or it
    lies inside a reported shape, and not both. Patches and reports keep the order of the shapes. -/
structure Settles (o : Outcome α) (d : Document α) (ids : List ShapeId) : Prop where
  updated : o.updatedIds.Sublist ids
  skipped : o.skippedIds.Sublist ids
  covers : ∀ id ∈ ids, id ∈ o.updatedIds ∨ ∃ a ∈ o.skippedIds, d.Inside a id
  apart : ∀ a ∈ o.skippedIds, ∀ id ∈ o.updatedIds, ¬ d.Inside a id

section
variable {d : Document α} {id : ShapeId} {ids : List ShapeId}

theorem settles_empty (d : Document α) : (empty : Outcome α).Settles d [] :=
  ⟨.slnil, .slnil, nofun, nofun⟩

/-- A report accounts for all that lies inside the reported shape. -/
theorem settles_skip {e : TransformError} (he : e.id = id) (hids : ∀ x ∈ ids, d.Inside id x) :
    (skip e : Outcome α).Settles d (id :: ids) where
  updated := List.nil_sublist _
  skipped := by
    rw [skip, skippedIds, List.map_singleton, he]
    exact (List.nil_sublist ids).cons_cons id
  covers x hx := by
    refine Or.inr ⟨id, List.mem_singleton.2 he.symm, ?_⟩
    rcases List.mem_cons.1 hx with rfl | hx
    · exact Document.Inside.refl d x
    · exact hids x hx
  apart := nofun

/-- A patch for a shape in front of what accounts for shapes that the shape does not lie inside. -/
theorem Settles.update {o : Outcome α} {p : Patch α} (h : o.Settles d ids) (hp : p.id = id)
    (hids : ∀ x ∈ ids, ¬ d.Inside x id) : (update p ++ o).Settles d (id :: ids) where
  updated := by
    rw [updatedIds, updates_append, Outcome.update, List.map_append, List.map_singleton, hp]
    exact h.updated.cons_cons id
  skipped := h.skipped.cons id
  covers x hx := by
    rcases List.mem_cons.1 hx with rfl | hx
    · exact Or.inl (List.mem_map.2 ⟨p, List.mem_cons_self, hp⟩)
    · exact (h.covers x hx).imp_left (List.mem_cons_of_mem _)
  apart a ha x hx := by
    rcases List.mem_cons.1 hx with rfl | hx
    · exact fun hinside => hids a (h.skipped.subset ha) (hp ▸ hinside)
    · exact h.apart a ha x hx

/-- Two outcomes that account for shapes that have nothing to do with each other. -/
theorem Settles.append {o o' : Outcome α} {ids' : List ShapeId} (h : o.Settles d ids)
    (h' : o'.Settles d ids') (hapart : ∀ x ∈ ids, ∀ y ∈ ids', d.Apart x y) :
    (o ++ o').Settles d (ids ++ ids') := by
  have hupdated : (o ++ o').updatedIds = o.updatedIds ++ o'.updatedIds := List.map_append
  have hskipped : (o ++ o').skippedIds = o.skippedIds ++ o'.skippedIds := List.map_append
  constructor
  case updated => exact hupdated ▸ h.updated.append h'.updated
  case skipped => exact hskipped ▸ h.skipped.append h'.skipped
  case covers =>
    rw [hupdated, hskipped]
    simp only [List.mem_append]
    rintro x (hx | hx)
    · exact (h.covers x hx).imp Or.inl fun ⟨a, ha, hinside⟩ => ⟨a, Or.inl ha, hinside⟩
    · exact (h'.covers x hx).imp Or.inr fun ⟨a, ha, hinside⟩ => ⟨a, Or.inr ha, hinside⟩
  case apart =>
    rw [hupdated, hskipped]
    simp only [List.mem_append]
    rintro a (ha | ha) x (hx | hx)
    · exact h.apart a ha x hx
    · exact (hapart a (h.skipped.subset ha) x (h'.updated.subset hx)).1
    · exact (hapart x (h.updated.subset hx) a (h'.skipped.subset ha)).2
    · exact h'.apart a ha x hx

theorem settles_concat_map {β : Type} {f : β → Outcome α} {g : β → List ShapeId} {l : List β}
    (h : ∀ b ∈ l, (f b).Settles d (g b))
    (hl : l.Pairwise fun b b' => ∀ x ∈ g b, ∀ y ∈ g b', d.Apart x y) :
    (concat (l.map f)).Settles d (l.flatMap g) := by
  induction l with
  | nil => exact settles_empty d
  | cons b l ih =>
      obtain ⟨hb, hl⟩ := List.pairwise_cons.1 hl
      refine (h b List.mem_cons_self).append
        (ih (fun b' hb' => h b' (List.mem_cons_of_mem _ hb')) hl) fun x hx y hy => ?_
      obtain ⟨b', hb', hy⟩ := List.mem_flatMap.1 hy
      exact hb b' hb' x hx y hy

end

end Outcome

variable [Scalar α]

/-- A registry that answers, when asked to resize a shape, with a patch for that shape. Nothing is
    said about the numbers in the patch. -/
def Registry.Answers (r : Registry α) : Prop := ∀ shape placement,
  (r.resize shape placement).id = shape.id

theorem Registry.answers_builtin : (builtin : Registry α).Answers := id_resize

namespace Snapshot

variable {s : Snapshot α} {d : Document α} {c c' : Canvas α} {t : Affine α} {id : ShapeId}
  {m : Member α}

/-! ## The walk accounts for the shapes that it meets -/

/-- At a captured shape, the walk ends with a report of the shape, or scales it and goes on below. -/
theorem scaleSubtree_succ (hs : s.Keyed) (hm : s.get? id = some m) (n : Nat)
    (parentPage : Affine α) :
    (∃ e : TransformError, e.id = id ∧ s.scaleSubtree c t (n + 1) id parentPage = .skip e) ∨
    ∃ p, m.scale c.registry t parentPage = .ok p ∧
      s.scaleSubtree c t (n + 1) id parentPage = .update p ++ .concat (m.children.map fun child =>
        s.scaleSubtree c t n child (parentPage * (m.shape.patch p).localTransform)) := by
  obtain ⟨-, heq⟩ | ⟨e, -, he, heq⟩ | ⟨p, -, h⟩ := scaleSubtree_cases hm t n parentPage
  · exact Or.inl ⟨_, rfl, heq⟩
  · exact Or.inl ⟨e, (Member.id_of_scale_error he).trans (hs id m hm), heq⟩
  · exact Or.inr ⟨p, h⟩

theorem settles_scaleSubtree (hs : s.Reflects d) (hkeyed : d.Keyed) (hshallow : d.Shallow)
    (hc : c.registry.Answers) (n : Nat) (id : ShapeId) (parentPage : Affine α) :
    (s.scaleSubtree c t n id parentPage).Settles d (s.visit n id) := by
  induction n generalizing id parentPage with
  | zero => exact Outcome.settles_empty d
  | succ n ih =>
      cases hm : s.get? id with
      | none =>
          rw [scaleSubtree_eq_empty hm, visit_eq_nil hm]
          exact Outcome.settles_empty d
      | some m =>
          have hvisit := visit_succ hm n
          have hinside : ∀ x ∈ m.children.flatMap (s.visit n), d.Inside id x := fun x hx =>
            hs.inside_of_mem_visit hkeyed hshallow (n + 1)
              (hvisit ▸ List.mem_cons_of_mem id hx)
          rw [hvisit]
          obtain ⟨e, he, heq⟩ | ⟨p, hp, heq⟩ := scaleSubtree_succ (hs.keyed hkeyed) hm n parentPage
          · rw [heq]
            exact Outcome.settles_skip he hinside
          · have hpid : p.id = id := by
              rw [(Member.of_scale_eq_ok hp).1, hc, hs.keyed hkeyed id m hm]
            have hpairwise := hvisit ▸ hs.pairwise_visit hkeyed hshallow (n + 1) id
            rw [heq]
            exact (Outcome.settles_concat_map (fun child _ => ih child _)
              (hs.pairwise_children hkeyed hshallow n hm)).update hpid
              (List.pairwise_cons.1 hpairwise).1

theorem settles_scale (hs : s.Reflects d) (hkeyed : d.Keyed) (hshallow : d.Shallow)
    (hc : c.registry.Answers) : (s.scale c t).Settles d s.walk := by
  refine Outcome.settles_concat_map (fun id _ => ?_) (hs.pairwise_topLevel hkeyed hshallow _)
  cases hm : s.get? id with
  | some m => exact settles_scaleSubtree hs hkeyed hshallow hc _ id _
  | none => exact visit_eq_nil hm _ ▸ Outcome.settles_empty d

/-! ## The resize -/

/-- What has a patch is still there. -/
theorem contains_of_mem_updates_scale (hs : s.Keyed) (hc : c.registry.Answers) {p : Patch α}
    (hp : p ∈ (s.scale c t).updates) : c.document.contains p.id = true := by
  obtain ⟨-, hm, hthere, hscale⟩ := scales_of_mem_scale hp
  rwa [(Member.of_scale_eq_ok hscale).1, hc, hs _ _ hm]

/-- What a resize of a snapshot that was taken of the document `d` drops, and what it keeps. Its
    patches are those of the shapes that it gets to and can scale, and its reports are about those
    that it gets to and that fail. The patches are finite, name captured shapes, each once and after
    its captured parent, and every captured shape either has its patch or lies inside a captured
    shape that is reported once. -/
structure Drops (s : Snapshot α) (d : Document α) (c : Canvas α) (t : Affine α) (o : Outcome α) :
    Prop where
  scaled : ∀ p, p ∈ o.updates ↔ s.Scales c t p
  failed : ∀ e, e ∈ o.skipped ↔ s.Fails c t e
  finite : ∀ p ∈ o.updates, p.isFinite = true
  distinct : o.updatedIds.Nodup
  captured : ∀ id ∈ o.updatedIds ++ o.skippedIds, s.contains id = true
  parentsFirst : ∀ before p after, o.updates = before ++ p :: after →
    ∀ parent, d.parentId? p.id = some parent → s.contains parent = true →
      parent ∈ before.map (·.id)
  skippedOnce : o.skippedIds.Nodup
  exactlyOne : ∀ id, s.contains id = true →
    Xor (id ∈ o.updatedIds) (∃ a ∈ o.skippedIds, d.Inside a id)

theorem Reflects.mem_walk_iff_contains (hs : s.Reflects d) (hkeyed : d.Keyed)
    (hshallow : d.Shallow) : id ∈ s.walk ↔ s.contains id = true := by
  rw [hs.mem_walk_iff hkeyed hshallow, contains, Option.isSome_iff_exists]

/-- A captured parent of a shape with a patch has its patch before. -/
theorem Reflects.parentsFirst_scale (hs : s.Reflects d) (hkeyed : d.Keyed) (hshallow : d.Shallow)
    (hc : c.registry.Answers) (t : Affine α) {before after : List (Patch α)} {p : Patch α}
    (heq : (s.scale c t).updates = before ++ p :: after) {parent : ShapeId}
    (hp : d.parentId? p.id = some parent) (hparent : s.contains parent = true) :
    parent ∈ before.map (·.id) := by
  have hsettles : (s.scale c t).Settles d s.walk := settles_scale hs hkeyed hshallow hc
  have hids : (s.scale c t).updatedIds = before.map (·.id) ++ p.id :: after.map (·.id) := by
    rw [Outcome.updatedIds, heq, List.map_append, List.map_cons]
  have hinside : d.Inside parent p.id :=
    hshallow.inside_of_parentId? hp (Document.Inside.refl d parent)
  -- the parent is not left out, or the shape would be left out with it
  have hmem : parent ∈ (s.scale c t).updatedIds := by
    refine (hsettles.covers parent
      ((hs.mem_walk_iff_contains hkeyed hshallow).2 hparent)).resolve_right ?_
    rintro ⟨a, ha, haround⟩
    refine hsettles.apart a ha p.id ?_ (hshallow.inside_trans haround hinside)
    rw [hids]
    exact List.mem_append_right _ List.mem_cons_self
  -- and it does not come later, since the walk meets it first
  have hlater := (List.pairwise_append.1
    (hids ▸ (hs.pairwise_walk hkeyed hshallow).sublist hsettles.updated)).2.1
  rw [hids] at hmem
  rcases List.mem_append.1 hmem with hmem | hmem
  · exact hmem
  · rcases List.mem_cons.1 hmem with hself | hmem
    · exact absurd hself.symm (hshallow.ne_of_parentId? hp)
    · exact absurd hinside ((List.pairwise_cons.1 hlater).1 parent hmem)

theorem Reflects.drops_scale (hs : s.Reflects d) (hkeyed : d.Keyed) (hshallow : d.Shallow)
    (hc : c.registry.Answers) (t : Affine α) : s.Drops d c t (s.scale c t) := by
  have hsettles : (s.scale c t).Settles d s.walk := settles_scale hs hkeyed hshallow hc
  have hnodup : s.walk.Nodup :=
    (hs.pairwise_walk hkeyed hshallow).imp fun hxy heq => hxy (Or.inl heq)
  have hwalk : ∀ {id}, id ∈ s.walk ↔ s.contains id = true :=
    hs.mem_walk_iff_contains hkeyed hshallow
  constructor
  case scaled => exact fun p => hs.mem_updates_scale_iff hkeyed hshallow
  case failed => exact fun e => hs.mem_skipped_scale_iff hkeyed hshallow
  case finite =>
    intro p hp
    obtain ⟨-, -, -, hscale⟩ := scales_of_mem_scale hp
    exact (Member.of_scale_eq_ok hscale).2
  case distinct => exact hnodup.sublist hsettles.updated
  case skippedOnce => exact hnodup.sublist hsettles.skipped
  case captured =>
    intro id hid
    rcases List.mem_append.1 hid with hid | hid
    · exact hwalk.1 (hsettles.updated.subset hid)
    · exact hwalk.1 (hsettles.skipped.subset hid)
  case exactlyOne =>
    intro id hid
    rcases hsettles.covers id (hwalk.2 hid) with hupdated | ⟨a, ha, hinside⟩
    · refine Or.inl ⟨hupdated, ?_⟩
      rintro ⟨a, ha, hinside⟩
      exact hsettles.apart a ha id hupdated hinside
    · exact Or.inr ⟨⟨a, ha, hinside⟩, fun hupdated => hsettles.apart a ha id hupdated hinside⟩
  case parentsFirst =>
    intro before p after heq parent hp hparent
    exact hs.parentsFirst_scale hkeyed hshallow hc t heq hp hparent

/-- What is gone is left out. -/
theorem Reflects.exists_mem_skippedIds (hs : s.Reflects d) (hkeyed : d.Keyed)
    (hshallow : d.Shallow) (hc : c.registry.Answers) (t : Affine α) (hid : s.contains id = true)
    (hgone : c.document.contains id = false) : ∃ a ∈ (s.scale c t).skippedIds, d.Inside a id := by
  obtain ⟨hmem, -⟩ | ⟨hout, -⟩ := (hs.drops_scale hkeyed hshallow hc t).exactlyOne id hid
  · obtain ⟨p, hp, rfl⟩ := List.mem_map.1 hmem
    rw [contains_of_mem_updates_scale (hs.keyed hkeyed) hc hp] at hgone
    exact nomatch hgone
  · exact hout

end Snapshot

/-! ## Exact arithmetic -/

theorem Member.scale_of_isRigid (m : Member ℝ) (registry : Registry ℝ) (t : Affine ℝ)
    {parentPage : Affine ℝ} (h : parentPage.IsRigid) : m.scale registry t parentPage =
      .ok (registry.resize m.shape (m.placementUnder t parentPage)) := by
  have hfinite : ∀ a : Affine ℝ, a.isFinite = true := fun _ => rfl
  simp only [scale, h.isInvertible, hfinite, Patch.isFinite_eq_true, if_true, placementUnder]

namespace Snapshot.Reflects

variable {s : Snapshot ℝ} {d : Document ℝ} {c : Canvas ℝ} {t : Affine ℝ} {id : ShapeId}

/-- Parents that a resize gets to are placed on the page without distortion. -/
theorem isRigid_of_reaches (hs : s.Reflects d) (hshallow : d.Shallow) {page : Affine ℝ}
    (h : s.Reaches c t id page) : page.IsRigid :=
  h.keeps (fun _ _ hm => hs.isRigid_parentPageTransform hshallow hm)
    fun _ _ hpage => hpage.mul (Affine.isRigid_placement _ _ _)

/-- Nothing fails but what is gone. -/
theorem gone_of_fails (hs : s.Reflects d) (hshallow : d.Shallow) {e : TransformError}
    (h : s.Fails c t e) :
    ∃ id, s.contains id = true ∧ c.document.contains id = false ∧ e = .shapeNotFound id := by
  cases h with
  | gone _ hm hgone => exact ⟨_, Option.isSome_iff_exists.2 ⟨_, hm⟩, hgone, rfl⟩
  | unscalable hreach _ _ he =>
      rw [Member.scale_of_isRigid _ _ _ (hs.isRigid_of_reaches hshallow hreach)] at he
      exact nomatch he

/-- What a resize asks for and what it reports comes from members under parents that are placed on
    the page without distortion. So every member is scaled, unless its shape is gone. -/
theorem exists_of_mem_scale (hs : s.Reflects d) (hshallow : d.Shallow) (c : Canvas ℝ)
    (t : Affine ℝ) :
    (∀ p ∈ (s.scale c t).updates, ∃ id m parentPage, s.get? id = some m ∧ parentPage.IsRigid ∧
      p = c.registry.resize m.shape (m.placementUnder t parentPage)) ∧
    ∀ e ∈ (s.scale c t).skipped, ∃ id, s.contains id = true ∧ c.document.contains id = false ∧
      e = .shapeNotFound id := by
  refine ⟨fun p hp => ?_, fun e he => hs.gone_of_fails hshallow (fails_of_mem_scale he)⟩
  obtain ⟨h, hm, -, hscale⟩ := scales_of_mem_scale hp
  exact ⟨_, _, _, hm, hs.isRigid_of_reaches hshallow h, (Member.of_scale_eq_ok hscale).1⟩

theorem contains_of_mem_skippedIds {a : ShapeId} (hs : s.Reflects d) (hshallow : d.Shallow)
    (ha : a ∈ (s.scale c t).skippedIds) : c.document.contains a = false := by
  obtain ⟨e, he, rfl⟩ := List.mem_map.1 ha
  obtain ⟨id, -, hgone, rfl⟩ := (hs.exists_of_mem_scale hshallow c t).2 e he
  exact hgone

end Snapshot.Reflects

/-! ## Snapshots of documents -/

/-- **A resize drops failing subtrees and nothing else**, whatever is gone from the document by then
    and whatever numbers the registry answers with; and two resizes by one map that differ only in
    what fails agree on every captured shape that nothing fails around in either. -/
theorem Canvas.drops_scale_capture? {c : Canvas α} {selection : List ShapeId} {camera : Camera α}
    {s : Snapshot α} (hkeyed : c.document.Keyed) (hshallow : c.document.Shallow)
    (hcapture : c.capture? selection camera = some s) (t : Affine α) {later : Canvas α}
    (hlater : later.registry.Answers) :
    s.Drops c.document later t (s.scale later t) ∧
    ∀ other : Canvas α, later.registry.AgreeFinite other.registry →
      ∀ id, s.contains id = true →
        (∀ e, s.Fails later t e ∨ s.Fails other t e → ¬ c.document.Inside e.id id) →
        ∃ p, p.id = id ∧ p ∈ (s.scale later t).updates ∧ p ∈ (s.scale other t).updates := by
  have hs := Canvas.reflects_capture? hkeyed hshallow hcapture
  refine ⟨hs.drops_scale hkeyed hshallow hlater t, fun other hagree id hid hout => ?_⟩
  obtain ⟨m, hm⟩ := Option.isSome_iff_exists.1 hid
  obtain ⟨page, p, h, h', hthere, hthere', hscale, hscale'⟩ :=
    hs.exists_scales_both hkeyed hshallow hagree hm hout
  refine ⟨p, ?_, (hs.mem_updates_scale_iff hkeyed hshallow).2 (.intro h hm hthere hscale),
    (hs.mem_updates_scale_iff hkeyed hshallow).2 (.intro h' hm hthere' hscale')⟩
  rw [(Member.of_scale_eq_ok hscale).1, hlater, hs.keyed hkeyed id m hm]

/-- Of a frame with a note in it and a rectangle beside it, the rectangle is gone when one resize is
    computed and the note when the other one is. The frame is in both, and comes out alike. -/
theorem Canvas.drops_scale_frame_and_rectangle :
    let d : Document ℝ := ((Document.empty.put (Shape.frame 1 0 0 100 80)).put
      ((Shape.note 2 10 10 20 20).withParent (.shape 1))).put (Shape.rectangle 3 200 0 20 20)
    let t : Affine ℝ := Affine.translate ⟨5, 0⟩
    let later : Canvas ℝ := ⟨d.erase 3, Registry.builtin⟩
    let other : Canvas ℝ := ⟨d.erase 2, Registry.builtin⟩
    d.Keyed ∧ d.Shallow ∧ later.registry.Answers ∧ ∃ s : Snapshot ℝ,
      Canvas.capture? ⟨d, Registry.builtin⟩ [1, 3] Camera.initial = some s ∧
      (3 ∈ (s.scale later t).skippedIds ∧ 2 ∈ (s.scale other t).skippedIds) ∧
      s.Drops d later t (s.scale later t) ∧
      ∃ p, p.id = 1 ∧ p ∈ (s.scale later t).updates ∧ p ∈ (s.scale other t).updates := by
  intro d t later other
  have hcaptured : ((Canvas.capture? ⟨d, Registry.builtin⟩ [1, 3] Camera.initial).map fun s =>
      (s.contains 1, s.contains 2, s.contains 3)) = some (true, true, true) := by
    clear later other t
    decide +kernel +revert
  have hkeyed : d.Keyed := ((Document.keyed_empty.put _).put _).put _
  have hshallow : d.Shallow := hkeyed.shallow (by clear hcaptured hkeyed; decide +kernel +revert)
  have hancestors : d.ancestors 1 = [] ∧ d.ancestors 2 = [1] ∧ d.ancestors 3 = [] := by
    clear hcaptured hkeyed hshallow
    decide +kernel +revert
  have hgone : later.document.contains 3 = false ∧ later.document.contains 1 = true ∧
      other.document.contains 2 = false ∧ other.document.contains 1 = true := by
    clear hcaptured hkeyed hshallow hancestors
    decide +kernel +revert
  obtain ⟨s, hcapture, hcontains⟩ := Option.map_eq_some_iff.1 hcaptured
  simp only [Prod.mk.injEq] at hcontains
  have hs := Canvas.reflects_capture? hkeyed hshallow hcapture
  have hout : ∀ c : Canvas ℝ, c.document.contains 1 = true →
      ∀ e, s.Fails c t e → ¬ d.Inside e.id 1 := by
    intro c hc e he
    obtain ⟨id, -, hgone, rfl⟩ := hs.gone_of_fails hshallow he
    rintro (rfl | hmem)
    · rw [hc] at hgone
      exact nomatch hgone
    · rw [hancestors.1] at hmem
      exact absurd hmem List.not_mem_nil
  refine ⟨hkeyed, hshallow, Registry.answers_builtin, s, hcapture, ⟨?_, ?_⟩, ?_⟩
  · obtain ⟨a, ha, rfl | hmem⟩ := hs.exists_mem_skippedIds hkeyed hshallow (c := later)
      Registry.answers_builtin t hcontains.2.2 hgone.1
    · exact ha
    · rw [hancestors.2.2] at hmem
      exact absurd hmem List.not_mem_nil
  · obtain ⟨a, ha, rfl | hmem⟩ := hs.exists_mem_skippedIds hkeyed hshallow (c := other)
      Registry.answers_builtin t hcontains.2.1 hgone.2.2.1
    · exact ha
    · rw [hancestors.2.1] at hmem
      obtain rfl := List.mem_singleton.1 hmem
      rw [hs.contains_of_mem_skippedIds hshallow ha] at hgone
      exact nomatch hgone.2.2.2
  · have hlater : later.registry.Answers := Registry.answers_builtin
    obtain ⟨hdrop, hboth⟩ := Canvas.drops_scale_capture? hkeyed hshallow hcapture t hlater
    refine ⟨hdrop, hboth other (fun _ _ _ _ => rfl) 1 hcontains.1 ?_⟩
    rintro e (he | he)
    · exact hout later hgone.2.1 e he
    · exact hout other hgone.2.2.2 e he

end CanvasTransform
