import CanvasTransform.Proofs.Geometry.Spans
import CanvasTransform.Proofs.Document.Forest
import CanvasTransform.Proofs.Group.Fit
import CanvasTransform.Proofs.Selection.Capture

set_option autoImplicit false

/-! # Bounds, one level at a time

The bounds of a shape are asked for down to as many levels as the document has shapes. Where nothing
lies above itself that is more than there are, so that the bounds of a shape are what its kind makes
of the bounds of the shapes below it (`Registry.bounds_eq`).

Read exactly, the bounds of a group are spanned by the corners of its children, seen from its frame
(`Registry.spans_bounds_group`) or on the page (`Canvas.spans_bounds_group`). -/

namespace CanvasTransform

namespace Registry

variable {α : Type} [Scalar α] {d : Document α}

/-- Only groups ask for the bounds of other shapes. -/
theorem bounds_behaviour_of_ne_group {s : Shape α} (hk : s.kind ≠ .group) (f g : Shape α → Rect α) :
    (builtin.behaviour s.kind).bounds d f s = (builtin.behaviour s.kind).bounds d g s := by
  cases hs : s.kind with
  | group => exact absurd hs hk
  | _ => rfl

/-- Of the bounds of other shapes, a kind asks for those of the children only. -/
theorem bounds_behaviour_congr {f g : Shape α → Rect α} {s : Shape α}
    (h : ∀ c ∈ Behaviour.childrenOf d s, f c = g c) :
    (builtin.behaviour s.kind).bounds d f s = (builtin.behaviour s.kind).bounds d g s := by
  by_cases hk : s.kind = .group
  · rw [hk]
    show Behaviour.groupBounds d f s = Behaviour.groupBounds d g s
    rw [Behaviour.groupBounds, Behaviour.groupBounds,
      List.map_congr_left fun c hc => by rw [h c hc]]
  · exact bounds_behaviour_of_ne_group hk f g

/-- Bounds do not change with the number of levels, once it is more than there are. -/
theorem boundsWithin_succ (hd : d.Keyed) (hacyclic : d.Acyclic) (n : Nat) {s : Shape α}
    (hn : d.size < d.level s.id + n) :
    builtin.boundsWithin d (n + 1) s = builtin.boundsWithin d n s := by
  induction n generalizing s with
  | zero => exact absurd hn (Nat.not_lt.2 (hacyclic.level_le_size s.id))
  | succ n ih =>
      -- a child is one level down, and one level deeper
      rw [boundsWithin, boundsWithin]
      refine bounds_behaviour_congr fun c hc => ih ?_
      obtain ⟨hget, hparent⟩ := (Behaviour.mem_childrenOf hd).1 hc
      rw [hacyclic.level_eq_succ (Document.parentId?_eq_some_iff.2 ⟨c, hget, hparent⟩)]
      omega

/-- **Bounds, one level at a time**: the bounds of a shape are what its kind makes of the bounds of
    the shapes in the document. -/
theorem bounds_eq (hd : d.Keyed) (hacyclic : d.Acyclic) (s : Shape α) :
    builtin.bounds d s = (builtin.behaviour s.kind).bounds d (builtin.bounds d) s := by
  rw [bounds, boundsWithin]
  refine bounds_behaviour_congr fun c hc => (boundsWithin_succ hd hacyclic _ ?_).symm
  obtain ⟨hget, hparent⟩ := (Behaviour.mem_childrenOf hd).1 hc
  rw [hacyclic.level_eq_succ (Document.parentId?_eq_some_iff.2 ⟨c, hget, hparent⟩)]
  omega

/-- **A group is as large as its children.** In its own frame, its bounds are spanned by their
    corners, each child placed as its record says. -/
theorem spans_bounds_group {d : Document ℝ} {id : ShapeId} {s : Shape ℝ} (hd : d.Keyed)
    (hacyclic : d.Acyclic) (hs : d.get? id = some s) (hk : s.kind = .group)
    (hchildren : d.children (.shape id) ≠ []) :
    (builtin.bounds d s).Spans {p | ∃ c ∈ Behaviour.childrenOf d s,
      p ∈ c.localTransform.apply '' {q | q ∈ (builtin.bounds d c).corners}} := by
  obtain ⟨r, hr⟩ := Document.exists_unionAll? hd hs hchildren fun c =>
    (builtin.bounds d c).transformedBounds c.localTransform
  have hbounds : builtin.bounds d s = r := by
    rw [bounds_eq hd hacyclic, hk]
    show (Rect.unionAll? _).getD Rect.zero = r
    rw [hr, Option.getD_some]
  rw [hbounds]
  exact (Rect.unionAll?_map_eq_some_iff fun c _ =>
    Rect.spans_transformedBounds (builtin.bounds d c) c.localTransform).1 hr

end Registry

/-! ## Corners on the page -/

namespace Canvas

variable {c : Canvas ℝ} {id : ShapeId} {s : Shape ℝ} {page : Affine ℝ}

/-- The corners of a shape on the page, as a set; empty for a shape without a place on the page. -/
def cornerSet (c : Canvas ℝ) (id : ShapeId) : Set (Point ℝ) :=
  {p | ∃ ps, c.pageCorners id = .ok ps ∧ p ∈ ps}

/-- The corners of everything that hangs from a shape. -/
def childCorners (c : Canvas ℝ) (id : ShapeId) : Set (Point ℝ) :=
  {p | ∃ child, c.document.parentId? child = some id ∧ p ∈ c.cornerSet child}

theorem cornerSet_eq_of_ok {ps : List (Point ℝ)} (h : c.pageCorners id = .ok ps) :
    c.cornerSet id = {p | p ∈ ps} := by
  ext p
  simp [cornerSet, h]

theorem cornerSet_eq (hs : c.document.get? id = some s)
    (hpage : c.document.pageTransform? id = some page) :
    c.cornerSet id = page.apply '' {p | p ∈ (c.registry.bounds c.document s).corners} := by
  rw [cornerSet_eq_of_ok (pageCorners_eq hs hpage)]
  ext p
  simp

/-- On the page, the bounds of a group are spanned by the corners of its children, seen from its
    frame. -/
theorem spans_bounds_group {d : Document ℝ} (hd : d.Keyed) (hshallow : d.Shallow)
    (hs : d.get? id = some s) (hk : s.kind = .group) (hchildren : d.children (.shape id) ≠ [])
    (hpage : d.pageTransform? id = some page) :
    (Registry.builtin.bounds d s).Spans
      (page.inverse.apply '' Canvas.childCorners ⟨d, Registry.builtin⟩ id) := by
  -- the frame of a child lies in the frame of the group as the child's placement says
  have hchild : ∀ c : Shape ℝ, c ∈ Behaviour.childrenOf d s → d.parentId? c.id = some id ∧
      page.inverse.apply '' Canvas.cornerSet ⟨d, Registry.builtin⟩ c.id =
        c.localTransform.apply '' {p | p ∈ (Registry.builtin.bounds d c).corners} := by
    intro c hc
    obtain ⟨hget, hparent⟩ := (Behaviour.mem_childrenOf hd).1 hc
    rw [hd id s hs] at hparent
    have hplace : d.pageTransform? c.id = some (page * c.localTransform) := by
      rw [hshallow.pageTransform?_eq, hget, Option.bind_some, hparent]
      simp [hpage]
    refine ⟨Document.parentId?_eq_some_iff.2 ⟨c, hget, hparent⟩, ?_⟩
    rw [cornerSet_eq hget hplace, Set.image_image]
    refine Set.image_congr fun p _ => ?_
    rw [← Affine.apply_mul, ← Affine.mul_assoc,
      (hshallow.isRigid_pageTransform? hpage).inverse_mul, Affine.identity_mul]
  convert Registry.spans_bounds_group hd hshallow.acyclic hs hk hchildren using 1
  ext p
  constructor
  · rintro ⟨q, ⟨child, hp, hq⟩, rfl⟩
    obtain ⟨c, hget, hparent⟩ := Document.parentId?_eq_some_iff.1 hp
    obtain rfl := hd child c hget
    have hc : c ∈ Behaviour.childrenOf d s :=
      (Behaviour.mem_childrenOf hd).2 ⟨hget, by rw [hparent, hd id s hs]⟩
    exact ⟨c, hc, (hchild c hc).2 ▸ Set.mem_image_of_mem _ hq⟩
  · rintro ⟨c, hc, hp⟩
    obtain ⟨hparent, heq⟩ := hchild c hc
    rw [← heq] at hp
    obtain ⟨q, hq, rfl⟩ := hp
    exact ⟨q, ⟨c.id, hparent, hq⟩, rfl⟩

end Canvas

end CanvasTransform
