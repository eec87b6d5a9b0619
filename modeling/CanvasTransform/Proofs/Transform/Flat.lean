import CanvasTransform.Proofs.Numbers.Finite
import CanvasTransform.Proofs.Selection.Handles
import CanvasTransform.Proofs.Transform.Failures

set_option autoImplicit false

/-! # Dragging a flat selection

A factor is how far the handle is from the anchor now, divided by how far it was. Read exactly, it
was no distance away exactly when the box does not extend along the axis
(`OrientedBox.span_eq_zero_iff`), so that a box with a width and a height follows every handle, and
a flat one only the edges that it extends toward.

On doubles a division by zero answers with an infinity or with no number. Either shows in every map
that is composed with it, so that all shapes of the selection are left out
(`Snapshot.scale_of_not_isFinite`). There is one way around: a corner that keeps the ratio takes the
other factor in place of one that is not a number, as long as the pointer stays on the line of the
flat box. -/

namespace CanvasTransform

/-! ## What a factor divides by -/

namespace OrientedBox

variable {α : Type} [Scalar α]

/-- How far the handle is from the anchor before it is dragged, along the axes of the selection.
    Read exactly it is `handleExtent`. -/
def span (b : OrientedBox α) (h : Handle) (fromCenter : Bool) : Vec α :=
  h.positionOn b.rect - b.resizeAnchor h fromCenter

/-- How many times as far from the anchor the handle is when it was dragged by `delta`, along an
    axis. -/
def ratio (b : OrientedBox α) (h : Handle) (delta : Vec α) (fromCenter : Bool) (axis : Axis) : α :=
  axis.component (h.positionOn b.rect + delta.rotate (-b.rotation) - b.resizeAnchor h fromCenter) /
    axis.component (b.span h fromCenter)

/-- The extent of the box along an axis. -/
def extent (b : OrientedBox α) (axis : Axis) : α := axis.component ⟨b.rect.width, b.rect.height⟩

/-- **Nothing is divided by zero but where the box is flat**, in exact arithmetic. -/
theorem span_eq_zero_iff (b : OrientedBox ℝ) (h : Handle) (fromCenter : Bool) (axis : Axis)
    (hmoves : h.moves axis = true) :
    axis.component (b.span h fromCenter) = 0 ↔ b.extent axis = 0 := by
  obtain ⟨k, hspan, hx, hy⟩ := b.exists_handleExtent_eq h fromCenter
  rw [show b.span h fromCenter = b.handleExtent h fromCenter from rfl, hspan]
  cases axis with
  | x => exact mul_eq_zero.trans (or_iff_right (hx hmoves))
  | y => exact mul_eq_zero.trans (or_iff_right (hy hmoves))

/-- Along an axis that the handle moves the factor is the ratio, unless a corner keeps the ratio of
    the box. -/
theorem component_factors {b : OrientedBox α} {h : Handle} {flags : Flags} {locked : Bool}
    {axis : Axis} (delta : Vec α) (hmoves : h.moves axis = true)
    (hfree : (locked || flags.shift) = true → h.isEdge = true) :
    axis.component (b.resizeScale h delta flags locked).factors = b.ratio h delta flags.alt axis := by
  cases hkept : locked || flags.shift with
  | false =>
      rw [factors_resizeScale hkept]
      cases axis with
      | x => exact if_pos hmoves
      | y => exact if_pos hmoves
  | true =>
      cases h with
      | corner c => exact absurd (hfree hkept) nofun
      | rotate => exact absurd (hfree hkept) nofun
      | edge e =>
          unfold resizeScale
          simp only [hkept, if_true]
          cases e <;> cases axis <;> first | rfl | exact absurd hmoves nofun

/-! ## Factors on doubles -/

variable {b : OrientedBox Binary64} {h : Handle} {delta : Vec Binary64} {flags : Flags}
  {locked : Bool} {axis : Axis}

/-- A corner that keeps the ratio of the box gives both axes the larger magnitude. -/
theorem factors_corner (c : Corner) (hkept : (locked || flags.shift) = true) :
    let r := b.ratio (.corner c) delta flags.alt
    (b.resizeScale (.corner c) delta flags locked).factors =
      ⟨Binary64.withSignOf (Scalar.max (r .x).abs (r .y).abs) (r .x),
        Binary64.withSignOf (Scalar.max (r .x).abs (r .y).abs) (r .y)⟩ := by
  intro r
  unfold resizeScale
  simp only [hkept, if_true]
  rfl

/-- Factors come from ratios. They are finite if the ratios on the axes that the handle moves are. -/
theorem isFinite_factors_of_ratio (hratio : ∀ axis, h.moves axis = true →
    (b.ratio h delta flags.alt axis).isFinite = true) :
    (b.resizeScale h delta flags locked).factors.x.isFinite = true ∧
      (b.resizeScale h delta flags locked).factors.y.isFinite = true := by
  have hone : (1 : Binary64).isFinite = true := by decide
  cases hkept : locked || flags.shift with
  | false =>
      rw [factors_resizeScale hkept]
      constructor
      · by_cases hmoves : h.movesX = true
        · simp only [if_pos hmoves]
          exact hratio .x hmoves
        · simp only [if_neg hmoves]
          exact hone
      · by_cases hmoves : h.movesY = true
        · simp only [if_pos hmoves]
          exact hratio .y hmoves
        · simp only [if_neg hmoves]
          exact hone
  | true =>
      cases h with
      | corner c =>
          have hlarger := Binary64.isFinite_max_abs_of_isFinite (hratio .x rfl) (hratio .y rfl)
          rw [factors_corner c hkept]
          exact ⟨(Binary64.isFinite_withSignOf _ _).trans hlarger,
            (Binary64.isFinite_withSignOf _ _).trans hlarger⟩
      | edge e =>
          unfold resizeScale
          simp only [hkept, if_true]
          cases e with
          | left | right => exact ⟨hratio .x rfl, (Binary64.isFinite_abs _).trans (hratio .x rfl)⟩
          | top | bottom => exact ⟨(Binary64.isFinite_abs _).trans (hratio .y rfl), hratio .y rfl⟩
      | rotate =>
          unfold resizeScale
          simp only [hkept, if_true]
          exact ⟨hone, hone⟩

/-- A map of the page with a factor that is not finite is not finite. -/
theorem isFinite_factors (z : FrameScale Binary64) (hpage : (b.pageScale z).isFinite = true) :
    z.factors.x.isFinite = true ∧ z.factors.y.isFinite = true := by
  obtain ⟨hscaled, -⟩ := Affine.isFinite_of_mul (Affine.isFinite_of_mul hpage).1
  obtain ⟨hx, -, -, hy, -, -⟩ := Affine.isFinite_iff.1 (Affine.isFinite_of_mul hscaled).2
  exact ⟨hx, hy⟩

/-- **A flat box has no finite factors**: where a handle moves an axis along which it was at the
    anchor, not both factors are finite, unless a corner that keeps the ratio has no number for that
    axis. -/
theorem not_isFinite_factors (hmoves : h.moves axis = true)
    (hflat : (axis.component (b.span h flags.alt) == 0) = true)
    (hratio : (locked || flags.shift) = true → h.isEdge = false →
      Scalar.IsNumber (b.ratio h delta flags.alt axis)) :
    ¬ ((b.resizeScale h delta flags locked).factors.x.isFinite = true ∧
      (b.resizeScale h delta flags locked).factors.y.isFinite = true) := by
  have hquotient : (b.ratio h delta flags.alt axis).isFinite = false :=
    Binary64.isFinite_div_of_beq_zero hflat
  rintro ⟨hx, hy⟩
  by_cases hfree : (locked || flags.shift) = true → h.isEdge = true
  · -- the ratio is one of the two factors
    have hfactor : (axis.component (b.resizeScale h delta flags locked).factors).isFinite = true := by
      cases axis
      · exact hx
      · exact hy
    rw [component_factors delta hmoves hfree, hquotient] at hfactor
    exact Bool.false_ne_true hfactor
  · -- both factors have the larger of two magnitudes, of which one is an infinity
    obtain ⟨hkept, hedge⟩ := Classical.not_imp.1 hfree
    have hnumber := hratio hkept (Bool.eq_false_iff.2 hedge)
    cases h with
    | edge e => exact hedge rfl
    | rotate => cases axis <;> exact nomatch hmoves
    | corner c =>
        have hlarger : (Scalar.max (b.ratio (.corner c) delta flags.alt .x).abs
            (b.ratio (.corner c) delta flags.alt .y).abs).isFinite = false := by
          refine Binary64.isFinite_max_abs ?_
          cases axis
          · exact Or.inl ⟨hquotient, hnumber⟩
          · exact Or.inr ⟨hquotient, hnumber⟩
        rw [factors_corner c hkept, Binary64.isFinite_withSignOf, hlarger] at hx
        exact Bool.false_ne_true hx

end OrientedBox

/-! ## Maps that are not finite -/

theorem Member.scale_of_not_isFinite (m : Member Binary64) (registry : Registry Binary64)
    {t : Affine Binary64} (ht : t.isFinite = false) (parentPage : Affine Binary64) :
    m.scale registry t parentPage = .error (if parentPage.isInvertible
      then .invalidGeometry m.shape.id else .notInvertible m.shape.id) := by
  have htarget : ∀ old : Affine Binary64, (parentPage.inverse * t * old).isFinite = false := by
    intro old
    by_contra h
    have hinner := (Affine.isFinite_of_mul (Bool.eq_true_of_not_eq_false h)).1
    have hfinite := (Affine.isFinite_of_mul hinner).2
    rw [ht] at hfinite
    exact Bool.false_ne_true hfinite
  unfold scale
  simp only [htarget, Bool.false_eq_true, if_false]
  split_ifs <;> rfl

/-- **A map that is not finite resizes nothing.** All top-level shapes that are still there are left
    out, and nothing below them is looked at. -/
theorem Snapshot.scale_of_not_isFinite (s : Snapshot Binary64) (c : Canvas Binary64)
    {t : Affine Binary64} (ht : t.isFinite = false) :
    (s.scale c t).updates = [] ∧
    ∀ id ∈ s.topLevel, ∀ m, s.get? id = some m → c.document.contains id = true →
      (if m.parentPageTransform.isInvertible then TransformError.invalidGeometry m.shape.id
        else .notInvertible m.shape.id) ∈ (s.scale c t).skipped := by
  constructor
  · refine List.eq_nil_iff_forall_not_mem.2 fun p hp => ?_
    obtain ⟨-, -, -, hscale⟩ := scales_of_mem_scale hp
    rw [Member.scale_of_not_isFinite _ c.registry ht] at hscale
    cases hscale
  · intro id hid m hm hcontains
    obtain ⟨n, hn⟩ : ∃ n, s.members.size = n + 1 := by
      have hkey : id ∈ s.members.keys := by
        rw [Std.TreeMap.mem_keys, Std.TreeMap.mem_iff_isSome_getElem?]
        exact Option.isSome_iff_exists.2 ⟨m, hm⟩
      have hpos := List.length_pos_of_mem hkey
      rw [Std.TreeMap.length_keys] at hpos
      exact ⟨s.members.size - 1, by omega⟩
    rw [scale, Outcome.skipped_concat]
    refine List.mem_flatMap.2 ⟨s.scaleSubtree c t s.members.size id m.parentPageTransform,
      List.mem_map.2 ⟨id, hid, by rw [hm]⟩, ?_⟩
    rw [hn]
    rw [scaleSubtree_of_error hm hcontains (m.scale_of_not_isFinite c.registry ht _)]
    exact List.mem_singleton_self _

/-! ## Flat selections -/

namespace Snapshot

/-- A selection whose box is flat along an axis that the handle moves is left out of the resize. -/
theorem scale_of_flat (s : Snapshot Binary64) (c : Canvas Binary64) {h : Handle}
    {delta : Vec Binary64} {flags : Flags} {locked : Bool} {axis : Axis}
    (hmoves : h.moves axis = true) (hflat : (axis.component (s.box.span h flags.alt) == 0) = true)
    (hratio : (locked || flags.shift) = true → h.isEdge = false →
      Scalar.IsNumber (s.box.ratio h delta flags.alt axis)) :
    let z := s.box.resizeScale h delta flags locked
    let o := s.scale c (s.box.pageScale z)
    ¬ (z.factors.x.isFinite = true ∧ z.factors.y.isFinite = true) ∧ o.updates = [] ∧
      ∀ id ∈ s.topLevel, ∀ m, s.get? id = some m → c.document.contains id = true →
        (if m.parentPageTransform.isInvertible then TransformError.invalidGeometry m.shape.id
          else .notInvertible m.shape.id) ∈ o.skipped := by
  intro z o
  have hfactors := OrientedBox.not_isFinite_factors hmoves hflat hratio
  have hpage : (s.box.pageScale z).isFinite = false := by
    by_contra hpage
    exact hfactors (OrientedBox.isFinite_factors z (Bool.eq_true_of_not_eq_false hpage))
  exact ⟨hfactors, s.scale_of_not_isFinite c hpage⟩

/-- **A drag needs an extent along each axis that it moves.** Read exactly, the handle is away from
    its anchor just where the box has one, and then it follows the pointer, or drags both axes alike
    when the ratio is kept. On doubles the factors are finite if the ratios are. But a handle that
    was at its anchor along an axis that it moves has no finite factors, and nothing of the
    selection is resized: its top-level shapes are left out as having no finite geometry. The
    exception is a corner that keeps the ratio and has no number for that axis. -/
theorem drag_of_extent (h : Handle) (flags : Flags) (locked : Bool) :
    (∀ (b : OrientedBox ℝ) (axis : Axis), h.moves axis = true →
      (axis.component (b.span h flags.alt) = 0 ↔ b.extent axis = 0)) ∧
    (∀ (b : OrientedBox ℝ) (delta : Vec ℝ),
      (∀ axis, h.moves axis = true → b.extent axis ≠ 0) →
      let z := b.resizeScale h delta flags locked
      ((locked || flags.shift) = false → b.Follows h delta (b.pageScale z)) ∧
      ((locked || flags.shift) = true →
        ∃ k, |z.factors.x| = k ∧ |z.factors.y| = k ∧ b.DragsBy h delta flags.alt k)) ∧
    (∀ (b : OrientedBox Binary64) (delta : Vec Binary64),
      (∀ axis, h.moves axis = true → (b.ratio h delta flags.alt axis).isFinite = true) →
      let z := b.resizeScale h delta flags locked
      z.factors.x.isFinite = true ∧ z.factors.y.isFinite = true) ∧
    ∀ (s : Snapshot Binary64) (c : Canvas Binary64) (delta : Vec Binary64) (axis : Axis),
      h.moves axis = true → (axis.component (s.box.span h flags.alt) == 0) = true →
      ((locked || flags.shift) = true → h.isEdge = false →
        Scalar.IsNumber (s.box.ratio h delta flags.alt axis)) →
      let z := s.box.resizeScale h delta flags locked
      let o := s.scale c (s.box.pageScale z)
      ¬ (z.factors.x.isFinite = true ∧ z.factors.y.isFinite = true) ∧ o.updates = [] ∧
        ∀ id ∈ s.topLevel, ∀ m, s.get? id = some m → c.document.contains id = true →
          (if m.parentPageTransform.isInvertible then TransformError.invalidGeometry m.shape.id
            else .notInvertible m.shape.id) ∈ o.skipped := by
  refine ⟨fun b => b.span_eq_zero_iff h flags.alt, ?_, ?_, ?_⟩
  · intro b delta hextent z
    constructor
    · intro hfree
      exact OrientedBox.follows_resizeScale hfree (hextent .x) (hextent .y)
    · intro hkept
      exact b.dragsBy_resizeScale h delta hkept (hextent .x) (hextent .y)
  · intro b delta hratio
    exact OrientedBox.isFinite_factors_of_ratio hratio
  · intro s c delta axis hmoves hflat hratio
    exact s.scale_of_flat c hmoves hflat hratio

/-! ### One shape on the page -/

/-- A snapshot of one shape that hangs from the page and is not turned, with the bounds it has there. -/
def single (shape : Shape Binary64) (bounds : Rect Binary64) : Snapshot Binary64 where
  topLevel := [shape.id]
  members := (∅ : Std.TreeMap ShapeId (Member Binary64) compare).insert shape.id
    ⟨shape, shape.localTransform, Affine.identity, []⟩
  box := ⟨bounds, 0⟩
  aspectLocked := false
  pageBounds := bounds
  candidates := .ofShapes []

theorem get?_single (shape : Shape Binary64) (bounds : Rect Binary64) :
    (single shape bounds).get? shape.id =
      some ⟨shape, shape.localTransform, Affine.identity, []⟩ :=
  Std.TreeMap.getElem?_insert_self

/-- A rectangle that was collapsed to no height does not follow its bottom edge any more. Of a box
    like that, the right edge still follows the pointer. -/
theorem drag_of_extent_collapsed :
    let flat : OrientedBox ℝ := ⟨⟨0, 0, 10, 0⟩, 0⟩
    let collapsed : Shape Binary64 := Shape.rectangle 1 0 0 10.0 0
    let s := single collapsed ⟨0, 0, 10.0, 0⟩
    let flags : Flags := { Modifiers.none.flags with alt := true }
    let o := s.scale ⟨Document.empty.put collapsed, Registry.builtin⟩
      (s.box.pageScale (s.box.resizeScale (.edge .bottom) ⟨0, 50.0⟩ flags false))
    Axis.y.component (flat.span (.edge .bottom) true) = 0 ∧
      flat.Follows (.edge .right) ⟨5, 0⟩
        (flat.pageScale (flat.resizeScale (.edge .right) ⟨5, 0⟩ Modifiers.none.flags false)) ∧
      o.updates = [] ∧ .invalidGeometry 1 ∈ o.skipped := by
  intro flat collapsed s flags o
  obtain ⟨hspan, -, -, hstuck⟩ := drag_of_extent (.edge .bottom) flags false
  obtain ⟨-, hfollows, -⟩ := drag_of_extent (.edge .right) Modifiers.none.flags false
  have hinvertible : (Affine.identity : Affine Binary64).isInvertible = true := by decide +kernel
  obtain ⟨-, hupdates, hskipped⟩ := hstuck s ⟨Document.empty.put collapsed, Registry.builtin⟩
    ⟨0, 50.0⟩ .y rfl (by decide +kernel) (fun hkept => absurd hkept (by decide))
  have hskipped := hskipped 1 (List.mem_singleton_self 1) _ (get?_single collapsed _)
    (by decide +kernel)
  rw [hinvertible] at hskipped
  refine ⟨?_, ?_, hupdates, hskipped⟩
  · refine (hspan flat .y rfl).2 ?_
    norm_num [flat, OrientedBox.extent, Axis.component, Rect.height]
  · refine (hfollows flat ⟨5, 0⟩ ?_).1 rfl
    rintro (_ | _) hmoves
    · norm_num [flat, OrientedBox.extent, Axis.component, Rect.width]
    · exact absurd hmoves (by decide)

/-- The snapshot of an upright line has a box without a width. -/
theorem exists_capture?_line : ∃ s : Snapshot ℝ,
    Canvas.capture? ⟨Document.empty.put (Shape.line 1 0 0 [⟨0, 0⟩, ⟨0, 100⟩]), Registry.builtin⟩ [1]
      Camera.initial = some s ∧ s.box = ⟨⟨0, 0, 0, 100⟩, 0⟩ := by
  let d : Document ℝ := Document.empty.put (Shape.line 1 0 0 [⟨0, 0⟩, ⟨0, 100⟩])
  have htop : d.topLevel [1] = [1] := by decide +kernel +revert
  have hget : d.get? 1 = some (Shape.line 1 0 0 [⟨0, 0⟩, ⟨0, 100⟩]) := rfl
  have hpage : d.pageTransform? 1 = some Affine.identity := by
    rw [(Document.shallow_put rfl).pageTransform?_eq, hget, ← Affine.placement_zero]
    rfl
  have hbounds : Registry.builtin.bounds d (Shape.line 1 0 0 [⟨0, 0⟩, ⟨0, 100⟩]) = ⟨0, 0, 0, 100⟩ := by
    show (Rect.boundsOf? [⟨0, 0⟩, ⟨0, 100⟩]).getD Rect.zero = _
    simp [Rect.boundsOf?, Rect.ofPoints, Rect.unionPoint, Scalar.min_eq, Scalar.max_eq]
  obtain ⟨box, hbox⟩ := (@Canvas.exists_selectionBox?_iff ⟨d, Registry.builtin⟩ [1]).2
    ⟨1, List.mem_singleton_self 1, _, hpage⟩
  obtain ⟨s, hcapture⟩ := @Canvas.exists_capture? ⟨d, Registry.builtin⟩ box [1]
    (by rw [htop]; exact hbox) Camera.initial
  obtain ⟨htop', hbox, -⟩ := Canvas.get?_capture? hcapture 1
  rw [htop'.trans htop] at hbox
  exact ⟨s, hcapture,
    Canvas.selectionBox?_of_identity hget hpage hbounds (by norm_num) (by norm_num) hbox⟩

/-- **A straight line cannot be dragged by a corner.** A vertical line is captured with a box that
    has no width, so the factor along x divides by zero, and the line is left out although it has a
    height that could be scaled. -/
theorem vertical_line_left_out :
    let line : Shape Binary64 := Shape.line 1 0 0 [⟨0, 0⟩, ⟨0, 100.0⟩]
    let s := single line ⟨0, 0, 0, 100.0⟩
    let z := s.box.resizeScale (.corner .bottomRight) ⟨10.0, 50.0⟩ Modifiers.none.flags false
    let o := s.scale ⟨Document.empty.put line, Registry.builtin⟩ (s.box.pageScale z)
    (∃ s : Snapshot ℝ, Canvas.capture?
        ⟨Document.empty.put (Shape.line 1 0 0 [⟨0, 0⟩, ⟨0, 100⟩]), Registry.builtin⟩ [1]
        Camera.initial = some s ∧ s.box = ⟨⟨0, 0, 0, 100⟩, 0⟩ ∧
      Axis.x.component (s.box.span (.corner .bottomRight) false) = 0) ∧
    ¬ (z.factors.x.isFinite = true ∧ z.factors.y.isFinite = true) ∧
      o.updates = [] ∧ .invalidGeometry 1 ∈ o.skipped := by
  intro line s z o
  have hinvertible : (Affine.identity : Affine Binary64).isInvertible = true := by decide +kernel
  obtain ⟨hfactors, hupdates, hskipped⟩ := @scale_of_flat s
    ⟨Document.empty.put line, Registry.builtin⟩ (.corner .bottomRight) ⟨10.0, 50.0⟩
    Modifiers.none.flags false .x rfl (by decide +kernel) (fun hkept => absurd hkept (by decide))
  have hskipped := hskipped 1 (List.mem_singleton_self 1) _ (get?_single line _) (by decide +kernel)
  rw [hinvertible] at hskipped
  obtain ⟨snapshot, hcapture, hbox⟩ := exists_capture?_line
  refine ⟨⟨snapshot, hcapture, hbox, ?_⟩, hfactors, hupdates, hskipped⟩
  refine (snapshot.box.span_eq_zero_iff (.corner .bottomRight) false .x rfl).2 ?_
  rw [hbox]
  exact sub_self (0 : ℝ)

end Snapshot

end CanvasTransform
