import CanvasTransform.Proofs.Session.Resizing
import CanvasTransform.Proofs.Transform.Aspect

set_option autoImplicit false

/-! # Resizing an aspect-locked selection

A resize session whose selection keeps its aspect ratio, or whose shift flag is set, asks for factors
of one magnitude: by how much the handle was dragged away from its anchor, along the axis on which
that is more (`OrientedBox.DragsBy`). Factors that are asked for in one step are evened out to the
larger of the two. Either way the map of the page multiplies all lengths by one number, so every
captured shape becomes larger or smaller by it (`Editor.magnified_of_keepsAspect`).

In exact arithmetic nothing fails as long as nobody else removes shapes. Then what the store holds is
the update that was computed last, whatever the session did before (`Course.Undisturbed.agree`). -/

namespace CanvasTransform

/-! ## The factor -/

theorem Vec.abs_equalize_eq (v : Vec ℝ) :
    |v.equalize.x| = max |v.x| |v.y| ∧ |v.equalize.y| = max |v.x| |v.y| := by
  have hsign : ∀ a b : ℝ, |Scalar.copysign a b| = |a| := fun a b => Scalar.LawfulSigns.abs_copysign a b
  have hlarger : Scalar.max (Scalar.abs v.x) (Scalar.abs v.y) = max |v.x| |v.y| := Scalar.max_eq _ _
  have hnonneg : 0 ≤ max |v.x| |v.y| := (abs_nonneg v.x).trans (le_max_left _ _)
  simp only [equalize, hsign, hlarger, abs_of_nonneg hnonneg, and_self]

/-- Evened out, factors take the larger magnitude. -/
theorem Editor.abs_lockedFactors (factors : Vec ℝ) :
    |(lockedFactors factors true).x| = max |factors.x| |factors.y| ∧
      |(lockedFactors factors true).y| = max |factors.x| |factors.y| := by
  unfold lockedFactors
  split
  · exact factors.abs_equalize_eq
  · next h =>
    have heq : |factors.x| = |factors.y| := by
      by_contra hne
      have hne' : Scalar.abs factors.x ≠ Scalar.abs factors.y := hne
      exact h (by simpa using hne')
    rw [heq, max_self]
    exact ⟨rfl, rfl⟩

namespace OrientedBox

/-- From the anchor to where the handle was, along the axes of the selection. -/
noncomputable def handleExtent (b : OrientedBox ℝ) (h : Handle) (fromCenter : Bool) : Vec ℝ :=
  h.positionOn b.rect - b.resizeAnchor h fromCenter

/-- From the anchor to where the handle is, when it was dragged by `delta` on the page. -/
noncomputable def handleReach (b : OrientedBox ℝ) (h : Handle) (delta : Vec ℝ) (fromCenter : Bool) :
    Vec ℝ :=
  h.positionOn b.rect + delta.rotate (-b.rotation) - b.resizeAnchor h fromCenter

/-- The drag has brought the handle `k` times as far from the anchor along an axis that it moves, and
    not farther along the other one. A handle that moves no axis asks for no change. -/
structure DragsBy (b : OrientedBox ℝ) (h : Handle) (delta : Vec ℝ) (fromCenter : Bool) (k : ℝ) :
    Prop where
  le_x : h.movesX = true →
    |(b.handleReach h delta fromCenter).x| ≤ k * |(b.handleExtent h fromCenter).x|
  le_y : h.movesY = true →
    |(b.handleReach h delta fromCenter).y| ≤ k * |(b.handleExtent h fromCenter).y|
  attained :
    h.movesX = true ∧
        |(b.handleReach h delta fromCenter).x| = k * |(b.handleExtent h fromCenter).x| ∨
      h.movesY = true ∧
        |(b.handleReach h delta fromCenter).y| = k * |(b.handleExtent h fromCenter).y| ∨
      h.movesX = false ∧ h.movesY = false ∧ k = 1

/-- The anchor of a handle has its place in fractions of width and height, which is not that of the
    handle along an axis that the handle moves. -/
theorem exists_resizeAnchor_eq (b : OrientedBox ℝ) (h : Handle) (fromCenter : Bool) :
    ∃ u : Vec ℝ, b.resizeAnchor h fromCenter = b.rect.position u ∧
      (h.movesX = true → (h.unit : Vec ℝ).x - u.x ≠ 0) ∧
      (h.movesY = true → (h.unit : Vec ℝ).y - u.y ≠ 0) := by
  cases fromCenter with
  | false =>
      refine ⟨h.opposite.unit, rfl, ?_⟩
      rcases h with (_ | _ | _ | _) | (_ | _ | _ | _) | _ <;>
        norm_num [Handle.unit, Handle.opposite, Handle.movesX, Handle.movesY]
  | true =>
      refine ⟨⟨1 / 2, 1 / 2⟩, ?_, ?_⟩
      · ext
        · show (0.5 : ℝ) * (b.rect.x0 + b.rect.x1) = b.rect.x0 + 1 / 2 * (b.rect.x1 - b.rect.x0)
          ring
        · show (0.5 : ℝ) * (b.rect.y0 + b.rect.y1) = b.rect.y0 + 1 / 2 * (b.rect.y1 - b.rect.y0)
          ring
      · rcases h with (_ | _ | _ | _) | (_ | _ | _ | _) | _ <;>
          norm_num [Handle.unit, Handle.movesX, Handle.movesY]

/-- The handle is away from its anchor by a fraction of the box, and by none of it only along an axis
    that the handle does not move. -/
theorem exists_handleExtent_eq (b : OrientedBox ℝ) (h : Handle) (fromCenter : Bool) :
    ∃ k : Vec ℝ, b.handleExtent h fromCenter = ⟨k.x * b.rect.width, k.y * b.rect.height⟩ ∧
      (h.movesX = true → k.x ≠ 0) ∧ (h.movesY = true → k.y ≠ 0) := by
  obtain ⟨u, hanchor, hx, hy⟩ := b.exists_resizeAnchor_eq h fromCenter
  refine ⟨⟨(h.unit : Vec ℝ).x - u.x, (h.unit : Vec ℝ).y - u.y⟩, ?_, hx, hy⟩
  rw [handleExtent, hanchor, Handle.positionOn]
  ext
  · simp only [Rect.position, Point.sub_x]
    ring
  · simp only [Rect.position, Point.sub_y]
    ring

/-- Where the box extends along an axis that the handle moves, the handle is away from its anchor. -/
theorem handleExtent_ne_zero (b : OrientedBox ℝ) (h : Handle) (fromCenter : Bool) :
    (h.movesX = true → b.rect.width ≠ 0 → (b.handleExtent h fromCenter).x ≠ 0) ∧
      (h.movesY = true → b.rect.height ≠ 0 → (b.handleExtent h fromCenter).y ≠ 0) := by
  obtain ⟨k, hextent, hx, hy⟩ := b.exists_handleExtent_eq h fromCenter
  rw [hextent]
  exact ⟨fun hmoves hw => mul_ne_zero (hx hmoves) hw, fun hmoves hh => mul_ne_zero (hy hmoves) hh⟩

/-- **A drag that keeps the aspect ratio** has factors of one magnitude, and it is the one that the
    handle was dragged by. -/
theorem dragsBy_resizeScale (b : OrientedBox ℝ) (h : Handle) (delta : Vec ℝ) {flags : Flags}
    {locked : Bool} (hkept : (locked || flags.shift) = true)
    (hwidth : h.movesX = true → b.rect.width ≠ 0) (hheight : h.movesY = true → b.rect.height ≠ 0) :
    ∃ k, |(b.resizeScale h delta flags locked).factors.x| = k ∧
      |(b.resizeScale h delta flags locked).factors.y| = k ∧ b.DragsBy h delta flags.alt k := by
  obtain ⟨hex, hey⟩ := b.handleExtent_ne_zero h flags.alt
  have hratio : ∀ r {e : ℝ}, e ≠ 0 → |r| = |r / e| * |e| := by
    intro r e he
    rw [abs_div, div_mul_cancel₀ _ (abs_ne_zero.2 he)]
  have hx := fun hmoves => hratio (b.handleReach h delta flags.alt).x (hex hmoves (hwidth hmoves))
  have hy := fun hmoves => hratio (b.handleReach h delta flags.alt).y (hey hmoves (hheight hmoves))
  clear hex hey hwidth hheight hratio
  cases h with
  | corner c =>
      simp only [resizeScale, hkept, if_true, Handle.movesX, Handle.movesY, Vec.abs_equalize_eq]
      refine ⟨_, rfl, rfl, fun _ => ?_, fun _ => ?_, ?_⟩
      · rw [hx rfl]
        exact mul_le_mul_of_nonneg_right (le_max_left _ _) (abs_nonneg _)
      · rw [hy rfl]
        exact mul_le_mul_of_nonneg_right (le_max_right _ _) (abs_nonneg _)
      · rcases max_choice |(b.handleReach (.corner c) delta flags.alt).x /
          (b.handleExtent (.corner c) flags.alt).x| |(b.handleReach (.corner c) delta flags.alt).y /
          (b.handleExtent (.corner c) flags.alt).y| with hmax | hmax
        · exact Or.inl ⟨rfl, (hx rfl).trans (congrArg (· * _) hmax.symm)⟩
        · exact Or.inr (Or.inl ⟨rfl, (hy rfl).trans (congrArg (· * _) hmax.symm)⟩)
  | edge side =>
      cases side with
      | left | right =>
          simp only [resizeScale, hkept, if_true, Handle.movesX]
          exact ⟨_, rfl, abs_abs _, fun _ => (hx rfl).le, (absurd · Bool.false_ne_true),
            Or.inl ⟨rfl, hx rfl⟩⟩
      | top | bottom =>
          simp only [resizeScale, hkept, if_true, Handle.movesY]
          exact ⟨_, abs_abs _, rfl, (absurd · Bool.false_ne_true), fun _ => (hy rfl).le,
            Or.inr (Or.inl ⟨rfl, hy rfl⟩)⟩
  | rotate =>
      refine ⟨1, ?_, ?_, (absurd · Bool.false_ne_true), (absurd · Bool.false_ne_true),
        Or.inr (Or.inr ⟨rfl, rfl, rfl⟩)⟩ <;>
        simp [resizeScale, Handle.movesX, Handle.movesY]

end OrientedBox

/-! ## Resize sessions -/

namespace Interim

variable {state : Editor ℝ × Store ℝ} {config : Config ℝ} {snapshot : Snapshot ℝ}
  {d₀ : Document ℝ} {s : Session ℝ} {h : Handle}

/-- In exact arithmetic a resize session leaves nothing out. -/
theorem skipped_eq_nil (hsteady : Editor.Steady config snapshot d₀ state)
    (hsnapshot : snapshot.Reflects d₀) (hshallow : d₀.Shallow)
    (hs : state.1.session? = some s) (hkind : s.kind = .resize h) (step : Interim ℝ) :
    step.skipped state = [] := by
  obtain ⟨e, store⟩ := state
  obtain ⟨s', hs', rfl, hsettling⟩ := hsteady.session
  obtain rfl := Option.some.inj (hs.symm.trans hs')
  cases hsteer : step.steer? e.config s with
  | some s' =>
      obtain ⟨hkind', -, hsnapshot', -⟩ := steer?_keeps hsteer
      rw [skipped_of_steer hs hsteer, Editor.updateOf, Session.outcome_of_kind (hkind'.trans hkind),
        hsnapshot']
      exact hsnapshot.skipped_scale hshallow hsettling.tree.contains_eq _
  | none =>
      rw [skipped, hs]
      simp only [Option.bind_some, hsteer]

theorem skippedAll_eq_nil (hsnapshot : snapshot.Reflects d₀) (hkeyed : d₀.Keyed)
    (hshallow : d₀.Shallow) {steps : List (Interim ℝ)}
    (hsteady : Editor.Steady config snapshot d₀ state) (hs : state.1.session? = some s)
    (hkind : s.kind = .resize h) (hsteps : ∀ step ∈ steps, step.isRemoval = false) :
    skippedAll state steps = [] := by
  induction steps generalizing state s with
  | nil => rfl
  | cons step steps ih =>
      have hskip := skipped_eq_nil hsteady hsnapshot hshallow hs hkind step
      obtain ⟨s', hs', hkind'⟩ := kind_run _ hs step
      rw [skippedAll, hskip, List.nil_append]
      exact ih (steady_run hsteady hkeyed hshallow (hsteps step List.mem_cons_self) hskip) hs'
        (hkind'.trans hkind) fun step hstep => hsteps step (List.mem_cons_of_mem _ hstep)

end Interim

/-- Every captured shape is in the document, `k` times as large as it was captured. -/
def Snapshot.MagnifiedIn (s : Snapshot ℝ) (d : Document ℝ) (k : ℝ) : Prop :=
  ∀ id m, s.get? id = some m → ∃ shape, d.get? id = some shape ∧ m.shape.Magnified shape k

/-- The course opens a session, nobody else writes to the store meanwhile, and the last thing asked
    for is a move or a change of the modifiers. -/
structure Course.Undisturbed (c : Course ℝ) (state : Editor ℝ × Store ℝ) : Prop where
  opens : (c.opening.run state).1.phase.isSession = true
  undisturbed : ∀ step ∈ c.steps, step.isRemoval = false
  steered : (c.opening.lead ++ c.steps).getLast?.any Interim.isSteering = true

/-- What a resize session shows, however it came there. -/
theorem Course.Undisturbed.agree {c : Course ℝ} {e : Editor ℝ} {store : Store ℝ}
    {snapshot : Snapshot ℝ} {s : Session ℝ} {h : Handle} (hc : c.Undisturbed (e, store))
    (hregistry : e.registry = Registry.builtin) (hkeyed : store.document.Keyed)
    (hshallow : store.document.Shallow) (hbefore : e.phase.isSession = false)
    (hcapture : e.capture? store.document = some snapshot)
    (hs : (c.run (e, store)).1.session? = some s) (hkind : s.kind = .resize h) :
    s.snapshot = snapshot ∧ (c.run (e, store)).2.document.Agree
      (store.document.settle Registry.builtin (snapshot.scale ⟨store.document, Registry.builtin⟩
        (snapshot.box.pageScale (snapshot.box.resizeScale h
          (s.snappedHandleDrag e.config (c.run (e, store)).1.camera.zoom h).1 s.flags
          snapshot.aspectLocked))).updates) := by
  obtain ⟨kind, origin, flags, snapshot', hcapture', -, hrun⟩ := Course.run_eq hbefore hc.opens
  obtain rfl := Option.some.inj (hcapture'.symm.trans hcapture)
  have hsteady := Editor.steady_withSession hregistry hkeyed hcapture kind origin flags
  have hremoval : ∀ step ∈ c.opening.lead ++ c.steps, step.isRemoval = false := by
    intro step hstep
    rcases List.mem_append.1 hstep with hstep | hstep
    · exact Opening.isRemoval_of_mem_lead hstep
    · exact hc.undisturbed step hstep
  -- the session was begun as a resize, since no step changes its kind
  have hbegun := Editor.session?_withSession e kind origin flags snapshot'
  obtain ⟨s', hs', hkind'⟩ := Interim.kind_runAll store hbegun (c.opening.lead ++ c.steps)
  rw [← hrun] at hs'
  obtain rfl := Option.some.inj (hs'.symm.trans hs)
  have hskip := Interim.skippedAll_eq_nil (Canvas.reflects_capture? hkeyed hshallow hcapture) hkeyed
    hshallow hsteady hbegun (hkind'.symm.trans hkind) hremoval
  obtain ⟨hsteady', s'', hs'', hagree, -⟩ :=
    Interim.showing_runAll hkeyed hshallow hsteady hremoval hc.steered hskip
  rw [← hrun] at hsteady' hs'' hagree
  obtain rfl := Option.some.inj (hs'.symm.trans hs'')
  obtain ⟨s'', hs'', hsnapshot, -⟩ := hsteady'.session
  obtain rfl := Option.some.inj (hs'.symm.trans hs'')
  refine ⟨hsnapshot, ?_⟩
  rwa [Editor.updateOf, Session.outcome_of_kind hkind, Editor.canvas, hsteady'.registry,
    hsteady'.config, hsnapshot] at hagree

/-- **A selection that keeps its aspect ratio is never distorted.** There is one factor by which all
    captured shapes become larger or smaller, in a drag of any handle and in one step, wherever the
    pointer goes, whatever snaps, and however the shapes are nested, turned and mirrored. In a drag it
    is the factor that the handle was dragged by, also for other selections while shift is held; in
    one step it is the larger of the two that are asked for. Factors that are too small to be read
    back are left out. -/
theorem Editor.magnified_of_keepsAspect {e : Editor ℝ} {store : Store ℝ} {snapshot : Snapshot ℝ}
    (hregistry : e.registry = Registry.builtin) (hkeyed : store.document.Keyed)
    (hshallow : store.document.Shallow) (hbefore : e.phase.isSession = false)
    (hcapture : e.capture? store.document = some snapshot) :
    let box := snapshot.box
    let keepsAspect :=
      store.document.KeepsAspect (store.document.topLevel e.selection) box.rotation
    (∀ (c : Course ℝ) (s : Session ℝ) (h : Handle), c.Undisturbed (e, store) →
      (c.run (e, store)).1.session? = some s → s.kind = .resize h →
      (h.movesX = true → box.rect.width ≠ 0) → (h.movesY = true → box.rect.height ≠ 0) →
      keepsAspect ∨ s.flags.shift = true →
      ∃ k, box.DragsBy h
          (s.snappedHandleDrag e.config (c.run (e, store)).1.camera.zoom h).1 s.flags.alt k ∧
        (Scalar.coordTolerance < k → snapshot.MagnifiedIn (c.run (e, store)).2.document k)) ∧
    (keepsAspect → ∀ (factors : Vec ℝ) (origin : ScaleOrigin ℝ),
      Scalar.coordTolerance < max |factors.x| |factors.y| →
      snapshot.MagnifiedIn (e.resizeSelection store factors origin).2.document
        (max |factors.x| |factors.y|)) := by
  intro box keepsAspect
  have hreflects := Canvas.reflects_capture? hkeyed hshallow hcapture
  have hlocked : keepsAspect → snapshot.aspectLocked = true := by
    intro h
    refine Canvas.aspectLocked_capture? hregistry hkeyed hshallow hcapture ?_
    rw [(Canvas.get?_capture? hcapture 0).1]
    exact h
  -- whatever agrees with the scaled selection after the containers reacted has it magnified
  have hmagnified : ∀ {d : Document ℝ} {scale : FrameScale ℝ} {k : ℝ},
      |scale.factors.x| = k → |scale.factors.y| = k → Scalar.coordTolerance < k →
      d.Agree (store.document.settle Registry.builtin (snapshot.scale
        ⟨store.document, Registry.builtin⟩ (box.pageScale scale)).updates) →
      snapshot.MagnifiedIn d k := by
    intro d scale k hx hy hk hagree id m hm
    obtain ⟨shape, hshape, hscaled⟩ := hreflects.magnified_settle hkeyed hshallow
      (Affine.magnifies_pageScale box hx hy scale.anchor) hk hm
    exact ⟨shape, (hagree id).trans hshape, hscaled⟩
  constructor
  · intro c s h hc hs hkind hwidth hheight hkept
    obtain ⟨-, hagree⟩ := hc.agree hregistry hkeyed hshallow hbefore hcapture hs hkind
    have hlocks : (snapshot.aspectLocked || s.flags.shift) = true :=
      Bool.or_eq_true_iff.2 (hkept.imp_left hlocked)
    obtain ⟨k, hx, hy, hdrags⟩ := box.dragsBy_resizeScale h
      (s.snappedHandleDrag e.config (c.run (e, store)).1.camera.zoom h).1 hlocks hwidth hheight
    exact ⟨k, hdrags, fun hk => hmagnified hx hy hk hagree⟩
  · intro hkeeps factors origin hk
    have hagree := resizeSelection_of_capture? hbefore hcapture factors origin
    obtain ⟨hx, hy⟩ := abs_lockedFactors factors
    rw [hlocked hkeeps, hregistry, canvas, hregistry] at hagree
    exact hmagnified hx hy hk hagree

/-- A corner dragged to twice the width and half as much again as the height is dragged by two. -/
theorem OrientedBox.eq_two_of_dragsBy {k : ℝ} (h : (⟨⟨0, 0, 10, 10⟩, 0⟩ : OrientedBox ℝ).DragsBy
    (.corner .bottomRight) ⟨10, 5⟩ false k) : k = 2 := by
  have hcos : (Scalar.cos 0 : ℝ) = 1 := Real.cos_zero
  have hsin : (Scalar.sin 0 : ℝ) = 0 := Real.sin_zero
  have hextent : (⟨⟨0, 0, 10, 10⟩, 0⟩ : OrientedBox ℝ).handleExtent (.corner .bottomRight) false =
      ⟨10, 10⟩ := by
    ext <;> simp [handleExtent, resizeAnchor, Handle.positionOn, Handle.unit, Handle.opposite,
      Rect.position, Rect.width, Rect.height]
  have hreach : (⟨⟨0, 0, 10, 10⟩, 0⟩ : OrientedBox ℝ).handleReach (.corner .bottomRight) ⟨10, 5⟩
      false = ⟨20, 15⟩ := by
    ext <;> simp [handleReach, resizeAnchor, Handle.positionOn, Handle.unit, Handle.opposite,
      Rect.position, Rect.width, Rect.height, Vec.rotate, hcos, hsin] <;> norm_num
  obtain ⟨hx, hy, hattained⟩ := h
  rw [hextent, hreach] at hx hy hattained
  have hten : |(10 : ℝ)| = 10 := abs_of_pos (by norm_num)
  have htwenty : |(20 : ℝ)| = 20 := abs_of_pos (by norm_num)
  have hfifteen : |(15 : ℝ)| = 15 := abs_of_pos (by norm_num)
  simp only [hten, htwenty, hfifteen] at hx hy hattained
  have hle := hx rfl
  rcases hattained with ⟨-, h⟩ | ⟨-, h⟩ | ⟨hmoves, -⟩
  · linarith
  · linarith
  · exact absurd hmoves.symm Bool.false_ne_true

/-- An image dragged by a corner to twice the width and half as much again as the height becomes twice
    as large, and asked to become three times as wide, mirrored, it becomes three times as large. -/
theorem Editor.magnified_of_keepsAspect_image :
    let d : Document ℝ := Document.empty.put (Shape.image 1 0 0 10 10)
    let e : Editor ℝ := { Editor.initial Config.standard with selection := [1] }
    let c : Course ℝ := ⟨.begin (.resize (.corner .bottomRight)) ⟨10, 10⟩ Modifiers.none,
      [.move ⟨20, 15⟩ Modifiers.none]⟩
    d.Keyed ∧ d.Shallow ∧ c.Undisturbed (e, ⟨d, []⟩) ∧ ∃ snapshot, e.capture? d = some snapshot ∧
      d.KeepsAspect (d.topLevel e.selection) snapshot.box.rotation ∧
      snapshot.MagnifiedIn (c.run (e, ⟨d, []⟩)).2.document 2 ∧
      snapshot.MagnifiedIn (e.resizeSelection ⟨d, []⟩ ⟨-3, 1⟩ .center).2.document 3 := by
  intro d e c
  have hopens : (c.opening.run (e, ⟨d, []⟩)).1.phase.isSession = true := by decide +kernel +revert
  have htop : d.topLevel [1] = [1] := by
    clear hopens c e
    decide +kernel +revert
  have hkeyed : d.Keyed := Document.keyed_empty.put _
  have hshallow : d.Shallow := Document.shallow_put rfl
  have hc : c.Undisturbed (e, ⟨d, []⟩) := ⟨hopens, by simp [c, Interim.isRemoval], rfl⟩
  obtain ⟨snapshot, hcapture, -⟩ := Editor.beginSession_of_isSession rfl hopens
  have hkeeps : d.KeepsAspect (d.topLevel e.selection) snapshot.box.rotation := by
    have hget : d.get? 1 = some (Shape.image 1 0 0 10 10) := by
      rw [Document.get?_put]
      exact if_pos rfl
    exact ⟨1, htop ▸ List.mem_singleton.2 rfl, 1, Document.Inside.refl d 1,
      Or.inl ⟨_, hget, rfl⟩⟩
  -- the box around the image is the image, and the corner was dragged from (10, 10) to (20, 15)
  have hbox : snapshot.box = ⟨⟨0, 0, 10, 10⟩, 0⟩ := by
    obtain ⟨htop', hbox, -⟩ := Canvas.get?_capture? hcapture 1
    rw [htop', show (e.canvas d).document.topLevel e.selection = [1] from htop] at hbox
    exact Canvas.selectionBox?_image (by norm_num) (by norm_num) hbox
  have hstanding : (c.run (e, ⟨d, []⟩)).1.standing? =
      some ⟨.resize (.corner .bottomRight), ⟨10, 10⟩, ⟨20, 15⟩, Modifiers.none.flags,
        e.camera.zoom⟩ :=
    Interim.standing?_move (Opening.standing?_begin rfl hopens) _ _
  obtain ⟨s, hs, heq⟩ := Editor.standing?_eq_some_iff.1 hstanding
  obtain ⟨hkind, horigin, hcurrent, hflags, -⟩ := Standing.mk.inj heq
  obtain ⟨hdragged, hscaled⟩ := @Editor.magnified_of_keepsAspect e ⟨d, []⟩ _ rfl hkeyed hshallow rfl
    hcapture
  refine ⟨hkeyed, hshallow, hc, snapshot, hcapture, hkeeps, ?_, ?_⟩
  · have htwo : ∀ k, snapshot.box.DragsBy (.corner .bottomRight) ⟨10, 5⟩ false k → k = 2 :=
      fun k hk => OrientedBox.eq_two_of_dragsBy (hbox ▸ hk)
    obtain ⟨k, hk, hmagnified⟩ := hdragged c s (.corner .bottomRight) hc
      hs hkind.symm (fun _ => by norm_num [hbox, Rect.width])
      (fun _ => by norm_num [hbox, Rect.height]) (Or.inl hkeeps)
    have hdrag : s.drag = ⟨10, 5⟩ := by
      rw [Session.drag, ← horigin, ← hcurrent]
      ext <;> norm_num
    rw [Session.snappedHandleDrag_eq (hflags ▸ rfl) rfl, hdrag, ← hflags] at hk
    rw [← htwo k hk]
    exact hmagnified (by rw [htwo k hk]; unfold Scalar.coordTolerance; norm_num)
  · have hmax : max |(-3 : ℝ)| |(1 : ℝ)| = 3 := by norm_num
    have h := hscaled hkeeps ⟨-3, 1⟩ .center (by rw [hmax]; unfold Scalar.coordTolerance; norm_num)
    rwa [hmax] at h

end CanvasTransform
