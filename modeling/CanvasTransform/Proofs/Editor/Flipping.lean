import CanvasTransform.Proofs.Transform.Mirror
import CanvasTransform.Proofs.Editor.Soundness
import CanvasTransform.Proofs.Session.Resizing

set_option autoImplicit false

/-! # Flips

A flip scales the selection by minus one along one axis of its box, about the center. If every
captured shape is turned against the selection by whole quarter turns, the flip mirrors each of them
exactly, leaves the box where it is, and a second flip undoes it (`Flip.mirrors_and_undoes`).

The second flip is computed from a document in which origins, sizes and the origins of groups were
written anew. But it captures the same shapes around the same box, and the frames of these were only
displaced (`Snapshot.ScaledTo.exists_capture?`), so that it is the same map of the page again and
mirrors them along the same axes. -/

namespace CanvasTransform

/-! ## The two flips -/

/-- The ways to mirror the selection. -/
inductive Flip
  /-- Left to right. -/
  | horizontal
  /-- Top to bottom. -/
  | vertical
deriving DecidableEq

namespace Flip

section
variable {α : Type} [Scalar α]

/-- The factors along the axes of the selection. -/
def factors : Flip → Vec α
  | horizontal => ⟨-1, 1⟩
  | vertical => ⟨1, -1⟩

/-- Flip the selection of the editor. -/
def run (f : Flip) (e : Editor α) (store : Store α) : Outcome α × Store α :=
  match f with
  | horizontal => e.flipHorizontal store
  | vertical => e.flipVertical store

theorem run_eq (f : Flip) (e : Editor α) (store : Store α) :
    f.run e store = e.resizeSelection store f.factors .center := by
  cases f <;> rfl

/-- Without anything to flip, or while a session is running, nothing happens. -/
theorem run_eq_self (f : Flip) {e : Editor α} {store : Store α}
    (h : e.phase.isSession = true ∨ e.capture? store.document = none) :
    f.run e store = (.empty, store) := by
  rw [run_eq, Editor.resizeSelection]
  rcases h with h | h
  · rw [if_pos h]
  · rw [h]
    split <;> rfl

end

variable {e : Editor ℝ} {store : Store ℝ} {snapshot : Snapshot ℝ}

theorem abs_factors (f : Flip) : |(f.factors : Vec ℝ).x| = 1 ∧ |(f.factors : Vec ℝ).y| = 1 := by
  cases f <;> simp [factors]

/-- A flip commits the snapshot scaled by its factors, also when the aspect ratio is locked. -/
theorem run_of_capture? (f : Flip) (hregistry : e.registry = Registry.builtin)
    (hphase : e.phase.isSession = false) (hcapture : e.capture? store.document = some snapshot) :
    let c : Canvas ℝ := ⟨store.document, Registry.builtin⟩
    let outcome := snapshot.scale c (snapshot.box.mirror f.factors)
    (f.run e store).1.skipped = outcome.skipped ∧
      (f.run e store).2 = store.update (c.batch outcome.updates) := by
  have hfactors : Editor.lockedFactors (f.factors : Vec ℝ) snapshot.aspectLocked = f.factors :=
    Editor.lockedFactors_of_abs_eq fun _ => f.abs_factors.1.trans f.abs_factors.2.symm
  rw [run_eq, Editor.resizeSelection, if_neg (by simp [hphase]), hcapture]
  dsimp only
  rw [hfactors, Editor.canvas, hregistry]
  exact ⟨rfl, rfl⟩

end Flip

/-! ## Forms -/

namespace Form

/-- The form of a mirrored shape. -/
noncomputable def mirrored (f : Vec ℝ) : Form ℝ → Form ℝ
  | box w h => box w h
  | image w h flipX flipY =>
    image w h (flipX ^^ decide (f.x < 0)) (flipY ^^ decide (f.y < 0))
  | line points => line (points.map fun v => ⟨v.x * f.x, v.y * f.y⟩)
  | group => group

theorem suits_mirrored {f : Vec ℝ} {form : Form ℝ} {kind : Kind} (h : form.Suits kind) :
    (form.mirrored f).Suits kind := by
  cases form <;> exact h

theorem mirrored_mirrored {f : Vec ℝ} (hx : |f.x| = 1) (hy : |f.y| = 1) (form : Form ℝ) :
    (form.mirrored f).mirrored f = form := by
  have hxx : f.x * f.x = 1 := by rw [← abs_mul_abs_self, hx, one_mul]
  have hyy : f.y * f.y = 1 := by rw [← abs_mul_abs_self, hy, one_mul]
  cases form with
  | box | group => rfl
  | image => simp [mirrored]
  | line points =>
      have hpoint : ∀ v : Point ℝ, (⟨v.x * f.x * f.x, v.y * f.y * f.y⟩ : Point ℝ) = v := fun v => by
        rw [mul_assoc, mul_assoc, hxx, hyy, mul_one, mul_one]
      simp [mirrored, Function.comp_def, hpoint]

end Form

/-- A form that suits its kind is mirrored. -/
theorem Shape.scaledForm_eq_mirrored {s : Shape ℝ} {f : Vec ℝ} (hx : |f.x| = 1) (hy : |f.y| = 1)
    (hsuits : s.form.Suits s.kind) : s.scaledForm f = s.form.mirrored f := by
  have hextent : (s.inPlace f).scaledExtent s.extent = s.extent := by
    ext
    · show s.extent.x * |f.x| = s.extent.x
      rw [hx, mul_one]
    · show s.extent.y * |f.y| = s.extent.y
      rw [hy, mul_one]
  have himage : ∀ w h flipX flipY, s.form = .image w h flipX flipY → s.extent = ⟨w, h⟩ := by
    intro w h flipX flipY hform
    rw [extent, hform]
    rfl
  have hbox : ∀ w h, s.form = .box w h → s.extent = ⟨w, h⟩ := by
    intro w h hform
    rw [extent, hform]
    rfl
  rw [scaledForm, hextent]
  cases hform : s.form with
  | box w h =>
      rw [hform] at hsuits
      rw [hbox w h hform]
      simp only [Form.Suits, List.mem_cons, List.not_mem_nil, or_false] at hsuits
      rcases hsuits with hk | hk | hk | hk | hk <;> rw [hk] <;> rfl
  | image w h flipX flipY =>
      rw [hform] at hsuits
      rw [himage w h flipX flipY hform, show s.kind = .image from hsuits]
      rfl
  | line points =>
      rw [hform] at hsuits
      rw [show s.kind = .line from hsuits]
      rfl
  | group =>
      rw [hform] at hsuits
      rw [show s.kind = .group from hsuits]
      rfl

/-- Mirrored twice along the same axes, a form that suits its kind is back. -/
theorem Shape.scaledForm_scaledForm {old new : Shape ℝ} {f : Vec ℝ} (hkind : new.kind = old.kind)
    (hform : new.form = old.scaledForm f) (hx : |f.x| = 1) (hy : |f.y| = 1)
    (hsuits : old.form.Suits old.kind) : new.scaledForm f = old.form := by
  rw [scaledForm_eq_mirrored hx hy hsuits] at hform
  rw [scaledForm_eq_mirrored hx hy, hform, Form.mirrored_mirrored hx hy]
  rw [hform, hkind]
  exact Form.suits_mirrored hsuits

/-! ## Flipping once and twice -/

/-- Where there is a snapshot, its box is the box around the selection. -/
theorem Editor.selectionBox?_of_capture? {α : Type} [Scalar α] {e : Editor α} {d : Document α}
    {s : Snapshot α} (h : e.capture? d = some s) : e.selectionBox? d = some s.box := by
  obtain ⟨htop, hbox, -⟩ := Canvas.get?_capture? h 0
  rw [htop] at hbox
  exact hbox

variable {e : Editor ℝ} {store : Store ℝ} {s s' s'' : Snapshot ℝ} {factors : ShapeId → Vec ℝ}

/-- What one flip does, from the snapshot of the selection to the snapshot of the flipped one. The
    last two fields are what the next flip starts from and what it goes on to undo. -/
structure Flip.Mirrors (f : Flip) (e : Editor ℝ) (store : Store ℝ) (s s' : Snapshot ℝ)
    (factors : ShapeId → Vec ℝ) : Prop where
  skipped : (f.run e store).1.skipped = []
  sameTree : (f.run e store).2.document.SameTree store.document
  capture : e.capture? (f.run e store).2.document = some s'
  box : s'.box = s.box
  carried : ∀ id m, s.get? id = some m →
    Canvas.Carried ⟨store.document, Registry.builtin⟩
      ⟨(f.run e store).2.document, Registry.builtin⟩ (s.box.mirror f.factors) m.shape
  mirrors : s'.Mirrors (s'.box.mirror f.factors) factors
  member : ∀ id m, s.get? id = some m → ∃ m', s'.get? id = some m' ∧
    m.ScaledTo (s.box.mirror f.factors) (factors id) m'.shape m'.pageTransform

/-- **One flip**, if it mirrors the frames of all captured shapes. -/
theorem Flip.exists_mirrors_run (f : Flip) (hregistry : e.registry = Registry.builtin)
    (hphase : e.phase.isSession = false) (hkeyed : store.document.Keyed)
    (hshallow : store.document.Shallow) (hcapture : e.capture? store.document = some s)
    (ht : s.Mirrors (s.box.mirror f.factors) factors) : ∃ s', f.Mirrors e store s s' factors := by
  obtain ⟨hx, hy⟩ := f.abs_factors
  obtain ⟨hskipped, hstore⟩ := f.run_of_capture? hregistry hphase hcapture
  rw [Editor.capture?, Editor.canvas, hregistry] at hcapture
  have hs : s.Reflects store.document := Canvas.reflects_capture? hkeyed hshallow hcapture
  have htree : (f.run e store).2.document.SameTree store.document := by
    rw [hstore]
    exact store.update_sameTree _
  have hscaled : s.ScaledTo (f.run e store).2.document (s.box.mirror f.factors) factors := by
    rw [hstore]
    exact store.scaledTo_commit_scale hs hkeyed hshallow ht.stretched
  obtain ⟨s', hcapture', hbox, ht', hmember⟩ :=
    hscaled.exists_capture? hcapture hkeyed hshallow htree hx hy ht
  refine ⟨s', ?_, htree, ?_, hbox, fun id m hm => ?_, hbox ▸ ht', hmember⟩
  · rw [hskipped]
    exact (Snapshot.scale_spec hs hkeyed hshallow ht.stretched).1
  · rw [Editor.capture?, Editor.canvas, hregistry]
    exact hcapture'
  · exact hscaled.carried hs hkeyed hshallow htree ht hm

theorem Editor.get?_of_capture? {α : Type} [Scalar α] {e : Editor α} {d : Document α}
    {s : Snapshot α} {id : ShapeId} {m : Member α} (h : e.capture? d = some s)
    (hm : s.get? id = some m) : d.get? id = some m.shape :=
  (Canvas.member?_eq_some_iff.1 (Canvas.member?_of_capture? h hm)).1

/-- **The second flip undoes the first**, on the page and in the forms. -/
theorem Flip.Mirrors.undone {f : Flip} (hfirst : f.Mirrors e store s s' factors)
    (hsecond : f.Mirrors e (f.run e store).2 s' s'' factors) (hkeyed : store.document.Keyed)
    (hcapture : e.capture? store.document = some s) {id : ShapeId} {m : Member ℝ}
    (hm : s.get? id = some m) :
    let twice := (f.run e (f.run e store).2).2.document
    Canvas.Carried ⟨store.document, Registry.builtin⟩ ⟨twice, Registry.builtin⟩ Affine.identity
        m.shape ∧
      (m.shape.form.Suits m.shape.kind →
        ∃ shape, twice.get? id = some shape ∧ shape.form = m.shape.form) := by
  obtain ⟨hx, hy⟩ := f.abs_factors
  obtain ⟨m', hm', hmember⟩ := hfirst.member id m hm
  obtain ⟨m'', hm'', hmember'⟩ := hsecond.member id m' hm'
  have hid : m.shape.id = id := hkeyed id _ (Editor.get?_of_capture? hcapture hm)
  have hshape' := Editor.get?_of_capture? hfirst.capture hm'
  constructor
  · have hback := (hfirst.carried id m hm).trans (hsecond.carried id m' hm')
      (by rw [Canvas.shape, hid, hshape'])
      ((hfirst.sameTree.keyed hkeyed id _ hshape').trans hid.symm) hmember.kind
    rwa [hfirst.box, OrientedBox.mirror_mul_self _ hx hy] at hback
  · intro hsuits
    obtain ⟨hfx, hfy, -⟩ := hfirst.mirrors id m' hm'
    exact ⟨m''.shape, Editor.get?_of_capture? hsecond.capture hm'', hmember'.form.trans
      (Shape.scaledForm_scaledForm hmember.kind hmember.form hfx hfy hsuits)⟩

/-- **Flips mirror in place and undo themselves.** On a store without a chain of shapes that is too
    deep, let every captured shape be turned against the selection by whole quarter turns. Then a
    flip leaves no shape out and the box around the selection where it is, and so does a second one.
    Unless a session is running, when flips do nothing, the first flip carries every captured shape
    along with the mirror image of the page; after the second one every shape is where it was, and
    has its form back if the form suits its kind. -/
theorem Flip.mirrors_and_undoes (f : Flip) (hregistry : e.registry = Registry.builtin)
    (hkeyed : store.document.Keyed) (hshallow : store.document.Shallow)
    (hturn : ∀ snapshot, e.capture? store.document = some snapshot → ∀ id m,
      snapshot.get? id = some m →
        ∃ k : ℤ, m.pageTransform.rotation - snapshot.box.rotation = k * (Real.pi / 2)) :
    let once := f.run e store
    let twice := f.run e once.2
    once.1.skipped = [] ∧ e.selectionBox? once.2.document = e.selectionBox? store.document ∧
    twice.1.skipped = [] ∧ e.selectionBox? twice.2.document = e.selectionBox? store.document ∧
    ∀ snapshot, e.capture? store.document = some snapshot → ∀ id m, snapshot.get? id = some m →
      (e.phase.isSession = false →
        (e.canvas store.document).Carried (e.canvas once.2.document)
          (snapshot.box.mirror f.factors) m.shape) ∧
      (e.canvas store.document).Carried (e.canvas twice.2.document) Affine.identity m.shape ∧
      (m.shape.form.Suits m.shape.kind →
        ∃ shape, twice.2.document.get? id = some shape ∧ shape.form = m.shape.form) := by
  intro once twice
  have hcanvas : ∀ d, e.canvas d = ⟨d, Registry.builtin⟩ := fun d => by
    rw [Editor.canvas, hregistry]
  have hreflects : ∀ s, e.capture? store.document = some s → s.Reflects store.document := by
    intro s hcapture
    rw [Editor.capture?, hcanvas] at hcapture
    exact Canvas.reflects_capture? hkeyed hshallow hcapture
  by_cases hidle : e.phase.isSession = true ∨ e.capture? store.document = none
  · -- nothing happens
    have honce : once = (.empty, store) := f.run_eq_self hidle
    have htwice : twice = (.empty, store) := by
      show f.run e once.2 = _
      rw [honce]
      exact f.run_eq_self hidle
    rw [honce, htwice]
    refine ⟨rfl, rfl, rfl, rfl, fun snapshot hcapture id m hm => ⟨fun hphase => ?_, ?_, fun _ =>
      ⟨m.shape, (hreflects snapshot hcapture).shape id m hm, rfl⟩⟩⟩
    · rcases hidle with h | h
      · rw [hphase] at h
        cases h
      · rw [h] at hcapture
        cases hcapture
    · rw [hcanvas]
      exact (hreflects snapshot hcapture).carried_identity hkeyed hm
  · obtain ⟨hphase, hsome⟩ := not_or.1 hidle
    rw [Bool.not_eq_true] at hphase
    obtain ⟨hx, hy⟩ := f.abs_factors
    obtain ⟨s, hcapture⟩ := Option.ne_none_iff_exists'.1 hsome
    obtain ⟨factors, ht⟩ := Snapshot.exists_mirrors (hreflects s hcapture) hshallow hx hy
      (hturn s hcapture)
    -- the second flip starts from another snapshot, and is the same map of the page
    obtain ⟨s', hfirst⟩ := f.exists_mirrors_run hregistry hphase hkeyed hshallow hcapture ht
    obtain ⟨s'', hsecond⟩ := f.exists_mirrors_run hregistry hphase (hfirst.sameTree.keyed hkeyed)
      (hfirst.sameTree.shallow hshallow) hfirst.capture hfirst.mirrors
    rw [Editor.selectionBox?_of_capture? hcapture, Editor.selectionBox?_of_capture? hfirst.capture,
      Editor.selectionBox?_of_capture? hsecond.capture, hsecond.box, hfirst.box]
    refine ⟨hfirst.skipped, rfl, hsecond.skipped, rfl, fun snapshot hcapture' id m hm => ?_⟩
    obtain rfl := Option.some.inj (hcapture'.symm.trans hcapture)
    simp only [hcanvas]
    exact ⟨fun _ => hfirst.carried id m hm, hfirst.undone hsecond hkeyed hcapture hm⟩

/-- A turned image on the page, flipped left to right and back. -/
theorem Flip.mirrors_and_undoes_image :
    let d : Document ℝ := Document.empty.put ((Shape.image 1 5 5 20 10).withRotation 1)
    let e : Editor ℝ := { Editor.initial Config.standard with selection := [1] }
    let once := Flip.horizontal.run e ⟨d, []⟩
    let twice := Flip.horizontal.run e once.2
    d.Keyed ∧ d.Shallow ∧
    (∀ snapshot, e.capture? d = some snapshot → ∀ id m, snapshot.get? id = some m →
      ∃ k : ℤ, m.pageTransform.rotation - snapshot.box.rotation = k * (Real.pi / 2)) ∧
    once.1.skipped = [] ∧ e.selectionBox? once.2.document = e.selectionBox? d ∧
    twice.1.skipped = [] ∧
    ∃ snapshot m, e.capture? d = some snapshot ∧ snapshot.get? 1 = some m ∧
      (e.canvas d).Carried (e.canvas once.2.document) (snapshot.box.mirror ⟨-1, 1⟩) m.shape ∧
      (e.canvas d).Carried (e.canvas twice.2.document) Affine.identity m.shape ∧
      ∃ shape, twice.2.document.get? 1 = some shape ∧ shape.form = .image 20 10 false false := by
  intro d e once twice
  have hcaptured : ((e.capture? d).bind (·.get? 1)).isSome = true := by
    clear once twice
    decide +kernel +revert
  have htop : d.topLevel [1] = [1] := by
    clear hcaptured once twice e
    decide +kernel +revert
  have hkeyed : d.Keyed := Document.keyed_empty.put _
  have hshallow : d.Shallow := Document.shallow_put rfl
  have hget : ∀ id shape, d.get? id = some shape →
      id = 1 ∧ shape = (Shape.image 1 5 5 20 10).withRotation 1 := by
    intro id shape h
    rw [Document.get?_put, Document.get?_empty] at h
    split at h
    · next hid => exact ⟨hid.symm, (Option.some.inj h).symm⟩
    · exact nomatch h
  -- there is one shape, and the box around it is turned like it
  have hturn : ∀ snapshot, e.capture? d = some snapshot → ∀ id m, snapshot.get? id = some m →
      ∃ k : ℤ, m.pageTransform.rotation - snapshot.box.rotation = k * (Real.pi / 2) := by
    intro snapshot hcapture id m hm
    have hreflects := Canvas.reflects_capture? hkeyed hshallow hcapture
    obtain ⟨rfl, -⟩ := hget id m.shape (hreflects.shape id m hm)
    obtain ⟨htop', hbox, -⟩ := Canvas.get?_capture? hcapture 1
    rw [htop', show (e.canvas d).document.topLevel e.selection = [1] from htop] at hbox
    refine ⟨0, ?_⟩
    rw [Canvas.rotation_selectionBox? (hreflects.page 1 m hm) hbox, sub_self, Int.cast_zero,
      zero_mul]
  obtain ⟨m, hm⟩ := Option.isSome_iff_exists.1 hcaptured
  obtain ⟨snapshot, hcapture, hm⟩ := Option.bind_eq_some_iff.1 hm
  have hreflects := Canvas.reflects_capture? hkeyed hshallow hcapture
  obtain ⟨-, hshape⟩ := hget 1 m.shape (hreflects.shape 1 m hm)
  obtain ⟨hskipped, hbox, hskipped', -, hmember⟩ :=
    @Flip.mirrors_and_undoes e ⟨d, []⟩ .horizontal rfl hkeyed hshallow hturn
  obtain ⟨honce, htwice, hform⟩ := hmember snapshot hcapture 1 m hm
  rw [hshape] at hform
  exact ⟨hkeyed, hshallow, hturn, hskipped, hbox, hskipped', snapshot, m, hcapture, hm, honce rfl,
    htwice, hform rfl⟩

end CanvasTransform
