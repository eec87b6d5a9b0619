import CanvasTransform.Proofs.Editor.Effects
import CanvasTransform.Proofs.Editor.Journal
import CanvasTransform.Proofs.Geometry.Rigid
import CanvasTransform.Proofs.Group.Refit
import CanvasTransform.Proofs.Transform.Reach

set_option autoImplicit false

/-! # Documents stay well formed

A shape is sound if its form suits its kind, no side of it is negative and its rotation is a
direction in `[0, 2π)` (`Shape.Sound`). Forms are written by resizes only, from the form that the
shape had: whatever the factors, sides are scaled by magnitudes and a line keeps its vertices, so
what a resize writes suits the shape as well as what it replaces (`Registry.preserves_resize`).
Rotations are written normalized. Everything else that is written only moves shapes, or was read
from the store before.

So with the built-in behaviours, and read exactly, a document of sound shapes is one after any calls
(`Call.keeps_sound`). Nothing is asked of the tree: the invariant speaks of each shape and of the
shape that it was at the beginning. -/

namespace CanvasTransform

/-! ## Sound shapes -/

/-- The form is one that shapes of the kind have. -/
def Form.Suits {α : Type} : Form α → Kind → Prop
  | box _ _, kind => kind ∈ [Kind.rectangle, .ellipse, .frame, .text, .note]
  | image _ _ _ _, kind => kind = .image
  | line _, kind => kind = .line
  | group, kind => kind = .group

/-- The shape is well formed. -/
structure Shape.Sound (s : Shape ℝ) : Prop where
  suits : s.form.Suits s.kind
  width : 0 ≤ s.extent.x
  height : 0 ≤ s.extent.y
  rotation : s.rotation ∈ Set.Ico 0 (2 * Real.pi)

/-- The shape is sound and is still of the kind, and of as many vertices, as the shape with its
    identity in `d₀`. -/
structure Shape.KeptFrom (d₀ : Document ℝ) (s : Shape ℝ) : Prop where
  sound : s.Sound
  origin : ∃ s₀, d₀.get? s.id = some s₀ ∧ s.kind = s₀.kind ∧
    s.form.points.length = s₀.form.points.length

/-- What the patch writes is what a sound shape may have in place of what the shape of `d₀` has. -/
structure Patch.Preserves (d₀ : Document ℝ) (p : Patch ℝ) : Prop where
  rotation : ∀ r ∈ p.rotation, r ∈ Set.Ico 0 (2 * Real.pi)
  form : ∀ f ∈ p.form, ∀ s₀, d₀.get? p.id = some s₀ → f.Suits s₀.kind ∧ 0 ≤ f.extent.x ∧
    0 ≤ f.extent.y ∧ f.points.length = s₀.form.points.length

variable {d₀ d : Document ℝ} {s : Shape ℝ} {p : Patch ℝ}

theorem Angle.normalize_mem_Ico (a : ℝ) : normalize a ∈ Set.Ico 0 (2 * Real.pi) :=
  (normalize_eq a).2

/-- Patches that neither turn a shape nor give it a form. -/
theorem Patch.preserves_of_moves (hrotation : p.rotation = none) (hform : p.form = none) :
    p.Preserves d₀ where
  rotation := by simp [hrotation]
  form := by simp [hform]

namespace Shape.KeptFrom

theorem patch (h : s.KeptFrom d₀) (hp : p.Preserves d₀) (hid : p.id = s.id) :
    (s.patch p).KeptFrom d₀ := by
  obtain ⟨⟨hsuits, hwidth, hheight, hrotation⟩, s₀, hs₀, hkind, hpoints⟩ := h
  have hturned : (s.patch p).rotation ∈ Set.Ico 0 (2 * Real.pi) := by
    cases hr : p.rotation with
    | none => rwa [Shape.patch, hr]
    | some r =>
        rw [Shape.patch, hr]
        exact hp.rotation r hr
  cases hf : p.form with
  | none =>
      have hform : (s.patch p).form = s.form := by rw [Shape.patch, hf]; rfl
      refine ⟨⟨?_, ?_, ?_, hturned⟩, s₀, hs₀, hkind, ?_⟩
      · rwa [hform]
      · rwa [Shape.extent, hform]
      · rwa [Shape.extent, hform]
      · rwa [hform]
  | some f =>
      have hform : (s.patch p).form = f := by rw [Shape.patch, hf]; rfl
      obtain ⟨hsuits', hwidth', hheight', hpoints'⟩ := hp.form f hf s₀ (hid ▸ hs₀)
      refine ⟨⟨?_, ?_, ?_, hturned⟩, s₀, hs₀, hkind, ?_⟩
      · rw [hform, Shape.patch_kind, hkind]
        exact hsuits'
      · rwa [Shape.extent, hform]
      · rwa [Shape.extent, hform]
      · rwa [hform]

theorem patchAll (h : s.KeptFrom d₀) {ps : List (Patch ℝ)}
    (hps : ∀ p ∈ ps, p.Preserves d₀ ∧ p.id = s.id) : (s.patchAll ps).KeptFrom d₀ := by
  have hall := Shape.patchAll_induction (P := fun t => t.KeptFrom d₀ ∧ t.id = s.id) ⟨h, rfl⟩
    fun p hp t ht => ⟨ht.1.patch (hps p hp).1 ((hps p hp).2.trans ht.2.symm), ht.2⟩
  exact hall.1

/-- Restoring a shape writes what was sound before. -/
theorem preserves_restore (h : s.KeptFrom d₀) : (Patch.restore s).Preserves d₀ where
  rotation := by
    rintro _ ⟨⟩
    exact h.sound.rotation
  form := by
    rintro _ ⟨⟩ s₀ hs₀
    obtain ⟨s₁, hs₁, hkind, hpoints⟩ := h.origin
    obtain rfl := Option.some.inj (hs₁.symm.trans hs₀)
    exact ⟨hkind ▸ h.sound.suits, h.sound.width, h.sound.height, hpoints⟩

end Shape.KeptFrom

/-! ## What is written -/

/-- Moving a shape to where a resize puts it turns it to a direction, if at all. -/
theorem Placement.preserves_moveTo (placement : Placement ℝ) (s : Shape ℝ) (origin : Point ℝ) :
    (placement.moveTo s origin).Preserves d₀ := by
  unfold moveTo
  dsimp only
  split
  · exact Patch.preserves_of_moves rfl rfl
  · refine ⟨?_, nofun⟩
    rintro _ ⟨⟩
    exact Angle.normalize_mem_Ico _

theorem Placement.preserves_withForm (placement : Placement ℝ) (origin : Point ℝ)
    (h : s.KeptFrom d₀) {f : Form ℝ} (hsuits : f.Suits s.kind) (hwidth : 0 ≤ f.extent.x)
    (hheight : 0 ≤ f.extent.y) (hpoints : f.points.length = s.form.points.length) :
    ((placement.moveTo s origin).withForm f).Preserves d₀ where
  rotation := by
    have hmoved : (placement.moveTo s origin).Preserves d₀ := placement.preserves_moveTo s origin
    exact hmoved.rotation
  form := by
    rintro _ ⟨⟩ s₀ hs₀
    obtain ⟨s₁, hs₁, hkind, hlength⟩ := h.origin
    have hid : ((placement.moveTo s origin).withForm f).id = s.id := placement.id_moveTo s origin
    rw [hid] at hs₀
    obtain rfl := Option.some.inj (hs₁.symm.trans hs₀)
    exact ⟨hkind ▸ hsuits, hwidth, hheight, hpoints.trans hlength⟩

/-- What resizing does, by kind. -/
theorem Registry.resize_builtin (s : Shape ℝ) (placement : Placement ℝ) :
    builtin.resize s placement = match s.kind with
      | .rectangle | .ellipse | .frame => Behaviour.resizeBox s placement
      | .text | .note => Behaviour.resizeFixed s placement
      | .image => Behaviour.resizeImage s placement
      | .line => Behaviour.resizeLine s placement
      | .group => Behaviour.resizeGroup s placement := by
  rw [resize, canResize, behaviour, builtin]
  cases s.kind <;> rfl

/-- **A resize writes what suits the shape**, whatever the factors. -/
theorem Registry.preserves_resize (h : s.KeptFrom d₀) (placement : Placement ℝ) :
    (builtin.resize s placement).Preserves d₀ := by
  have hsuits := h.sound.suits
  have hwidth : 0 ≤ s.extent.x * Scalar.abs placement.scale.x :=
    mul_nonneg h.sound.width (abs_nonneg _)
  have hheight : 0 ≤ s.extent.y * Scalar.abs placement.scale.y :=
    mul_nonneg h.sound.height (abs_nonneg _)
  rw [resize_builtin]
  cases hf : s.form with
  | box w h' =>
      rw [hf] at hsuits
      have hbox : (Behaviour.resizeBox s placement).Preserves d₀ :=
        placement.preserves_withForm _ h hsuits hwidth hheight (by rw [hf]; rfl)
      have hfixed : (Behaviour.resizeFixed s placement).Preserves d₀ :=
        placement.preserves_moveTo s _
      simp only [Form.Suits, List.mem_cons, List.not_mem_nil, or_false] at hsuits
      rcases hsuits with hk | hk | hk | hk | hk <;> simp only [hk] <;> assumption
  | image w h' flipX flipY =>
      rw [hf] at hsuits
      simp only [show s.kind = .image from hsuits, Behaviour.resizeImage, hf]
      exact placement.preserves_withForm _ h hsuits hwidth hheight (by rw [hf]; rfl)
  | line points =>
      rw [hf] at hsuits
      simp only [show s.kind = .line from hsuits]
      exact placement.preserves_withForm _ h hsuits le_rfl le_rfl (List.length_map _)
  | group =>
      rw [hf] at hsuits
      simp only [show s.kind = .group from hsuits]
      exact placement.preserves_moveTo s _

theorem Snapshot.preserves_scale {snapshot : Snapshot ℝ} {t : Affine ℝ}
    (h : ∀ id m, snapshot.get? id = some m → m.shape.KeptFrom d₀)
    (hp : p ∈ (snapshot.scale ⟨d, Registry.builtin⟩ t).updates) : p.Preserves d₀ := by
  obtain ⟨-, hm, -, hscale⟩ := scales_of_mem_scale hp
  obtain ⟨rfl, -⟩ := Member.of_scale_eq_ok hscale
  exact Registry.preserves_resize (h _ _ hm) _

/-! ## Documents and sessions -/

/-- The document has the tree of `d₀`, and sound shapes that are kept from there. -/
structure Document.KeptFrom (d d₀ : Document ℝ) : Prop where
  tree : d.SameTree d₀
  shapes : ∀ id s, d.get? id = some s → s.KeptFrom d₀

namespace Document.KeptFrom

theorem patchAll (h : d.KeptFrom d₀) (hd₀ : d₀.Keyed) {ps : List (Patch ℝ)}
    (hps : ∀ p ∈ ps, p.Preserves d₀) : (d.patchAll ps).KeptFrom d₀ where
  tree := (sameTree_patchAll d ps).trans h.tree
  shapes := by
    intro id s hs
    rw [get?_patchAll, Option.map_eq_some_iff] at hs
    obtain ⟨t, ht, rfl⟩ := hs
    refine (h.shapes id t ht).patchAll fun p hp => ?_
    obtain ⟨hmem, hid⟩ := mem_patchesFor.1 hp
    exact ⟨hps p hmem, hid.trans ((h.tree.keyed hd₀) id t ht).symm⟩

theorem agree {d' : Document ℝ} (h : d.KeptFrom d₀) (hagree : d'.Agree d) : d'.KeptFrom d₀ where
  tree := hagree.sameTree.trans h.tree
  shapes id s hs := h.shapes id s ((hagree id).symm.trans hs)

/-- Groups that are refitted move shapes only. -/
theorem settle (h : d.KeptFrom d₀) (hd₀ : d₀.Keyed) {updates : List (Patch ℝ)}
    (hupdates : ∀ p ∈ updates, p.Preserves d₀) :
    (d.settle Registry.builtin updates).KeptFrom d₀ := by
  rw [settle_eq]
  refine h.patchAll hd₀ fun p hp => ?_
  rcases List.mem_append.1 hp with hp | hp
  · exact hupdates p hp
  · have hkeyed := (h.patchAll hd₀ hupdates).tree.keyed hd₀
    obtain ⟨-, hrotation, hform⟩ := moves_of_mem_reactions hkeyed hp
    exact Patch.preserves_of_moves hrotation hform

end Document.KeptFrom

/-- Whatever the session can write back is kept from `d₀`. -/
structure Session.KeptFrom (d₀ : Document ℝ) (s : Session ℝ) : Prop where
  captured : ∀ id m, s.snapshot.get? id = some m → m.shape.KeptFrom d₀
  recorded : ∀ id shape, s.baseline.get? id = some shape → shape.KeptFrom d₀

namespace Session.KeptFrom

variable {s : Session ℝ} {store : Store ℝ}

theorem preserves_baseline (h : s.KeptFrom d₀) {p : Patch ℝ}
    (hp : p ∈ s.baseline.toList.map Patch.restore) : p.Preserves d₀ := by
  obtain ⟨shape, hshape, rfl⟩ := List.mem_map.1 hp
  obtain ⟨id, hget⟩ := Document.exists_of_mem_toList hshape
  exact (h.recorded id shape hget).preserves_restore

/-- What a session asks for, whatever its kind. -/
theorem preserves_update (h : s.KeptFrom d₀) {config : Config ℝ} {zoom : ℝ} {p : Patch ℝ}
    (hp : p ∈ (s.update ⟨d, Registry.builtin⟩ config zoom).outcome.updates) : p.Preserves d₀ := by
  unfold update at hp
  cases hk : s.kind with
  | resize handle =>
      simp only [hk, resizeUpdate] at hp
      exact Snapshot.preserves_scale h.captured hp
  | rotate =>
      simp only [hk] at hp
      obtain ⟨id, -, m, hm, -, hturn⟩ := Snapshot.mem_updates_moveEach.1 hp
      obtain ⟨x, y, rotation, rfl⟩ := Member.eq_of_turn hturn
      constructor
      · rintro _ ⟨⟩
        exact Angle.normalize_mem_Ico rotation
      · rintro _ ⟨⟩
  | translate =>
      simp only [hk] at hp
      obtain ⟨id, -, m, hm, -, hshift⟩ := Snapshot.mem_updates_moveEach.1 hp
      obtain ⟨x, y, rfl⟩ := Member.eq_of_shift hshift
      exact Patch.preserves_of_moves rfl rfl

theorem preserves_revert (h : s.KeptFrom d₀) {p : Patch ℝ} (hp : p ∈ s.revert) :
    p.Preserves d₀ := by
  rcases List.mem_append.1 hp with hp | hp
  · exact h.preserves_baseline hp
  · obtain ⟨shape, hshape, rfl⟩ := List.mem_map.1 hp
    obtain ⟨id, m, hm, rfl⟩ := Snapshot.mem_shapes_iff.1 (List.mem_filter.1 hshape).1
    exact (h.captured id m hm).preserves_restore

/-- A commit puts sound shapes into the store, and takes what it records from there. -/
theorem commit (h : s.KeptFrom d₀) (hstore : store.document.KeptFrom d₀) (hd₀ : d₀.Keyed)
    {updates : List (Patch ℝ)} (hupdates : ∀ p ∈ updates, p.Preserves d₀) :
    (s.commit Registry.builtin store updates).1.KeptFrom d₀ ∧
      (s.commit Registry.builtin store updates).2.document.KeptFrom d₀ := by
  constructor
  · refine ⟨h.captured, fun id shape hshape => ?_⟩
    have hbaseline := s.get?_recordBaseline (hstore.tree.keyed hd₀)
      (Canvas.batch ⟨store.document, Registry.builtin⟩
        (s.baseline.toList.map Patch.restore ++ updates)) id
    rw [Session.commit, hbaseline, Option.or_eq_some_iff] at hshape
    rcases hshape with hshape | ⟨-, hshape⟩
    · exact h.recorded id shape hshape
    · split at hshape
      · exact hstore.shapes id shape hshape
      · exact nomatch hshape
  · refine (hstore.settle hd₀ fun p hp => ?_).agree (store.commit_agree Registry.builtin _)
    rcases List.mem_append.1 hp with hp | hp
    · exact h.preserves_baseline hp
    · exact hupdates p hp

/-- A snapshot of sound shapes, and nothing written yet. -/
theorem of_capture {c : Canvas ℝ} {selection : List ShapeId} {camera : Camera ℝ}
    (hdocument : c.document.KeptFrom d₀)
    (hcapture : c.capture? selection camera = some s.snapshot)
    (hbaseline : s.baseline = Document.empty) : s.KeptFrom d₀ where
  captured id m hm := hdocument.shapes id m.shape
    (Canvas.member?_eq_some_iff.1 (Canvas.member?_of_capture? hcapture hm)).1
  recorded id shape hshape := by
    rw [hbaseline, Document.get?_empty] at hshape
    exact nomatch hshape

end Session.KeptFrom

/-! ## Calls -/

/-- Whatever the editor and the store hold is kept from `d₀`. -/
structure Editor.KeptFrom (d₀ : Document ℝ) (state : Editor ℝ × Store ℝ) : Prop where
  registry : state.1.registry = Registry.builtin
  document : state.2.document.KeptFrom d₀
  session : ∀ s, state.1.session? = some s → s.KeptFrom d₀

namespace Editor

variable {e e' : Editor ℝ} {store : Store ℝ}

theorem AtHand.keptFrom {s : Session ℝ} (hs : e.AtHand store.document s)
    (h : KeptFrom d₀ (e, store)) : s.KeptFrom d₀ := by
  cases hs with
  | @running s₀ hs₀ hsnapshot hbaseline =>
      have hkept := h.session s₀ hs₀
      exact ⟨hsnapshot ▸ hkept.captured, hbaseline ▸ hkept.recorded⟩
  | fresh hcapture hbaseline => exact .of_capture h.document hcapture hbaseline

/-- Without a session, only the store counts. -/
theorem keptFrom_of_not_isSession (hregistry : e.registry = Registry.builtin)
    (hphase : e.phase.isSession = false) (hstore : store.document.KeptFrom d₀) :
    KeptFrom d₀ (e, store) where
  registry := hregistry
  document := hstore
  session s hs := by
    rw [isSession_of_session hs] at hphase
    exact nomatch hphase

/-- Everything that a call can come to keeps the shapes sound. -/
theorem Effect.keptFrom {after : Editor ℝ × Store ℝ} (heffect : Effect e store after)
    (h : KeptFrom d₀ (e, store)) (hd₀ : d₀.Keyed) : KeptFrom d₀ after := by
  have hbuiltin : e.registry = Registry.builtin := h.registry
  cases heffect with
  | rest hregistry hphase =>
      exact keptFrom_of_not_isSession (hregistry.trans hbuiltin) hphase h.document
  | @hold e' s hregistry hs hi =>
      refine ⟨hregistry.trans hbuiltin, h.document, fun t ht => ?_⟩
      obtain rfl := Option.some.inj (hi.symm.trans ht)
      exact hs.keptFrom h
  | @write e' s config zoom hregistry hs hi =>
      have hs' := hs.keptFrom h
      rw [hbuiltin, canvas, hbuiltin] at hi ⊢
      obtain ⟨hsession, hstore⟩ := hs'.commit h.document hd₀ fun p hp => hs'.preserves_update hp
      refine ⟨hregistry.trans hbuiltin, hstore, fun t ht => ?_⟩
      obtain rfl := Option.some.inj (hi.symm.trans ht)
      exact hsession
  | @revert e' s hregistry hs hphase =>
      refine keptFrom_of_not_isSession (hregistry.trans hbuiltin) hphase ?_
      refine (h.document.patchAll hd₀ fun p hp => ?_).agree (store.update_agree s.revert)
      exact (h.session s hs).preserves_revert hp
  | @scale snapshot t hphase hcapture =>
      refine keptFrom_of_not_isSession hbuiltin hphase ?_
      have hcaptured := (Session.KeptFrom.of_capture
        (s := Session.start .translate Point.origin Modifiers.none.flags snapshot) h.document
        hcapture rfl).captured
      rw [canvas, hbuiltin]
      exact (h.document.settle hd₀ fun p hp => Snapshot.preserves_scale hcaptured hp).agree
        (store.commit_agree Registry.builtin _)

end Editor

theorem Call.keptFrom_runAll {e : Editor ℝ} {store : Store ℝ} (hd₀ : d₀.Keyed)
    {calls : List (Call ℝ)} (hcalls : ∀ r, Call.registry r ∈ calls → r = Registry.builtin)
    (h : Editor.KeptFrom d₀ (e, store)) : Editor.KeptFrom d₀ (runAll (e, store) calls) := by
  induction calls generalizing e store with
  | nil => exact h
  | cons call calls ih =>
      rw [runAll_cons]
      refine ih (fun r hr => hcalls r (List.mem_cons_of_mem _ hr)) ?_
      by_cases hregistry : ∃ r, call = .registry r
      · obtain ⟨r, rfl⟩ := hregistry
        exact ⟨hcalls r List.mem_cons_self, h.document, h.session⟩
      · exact (call.effect_run e store fun r hr => hregistry ⟨r, hr⟩).keptFrom h hd₀

/-- **Calls keep documents well formed.** With the built-in behaviours, on a store of sound shapes
    and from an editor without a session, whatever is called, in whatever order and with whatever
    factors: the store has the shapes that it had, in the same tree, and they are sound, of the
    kinds that they were, and lines have as many vertices as before. -/
theorem Call.keeps_sound {e : Editor ℝ} {store : Store ℝ}
    (hregistry : e.registry = Registry.builtin) (hbefore : e.phase.isSession = false)
    (hkeyed : store.document.Keyed)
    (hsound : ∀ id s, store.document.get? id = some s → s.Sound) {calls : List (Call ℝ)}
    (hcalls : ∀ r, Call.registry r ∈ calls → r = Registry.builtin) :
    let d := (runAll (e, store) calls).2.document
    d.SameTree store.document ∧ ∀ id s, d.get? id = some s → s.Sound ∧
      ∃ s₀, store.document.get? id = some s₀ ∧ s.kind = s₀.kind ∧
        s.form.points.length = s₀.form.points.length := by
  intro d
  have hstart : store.document.KeptFrom store.document :=
    ⟨.refl _, fun id s hs => ⟨hsound id s hs, s, hkeyed id s hs ▸ hs, rfl, rfl⟩⟩
  have hend := keptFrom_runAll hkeyed hcalls
    (Editor.keptFrom_of_not_isSession hregistry hbefore hstart)
  refine ⟨hend.document.tree, fun id s hs => ?_⟩
  obtain ⟨hsound', s₀, hs₀, hkept⟩ := hend.document.shapes id s hs
  rw [hend.document.tree.keyed hkeyed id s hs] at hs₀
  exact ⟨hsound', s₀, hs₀, hkept⟩

/-- A line in a turned frame that is flattened, mirrored, turned, and then dragged out and in
    again. -/
theorem Call.keeps_sound_mistreated_line :
    let d : Document ℝ := (Document.empty.put ((Shape.frame 1 5 5 100 80).withRotation 1)).put
      ((Shape.line 2 10 10 [⟨0, 0⟩, ⟨30, 10⟩, ⟨5, 40⟩]).withParent (.shape 1))
    let e : Editor ℝ := { Editor.initial Config.standard with selection := [1, 2] }
    let calls : List (Call ℝ) := [.resizeSelection ⟨0, -3⟩ .center, .flipVertical,
      .begin .rotate ⟨0, 0⟩ Modifiers.none, .update ⟨-20, 7⟩ Modifiers.shiftOnly, .complete,
      .begin (.resize (.corner .topLeft)) ⟨5, 5⟩ Modifiers.none,
      .handle (.move ⟨300, 200⟩ Modifiers.altOnly), .handle .cancel]
    d.Keyed ∧ (∀ id s, d.get? id = some s → s.Sound) ∧
      ∀ s, (runAll (e, ⟨d, []⟩) calls).2.document.get? 2 = some s →
        s.Sound ∧ s.form.points.length = 3 := by
  intro d e calls
  have hkeyed : d.Keyed := (Document.keyed_empty.put _).put _
  have hget : ∀ id, d.get? id = if 2 = id then
        some ((Shape.line 2 10 10 [⟨0, 0⟩, ⟨30, 10⟩, ⟨5, 40⟩]).withParent (.shape 1))
      else if 1 = id then some ((Shape.frame 1 5 5 100 80).withRotation 1) else none := by
    intro id
    rw [Document.get?_put, Document.get?_put, Document.get?_empty]
    rfl
  have hsound : ∀ id s, d.get? id = some s → s.Sound := by
    intro id s hs
    rw [hget] at hs
    split_ifs at hs <;> obtain rfl := Option.some.inj hs
    · exact ⟨rfl, le_rfl, le_rfl, le_rfl, Real.two_pi_pos⟩
    · refine ⟨by simp [Form.Suits, Shape.frame, Shape.onPage, Shape.withRotation], ?_, ?_,
        Angle.normalize_mem_Ico 1⟩
      · show (0 : ℝ) ≤ 100
        norm_num
      · show (0 : ℝ) ≤ 80
        norm_num
  refine ⟨hkeyed, hsound, fun s hs => ?_⟩
  obtain ⟨-, hkept⟩ := @keeps_sound e ⟨d, []⟩ rfl rfl hkeyed hsound calls (by simp [calls])
  obtain ⟨hsound', s₀, hs₀, -, hpoints⟩ := hkept 2 s hs
  rw [show (⟨d, []⟩ : Store ℝ).document.get? 2 = _ from hget 2, if_pos rfl] at hs₀
  obtain rfl := Option.some.inj hs₀
  exact ⟨hsound', hpoints⟩

end CanvasTransform
