import CanvasTransform.Proofs.Numbers.Doubles

set_option autoImplicit false

/-! # Finite doubles

A sum or product that is finite has finite operands: an infinity, or a value that is not a number,
is not lost again in either (`Binary64.isFinite_of_add`, `isFinite_of_mul`). So one coefficient of a
map that is not finite shows in every composition with the map (`Affine.isFinite_of_mul`). A
division by zero is never finite, whatever is divided (`Binary64.isFinite_div_of_beq_zero`). -/

namespace CanvasTransform

namespace Binary64

open Float.Model Float.Model.UnpackedFloat

variable {x y : Binary64}

/-! ## Bits -/

theorem isFinite_iff : x.isFinite = true ↔ x.magnitudeBits.toNat < 2047 * 2 ^ 52 := by
  rw [isFinite, decide_eq_true_iff, UInt64.lt_iff_toNat_lt]
  rfl

theorem isFinite_of_magnitudeBits_eq (h : x.magnitudeBits = y.magnitudeBits) :
    x.isFinite = y.isFinite := by
  rw [isFinite, isFinite, h]

theorem isFinite_abs (x : Binary64) : x.abs.isFinite = x.isFinite :=
  isFinite_of_magnitudeBits_eq x.magnitudeBits_abs

theorem isFinite_withSignOf (x y : Binary64) : (withSignOf x y).isFinite = x.isFinite := by
  refine isFinite_of_magnitudeBits_eq ?_
  simp only [magnitudeBits, withSignOf]
  refine UInt64.toBitVec_inj.1 (BitVec.eq_of_getLsbD_eq fun i hi => ?_)
  simp only [UInt64.toBitVec_and, UInt64.toBitVec_or, UInt64.toBitVec_not, BitVec.getLsbD_and,
    BitVec.getLsbD_or, BitVec.getLsbD_not, hi, decide_true, Bool.true_and]
  cases signBit.toBitVec.getLsbD i <;> simp

/-- A value that is not a number leaves an operation as one that is not finite. -/
theorem isFinite_quiet (h : x.isNaN = true) : x.quiet.isFinite = false := by
  have hle : x.magnitudeBits.toNat ≤ x.quiet.magnitudeBits.toNat := by
    rw [toNat_magnitudeBits, toNat_magnitudeBits, quiet, UInt64.toNat_or, Nat.or_mod_two_pow]
    exact Nat.left_le_or
  rw [isNaN_iff] at h
  rw [Bool.eq_false_iff, ne_eq, isFinite_iff]
  omega

/-! ## Values without bounds -/

/-- The value is an infinity or not a number. -/
inductive Unbounded : UnpackedFloat → Prop
  | notANumber : Unbounded .notANumber
  | infinity (s : Sign) : Unbounded (.infinity s)

theorem unbounded_of_isFinite (h : x.isFinite = false) : Unbounded x.unpacked := by
  cases hx : x.isNaN with
  | true =>
      rw [unpacked_of_isNaN hx]
      exact .notANumber
  | false =>
      rw [Bool.eq_false_iff, ne_eq, isFinite_iff] at h
      have hheld := held_of_isNaN hx
      generalize x.unpacked = u at hheld
      generalize x.magnitudeBits.toNat = n at h hheld
      cases hheld with
      | infinity => exact .infinity _
      | zero => omega
      | finite => omega

theorem unpacked_of_beq_zero (h : (x == 0) = true) : ∃ s, x.unpacked = .zero s := by
  obtain ⟨hx, -, hrank⟩ := beq_iff.1 h
  have hheld := held_of_isNaN hx
  have hzero : (0 : Binary64).rank = 0 := rfl
  rw [hzero, rank] at hrank
  generalize x.unpacked = u at hheld
  generalize x.magnitudeBits.toNat = n at hrank hheld
  generalize x.sign = s at hrank hheld
  cases hheld with
  | infinity s => cases s <;> simp only [Sign.apply] at hrank <;> omega
  | zero s => exact ⟨s, rfl⟩
  | finite s m k hpos hk hm hfirst => cases s <;> simp only [Sign.apply] at hrank <;> omega

/-- An operation that comes to a value without bounds does not answer with a finite one. -/
theorem isFinite_binary {f : Float → Float → Float} {u : UnpackedFloat}
    (hf : f x.toFloat y.toFloat = Float.ofModel (Float.Model.pack u)) (hu : Unbounded u) :
    (binary f x y).isFinite = false := by
  unfold binary onNumbers
  split_ifs with hx hy
  · exact isFinite_quiet hx
  · exact isFinite_quiet hy
  · show (ofFloat (f x.toFloat y.toFloat)).isFinite = false
    rw [hf]
    cases hu with
    | notANumber => rfl
    | infinity s => cases s <;> rfl

/-! ## Sums, products and quotients -/

namespace Unbounded

variable {u : UnpackedFloat}

theorem add_left (hu : Unbounded u) (v : UnpackedFloat) :
    Unbounded (UnpackedFloat.add Format.binary64 u v) := by
  cases hu with
  | notANumber => exact .notANumber
  | infinity s =>
      cases v with
      | notANumber => exact .notANumber
      | infinity t =>
          cases s <;> cases t <;> first | exact .notANumber | exact .infinity _
      | zero t => exact .infinity s
      | finite t m e hm => exact .infinity s

theorem add_right (hu : Unbounded u) (v : UnpackedFloat) :
    Unbounded (UnpackedFloat.add Format.binary64 v u) := by
  cases hu with
  | notANumber => cases v <;> exact .notANumber
  | infinity s =>
      cases v with
      | notANumber => exact .notANumber
      | infinity t =>
          cases s <;> cases t <;> first | exact .notANumber | exact .infinity _
      | zero t => exact .infinity s
      | finite t m e hm => exact .infinity s

theorem mul_left (hu : Unbounded u) (v : UnpackedFloat) :
    Unbounded (UnpackedFloat.mul Format.binary64 u v) := by
  cases hu with
  | notANumber => exact .notANumber
  | infinity s =>
      cases v with
      | notANumber => exact .notANumber
      | infinity t => exact .infinity _
      | zero t => exact .notANumber
      | finite t m e hm => exact .infinity _

theorem mul_right (hu : Unbounded u) (v : UnpackedFloat) :
    Unbounded (UnpackedFloat.mul Format.binary64 v u) := by
  cases hu with
  | notANumber => cases v <;> exact .notANumber
  | infinity s =>
      cases v with
      | notANumber => exact .notANumber
      | infinity t => exact .infinity _
      | zero t => exact .notANumber
      | finite t m e hm => exact .infinity _

theorem div_zero (u : UnpackedFloat) (s : Sign) :
    Unbounded (UnpackedFloat.div Format.binary64 u (.zero s)) := by
  cases u with
  | notANumber => exact .notANumber
  | infinity t => exact .infinity _
  | zero t => exact .notANumber
  | finite t m e hm => exact .infinity _

end Unbounded

/-- An operation that never takes a value without bounds into them answers with a finite one from
    finite ones only. -/
theorem isFinite_of_binary {f : Float → Float → Float}
    {g : UnpackedFloat → UnpackedFloat → UnpackedFloat}
    (hf : ∀ x y : Binary64, f x.toFloat y.toFloat =
      Float.ofModel (Float.Model.pack (g x.unpacked y.unpacked)))
    (hleft : ∀ u v, Unbounded u → Unbounded (g u v)) (hright : ∀ u v, Unbounded u → Unbounded (g v u))
    (h : (binary f x y).isFinite = true) : x.isFinite = true ∧ y.isFinite = true := by
  constructor
  · by_contra hx
    have hu := unbounded_of_isFinite (Bool.eq_false_iff.2 hx)
    exact Bool.eq_false_iff.1 (isFinite_binary (hf x y) (hleft _ _ hu)) h
  · by_contra hy
    have hu := unbounded_of_isFinite (Bool.eq_false_iff.2 hy)
    exact Bool.eq_false_iff.1 (isFinite_binary (hf x y) (hright _ _ hu)) h

/-- The terms of a finite sum are finite. -/
theorem isFinite_of_add (h : (x + y).isFinite = true) : x.isFinite = true ∧ y.isFinite = true := by
  refine isFinite_of_binary (fun x y => ?_) (fun u v hu => hu.add_left v)
    (fun u v hu => hu.add_right v) h
  rw [← unpack_toFloat, ← unpack_toFloat]
  rfl

/-- The factors of a finite product are finite. -/
theorem isFinite_of_mul (h : (x * y).isFinite = true) : x.isFinite = true ∧ y.isFinite = true := by
  refine isFinite_of_binary (fun x y => ?_) (fun u v hu => hu.mul_left v)
    (fun u v hu => hu.mul_right v) h
  rw [← unpack_toFloat, ← unpack_toFloat]
  rfl

/-- A quotient by zero is not finite. -/
theorem isFinite_div_of_beq_zero (h : (y == 0) = true) : (x / y).isFinite = false := by
  obtain ⟨s, hs⟩ := unpacked_of_beq_zero h
  refine isFinite_binary ?_ (Unbounded.div_zero x.unpacked s)
  rw [← hs, ← unpack_toFloat, ← unpack_toFloat]
  rfl

/-! ## Magnitudes -/

/-- What is at least an infinite magnitude is infinite. -/
theorem isFinite_of_abs_le (h : x.abs ≤ y) (hx : x.isFinite = false) : y.isFinite = false := by
  obtain ⟨-, -, hrank⟩ := le_iff.1 h
  have hmagnitude : ∀ z : Binary64, |z.rank| = z.magnitudeBits.toNat := by
    intro z
    rw [rank]
    cases z.sign
    · exact (abs_neg _).trans (Nat.abs_cast _)
    · exact Nat.abs_cast _
  rw [rank_abs, hmagnitude] at hrank
  have hle := hrank.trans ((le_abs_self _).trans_eq (hmagnitude y))
  rw [Bool.eq_false_iff, ne_eq, isFinite_iff] at hx ⊢
  omega

/-- The larger of two magnitudes is not finite if one of them is an infinity. -/
theorem isFinite_max_abs (h : x.isFinite = false ∧ Scalar.IsNumber x ∨
    y.isFinite = false ∧ Scalar.IsNumber y) : (Scalar.max x.abs y.abs).isFinite = false := by
  have hnumber : ∀ z : Binary64, Scalar.IsNumber z → Scalar.IsNumber z.abs := by
    intro z hz
    obtain ⟨hz, -, -⟩ := le_iff.1 hz
    exact le_iff.2 ⟨(isNaN_abs z).trans hz, (isNaN_abs z).trans hz, le_refl _⟩
  unfold Scalar.max
  rcases h with ⟨hx, hnx⟩ | ⟨hy, hny⟩
  · split_ifs with hlt hny
    · rwa [isFinite_abs]
    · exact isFinite_of_abs_le (Scalar.le_of_not_lt hny (hnumber x hnx) hlt) hx
    · rwa [isFinite_abs]
  · split_ifs with hlt hny'
    · exact isFinite_of_abs_le (Scalar.le_of_lt hlt) hy
    · rwa [isFinite_abs]
    · exact absurd (hnumber y hny) hny'

/-- The larger of two finite magnitudes is finite. -/
theorem isFinite_max_abs_of_isFinite (hx : x.isFinite = true) (hy : y.isFinite = true) :
    (Scalar.max x.abs y.abs).isFinite = true := by
  unfold Scalar.max
  split_ifs
  · rwa [isFinite_abs]
  · rwa [isFinite_abs]
  · rwa [isFinite_abs]

end Binary64

/-! ## Maps -/

namespace Affine

open Binary64

variable {s t : Affine Binary64}

theorem isFinite_iff : t.isFinite = true ↔ t.a.isFinite = true ∧ t.b.isFinite = true ∧
    t.c.isFinite = true ∧ t.d.isFinite = true ∧ t.e.isFinite = true ∧ t.f.isFinite = true := by
  simp only [Affine.isFinite, List.all_cons, List.all_nil, Bool.and_true, Bool.and_eq_true]
  rfl

/-- The parts of a finite composition are finite. -/
theorem isFinite_of_mul (h : (s * t).isFinite = true) : s.isFinite = true ∧ t.isFinite = true := by
  obtain ⟨ha, hb, hc, hd, he, hf⟩ := isFinite_iff.1 h
  have hsum : ∀ {x y z w : Binary64}, (x * y + z * w).isFinite = true →
      (x.isFinite = true ∧ y.isFinite = true) ∧ z.isFinite = true ∧ w.isFinite = true :=
    fun h => ⟨Binary64.isFinite_of_mul (isFinite_of_add h).1,
      Binary64.isFinite_of_mul (isFinite_of_add h).2⟩
  obtain ⟨he, hse⟩ := isFinite_of_add he
  obtain ⟨hf, hsf⟩ := isFinite_of_add hf
  obtain ⟨⟨hsa, hta⟩, hsc, htb⟩ := hsum ha
  obtain ⟨⟨hsb, -⟩, hsd, -⟩ := hsum hb
  obtain ⟨⟨-, htc⟩, -, htd⟩ := hsum hc
  obtain ⟨⟨-, hte⟩, -, htf⟩ := hsum he
  exact ⟨isFinite_iff.2 ⟨hsa, hsb, hsc, hsd, hse, hsf⟩,
    isFinite_iff.2 ⟨hta, htb, htc, htd, hte, htf⟩⟩

end Affine

end CanvasTransform
