import CanvasTransform.Binary64
import CanvasTransform.Proofs.Numbers.Order
import CanvasTransform.Proofs.Session.Resizing
import Mathlib.Data.Nat.Bitwise

set_option autoImplicit false

/-! # The order of double-precision numbers

The comparisons of two doubles agree with the comparison of their *ranks* (`Binary64.compare_eq`): the
bits without the sign, read as an integer, with the sign in front. So the doubles that are numbers are
ordered, the two zeros are equal, and everything that holds of the order of the integers holds of
them (`Scalar.LawfulOrder Binary64`).

What a double is compared through is its bits taken apart into sign, exponent and fraction. Put
together again, exponent and fraction are the magnitude: of a number `m * 2 ^ e` in the form in which
it is held it is `(e + 1074) * 2 ^ 52 + m`, whether the first bit of `m` is held or not. -/

namespace CanvasTransform

namespace Binary64

open Float.Model Float.Model.UnpackedFloat

/-! ## Bits as integers -/

theorem toNat_magnitudeBits (x : Binary64) : x.magnitudeBits.toNat = x.bits.toNat % 2 ^ 63 := by
  rw [magnitudeBits, UInt64.toNat_and, show (~~~signBit).toNat = 2 ^ 63 - 1 from by decide,
    Nat.and_two_pow_sub_one_eq_mod]

theorem isNegative_iff (x : Binary64) : x.isNegative = true ↔ 2 ^ 63 ≤ x.bits.toNat := by
  have hlt := x.bits.toNat_lt
  rw [isNegative, bne_iff_ne, ne_eq, ← UInt64.toNat_inj, UInt64.toNat_and,
    show signBit.toNat = 2 ^ 63 from by decide, Nat.and_two_pow, Nat.testBit_eq_decide_div_mod_eq]
  by_cases h : x.bits.toNat / 2 ^ 63 % 2 = 1
  · simp only [h, decide_true, Bool.toNat_true, UInt64.toNat_zero]
    omega
  · simp only [h, decide_false, Bool.toNat_false, UInt64.toNat_zero]
    omega

theorem isNaN_iff (x : Binary64) : x.isNaN = true ↔ 2047 * 2 ^ 52 < x.magnitudeBits.toNat := by
  rw [isNaN, decide_eq_true_iff, UInt64.lt_iff_toNat_lt]
  rfl

/-! ## Bits taken apart -/

/-- The value is held with the sign `s` and the magnitude `n`. -/
inductive Held : UnpackedFloat → Sign → ℕ → Prop
  | infinity (s : Sign) : Held (.infinity s) s (2047 * 2 ^ 52)
  | zero (s : Sign) : Held (.zero s) s 0
  | finite (s : Sign) (m k : ℕ) (hpos : 0 < m) (hk : k < 2046) (hm : m < 2 ^ 53)
      (hfirst : 2 ^ 52 ≤ m ∨ k = 0) : Held (.finite s m ((k : ℤ) - 1074) hpos) s (k * 2 ^ 52 + m)

namespace Held

variable {u v : UnpackedFloat} {s t : Sign} {n : ℕ}

theorem finite_of_eq {m k : ℕ} {e : ℤ} (s : Sign) (hpos : 0 < m) (hk : k < 2046) (hm : m < 2 ^ 53)
    (hfirst : 2 ^ 52 ≤ m ∨ k = 0) (he : e = (k : ℤ) - 1074) (hn : n = k * 2 ^ 52 + m) :
    Held (.finite s m e hpos) s n := by
  subst he hn
  exact .finite s m k hpos hk hm hfirst

/-- Sign and magnitude say which value it is. -/
theorem eq (hu : Held u s n) (hv : Held v s n) : u = v := by
  generalize hn : n = n' at hv
  cases hu with
  | infinity s =>
      cases hv with
      | infinity => rfl
      | zero => omega
      | finite => omega
  | zero s =>
      cases hv with
      | infinity => omega
      | zero => rfl
      | finite => omega
  | finite s m k hpos hk hm hfirst =>
      cases hv with
      | infinity => omega
      | zero => omega
      | finite _ m' k' hpos' hk' hm' hfirst' =>
          obtain rfl : k = k' := by omega
          obtain rfl : m = m' := by omega
          rfl

end Held

/-! ### Bit fields -/

section
variable (b : BitVec Format.binary64.numBits)

theorem toNat_unpackMantissa : (unpackMantissa b).toNat = b.toNat % 2 ^ 52 := by
  simp [unpackMantissa]

theorem toNat_unpackExponent : (unpackExponent b).toNat = b.toNat / 2 ^ 52 % 2 ^ 11 := by
  simp [unpackExponent, Nat.shiftRight_eq_div_pow]

theorem toNat_unpackSign : (unpackSign b).toNat = b.toNat / 2 ^ 63 := by
  have hlt : b.toNat < 2 ^ 64 := b.isLt
  unfold unpackSign
  simp only [BitVec.toNat_cast, BitVec.extractLsb_toNat, Nat.shiftRight_eq_div_pow]
  show b.toNat / 2 ^ 63 % 2 ^ (63 - 63 + 1) = b.toNat / 2 ^ 63
  omega

theorem ofBitVec_unpackSign_packComponents (s : Sign) (e : BitVec 11) (m : BitVec 52) :
    Sign.ofBitVec (unpackSign (packComponents Format.binary64 s e m)) = s := by
  unfold unpackSign
  simp only [packComponents, BitVec.extractLsb]
  rw [BitVec.extractLsb'_append_eq_of_le (by omega),
    BitVec.extractLsb'_append_eq_of_le (by omega)]
  cases s <;> rfl

/-- Exponent and fraction together are the magnitude. The largest exponent is kept for the infinities
    and for what is not a number. -/
theorem held_unpack {E M : ℕ} (hE : (unpackExponent b).toNat = E) (hM : (unpackMantissa b).toNat = M)
    (hfinite : E < 2047 ∨ M = 0) :
    Held (UnpackedFloat.unpack Format.binary64 b) (Sign.ofBitVec (unpackSign b)) (E * 2 ^ 52 + M) := by
  have hM' : M < 2 ^ 52 := hM ▸ (unpackMantissa b).isLt
  have hE' : E < 2 ^ 11 := hE ▸ (unpackExponent b).isLt
  have hfirst : (1#1 ++ unpackMantissa b).toNat = 2 ^ 52 + M := by
    rw [BitVec.toNat_append, hM, ← Nat.shiftLeft_add_eq_or_of_lt hM']
    rfl
  have hbias : Format.binary64.exponentBias = 1023 := rfl
  have hbits : Format.binary64.mantissaBitsWithoutImplicit = 52 := rfl
  have hones : unpackExponent b = -1#11 ↔ E = 2047 := hE ▸ BitVec.toNat_eq
  have hexponent : unpackExponent b = 0#11 ↔ E = 0 := hE ▸ BitVec.toNat_eq
  have hmantissa : unpackMantissa b = 0#52 ↔ M = 0 := hM ▸ BitVec.toNat_eq
  unfold UnpackedFloat.unpack
  by_cases h2047 : E = 2047
  · obtain rfl : M = 0 := hfinite.resolve_left (by omega)
    rw [if_pos (hones.2 h2047), if_pos (hmantissa.2 rfl), h2047]
    exact .infinity _
  rw [if_neg (mt hones.1 h2047)]
  by_cases h0 : E = 0
  · rw [if_pos (hexponent.2 h0)]
    by_cases hm : M = 0
    · rw [dif_pos (hmantissa.2 hm), h0, hm]
      exact .zero _
    · rw [dif_neg (mt hmantissa.1 hm)]
      exact .finite_of_eq (k := 0) _ _ (by omega) (by omega) (Or.inr rfl) (by omega) (by omega)
  · rw [if_neg (mt hexponent.1 h0)]
    have hk : E - 1 < 2046 := by omega
    exact .finite_of_eq _ _ hk (by omega) (Or.inl (by omega)) (by omega) (by omega)

end

/-- What is held is found again after it was put together. -/
theorem Held.unpack_pack {u : UnpackedFloat} {s : Sign} {n : ℕ} (h : Held u s n) :
    UnpackedFloat.unpack Format.binary64 (UnpackedFloat.pack Format.binary64 u) = u := by
  cases h with
  | infinity s => cases s <;> rfl
  | zero s => cases s <;> rfl
  | finite s m k hpos hk hm hfirst =>
      have hheld : ∀ e : BitVec 11, e.toNat < 2047 →
          e.toNat * 2 ^ 52 + m % 2 ^ 52 = k * 2 ^ 52 + m →
          UnpackedFloat.unpack Format.binary64 (packComponents Format.binary64 s e (BitVec.ofNat 52 m)) =
            .finite s m ((k : ℤ) - 1074) hpos := by
        intro e he hn
        have h := held_unpack (packComponents Format.binary64 s e (BitVec.ofNat 52 m))
          (congrArg BitVec.toNat unpackExponent_packComponents)
          (congrArg BitVec.toNat unpackMantissa_packComponents) (Or.inl he)
        rw [ofBitVec_unpackSign_packComponents, BitVec.toNat_ofNat, hn] at h
        exact h.eq (.finite s m k hpos hk hm hfirst)
      have hpack : UnpackedFloat.pack Format.binary64 (.finite s m ((k : ℤ) - 1074) hpos) =
          if m.log2 + 1 = 53 then
            packComponents Format.binary64 s (BitVec.ofNat 11 (k + 1)) (BitVec.ofNat 52 m)
          else packComponents Format.binary64 s 0#11 (BitVec.ofNat 52 m) := by
        have hexponent : ((k : ℤ) - 1074 + (1023 : ℕ) + (52 : ℕ)).toNat = k + 1 := by omega
        rw [← hexponent]
        exact if_neg (show ¬ 2 ^ 11 ≤ ((k : ℤ) - 1074 + (1023 : ℕ) + (52 : ℕ)).toNat + 1 by omega)
      by_cases hnormal : m.log2 + 1 = 53
      · rw [hpack, if_pos hnormal]
        have hlog : 52 ≤ m.log2 := by omega
        have hlow := (Nat.le_log2 hpos.ne').1 hlog
        have he : (BitVec.ofNat 11 (k + 1)).toNat = k + 1 := by
          rw [BitVec.toNat_ofNat]
          omega
        exact hheld (BitVec.ofNat 11 (k + 1)) (by omega) (by omega)
      · rw [hpack, if_neg hnormal]
        have hlow : m < 2 ^ 52 := by
          by_contra hle
          have hlog := (Nat.le_log2 hpos.ne').2 (not_lt.1 hle)
          have hlog' := (Nat.log2_lt hpos.ne').2 hm
          omega
        have he : (0#11).toNat = 0 := rfl
        exact hheld 0#11 (by omega) (by omega)

/-! ## Doubles -/

/-- The bits of a double, taken apart. -/
def unpacked (x : Binary64) : UnpackedFloat :=
  UnpackedFloat.unpack Format.binary64 x.bits.toBitVec

/-- The sign bit. -/
def sign (x : Binary64) : Sign := if x.isNegative then .negative else .positive

/-- A double that is a number is held by its sign bit and its magnitude. -/
theorem held_of_isNaN {x : Binary64} (h : x.isNaN = false) :
    Held x.unpacked x.sign x.magnitudeBits.toNat := by
  have hlt : x.bits.toNat < 2 ^ 64 := x.bits.toNat_lt
  have hnumber : ¬ 2047 * 2 ^ 52 < x.bits.toNat % 2 ^ 63 := by
    rw [← toNat_magnitudeBits, ← isNaN_iff, h]
    exact Bool.false_ne_true
  have hheld := held_unpack (x.bits.toBitVec : BitVec Format.binary64.numBits)
    (toNat_unpackExponent _) (toNat_unpackMantissa _)
  have hsign : Sign.ofBitVec (@unpackSign Format.binary64 x.bits.toBitVec) = x.sign := by
    have hbit : (@unpackSign Format.binary64 x.bits.toBitVec).toNat =
      x.bits.toNat / 2 ^ 63 := toNat_unpackSign _
    simp only [Sign.ofBitVec, sign, isNegative_iff, BitVec.toNat_eq, hbit]
    split_ifs with hpositive hnegative
    · exact absurd (show x.bits.toNat / 2 ^ 63 = 0 from hpositive) (by omega)
    · rfl
    · rfl
    · exact absurd (show x.bits.toNat / 2 ^ 63 = 0 by omega) hpositive
  rw [hsign] at hheld
  have hn : x.bits.toNat / 2 ^ 52 % 2 ^ 11 * 2 ^ 52 + x.bits.toNat % 2 ^ 52 =
      x.bits.toNat % 2 ^ 63 := by omega
  rw [toNat_magnitudeBits, ← hn]
  refine hheld ?_
  show x.bits.toNat / 2 ^ 52 % 2 ^ 11 < 2047 ∨ x.bits.toNat % 2 ^ 52 = 0
  omega

theorem unpacked_of_isNaN {x : Binary64} (h : x.isNaN = true) : x.unpacked = .notANumber := by
  have hlt : x.bits.toNat < 2 ^ 64 := x.bits.toNat_lt
  rw [isNaN_iff, toNat_magnitudeBits] at h
  have hexponent : @unpackExponent Format.binary64 x.bits.toBitVec = -1#11 := by
    refine BitVec.eq_of_toNat_eq ((toNat_unpackExponent _).trans ?_)
    show x.bits.toNat / 2 ^ 52 % 2 ^ 11 = 2047
    omega
  have hmantissa : @unpackMantissa Format.binary64 x.bits.toBitVec ≠ 0#52 := by
    intro hzero
    have hzero : x.bits.toNat % 2 ^ 52 = 0 :=
      (toNat_unpackMantissa _).symm.trans (congrArg BitVec.toNat hzero)
    omega
  unfold unpacked UnpackedFloat.unpack
  rw [if_pos hexponent, if_neg hmantissa]

/-! ## Comparisons -/

/-- Exponents decide before fractions, as they stand before them in the bits. -/
theorem compare_then_eq {k l m n : ℕ} (hm : m < 2 ^ 53) (hn : n < 2 ^ 53)
    (hk : 2 ^ 52 ≤ m ∨ k = 0) (hl : 2 ^ 52 ≤ n ∨ l = 0) :
    (compare ((k : ℤ) - 1074) ((l : ℤ) - 1074)).then (compare m n) =
      compare ((k * 2 ^ 52 + m : ℕ) : ℤ) ((l * 2 ^ 52 + n : ℕ) : ℤ) := by
  rcases lt_trichotomy k l with h | rfl | h
  · rw [compare_lt_iff_lt.2 (show (k : ℤ) - 1074 < (l : ℤ) - 1074 by omega),
      compare_lt_iff_lt.2 (show ((k * 2 ^ 52 + m : ℕ) : ℤ) < (l * 2 ^ 52 + n : ℕ) by omega)]
    rfl
  · rw [compare_eq_iff_eq.2 (rfl : (k : ℤ) - 1074 = (k : ℤ) - 1074)]
    rcases lt_trichotomy m n with h | rfl | h
    · rw [compare_lt_iff_lt.2 h,
        compare_lt_iff_lt.2 (show ((k * 2 ^ 52 + m : ℕ) : ℤ) < (k * 2 ^ 52 + n : ℕ) by omega)]
      rfl
    · rw [compare_eq_iff_eq.2 rfl, compare_eq_iff_eq.2 rfl]
      rfl
    · rw [compare_gt_iff_gt.2 h,
        compare_gt_iff_gt.2 (show ((k * 2 ^ 52 + m : ℕ) : ℤ) > (k * 2 ^ 52 + n : ℕ) by omega)]
      rfl
  · rw [compare_gt_iff_gt.2 (show (k : ℤ) - 1074 > (l : ℤ) - 1074 by omega),
      compare_gt_iff_gt.2 (show ((k * 2 ^ 52 + m : ℕ) : ℤ) > (l * 2 ^ 52 + n : ℕ) by omega)]
    rfl

theorem swap_compare (a b : ℤ) : (compare a b).swap = compare (-a) (-b) := by
  rcases lt_trichotomy a b with h | rfl | h
  · rw [compare_lt_iff_lt.2 h, compare_gt_iff_gt.2 (neg_lt_neg h)]
    rfl
  · rw [compare_eq_iff_eq.2 rfl, compare_eq_iff_eq.2 rfl]
    rfl
  · rw [compare_gt_iff_gt.2 h, compare_lt_iff_lt.2 (neg_lt_neg h)]
    rfl

/-- Values that are held compare as their magnitudes with their signs do. -/
theorem Held.compare_eq {u v : UnpackedFloat} {s t : Sign} {m n : ℕ} (hu : Held u s m)
    (hv : Held v t n) : u.compare v = some (compare (s.apply m) (t.apply n)) := by
  have hlt : ∀ {a b : ℤ}, a < b → some Ordering.lt = some (compare a b) := fun h =>
    congrArg some (compare_lt_iff_lt.2 h).symm
  have hgt : ∀ {a b : ℤ}, b < a → some Ordering.gt = some (compare a b) := fun h =>
    congrArg some (compare_gt_iff_gt.2 h).symm
  cases hu with
  | infinity s =>
      cases hv with
      | infinity t => cases s <;> cases t <;> rfl
      | zero t => cases s <;> cases t <;> rfl
      | finite t n l _ hl hn _ =>
          cases s
          · exact hlt (by cases t <;> simp only [Sign.apply] <;> omega)
          · exact hgt (by cases t <;> simp only [Sign.apply] <;> omega)
  | zero s =>
      cases hv with
      | infinity t => cases s <;> cases t <;> rfl
      | zero t => cases s <;> cases t <;> rfl
      | finite t n l hn _ _ _ =>
          cases t
          · exact hgt (by cases s <;> simp only [Sign.apply] <;> omega)
          · exact hlt (by cases s <;> simp only [Sign.apply] <;> omega)
  | finite s m k hm hk hm' hfirst =>
      cases hv with
      | infinity t =>
          cases t
          · exact hgt (by cases s <;> simp only [Sign.apply] <;> omega)
          · exact hlt (by cases s <;> simp only [Sign.apply] <;> omega)
      | zero t =>
          cases s
          · exact hlt (by cases t <;> simp only [Sign.apply] <;> omega)
          · exact hgt (by cases t <;> simp only [Sign.apply] <;> omega)
      | finite t n l hn hl hn' hfirst' =>
          have hsame := compare_then_eq hm' hn' hfirst hfirst'
          cases s <;> cases t
          · exact congrArg some ((congrArg Ordering.swap hsame).trans (swap_compare _ _))
          · exact hlt (by simp only [Sign.apply]; omega)
          · exact hgt (by simp only [Sign.apply]; omega)
          · exact congrArg some hsame

/-- The magnitude with the sign in front. Both zeros have the rank zero. -/
def rank (x : Binary64) : ℤ := x.sign.apply x.magnitudeBits.toNat

theorem unpack_toFloat (x : Binary64) : x.toFloat.toModel.unpack = x.unpacked := by
  show UnpackedFloat.unpack Format.binary64 (UnpackedFloat.pack Format.binary64 x.unpacked) = _
  cases h : x.isNaN with
  | false => exact (held_of_isNaN h).unpack_pack
  | true =>
      rw [unpacked_of_isNaN h]
      rfl

variable {x y : Binary64}

/-- Numbers compare as their ranks do, and with nothing else. -/
theorem compare_unpacked : x.unpacked.compare y.unpacked =
    if x.isNaN || y.isNaN then none else some (compare x.rank y.rank) := by
  cases hx : x.isNaN with
  | true =>
      rw [unpacked_of_isNaN hx]
      rfl
  | false =>
      cases hy : y.isNaN with
      | true =>
          rw [unpacked_of_isNaN hy]
          cases x.unpacked <;> rfl
      | false => exact (held_of_isNaN hx).compare_eq (held_of_isNaN hy)

theorem le_iff : x ≤ y ↔ x.isNaN = false ∧ y.isNaN = false ∧ x.rank ≤ y.rank := by
  have hle : x ≤ y ↔ (x.unpacked.compare y.unpacked).any Ordering.isLE = true := by
    rw [← unpack_toFloat, ← unpack_toFloat]
    exact decide_eq_true_iff
  rw [hle, compare_unpacked]
  cases x.isNaN <;> cases y.isNaN <;> simp [Ordering.isLE_iff_ne_gt, compare_gt_iff_gt]

theorem lt_iff_compare : x < y ↔ (x.unpacked.compare y.unpacked == some .lt) = true := by
  rw [← unpack_toFloat, ← unpack_toFloat]
  exact decide_eq_true_iff

theorem lt_iff : x < y ↔ x.isNaN = false ∧ y.isNaN = false ∧ x.rank < y.rank := by
  rw [lt_iff_compare, compare_unpacked]
  cases x.isNaN <;> cases y.isNaN <;> simp [compare_lt_iff_lt]

theorem beq_eq : (x == y) = (x.unpacked.compare y.unpacked == some .eq) := by
  rw [← unpack_toFloat, ← unpack_toFloat]
  rfl

theorem beq_iff : (x == y) = true ↔ x.isNaN = false ∧ y.isNaN = false ∧ x.rank = y.rank := by
  rw [beq_eq, compare_unpacked]
  cases x.isNaN <;> cases y.isNaN <;> simp

/-! ## Adding zero -/

/-- A value that is held is what an operation answers with when it comes to it. -/
theorem Held.unpacked_ofFloat {u : UnpackedFloat} {s : Sign} {n : ℕ} (h : Held u s n) :
    (ofFloat (Float.ofModel (Float.Model.pack u))).unpacked = u := by
  have hback := h.unpack_pack
  have hnumber : (Float.ofModel (Float.Model.pack u)).isNaN = false := by
    show (UnpackedFloat.unpack Format.binary64 (UnpackedFloat.pack Format.binary64 u)).isNaN = false
    rw [hback]
    cases h <;> rfl
  rw [ofFloat, hnumber]
  exact hback

/-- With zero added, on either side, a number is the number it was, but that zero may change its
    sign. -/
theorem Held.add_zero_cases {u : UnpackedFloat} {s : Sign} {n : ℕ} (h : Held u s n) :
    (∃ t, Held (UnpackedFloat.add Format.binary64 (.zero .positive) u) t n ∧
      t.apply n = s.apply n) ∧
    ∃ t, Held (UnpackedFloat.add Format.binary64 u (.zero .positive)) t n ∧ t.apply n = s.apply n := by
  cases h with
  | infinity s => exact ⟨⟨s, .infinity s, rfl⟩, s, .infinity s, rfl⟩
  | zero s =>
      cases s
      · exact ⟨⟨.positive, .zero _, rfl⟩, .positive, .zero _, rfl⟩
      · exact ⟨⟨.positive, .zero _, rfl⟩, .positive, .zero _, rfl⟩
  | finite s m k hpos hk hm hfirst =>
      exact ⟨⟨s, .finite s m k hpos hk hm hfirst, rfl⟩, s, .finite s m k hpos hk hm hfirst, rfl⟩

theorem beq_of_held {x y : Binary64} {u v : UnpackedFloat} {s t : Sign} {n : ℕ}
    (hx : x.unpacked = u) (hy : y.unpacked = v) (hu : Held u s n) (hv : Held v t n)
    (hrank : s.apply n = t.apply n) : (x == y) = true := by
  rw [beq_eq, hx, hy, hu.compare_eq hv, hrank, compare_eq_iff_eq.2 rfl]
  rfl

theorem zero_add_beq (h : x.isNaN = false) : (0 + x == x) = true := by
  obtain ⟨t, ht, hrank⟩ := (held_of_isNaN h).add_zero_cases.1
  have hsum : 0 + x = ofFloat (Float.ofModel (Float.Model.pack
      (UnpackedFloat.add Format.binary64 (.zero .positive) x.unpacked))) := by
    rw [← unpack_toFloat]
    show onNumbers (fun a b => ofFloat (a.toFloat + b.toFloat)) 0 x = _
    rw [onNumbers, h]
    rfl
  exact beq_of_held (hsum ▸ ht.unpacked_ofFloat) rfl ht (held_of_isNaN h) hrank

theorem add_zero_beq (h : x.isNaN = false) : (x + 0 == x) = true := by
  obtain ⟨t, ht, hrank⟩ := (held_of_isNaN h).add_zero_cases.2
  have hsum : x + 0 = ofFloat (Float.ofModel (Float.Model.pack
      (UnpackedFloat.add Format.binary64 x.unpacked (.zero .positive)))) := by
    rw [← unpack_toFloat]
    show onNumbers (fun a b => ofFloat (a.toFloat + b.toFloat)) x 0 = _
    rw [onNumbers, h]
    rfl
  exact beq_of_held (hsum ▸ ht.unpacked_ofFloat) rfl ht (held_of_isNaN h) hrank

/-! ## The order -/

theorem isNaN_abs (x : Binary64) : x.abs.isNaN = x.isNaN := by
  rw [isNaN, x.magnitudeBits_abs, isNaN]

theorem not_isNegative_abs (x : Binary64) : ¬ x.abs.isNegative = true := by
  have hlt := Nat.mod_lt x.bits.toNat (show 0 < 2 ^ 63 by decide)
  rw [← toNat_magnitudeBits] at hlt
  rw [isNegative_iff]
  exact not_le.2 hlt

theorem rank_abs (x : Binary64) : x.abs.rank = |x.rank| := by
  have hsign : x.abs.sign = .positive := if_neg x.not_isNegative_abs
  have hmagnitude : ∀ s : Sign, |s.apply (x.magnitudeBits.toNat : ℤ)| = x.magnitudeBits.toNat := by
    intro s
    cases s
    · exact (abs_neg _).trans (Nat.abs_cast _)
    · exact Nat.abs_cast _
  rw [rank, hsign, x.magnitudeBits_abs, rank, hmagnitude]
  rfl

/-- Among numbers, sorting by bits refines the order. -/
theorem orderKey_lt (h : x.rank < y.rank) : x.orderKey < y.orderKey := by
  have hx := x.bits.toNat_lt
  have hy := y.bits.toNat_lt
  simp only [rank, sign, toNat_magnitudeBits, isNegative_iff, orderKey] at h ⊢
  split_ifs at h ⊢ <;> simp only [Sign.apply] at h <;> omega

/-- Magnitudes have the same bits if they are equal. -/
theorem orderKey_abs (x : Binary64) : x.abs.orderKey = x.abs.rank := by
  have hpositive := x.not_isNegative_abs
  simp only [rank, sign, toNat_magnitudeBits, orderKey, if_neg hpositive, Sign.apply]
  rw [isNegative_iff] at hpositive
  omega

end Binary64

instance : Scalar.LawfulOrder Binary64 where
  isNumber_of_le h := by
    rw [Binary64.le_iff] at h
    exact ⟨Binary64.le_iff.2 ⟨h.1, h.1, le_refl _⟩, Binary64.le_iff.2 ⟨h.2.1, h.2.1, le_refl _⟩⟩
  le_trans hab hbc := by
    rw [Binary64.le_iff] at hab hbc ⊢
    exact ⟨hab.1, hbc.2.1, hab.2.2.trans hbc.2.2⟩
  le_total ha hb := by
    have ha := (Binary64.le_iff.1 ha).1
    have hb := (Binary64.le_iff.1 hb).1
    simp only [Binary64.le_iff, ha, hb, true_and]
    exact le_total _ _
  lt_iff := by
    intro a b
    simp only [Binary64.le_iff, Binary64.lt_iff]
    constructor
    · rintro ⟨ha, hb, h⟩
      exact ⟨⟨ha, hb, h.le⟩, fun h' => absurd h'.2.2 (not_le.2 h)⟩
    · rintro ⟨⟨ha, hb, h⟩, h'⟩
      exact ⟨ha, hb, not_le.1 fun hle => h' ⟨hb, ha, hle⟩⟩
  beq_iff := by
    intro a b
    simp only [Binary64.le_iff, Binary64.beq_iff]
    constructor
    · rintro ⟨ha, hb, h⟩
      exact ⟨⟨ha, hb, h.le⟩, hb, ha, h.ge⟩
    · rintro ⟨⟨ha, hb, h⟩, -, -, h'⟩
      exact ⟨ha, hb, le_antisymm h h'⟩
  isNumber_of_abs h := by
    have h := (Binary64.le_iff.1 h).1
    rw [show Scalar.abs _ = Binary64.abs _ from rfl, Binary64.isNaN_abs] at h
    exact Binary64.le_iff.2 ⟨h, h, le_refl _⟩
  abs_le_abs := by
    intro a b hab hba
    rw [Binary64.le_iff] at hab hba
    refine Binary64.le_iff.2 ⟨(Binary64.isNaN_abs a).trans hab.1, (Binary64.isNaN_abs b).trans hab.2.1,
      ?_⟩
    rw [show Scalar.abs a = a.abs from rfl, show Scalar.abs b = b.abs from rfl, Binary64.rank_abs,
      Binary64.rank_abs, le_antisymm hab.2.2 hba.2.2]
  isNumber_zero := Binary64.le_iff.2 ⟨rfl, rfl, le_refl _⟩
  abs_zero := by decide
  zero_add_zero := by decide
  zero_add h := Binary64.zero_add_beq (Binary64.le_iff.1 h).1
  add_zero h := Binary64.add_zero_beq (Binary64.le_iff.1 h).1
  totalLe_trans hab hbc :=
    decide_eq_true ((of_decide_eq_true hab).trans (of_decide_eq_true hbc))
  totalLe_total a b := by
    show (decide (a.orderKey ≤ b.orderKey) || decide (b.orderKey ≤ a.orderKey)) = true
    simpa using le_total a.orderKey b.orderKey
  totalLe_of_lt h := decide_eq_false (not_le.2 (Binary64.orderKey_lt (Binary64.lt_iff.1 h).2.2))

instance : Scalar.LawfulMagnitude Binary64 where
  totalLe_abs {a b} h := by
    refine decide_eq_true ?_
    show a.abs.orderKey ≤ b.abs.orderKey
    rw [Binary64.orderKey_abs, Binary64.orderKey_abs]
    exact (Binary64.le_iff.1 h).2.2

end CanvasTransform
