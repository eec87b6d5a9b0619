import CanvasTransform.Proofs.Numbers.Doubles

set_option autoImplicit false

/-! # Differences

What is larger is larger by something. For doubles this is not a matter of course, since a difference
is rounded. It holds because numbers that are too small for a full fraction are still held, with a
shorter one: a difference of two doubles is a whole number of times the least double, and rounding
never takes it to zero (`Binary64.isPositive_round`). An infinity is larger by an infinity.
`Scalar.LawfulDifference` is the law, for both readings. -/

namespace CanvasTransform

/-- A larger value is larger by a positive value. -/
class Scalar.LawfulDifference (α : Type) [Scalar α] : Prop where
  sub_pos {a b : α} : a < b → 0 < b - a

instance : Scalar.LawfulDifference ℝ where
  sub_pos := sub_pos.2

namespace Binary64

open Float.Model Float.Model.UnpackedFloat

/-! ## Positive values before they are packed -/

/-- A positive value whose fraction and exponent are within what can be held, but for an exponent that
    may be too large. -/
inductive IsPositive : UnpackedFloat → Prop
  | infinity : IsPositive (.infinity .positive)
  | finite (m : ℕ) (e : ℤ) (hpos : 0 < m) (hm : m < 2 ^ 53) (he : -1074 ≤ e) :
      IsPositive (.finite .positive m e hpos)

/-- Packed, a positive value is held as a positive value. -/
theorem IsPositive.exists_held {u : UnpackedFloat} (h : IsPositive u) : ∃ n, 0 < n ∧
    Held (UnpackedFloat.unpack Format.binary64 (UnpackedFloat.pack Format.binary64 u)) .positive n := by
  have hinfinity : ∃ n, 0 < n ∧ Held (UnpackedFloat.unpack Format.binary64
      (packedInfinity Format.binary64 .positive)) .positive n :=
    ⟨2047 * 2 ^ 52, by decide, .infinity .positive⟩
  cases h with
  | infinity => exact hinfinity
  | finite m e hpos hm he =>
      have hcomponents : ∀ E : BitVec 11, E.toNat < 2047 → 0 < E.toNat * 2 ^ 52 + m % 2 ^ 52 →
          ∃ n, 0 < n ∧ Held (UnpackedFloat.unpack Format.binary64
            (packComponents Format.binary64 .positive E (BitVec.ofNat 52 m))) .positive n := by
        intro E hE hn
        refine ⟨_, hn, ?_⟩
        have hheld := held_unpack (packComponents Format.binary64 .positive E (BitVec.ofNat 52 m))
          (congrArg BitVec.toNat unpackExponent_packComponents)
          (congrArg BitVec.toNat unpackMantissa_packComponents) (Or.inl hE)
        rwa [ofBitVec_unpackSign_packComponents, BitVec.toNat_ofNat] at hheld
      have hbiased : (e + (1023 : ℕ) + (52 : ℕ)).toNat = (e + 1075).toNat := by omega
      have hpack : UnpackedFloat.pack Format.binary64 (.finite .positive m e hpos) =
          if 2 ^ 11 ≤ (e + 1075).toNat + 1 then packedInfinity Format.binary64 .positive
          else if m.log2 + 1 = 53 then packComponents Format.binary64 .positive
            (BitVec.ofNat 11 (e + 1075).toNat) (BitVec.ofNat 52 m)
          else packComponents Format.binary64 .positive 0#11 (BitVec.ofNat 52 m) := by
        rw [← hbiased]
        rfl
      rw [hpack]
      split_ifs with hlarge hnormal
      · exact hinfinity
      · have hE : (BitVec.ofNat 11 (e + 1075).toNat).toNat = (e + 1075).toNat := by
          rw [BitVec.toNat_ofNat]
          omega
        exact hcomponents _ (by omega) (by omega)
      · have hlog := (Nat.log2_lt hpos.ne').2 hm
        have hlow : m < 2 ^ 52 := (Nat.log2_lt hpos.ne').1 (by omega)
        exact hcomponents 0#11 (by decide) (by omega)

/-- An operation that comes to a positive value answers with a positive double. -/
theorem IsPositive.zero_lt_ofFloat {u : UnpackedFloat} (h : IsPositive u) :
    0 < ofFloat (Float.ofModel (Float.Model.pack u)) := by
  obtain ⟨n, hn, hheld⟩ := h.exists_held
  have hnumber : (Float.ofModel (Float.Model.pack u)).isNaN = false := by
    show (UnpackedFloat.unpack Format.binary64 (UnpackedFloat.pack Format.binary64 u)).isNaN = false
    revert hheld
    generalize UnpackedFloat.unpack Format.binary64 (UnpackedFloat.pack Format.binary64 u) = v
    intro hheld
    cases hheld <;> rfl
  have hunpacked : (ofFloat (Float.ofModel (Float.Model.pack u))).unpacked =
      UnpackedFloat.unpack Format.binary64 (UnpackedFloat.pack Format.binary64 u) := by
    rw [ofFloat, hnumber]
    rfl
  have hzero : (0 : Binary64).unpacked = .zero .positive := rfl
  rw [lt_iff_compare, hunpacked, hzero, (Held.zero .positive).compare_eq hheld]
  have hlt : Sign.positive.apply ((0 : ℕ) : ℤ) < Sign.positive.apply n := by
    simp only [Sign.apply]
    omega
  rw [compare_lt_iff_lt.2 hlt]
  rfl

/-! ## Rounding -/

theorem mantissa_shiftRight (em : ExtendedMantissa) (k : ℕ) :
    (em >>> k).mantissa = em.mantissa / 2 ^ k := by
  induction k with
  | zero => exact (Nat.div_one _).symm
  | succ k ih =>
      show (em >>> k).mantissa / 2 = em.mantissa / 2 ^ (k + 1)
      rw [ih, Nat.div_div_eq_div_mul, pow_succ]

theorem mantissa_ofMantissaAndAccuracy (m : ℕ) (a : Accuracy) :
    (ExtendedMantissa.ofMantissaAndAccuracy m a).mantissa = m := by
  match a with
  | .exact | .inexact .lt | .inexact .eq | .inexact .gt => rfl

theorem mantissa_le_roundedMantissa (em : ExtendedMantissa) : em.mantissa ≤ em.roundedMantissa := by
  unfold ExtendedMantissa.roundedMantissa
  match em.accuracy with
  | .exact | .inexact .lt => exact le_refl _
  | .inexact .eq => exact Nat.le_add_right _ _
  | .inexact .gt => exact Nat.le_succ _

theorem targetExponent_binary64 (t : ℤ) : Format.binary64.targetExponent t = max (t - 53) (-1074) :=
  rfl

/-- A fraction is shortened only as far as its first bit allows, so something of it is left. -/
theorem shifted_bounds {m : ℕ} {e : ℤ} (hm : 0 < m) (he : -1074 ≤ e) :
    let k := (Format.binary64.targetExponent (totalExponent m e) - e).toNat
    let shifted := (ExtendedMantissa.ofMantissaAndAccuracy m .exact >>> k).mantissa
    0 < shifted ∧ shifted < 2 ^ 53 := by
  have hlow := Nat.log2_self_le hm.ne'
  have hhigh : m < 2 ^ (m.log2 + 1) := Nat.lt_log2_self
  intro k shifted
  have hk : k = m.log2 - 52 := by
    simp only [k, targetExponent_binary64, totalExponent]
    omega
  have hshifted : shifted = m / 2 ^ k := by
    rw [← mantissa_ofMantissaAndAccuracy m .exact, ← mantissa_shiftRight]
  rw [hshifted, hk]
  constructor
  · exact Nat.div_pos ((Nat.pow_le_pow_right (by decide) (by omega)).trans hlow)
      (Nat.two_pow_pos _)
  · rw [Nat.div_lt_iff_lt_mul (Nat.two_pow_pos _), ← pow_add]
    exact hhigh.trans_le (Nat.pow_le_pow_right (by decide) (by omega))

/-- **A positive number is not rounded to zero**, if it is a whole number of times the least double. -/
theorem isPositive_round {m : ℕ} {e : ℤ} (hm : 0 < m) (he : -1074 ≤ e) :
    IsPositive (UnpackedFloat.round Format.binary64 .positive m e) := by
  have hwith : ∀ {m : ℕ} {e : ℤ}, 0 < m → -1074 ≤ e →
      IsPositive (roundWithAccuracy Format.binary64 .positive m e .exact) := by
    intro m e hm he
    -- Rounding may lengthen the fraction by a bit, so it is shortened a second time.
    obtain ⟨hfirst, -⟩ := shifted_bounds hm he
    unfold roundWithAccuracy shiftToTargetExponent shiftToExponent
    have hr := hfirst.trans_le (mantissa_le_roundedMantissa _)
    dsimp only
    generalize (Format.binary64.targetExponent (totalExponent m e) - e).toNat = k at *
    generalize ExtendedMantissa.roundedMantissa _ = r at *
    obtain ⟨hpos, hlt⟩ := shifted_bounds hr (show -1074 ≤ e + k by omega)
    rw [dif_neg hpos.ne']
    exact .finite _ _ hpos hlt (by omega)
  unfold UnpackedFloat.round decreaseExponent
  refine hwith ?_ ?_
  · rw [Nat.shiftLeft_eq]
    exact Nat.mul_pos hm (Nat.two_pow_pos _)
  · rw [targetExponent_binary64]
    omega

/-! ## Subtraction -/

/-- Brought to the same exponent, fractions are ordered as the magnitudes are. -/
theorem shiftLeft_lt_shiftLeft {k l m n : ℕ} (hm : m < 2 ^ 53) (hk : 2 ^ 52 ≤ m ∨ k = 0)
    (hn : n < 2 ^ 53) (hl : 2 ^ 52 ≤ n ∨ l = 0) (h : l * 2 ^ 52 + n < k * 2 ^ 52 + m) :
    n <<< (l - min k l) < m <<< (k - min k l) := by
  have hle : l ≤ k := by omega
  rw [min_eq_right hle, Nat.sub_self, Nat.shiftLeft_zero, Nat.shiftLeft_eq]
  rcases hle.eq_or_lt with rfl | hlt
  · rw [Nat.sub_self, pow_zero, mul_one]
    omega
  · have htwo : 2 ^ 1 ≤ 2 ^ (k - l) := Nat.pow_le_pow_right (by decide) (by omega)
    have hfirst : 2 ^ 52 ≤ m := hk.resolve_right (by omega)
    have := Nat.mul_le_mul hfirst htwo
    omega

variable {u v : UnpackedFloat} {s t : Sign} {m n : ℕ}

/-- The difference of a larger and a smaller value is positive. -/
theorem Held.isPositive_sub (hu : Held u s m) (hv : Held v t n)
    (h : t.apply (n : ℤ) < s.apply (m : ℤ)) :
    IsPositive (UnpackedFloat.sub Format.binary64 u v) := by
  cases hu with
  | infinity s =>
      cases s with
      | negative => cases hv <;> cases t <;> simp only [Sign.apply] at h <;> omega
      | positive =>
          cases hv with
          | infinity t =>
              cases t with
              | negative => exact .infinity
              | positive => exact absurd h (lt_irrefl _)
          | zero t => exact .infinity
          | finite t n l _ _ _ _ => exact .infinity
  | zero s =>
      cases hv with
      | infinity t =>
          cases t with
          | negative => exact .infinity
          | positive => cases s <;> simp only [Sign.apply] at h <;> omega
      | zero t => cases s <;> cases t <;> simp only [Sign.apply] at h <;> omega
      | finite t n l hpos _ hn _ =>
          cases t with
          | negative => exact .finite n _ hpos hn (by omega)
          | positive => cases s <;> simp only [Sign.apply] at h <;> omega
  | finite s m k hpos hkmax hm hk =>
      cases hv with
      | infinity t =>
          cases t with
          | negative => exact .infinity
          | positive => cases s <;> simp only [Sign.apply] at h <;> omega
      | zero t =>
          cases s with
          | negative => cases t <;> simp only [Sign.apply] at h <;> omega
          | positive => exact .finite m _ hpos hm (by omega)
      | finite t n l hpos' hlmax hn hl =>
          have hexponent : ∀ j : ℕ, ((j : ℤ) - 1074 - min ((k : ℤ) - 1074) ((l : ℤ) - 1074)).toNat =
              j - min k l := by
            intro j
            omega
          have hmantissa : 0 < s.apply (m <<< (k - min k l) : ℕ) - t.apply (n <<< (l - min k l) : ℕ) := by
            have hm' : 0 < m <<< (k - min k l) := by
              rw [Nat.shiftLeft_eq]
              exact Nat.mul_pos hpos (Nat.two_pow_pos _)
            have hn' : 0 < n <<< (l - min k l) := by
              rw [Nat.shiftLeft_eq]
              exact Nat.mul_pos hpos' (Nat.two_pow_pos _)
            cases s with
            | negative =>
                cases t with
                | negative =>
                    simp only [Sign.apply] at h ⊢
                    have := shiftLeft_lt_shiftLeft hn hl hm hk (by omega)
                    rw [min_comm l k] at this
                    omega
                | positive =>
                    simp only [Sign.apply] at h
                    omega
            | positive =>
                cases t with
                | negative =>
                    simp only [Sign.apply]
                    omega
                | positive =>
                    simp only [Sign.apply] at h ⊢
                    have := shiftLeft_lt_shiftLeft hm hk hn hl (by omega)
                    omega
          unfold UnpackedFloat.sub decreaseExponent
          simp only [hexponent]
          generalize s.apply (m <<< (k - min k l) : ℕ) - t.apply (n <<< (l - min k l) : ℕ) = d at *
          rw [UnpackedFloat.normalize, compare_gt_iff_gt.2 hmantissa]
          exact isPositive_round (by omega) (by omega)

theorem sub_pos {x y : Binary64} (h : x < y) : 0 < y - x := by
  obtain ⟨hx, hy, hrank⟩ := lt_iff.1 h
  have hsub : y - x = ofFloat (Float.ofModel (Float.Model.pack
      (UnpackedFloat.sub Format.binary64 y.unpacked x.unpacked))) := by
    rw [← unpack_toFloat, ← unpack_toFloat]
    show onNumbers (fun a b => ofFloat (a.toFloat - b.toFloat)) y x = _
    rw [onNumbers, hx, hy]
    rfl
  rw [hsub]
  exact ((held_of_isNaN hy).isPositive_sub (held_of_isNaN hx) hrank).zero_lt_ofFloat

end Binary64

instance : Scalar.LawfulDifference Binary64 where
  sub_pos := Binary64.sub_pos

end CanvasTransform
