import CanvasTransform.Codec.Double
import CanvasTransform.Proofs.Json.Reading

set_option autoImplicit false

/-! # Numbers are written by the rules

A finite number is laid out from the digits of a decimal. These do not begin with zero unless the
decimal is zero, so wherever the point goes, what is written is a number of JSON
(`Binary64.writable_toJson`): the digits before the point are those of the decimal, with zeros after
them, or a zero alone. -/

namespace CanvasTransform

namespace Decimal

/-- A decimal near a positive number is not zero. -/
theorem digits_ne_zero_of_onGrid? {b : Binary} (hb : b.m ≠ 0) {g : Int} {d : Decimal}
    (h : onGrid? b g = some d) : d.digits ≠ 0 := by
  have hnum : 0 < (weights b.e g).2 := by
    simp only [weights, Nat.shiftLeft_eq]
    exact Nat.mul_pos (Nat.pow_pos (Nat.succ_pos 9)) (Nat.two_pow_pos _)
  unfold onGrid? at h
  split at h
  next unit num hweights =>
  rw [hweights] at hnum
  extract_lets low value high inside c below above at h
  have hlow : 0 < low := Nat.mul_pos (by split <;> omega) hnum
  -- zero is not in the interval, since the lower end of the interval is above it
  have hinside : ∀ c, inside c = true → c ≠ 0 := by
    rintro c hc rfl
    simp only [inside, Nat.zero_mul] at hc
    split at hc
    · simp only [Bool.and_eq_true, decide_eq_true_eq] at hc
      omega
    · simp only [Bool.and_eq_true, decide_eq_true_eq] at hc
      omega
  split at h
  · next hboth =>
      have hc := hinside c (Bool.and_elim_left hboth)
      obtain rfl := Option.some.inj h
      dsimp only
      split
      · exact hc
      · exact Nat.succ_ne_zero c
  · split at h
    · next hc =>
        obtain rfl := Option.some.inj h
        exact hinside c hc
    · split at h
      · obtain rfl := Option.some.inj h
        exact Nat.succ_ne_zero c
      · exact nomatch h

/-- A decimal whose digits do not begin with zero, or zero as such. -/
def Plain (d : Decimal) : Prop := d.digits ≠ 0 ∨ d = ⟨0, 0⟩

theorem plain_trim {d : Decimal} (h : d.Plain) (n : Nat) : (trim n d).Plain := by
  induction n generalizing d with
  | zero => exact h
  | succ n ih =>
      rw [trim]
      split
      · next hzero => exact ih (Or.inl (by dsimp only; omega))
      · exact h

theorem plain_search {b : Binary} (hb : b.m ≠ 0) (t : Int) (n : Nat) : (search b t n).Plain := by
  induction n with
  | zero =>
      rw [search]
      cases h : onGrid? b (t - 16) with
      | none => exact Or.inr rfl
      | some d => exact Or.inl (digits_ne_zero_of_onGrid? hb h)
  | succ n ih =>
      rw [search]
      split
      · next d h => exact Or.inl (digits_ne_zero_of_onGrid? hb h)
      · exact ih

theorem plain_shortest {b : Binary} (hb : b.m ≠ 0) : (shortest b).Plain :=
  plain_trim (plain_search hb _ _) _

end Decimal

namespace Binary64

theorem proper_layOut {d : Decimal} (h : d.Plain) (negative : Bool) :
    let digits := Numeral.digitsOf d.digits
    (layOut negative digits (digits.length + d.exponent)).Proper := by
  intro digits
  have hlt : ∀ e ∈ digits, e < 10 := fun e he => Numeral.lt_ten_of_mem_digitsOf he
  rcases h with hd | rfl
  · obtain ⟨e, rest, hdigits, he⟩ := Numeral.digitsOf_eq_cons hd
    have hcons : digits = e :: rest := hdigits
    unfold layOut
    extract_lets count
    have hzeros : ∀ n, ∀ z ∈ List.replicate n 0, z < 10 := fun n z hz => by
      rw [List.eq_of_mem_replicate hz]
      decide
    split_ifs with hlarge hpoint hsmall
    · refine ⟨?_, Or.inr ⟨e, rest ++ List.replicate _ 0, by rw [hcons]; rfl, he⟩⟩
      simp only [List.forall_mem_append, List.forall_mem_singleton]
      exact ⟨⟨hlt, hzeros _⟩, by decide⟩
    · obtain ⟨n, hn⟩ : ∃ n, (count + d.exponent).toNat = n + 1 :=
        Nat.exists_eq_succ_of_ne_zero (by omega)
      have htake : digits.take (n + 1) = e :: rest.take n := by rw [hcons]; rfl
      refine ⟨?_, Or.inr ⟨e, rest.take n, (congrArg digits.take hn).trans htake, he⟩⟩
      simp only [List.take_append_drop]
      exact hlt
    · refine ⟨?_, Or.inl rfl⟩
      simp only [List.forall_mem_append, List.forall_mem_singleton]
      exact ⟨by decide, hzeros _, hlt⟩
    · refine ⟨?_, Or.inr ⟨e, [], by rw [hcons]; rfl, he⟩⟩
      simp only [List.take_append_drop]
      exact hlt
  · cases negative <;> exact ⟨by decide, Or.inl rfl⟩

theorem proper_toNumeral (x : Binary64) : x.toNumeral.Proper := by
  rw [toNumeral]
  split
  next m e hparts =>
  split
  · exact ⟨by simp, Or.inl rfl⟩
  · next hm => exact proper_layOut (Decimal.plain_shortest hm) _

/-- **What is written for a number is JSON**, `null` if the number is not finite. -/
theorem writable_toJson (x : Binary64) : (toJson x).Writable := by
  by_cases h : x.isFinite = true
  · rw [show toJson x = .number x.toNumeral from if_pos h]
    exact .number x.proper_toNumeral
  · rw [show toJson x = .null from if_neg h]
    exact .null

end Binary64

end CanvasTransform
