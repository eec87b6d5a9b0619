import Mathlib.Tactic.IntervalCases
import CanvasTransform.Text.Uuid

set_option autoImplicit false

/-! # Identities are read back

An identity is written with all of its digits, so the digits spell it whatever it begins with. The
hyphens come out where they were put in. The written form is neither in braces nor after a scheme,
since it begins with a digit. -/

namespace CanvasTransform.Uuid

/-! ## Digits -/

theorem length_digits (n count : Nat) : (digits n count).length = count := by
  induction count generalizing n with
  | zero => rfl
  | succ count ih => rw [digits, List.length_append, ih, List.length_singleton]

theorem digitValue?_digit {d : Nat} (h : d < 16) : digitValue? (digit d) = some d := by
  interval_cases d <;> decide

theorem exists_of_mem_digits {n count : Nat} {c : Char} (h : c ∈ digits n count) :
    ∃ d < 16, c = digit d := by
  induction count generalizing n with
  | zero => exact absurd h List.not_mem_nil
  | succ count ih =>
      rcases List.mem_append.1 h with h | h
      · exact ih h
      · exact ⟨n % 16, Nat.mod_lt n (by decide), List.mem_singleton.1 h⟩

/-- The last digits of a number spell its remainder. -/
theorem ofDigits?_digits (n count : Nat) : ofDigits? (digits n count) = some (n % 16 ^ count) := by
  induction count generalizing n with
  | zero =>
      rw [Nat.pow_zero, Nat.mod_one]
      rfl
  | succ count ih =>
      have hstep : n % 16 ^ (count + 1) = 16 * (n / 16 % 16 ^ count) + n % 16 := by
        rw [Nat.pow_succ, Nat.mul_comm (16 ^ count), Nat.mod_mul, Nat.add_comm]
      have ih' := ih (n / 16)
      rw [ofDigits?] at ih' ⊢
      rw [digits, List.foldlM_append, ih', Option.bind_eq_bind, Option.bind_some,
        List.foldlM_cons, digitValue?_digit (Nat.mod_lt n (by decide)), hstep]
      rfl

/-! ## Groups -/

/-- Hyphens come out where they were put in. -/
theorem unhyphenate?_hyphenate {lengths : List Nat} {cs : List Char} (hne : lengths ≠ [])
    (h : cs.length = lengths.sum) : unhyphenate? lengths (hyphenate lengths cs) = some cs := by
  induction lengths generalizing cs with
  | nil => exact absurd rfl hne
  | cons n rest ih =>
      cases rest with
      | nil =>
          rw [List.sum_singleton] at h
          rw [hyphenate, unhyphenate?, if_pos h]
      | cons m rest =>
          rw [List.sum_cons] at h
          have hlen : (cs.take n).length = n := by rw [List.length_take]; omega
          have htail := @ih (cs.drop n) (List.cons_ne_nil _ _) (by rw [List.length_drop]; omega)
          rw [hyphenate, unhyphenate?, List.drop_left' hlen, List.take_left' hlen]
          · refine (congrArg (Option.map (cs.take n ++ ·)) htail).trans ?_
            rw [Option.map_some, List.take_append_drop]
          all_goals exact List.cons_ne_nil m rest

/-- What is hyphenated begins as it did. -/
theorem head?_hyphenate {n : Nat} (hn : n ≠ 0) (lengths : List Nat) {c : Char} {cs : List Char} :
    (hyphenate (n :: lengths) (c :: cs)).head? = some c := by
  cases lengths with
  | nil => rfl
  | cons m rest =>
      cases n with
      | zero => exact absurd rfl hn
      | succ n => rfl

/-! ## Identities -/

/-- **An identity is read from what is written for it.** -/
theorem parse?_format (id : BitVec 128) : parse? (format id) = some id := by
  have hlength : (digits id.toNat 32).length = groups.sum := length_digits _ _
  obtain ⟨c, cs, hdigits⟩ := List.exists_cons_of_length_eq_add_one (length_digits id.toNat 32)
  obtain ⟨d, hd, rfl⟩ := exists_of_mem_digits (hdigits ▸ List.mem_cons_self)
  have hlen : (hyphenate groups (digits id.toNat 32)).length ≠ 32 := by
    simp [groups, hyphenate, length_digits]
  obtain ⟨rest, hhead⟩ : ∃ rest, hyphenate groups (digits id.toNat 32) = digit d :: rest :=
    List.head?_eq_some_iff.1 (by rw [hdigits, groups, head?_hyphenate (by decide)])
  have hbraces : inBraces? (digit d :: rest) = none := by
    have hd' : digit d ≠ '\x7b' := by interval_cases d <;> decide
    unfold inBraces?
    split
    · next heq => exact absurd (List.cons.inj heq).1 hd'
    · rfl
  have hscheme : afterScheme? (digit d :: rest) = none := by
    have hd' : (digit d).toLower ≠ 'u' := by interval_cases d <;> decide
    exact if_neg fun heq => hd' (List.cons.inj heq).1
  have hbody : body? (hyphenate groups (digits id.toNat 32)) = some (digits id.toNat 32) := by
    rw [body?, if_neg hlen, hhead, hbraces, hscheme, ← hhead]
    exact unhyphenate?_hyphenate (by decide) hlength
  have hlt : id.toNat < 16 ^ 32 := id.isLt
  rw [parse?, format, String.toList_ofList, hbody, Option.bind_some, ofDigits?_digits,
    Nat.mod_eq_of_lt hlt, Option.map_some, BitVec.ofNat_toNat, BitVec.setWidth_eq]

end CanvasTransform.Uuid
