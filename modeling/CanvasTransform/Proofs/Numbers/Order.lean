import CanvasTransform.Proofs.Geometry.Exact

set_option autoImplicit false

/-! # The order of scalars

What is decided by comparing numbers holds for rounded numbers as it does for exact ones: a number
that is chosen because it is nearest is nearest, however it was computed. `Scalar.LawfulOrder` collects
the laws that such arguments use. They speak of values that are numbers (`Scalar.IsNumber`), and say
of the others only that they do not compare. Nothing is said about sums but that nothing is lost by
adding zero.

Two different values may be equal as numbers, as the two zeros of double precision are. Such values
are at most each other, and that is what `==` asks. -/

namespace CanvasTransform

namespace Scalar

/-- The value is a number. No other value is at most itself. -/
def IsNumber {α : Type} [Scalar α] (a : α) : Prop := a ≤ a

instance {α : Type} [Scalar α] (a : α) : Decidable (IsNumber a) := decLe a a

/-- Values that are numbers are ordered, and sorting respects their order. -/
class LawfulOrder (α : Type) [Scalar α] : Prop where
  isNumber_of_le {a b : α} : a ≤ b → IsNumber a ∧ IsNumber b
  le_trans {a b c : α} : a ≤ b → b ≤ c → a ≤ c
  le_total {a b : α} : IsNumber a → IsNumber b → a ≤ b ∨ b ≤ a
  lt_iff {a b : α} : a < b ↔ a ≤ b ∧ ¬ b ≤ a
  beq_iff {a b : α} : (a == b) = true ↔ a ≤ b ∧ b ≤ a
  isNumber_of_abs {a : α} : IsNumber (Scalar.abs a) → IsNumber a
  abs_le_abs {a b : α} : a ≤ b → b ≤ a → Scalar.abs a ≤ Scalar.abs b
  isNumber_zero : IsNumber (0 : α)
  abs_zero : Scalar.abs (0 : α) = 0
  zero_add_zero : (0 : α) + 0 = 0
  zero_add {a : α} : IsNumber a → (0 + a == a) = true
  add_zero {a : α} : IsNumber a → (a + 0 == a) = true
  totalLe_trans {a b c : α} : totalLe a b = true → totalLe b c = true → totalLe a c = true
  totalLe_total (a b : α) : (totalLe a b || totalLe b a) = true
  totalLe_of_lt {a b : α} : a < b → totalLe b a = false

/-- Magnitudes that are ordered are sorted that way, equal ones included. -/
class LawfulMagnitude (α : Type) [Scalar α] : Prop extends LawfulOrder α where
  totalLe_abs {a b : α} : Scalar.abs a ≤ Scalar.abs b →
    totalLe (Scalar.abs a) (Scalar.abs b) = true

end Scalar

instance : Scalar.LawfulOrder ℝ where
  isNumber_of_le _ := ⟨le_refl (α := ℝ) _, le_refl (α := ℝ) _⟩
  le_trans := le_trans
  le_total _ _ := le_total _ _
  lt_iff := lt_iff_le_not_ge
  beq_iff {a b} := by
    show decide (a = b) = true ↔ a ≤ b ∧ b ≤ a
    rw [decide_eq_true_iff]
    exact le_antisymm_iff
  isNumber_of_abs _ := le_refl (α := ℝ) _
  abs_le_abs hab hba := (congrArg abs (le_antisymm hab hba)).le
  isNumber_zero := le_refl (α := ℝ) _
  abs_zero := abs_zero (α := ℝ)
  zero_add_zero := add_zero (0 : ℝ)
  zero_add _ := decide_eq_true (zero_add _)
  add_zero _ := decide_eq_true (add_zero _)
  totalLe_trans hab hbc := decide_eq_true ((of_decide_eq_true hab).trans (of_decide_eq_true hbc))
  totalLe_total a b := by
    show (decide (a ≤ b) || decide (b ≤ a)) = true
    simpa using le_total a b
  totalLe_of_lt h := decide_eq_false (not_le.2 h)

instance : Scalar.LawfulMagnitude ℝ where
  totalLe_abs h := decide_eq_true h

namespace Scalar

/-- Real numbers that are equal as numbers are the same. -/
theorem eq_of_beq {a b : ℝ} (h : (a == b) = true) : a = b := of_decide_eq_true h

open LawfulOrder

variable {α : Type} [Scalar α] [LawfulOrder α] {a b c : α}

theorem le_of_lt (h : a < b) : a ≤ b := (lt_iff.1 h).1

theorem isNumber_of_lt (h : a < b) : IsNumber a ∧ IsNumber b := isNumber_of_le (le_of_lt h)

theorem le_of_not_lt (ha : IsNumber a) (hb : IsNumber b) (h : ¬ a < b) : b ≤ a := by
  by_contra hba
  exact h (lt_iff.2 ⟨(le_total ha hb).resolve_right hba, hba⟩)

theorem lt_of_not_le (ha : IsNumber a) (hb : IsNumber b) (h : ¬ a ≤ b) : b < a :=
  lt_iff.2 ⟨(le_total ha hb).resolve_left h, h⟩

theorem lt_of_le_of_lt (hab : a ≤ b) (hbc : b < c) : a < c :=
  lt_iff.2 ⟨le_trans hab (le_of_lt hbc), fun hca => (lt_iff.1 hbc).2 (le_trans hca hab)⟩

theorem lt_of_lt_of_le (hab : a < b) (hbc : b ≤ c) : a < c :=
  lt_iff.2 ⟨le_trans (le_of_lt hab) hbc, fun hca => (lt_iff.1 hab).2 (le_trans hbc hca)⟩

theorem beq_trans (hab : (a == b) = true) (hbc : (b == c) = true) : (a == c) = true :=
  have ⟨hab, hba⟩ := beq_iff.1 hab
  have ⟨hbc, hcb⟩ := beq_iff.1 hbc
  beq_iff.2 ⟨le_trans hab hbc, le_trans hcb hba⟩

/-- Equal numbers have equal magnitudes. -/
theorem abs_beq_abs (h : (a == b) = true) : (Scalar.abs a == Scalar.abs b) = true :=
  have ⟨hab, hba⟩ := beq_iff.1 h
  beq_iff.2 ⟨abs_le_abs hab hba, abs_le_abs hba hab⟩

theorem max_le_iff (ha : IsNumber a) (hb : IsNumber b) : Scalar.max a b ≤ c ↔ a ≤ c ∧ b ≤ c := by
  unfold Scalar.max
  simp only [if_pos (show b ≤ b from hb)]
  split_ifs with hba
  · exact ⟨fun hac => ⟨hac, le_trans (le_of_lt hba) hac⟩, And.left⟩
  · exact ⟨fun hbc => ⟨le_trans (le_of_not_lt hb ha hba) hbc, hbc⟩, And.right⟩

theorem le_min_iff (ha : IsNumber a) (hb : IsNumber b) : c ≤ Scalar.min a b ↔ c ≤ a ∧ c ≤ b := by
  unfold Scalar.min
  simp only [if_pos (show b ≤ b from hb)]
  split_ifs with hab
  · exact ⟨fun hca => ⟨hca, le_trans hca (le_of_lt hab)⟩, And.left⟩
  · exact ⟨fun hcb => ⟨le_trans hcb (le_of_not_lt ha hb hab), hcb⟩, And.right⟩

theorem min_le_max (ha : IsNumber a) (hb : IsNumber b) : Scalar.min a b ≤ Scalar.max a b := by
  unfold Scalar.min Scalar.max
  simp only [if_pos (show b ≤ b from hb)]
  split_ifs with hab hba hba
  · exact ha
  · exact le_of_lt hab
  · exact le_of_lt hba
  · exact hb

end Scalar

end CanvasTransform
