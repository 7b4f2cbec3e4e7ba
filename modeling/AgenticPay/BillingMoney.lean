import AgenticPay.BillingTypes
import Mathlib.Algebra.Order.Field.Rat
import Mathlib.Tactic.FieldSimp
import Mathlib.Tactic.Linarith
import Mathlib.Tactic.Positivity
import Mathlib.Tactic.Ring

/-!
# Amounts of money

What is rounded to two decimals is a whole number of cents, and whole cents are not rounded.
-/
namespace Billing

theorem roundMoney_mono {a b : ℚ} (h : a ≤ b) (decimals : Nat) :
    roundMoney a decimals ≤ roundMoney b decimals := by
  have hpos : (0 : ℚ) < 10 ^ decimals := by positivity
  rw [roundMoney, roundMoney]
  refine div_le_div_of_nonneg_right ?_ hpos.le
  have hle : (a + epsilon) * 10 ^ decimals + 1 / 2 ≤ (b + epsilon) * 10 ^ decimals + 1 / 2 := by
    have := mul_le_mul_of_nonneg_right (add_le_add_left h epsilon) hpos.le
    linarith
  exact_mod_cast Rat.floor_monotone hle

theorem roundMoney_nonneg {a : ℚ} (h : 0 ≤ a) (decimals : Nat) : 0 ≤ roundMoney a decimals := by
  have hzero : 0 ≤ (a + epsilon) * 10 ^ decimals + 1 / 2 := by
    have : (0 : ℚ) < epsilon := by decide +kernel
    positivity
  have hfloor : (0 : Int) ≤ ((a + epsilon) * 10 ^ decimals + 1 / 2).floor :=
    Rat.le_floor_iff.mpr (by exact_mod_cast hzero)
  rw [roundMoney]
  have : (0 : ℚ) ≤ (((a + epsilon) * 10 ^ decimals + 1 / 2).floor : ℚ) := by exact_mod_cast hfloor
  positivity

/-- Whole cents are not rounded. -/
theorem roundMoney_cents (cents : Int) : roundMoney ((cents : ℚ) / 10 ^ 2) 2 = cents / 10 ^ 2 := by
  have he : ((cents : ℚ) / 10 ^ 2 + epsilon) * 10 ^ 2 + 1 / 2 =
      cents + (epsilon * 10 ^ 2 + 1 / 2) := by ring
  have hfloor : ((cents : ℚ) + (epsilon * 10 ^ 2 + 1 / 2)).floor = cents :=
    (Int.floor_intCast_add cents (epsilon * 10 ^ 2 + 1 / 2 : ℚ)).trans (by
      rw [show ⌊(epsilon * 10 ^ 2 + 1 / 2 : ℚ)⌋ = 0 by decide +kernel, add_zero])
  rw [roundMoney, he, hfloor]

theorem roundMoney_twice (a : ℚ) : roundMoney (roundMoney a 2) 2 = roundMoney a 2 :=
  roundMoney_cents _

/-! ## Whole cents -/

def IsCents (a : ℚ) : Prop := ∃ cents : Int, a = cents / 10 ^ 2

variable {a b : ℚ}

theorem IsCents.zero : IsCents 0 := ⟨0, by norm_num⟩

theorem IsCents.add (ha : IsCents a) (hb : IsCents b) : IsCents (a + b) := by
  obtain ⟨m, rfl⟩ := ha
  obtain ⟨n, rfl⟩ := hb
  exact ⟨m + n, by push_cast; ring⟩

theorem IsCents.sub (ha : IsCents a) (hb : IsCents b) : IsCents (a - b) := by
  obtain ⟨m, rfl⟩ := ha
  obtain ⟨n, rfl⟩ := hb
  exact ⟨m - n, by push_cast; ring⟩

theorem IsCents.sum {amounts : List ℚ} (h : ∀ a ∈ amounts, IsCents a) : IsCents amounts.sum := by
  induction amounts with
  | nil => exact .zero
  | cons a rest ih =>
    rw [List.sum_cons]
    exact (h a List.mem_cons_self).add (ih fun b hb => h b (List.mem_cons_of_mem _ hb))

theorem roundMoney_isCents (a : ℚ) : IsCents (roundMoney a 2) := ⟨_, rfl⟩

theorem IsCents.round (h : IsCents a) : roundMoney a 2 = a := by
  obtain ⟨cents, rfl⟩ := h
  exact roundMoney_cents cents

instance (a : ℚ) : Decidable (IsCents a) :=
  decidable_of_iff (roundMoney a 2 = a) ⟨fun h => h ▸ roundMoney_isCents a, IsCents.round⟩

/-- What is at most a number of cents is rounded to no more. -/
theorem roundMoney_le (h : a ≤ b) (hb : IsCents b) : roundMoney a 2 ≤ b :=
  (roundMoney_mono h 2).trans_eq hb.round

theorem roundMoney_le_iff (hb : IsCents b) :
    roundMoney a 2 ≤ b ↔ a + epsilon < b + 1 / 200 := by
  obtain ⟨cents, rfl⟩ := hb
  have hfloor : ((a + epsilon) * 10 ^ 2 + 1 / 2).floor ≤ cents ↔
      (a + epsilon) * 10 ^ 2 + 1 / 2 < cents + 1 := by
    rw [← Int.lt_add_one_iff]
    refine (Int.floor_lt (a := (a + epsilon) * 10 ^ 2 + 1 / 2)).trans ?_
    rw [Int.cast_add, Int.cast_one]
  rw [roundMoney, div_le_div_iff_of_pos_right (by norm_num), Int.cast_le, hfloor]
  constructor
  · intro h
    linarith
  · intro h
    linarith

end Billing
