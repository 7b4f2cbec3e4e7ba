import Mathlib.Algebra.BigOperators.Group.List.Basic
import Mathlib.Algebra.Order.BigOperators.Group.List
import Mathlib.Algebra.Order.Group.Nat
import Mathlib.Algebra.Ring.Int.Defs
import Mathlib.Algebra.Ring.Nat

/-!
# Whole shares of an amount by weight

An amount is split in proportion to a list of weights, and each share is rounded
towards zero. A share below a floor is withheld, the others are paid. What is
paid, what is withheld and what the rounding leaves make up the amount.
-/
namespace Apportion

/-- The share of `weight` out of `whole`. -/
def share (amount : Int) (whole weight : Nat) : Int := (amount * weight).tdiv whole

def shares (amount : Int) (weights : List Nat) : List Int :=
  weights.map (share amount weights.sum)

/-- What rounding leaves: the remainders of the shares, of which `weights.sum` make a unit. -/
def dust (amount : Int) (weights : List Nat) : Int :=
  (weights.map fun weight : Nat => (amount * weight).tmod weights.sum).sum.tdiv weights.sum

def paid (floor : Int) (ss : List Int) : Int := (ss.filter (floor ≤ ·)).sum

def withheld (floor : Int) (ss : List Int) : Int := (ss.filter (· < floor)).sum

variable {amount floor : Int} {weights : List Nat} {ss : List Int}

theorem paid_add_withheld (floor : Int) (ss : List Int) :
    paid floor ss + withheld floor ss = ss.sum := by
  induction ss with
  | nil => rfl
  | cons s rest ih =>
    rw [paid, withheld] at ih
    rw [paid, withheld, List.sum_cons, ← ih]
    by_cases h : floor ≤ s
    · rw [List.filter_cons_of_pos (by simpa using h), List.filter_cons_of_neg (by simpa using h),
        List.sum_cons, Int.add_assoc]
    · rw [List.filter_cons_of_neg (by simpa using h), List.filter_cons_of_pos (by simpa using h),
        List.sum_cons]
      omega

/-- Shares and remainders against the products, whatever the whole is. -/
theorem sum_remainders (amount : Int) (whole : Nat) (ws : List Nat) :
    (ws.map fun weight : Nat => (amount * weight).tmod whole).sum =
      amount * ws.sum - whole * (ws.map (share amount whole)).sum := by
  induction ws with
  | nil => simp
  | cons weight rest ih =>
    have hdiv := Int.mul_tdiv_add_tmod (amount * weight) whole
    simp only [List.map_cons, List.sum_cons, ih, share, Int.natCast_add, Int.mul_add] at hdiv ⊢
    omega

theorem sum_shares_add_dust (amount : Int) (h : weights.sum ≠ 0) :
    (shares amount weights).sum + dust amount weights = amount := by
  have hwhole : (weights.sum : Int) ≠ 0 := by omega
  have hrem : (weights.map fun weight : Nat => (amount * weight).tmod weights.sum).sum =
      weights.sum * (amount - (shares amount weights).sum) := by
    rw [sum_remainders, shares, Int.mul_sub, Int.mul_comm amount]
  rw [dust, hrem, Int.mul_tdiv_cancel_left _ hwhole]
  omega

/-- What is paid, what is withheld and what rounding leaves make up the amount. -/
theorem apportioned (amount floor : Int) (h : weights.sum ≠ 0) :
    paid floor (shares amount weights) +
      (withheld floor (shares amount weights) + dust amount weights) = amount := by
  rw [← Int.add_assoc, paid_add_withheld]
  exact sum_shares_add_dust amount h

theorem shares_nonneg (h : 0 ≤ amount) : ∀ s ∈ shares amount weights, 0 ≤ s := by
  intro s hs
  obtain ⟨weight, _, rfl⟩ := List.mem_map.mp hs
  exact Int.tdiv_nonneg (Int.mul_nonneg h (Int.natCast_nonneg _)) (Int.natCast_nonneg _)

theorem dust_nonneg (h : 0 ≤ amount) : 0 ≤ dust amount weights := by
  refine Int.tdiv_nonneg (List.sum_nonneg fun r hr => ?_) (Int.natCast_nonneg _)
  obtain ⟨weight, _, rfl⟩ := List.mem_map.mp hr
  exact Int.tmod_nonneg _ (Int.mul_nonneg h (Int.natCast_nonneg _))

theorem withheld_nonneg (h : ∀ s ∈ ss, 0 ≤ s) : 0 ≤ withheld floor ss :=
  List.sum_nonneg fun s hs => h s (List.mem_of_mem_filter hs)

/-! ## Natural amounts against a fixed whole -/

section Floors

variable {amount whole : Nat} {weights : List Nat}

def floors (amount whole : Nat) (weights : List Nat) : List Nat :=
  weights.map fun weight => amount * weight / whole

/-- The floors, in parts of the whole, and the remainders make up the products. -/
theorem floors_add_remainders (amount whole : Nat) (weights : List Nat) :
    whole * (floors amount whole weights).sum +
      (weights.map fun weight => amount * weight % whole).sum = amount * weights.sum := by
  induction weights with
  | nil => simp [floors]
  | cons weight rest ih =>
    have hdiv := Nat.div_add_mod (amount * weight) whole
    simp only [floors, List.map_cons, List.sum_cons, Nat.mul_add] at ih ⊢
    omega

theorem sum_floors_le (hpos : 0 < whole) (h : weights.sum ≤ whole) :
    (floors amount whole weights).sum ≤ amount := by
  have hsplit := floors_add_remainders amount whole weights
  have hle : amount * weights.sum ≤ whole * amount := by
    rw [Nat.mul_comm whole]
    exact Nat.mul_le_mul_left amount h
  exact Nat.le_of_mul_le_mul_left (by omega) hpos

/-- Weights that add up to the whole leave nothing exactly if no share is rounded. -/
theorem sum_floors_eq_iff (hpos : 0 < whole) (h : weights.sum = whole) :
    (floors amount whole weights).sum = amount ↔ ∀ weight ∈ weights, whole ∣ amount * weight := by
  have hsplit := floors_add_remainders amount whole weights
  rw [h, Nat.mul_comm amount whole] at hsplit
  have hexact : (floors amount whole weights).sum = amount ↔
      (weights.map fun weight => amount * weight % whole).sum = 0 := by
    constructor
    · intro he
      rw [he] at hsplit
      omega
    · intro hzero
      rw [hzero, Nat.add_zero] at hsplit
      exact Nat.eq_of_mul_eq_mul_left hpos hsplit
  rw [hexact, List.sum_eq_zero_iff, List.forall_mem_map]
  exact forall₂_congr fun weight _ => (Nat.dvd_iff_mod_eq_zero ..).symm

end Floors

end Apportion
