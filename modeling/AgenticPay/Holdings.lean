import Mathlib.Algebra.BigOperators.Group.Finset.Basic
import Mathlib.Algebra.BigOperators.Group.List.Basic
import Mathlib.Algebra.Order.BigOperators.Group.Finset
import Mathlib.Algebra.Order.BigOperators.Group.List
import Mathlib.Algebra.Order.Group.Defs
import Mathlib.Algebra.Order.Group.Nat
import Mathlib.Algebra.Order.Group.Unbundled.Basic
import Mathlib.Algebra.Ring.Nat
import Mathlib.Tactic.Simps.Basic

/-!
# Amounts held for accounts

Only finitely many of the accounts of a ledger hold anything, and what they hold
adds up to a total. Counted here is what becomes of the total when one account
changes. Where an account has two keys, the change leaves all accounts alone that
differ in either.
-/
namespace Holdings

universe u v w

variable {α : Type u} {f f' : α → Nat} {n m : Nat} {a : α}

/-- The amounts of all accounts add up to `n`. -/
def Sums (f : α → Nat) (n : Nat) : Prop :=
  ∃ s : Finset α, (∀ a, a ∉ s → f a = 0) ∧ ∑ a ∈ s, f a = n

theorem sums_zero : Sums (fun _ : α => 0) 0 :=
  ⟨∅, fun _ _ => rfl, Finset.sum_empty⟩

/-- The total is the sum over every set that holds all the accounts in use. -/
theorem Sums.sum_insert [DecidableEq α] (h : Sums f n) (a : α) :
    ∃ s : Finset α, a ∈ s ∧ (∀ b, b ∉ s → f b = 0) ∧ ∑ b ∈ s, f b = n := by
  obtain ⟨s, hout, hsum⟩ := h
  refine ⟨insert a s, Finset.mem_insert_self a s, fun b hb => ?_, ?_⟩
  · exact hout b fun hmem => hb (Finset.mem_insert_of_mem hmem)
  · rw [← hsum]
    exact (Finset.sum_subset (Finset.subset_insert a s) fun b _ hb => hout b hb).symm

theorem Sums.change [DecidableEq α] (h : Sums f n) (hf : ∀ b, b ≠ a → f' b = f b)
    (hm : n + f' a = m + f a) : Sums f' m := by
  obtain ⟨s, ha, hout, hsum⟩ := h.sum_insert a
  have hrest : ∑ b ∈ s.erase a, f' b = ∑ b ∈ s.erase a, f b :=
    Finset.sum_congr rfl fun b hb => hf b (Finset.ne_of_mem_erase hb)
  refine ⟨s, fun b hb => ?_, ?_⟩
  · rw [hf b fun he => hb (he ▸ ha)]
    exact hout b hb
  · have hbefore := Finset.add_sum_erase s f ha
    have hafter := Finset.add_sum_erase s f' ha
    omega

theorem Sums.le (h : Sums f n) (a : α) : f a ≤ n := by
  obtain ⟨s, hout, rfl⟩ := h
  by_cases ha : a ∈ s
  · exact Finset.single_le_sum (fun _ _ => Nat.zero_le _) ha
  · rw [hout a ha]
    exact Nat.zero_le _

/-! ## Tables with two keys -/

section TwoKeys

variable {β : Type v} {γ : Type w} [DecidableEq α] [DecidableEq β]

theorem update_update_self (table : α → β → γ) (a : α) (b : β) (c : γ) :
    Function.update table a (Function.update (table a) b c) a b = c := by
  rw [Function.update_self, Function.update_self]

theorem update_update_other {table : α → β → γ} {a x : α} {b y : β} {c : γ}
    (h : x ≠ a ∨ y ≠ b) :
    Function.update table a (Function.update (table a) b c) x y = table x y := by
  by_cases hx : x = a
  · subst hx
    rw [Function.update_self]
    apply Function.update_of_ne
    exact h.resolve_left fun hne => hne rfl
  · rw [Function.update_of_ne hx]

end TwoKeys

end Holdings

/-!
## Sums over the entries that a counter has handed out

Entries are numbered from zero in the order in which they are made. Counted here
is what becomes of a sum over all of them when one is added or changed.
-/
namespace Totals

def total (n : Nat) (f : Nat → Nat) : Nat := ((List.range n).map f).sum

variable {n i : Nat} {f g : Nat → Nat}

@[simp] theorem total_succ (n : Nat) (f : Nat → Nat) : total (n + 1) f = total n f + f n := by
  simp [total, List.range_succ]

theorem total_congr (h : ∀ j < n, g j = f j) : total n g = total n f := by
  rw [total, total, List.map_congr_left fun j hj => h j (List.mem_range.mp hj)]

theorem total_eq_zero (h : ∀ j < n, f j = 0) : total n f = 0 := by
  rw [total_congr (g := f) (f := fun _ => 0) h]
  induction n with
  | zero => rfl
  | succ n ih => rw [total_succ, ih fun j hj => h j (Nat.lt_succ_of_lt hj)]

theorem total_le_total (h : ∀ j < n, g j ≤ f j) : total n g ≤ total n f := by
  induction n with
  | zero => exact Nat.le_refl _
  | succ n ih =>
    rw [total_succ, total_succ]
    exact Nat.add_le_add (ih fun j hj => h j (Nat.lt_succ_of_lt hj)) (h n (Nat.lt_succ_self n))

theorem le_total (hi : i < n) (f : Nat → Nat) : f i ≤ total n f :=
  List.le_sum_of_mem (List.mem_map_of_mem (List.mem_range.mpr hi))

/-- One entry is changed. -/
theorem total_change (hi : i < n) (h : ∀ j < n, j ≠ i → g j = f j) :
    total n g + f i = total n f + g i := by
  induction n with
  | zero => exact absurd hi (Nat.not_lt_zero i)
  | succ n ih =>
    rw [total_succ, total_succ]
    by_cases he : i = n
    · subst he
      rw [total_congr fun j hj => h j (Nat.lt_succ_of_lt hj) (Nat.ne_of_lt hj)]
      omega
    · have hsplit := ih (by omega) fun j hj => h j (Nat.lt_succ_of_lt hj)
      rw [h n (Nat.lt_succ_self n) (Ne.symm he)]
      omega

end Totals

/-!
## Custody accounts

What a custodian holds for somebody: it is paid in, it is held, and it is paid
out in full. An account carries the proof that its books balance, so an account
that has lost, created or twice released a unit cannot be written down.
-/
namespace Custody

universe u

structure Account (G : Type u) [AddCommGroup G] [LE G] where
  paidIn : G
  paidOut : G
  held : G
  covered : 0 ≤ held
  balanced : paidIn = held + paidOut

namespace Account

variable {G : Type u} [AddCommGroup G] [PartialOrder G]

/-- The account before its first payment. -/
@[simps] def opened : Account G where
  paidIn := 0
  paidOut := 0
  held := 0
  covered := le_rfl
  balanced := (add_zero 0).symm

@[simps] def deposit [IsOrderedAddMonoid G] (a : Account G) (x : G) (hx : 0 ≤ x) : Account G where
  paidIn := a.paidIn + x
  paidOut := a.paidOut
  held := a.held + x
  covered := add_nonneg a.covered hx
  balanced := by rw [a.balanced, add_right_comm]

/-- Everything that is held is paid out. -/
@[simps] def release (a : Account G) : Account G where
  paidIn := a.paidIn
  paidOut := a.paidOut + a.held
  held := 0
  covered := le_rfl
  balanced := by rw [a.balanced, zero_add, add_comm]

/-- Before anything is paid out, what is held is all that was paid in. -/
theorem held_eq (a : Account G) (h : a.paidOut = 0) : a.held = a.paidIn := by
  rw [a.balanced, h, add_zero]

end Account

end Custody
