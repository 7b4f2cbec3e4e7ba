import Mathlib.Algebra.Field.Basic
import Mathlib.Data.Fintype.EquivFin
import Mathlib.Dynamics.PeriodicPts.Defs
import Mathlib.NumberTheory.Divisors

/-!
# The field of 256 elements on bytes

Addition is exclusive or. A product is defined by what one byte does to it: to multiply by three
is to shift, to add, and to reduce by the polynomial `0x11B`, which is linear; every byte other
than zero is a power of three, and to multiply by that power is to do this as often. Three
has the order 255, so that its powers are all bytes but zero.
-/
namespace ByteField

/-- The product with `0x03`, reduced by `0x11B`. -/
def timesThree (x : BitVec 8) : BitVec 8 :=
  let next := x ^^^ (x <<< 1)
  if x &&& 0x80 ≠ 0 then next ^^^ 0x1b else next

def power (n : Nat) : BitVec 8 := timesThree^[n] 1

theorem timesThree_eq : ∀ x : BitVec 8,
    timesThree x = x ^^^ (x <<< 1) ^^^ (if x.msb then 0x1b else 0) := by decide

theorem timesThree_xor (x y : BitVec 8) : timesThree (x ^^^ y) = timesThree x ^^^ timesThree y := by
  have hmask : ∀ p q : Bool, (if p ^^ q then (0x1b : BitVec 8) else 0) =
      (if p then 0x1b else 0) ^^^ (if q then 0x1b else 0) := by decide
  simp only [timesThree_eq, BitVec.shiftLeft_xor_distrib, BitVec.msb_xor, hmask]
  ac_rfl

theorem timesThree_injective : timesThree.Injective := by
  have hkernel : ∀ z : BitVec 8, timesThree z = 0 → z = 0 := by decide
  intro x y hxy
  apply BitVec.xor_eq_zero_iff.mp
  apply hkernel
  rw [timesThree_xor, hxy, BitVec.xor_self]
  rfl

theorem iterate_xor (n : Nat) (x y : BitVec 8) :
    timesThree^[n] (x ^^^ y) = timesThree^[n] x ^^^ timesThree^[n] y := by
  induction n generalizing x y with
  | zero => rfl
  | succ n ih => rw [Function.iterate_succ_apply, timesThree_xor, ih]; rfl

theorem iterate_zero (n : Nat) : timesThree^[n] 0 = 0 := Function.iterate_fixed rfl n

theorem iterate_power (n m : Nat) : timesThree^[n] (power m) = power (n + m) :=
  (Function.iterate_add_apply timesThree n m 1).symm

theorem power_succ (n : Nat) : power (n + 1) = timesThree (power n) :=
  Function.iterate_succ_apply' timesThree n 1

theorem power_ne_zero (n : Nat) : power n ≠ 0 := by
  intro h
  have hone := timesThree_injective.iterate n (h.trans (iterate_zero n).symm)
  exact absurd hone (by decide)

/-- Three has the order 255: it is no root of one for 85, 51 or 15. -/
theorem order_of_three : power 255 = 1 ∧ power 85 ≠ 1 ∧ power 51 ≠ 1 ∧ power 15 ≠ 1 := by
  decide +kernel

theorem power_ne_one {n : Nat} (hpos : 0 < n) (hlt : n < 255) : power n ≠ 1 := by
  intro h
  obtain ⟨hall, h85, h51, h15⟩ := order_of_three
  have hgcd : Function.IsPeriodicPt timesThree (Nat.gcd n 255) 1 := Function.IsPeriodicPt.gcd h hall
  have hdvd : Nat.gcd n 255 ∈ Nat.divisors 255 :=
    Nat.mem_divisors.mpr ⟨Nat.gcd_dvd_right n 255, by decide⟩
  have hne : Nat.gcd n 255 ≠ 255 := ((Nat.gcd_le_left 255 hpos).trans_lt hlt).ne
  have hmaximal : ∀ d ∈ Nat.divisors 255, d ≠ 255 → d ∣ 85 ∨ d ∣ 51 ∨ d ∣ 15 := by decide
  obtain hd | hd | hd := hmaximal _ hdvd hne
  · exact h85 (hgcd.trans_dvd hd)
  · exact h51 (hgcd.trans_dvd hd)
  · exact h15 (hgcd.trans_dvd hd)

theorem power_add_period (n : Nat) : power (n + 255) = power n := by
  rw [← iterate_power, order_of_three.1]
  rfl

theorem power_injOn {n m : Nat} (hn : n < 255) (hm : m < 255) (h : power n = power m) : n = m := by
  wlog hle : n ≤ m generalizing n m
  · exact (this hm hn h.symm (Nat.le_of_not_le hle)).symm
  by_contra hne
  have hone : power (m - n) = 1 := by
    apply timesThree_injective.iterate n
    rw [iterate_power, Nat.add_sub_cancel' hle, ← h]
    rfl
  exact power_ne_one (by omega) (by omega) hone

/-- Every byte other than zero is a power of three. -/
theorem exists_power {x : BitVec 8} (hx : x ≠ 0) : ∃ n < 255, power n = x := by
  let f : Fin 255 → {b : Fin 256 // b ≠ 0} := fun n =>
    ⟨(power n).toFin, fun h => power_ne_zero n (BitVec.eq_of_toFin_eq h)⟩
  have hf : f.Injective := by
    intro n m h
    exact Fin.ext (power_injOn n.2 m.2 (BitVec.eq_of_toFin_eq (Subtype.ext_iff.mp h)))
  have hcard : Fintype.card (Fin 255) = Fintype.card {b : Fin 256 // b ≠ 0} := by
    simp [Fintype.card_subtype_compl]
  have hbijective := (Fintype.bijective_iff_injective_and_card f).mpr ⟨hf, hcard⟩
  obtain ⟨n, hn⟩ := hbijective.2 ⟨x.toFin, fun h => hx (BitVec.eq_of_toFin_eq h)⟩
  exact ⟨n, n.2, BitVec.eq_of_toFin_eq (Subtype.ext_iff.mp hn)⟩

/-- The power of three that a byte is. -/
def log (x : BitVec 8) : Nat := ((List.range 255).find? (power · = x)).getD 0

theorem log_spec {x : BitVec 8} (hx : x ≠ 0) : log x < 255 ∧ power (log x) = x := by
  obtain ⟨n, hn, hpower⟩ := exists_power hx
  cases hfind : (List.range 255).find? (power · = x) with
  | none =>
    have hnone := List.find?_eq_none.mp hfind n (List.mem_range.mpr hn)
    exact absurd (decide_eq_true hpower) hnone
  | some m =>
    have hm : power m = x := by simpa using List.find?_some hfind
    rw [log, hfind]
    exact ⟨List.mem_range.mp (List.mem_of_find?_eq_some hfind), hm⟩

theorem log_power {n : Nat} (hn : n < 255) : log (power n) = n :=
  have h := log_spec (power_ne_zero n)
  power_injOn h.1 hn h.2

/-- A byte as an element of the field. -/
structure GF256 where
  byte : BitVec 8
  deriving DecidableEq

namespace GF256

instance : Zero GF256 := ⟨⟨0⟩⟩
instance : One GF256 := ⟨⟨1⟩⟩
instance : Add GF256 := ⟨fun a b => ⟨a.byte ^^^ b.byte⟩⟩
instance : Neg GF256 := ⟨fun a => a⟩
instance : Mul GF256 := ⟨fun a b => if a = 0 then 0 else ⟨timesThree^[log a.byte] b.byte⟩⟩
instance : Inv GF256 := ⟨fun a => if a = 0 then 0 else ⟨power (255 - log a.byte)⟩⟩

def ofPower (n : Nat) : GF256 := ⟨power n⟩

theorem add_def (a b : GF256) : a + b = ⟨a.byte ^^^ b.byte⟩ := rfl

theorem ofPower_ne_zero (n : Nat) : ofPower n ≠ 0 := fun h =>
  power_ne_zero n (congrArg byte h)

theorem ofPower_log {a : GF256} (h : a ≠ 0) : ofPower (log a.byte) = a :=
  congrArg mk (log_spec fun hzero => h (congrArg mk hzero)).2

theorem eq_zero_or_ofPower (a : GF256) : a = 0 ∨ ∃ n < 255, a = ofPower n := by
  by_cases h : a = 0
  · exact .inl h
  · exact .inr ⟨log a.byte, (log_spec fun hzero => h (congrArg mk hzero)).1, (ofPower_log h).symm⟩

theorem zero_mul' (a : GF256) : 0 * a = 0 := if_pos rfl

theorem ofPower_mul {n : Nat} (hn : n < 255) (a : GF256) :
    ofPower n * a = ⟨timesThree^[n] a.byte⟩ := by
  refine (if_neg (ofPower_ne_zero n)).trans ?_
  rw [ofPower, log_power hn]

theorem ofPower_mul_ofPower {n : Nat} (hn : n < 255) (m : Nat) :
    ofPower n * ofPower m = ofPower (n + m) := by
  rw [ofPower_mul hn]
  exact congrArg mk (iterate_power n m)

theorem ofPower_mod (n : Nat) : ofPower (n % 255) = ofPower n := by
  induction n using Nat.strong_induction_on with
  | h n ih =>
    by_cases hlt : n < 255
    · rw [Nat.mod_eq_of_lt hlt]
    · have hback := ih (n - 255) (by omega)
      rw [Nat.mod_eq_sub_mod (by omega), hback]
      have hperiod := power_add_period (n - 255)
      rw [Nat.sub_add_cancel (by omega)] at hperiod
      exact congrArg mk hperiod.symm

theorem mul_zero' (a : GF256) : a * 0 = 0 := by
  obtain rfl | ⟨n, hn, rfl⟩ := eq_zero_or_ofPower a
  · exact zero_mul' 0
  · rw [ofPower_mul hn]
    exact congrArg mk (iterate_zero n)

theorem mul_comm' (a b : GF256) : a * b = b * a := by
  obtain rfl | ⟨n, hn, rfl⟩ := eq_zero_or_ofPower a
  · rw [zero_mul', mul_zero']
  obtain rfl | ⟨m, hm, rfl⟩ := eq_zero_or_ofPower b
  · rw [zero_mul', mul_zero']
  rw [ofPower_mul_ofPower hn, ofPower_mul_ofPower hm, Nat.add_comm]

theorem mul_assoc' (a b c : GF256) : a * b * c = a * (b * c) := by
  obtain rfl | ⟨n, hn, rfl⟩ := eq_zero_or_ofPower a
  · simp only [zero_mul']
  obtain rfl | ⟨m, hm, rfl⟩ := eq_zero_or_ofPower b
  · simp only [zero_mul', mul_zero']
  obtain rfl | ⟨k, hk, rfl⟩ := eq_zero_or_ofPower c
  · simp only [mul_zero']
  rw [ofPower_mul_ofPower hn, ofPower_mul_ofPower hm, ofPower_mul_ofPower hn,
    ← ofPower_mod (n + m), ofPower_mul_ofPower (Nat.mod_lt _ (by decide)),
    ← ofPower_mod (_ + k), Nat.mod_add_mod, ofPower_mod, Nat.add_assoc]

theorem mul_add' (a b c : GF256) : a * (b + c) = a * b + a * c := by
  obtain rfl | ⟨n, hn, rfl⟩ := eq_zero_or_ofPower a
  · simp only [zero_mul']
    rfl
  · simp only [ofPower_mul hn, add_def, iterate_xor]

theorem one_mul' (a : GF256) : 1 * a = a := ofPower_mul (n := 0) (by decide) a

theorem mul_inv' {a : GF256} (h : a ≠ 0) : a * a⁻¹ = 1 := by
  have hlog := (log_spec fun hzero => h (congrArg mk hzero)).1
  have hinv : a⁻¹ = ofPower (255 - log a.byte) := if_neg h
  have hcancel := ofPower_mul_ofPower hlog (255 - log a.byte)
  rw [ofPower_log h, Nat.add_sub_cancel' hlog.le] at hcancel
  rw [hinv, hcancel]
  exact congrArg mk order_of_three.1

instance : Field GF256 where
  add_assoc := fun a b c => congrArg mk (BitVec.xor_assoc a.byte b.byte c.byte)
  zero_add := fun a => congrArg mk (BitVec.zero_xor)
  add_zero := fun a => congrArg mk (BitVec.xor_zero)
  add_comm := fun a b => congrArg mk (BitVec.xor_comm a.byte b.byte)
  neg_add_cancel := fun a => congrArg mk (BitVec.xor_self)
  left_distrib := mul_add'
  right_distrib := fun a b c => by rw [mul_comm', mul_add', mul_comm' c, mul_comm' c]
  zero_mul := zero_mul'
  mul_zero := mul_zero'
  mul_assoc := mul_assoc'
  one_mul := one_mul'
  mul_one := fun a => by rw [mul_comm', one_mul']
  mul_comm := mul_comm'
  exists_pair_ne := ⟨0, 1, by decide⟩
  mul_inv_cancel := fun _ => mul_inv'
  inv_zero := if_pos rfl
  nsmul := nsmulRec
  zsmul := zsmulRec
  nnqsmul := _
  nnqsmul_def := fun _ _ => rfl
  qsmul := _
  qsmul_def := fun _ _ => rfl

end GF256

end ByteField
