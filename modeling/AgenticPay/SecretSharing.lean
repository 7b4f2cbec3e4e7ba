import Mathlib.LinearAlgebra.Lagrange

/-!
# Sharing a secret by the values of a polynomial

The secret is the constant coefficient of a polynomial over a field, and a share is its value at a
point other than zero. As many points as there are coefficients determine the secret. Fewer points
say nothing about it: some polynomial is zero at all of them and has any given constant
coefficient, and adding it changes the secret only.
-/
namespace SecretSharing

open Polynomial

universe u

variable {F : Type u} [Field F]

/-- The value of the polynomial with these coefficients, from its last one. -/
def horner : List F → F → F
  | [], _ => 0
  | c :: cs, x => horner cs x * x + c

@[simp] theorem horner_nil (x : F) : horner [] x = 0 := rfl
@[simp] theorem horner_cons (c : F) (cs : List F) (x : F) :
    horner (c :: cs) x = horner cs x * x + c := rfl

noncomputable def poly : List F → F[X]
  | [] => 0
  | c :: cs => poly cs * X + C c

theorem eval_poly (cs : List F) (x : F) : (poly cs).eval x = horner cs x := by
  induction cs with
  | nil => exact eval_zero
  | cons c cs ih => simp [poly, ih]

theorem degree_poly_lt (cs : List F) : (poly cs).degree < cs.length := by
  induction cs with
  | nil =>
    rw [poly, degree_zero]
    exact WithBot.bot_lt_coe _
  | cons c cs ih =>
    have hconst : (C c : F[X]).degree < ((cs.length + 1 : Nat) : WithBot Nat) :=
      degree_C_le.trans_lt (by exact_mod_cast cs.length.succ_pos)
    have hmul : (poly cs * X).degree < ((cs.length + 1 : Nat) : WithBot Nat) := by
      rw [degree_mul, degree_X, Nat.cast_add, Nat.cast_one]
      exact WithBot.add_lt_add_right WithBot.one_ne_bot ih
    exact (degree_add_le _ _).trans_lt (max_lt hmul hconst)

section Recovery

variable [DecidableEq F]

/-- What the value at `x` counts for in the value at zero, with the other points of `xs`. -/
def weight (xs : List F) (x : F) : F :=
  ((xs.filter (· ≠ x)).map (0 - ·)).prod / ((xs.filter (· ≠ x)).map (x - ·)).prod

/-- The value at zero, interpolated from the values at some points. -/
def atZero (xs : List F) (y : F → F) : F := (xs.map fun x => y x * weight xs x).sum

theorem eval_basis_zero {xs : List F} (hxs : xs.Nodup) (x : F) :
    (Lagrange.basis xs.toFinset id x).eval 0 = weight xs x := by
  have hothers : xs.toFinset.erase x = (xs.filter (· ≠ x)).toFinset := by
    ext y
    simp [and_comm]
  have hnodup : (xs.filter (· ≠ x)).Nodup := hxs.filter _
  rw [Lagrange.basis, hothers, eval_prod, weight, ← List.prod_toFinset _ hnodup,
    ← List.prod_toFinset _ hnodup, ← Finset.prod_div_distrib]
  apply Finset.prod_congr rfl
  intro y _
  simp [Lagrange.basisDivisor, div_eq_inv_mul]

/-- Enough values give the constant coefficient back. -/
theorem atZero_horner {cs xs : List F} (hxs : xs.Nodup) (hlength : cs.length ≤ xs.length) :
    atZero xs (horner cs) = horner cs 0 := by
  have hinj : Set.InjOn (id : F → F) xs.toFinset := Function.injective_id.injOn
  have hdegree : (poly cs).degree < xs.toFinset.card := by
    rw [List.toFinset_card_of_nodup hxs]
    exact (degree_poly_lt cs).trans_le (by exact_mod_cast hlength)
  have heq := congrArg (eval 0) (Lagrange.eq_interpolate hinj hdegree)
  rw [Lagrange.interpolate_apply, eval_finsetSum, eval_poly] at heq
  rw [atZero, ← List.sum_toFinset _ hxs, heq]
  apply Finset.sum_congr rfl
  intro x _
  rw [eval_mul, eval_C, eval_basis_zero hxs, id, eval_poly]

end Recovery

/-! ## What fewer points say -/

theorem horner_ofFn {n : Nat} (f : Fin n → F) (x : F) :
    horner (List.ofFn f) x = ∑ i, f i * x ^ (i : Nat) := by
  induction n with
  | zero => simp
  | succ n ih =>
    rw [List.ofFn_succ, horner_cons, ih, Fin.sum_univ_succ, Finset.sum_mul, Fin.val_zero, pow_zero,
      mul_one, add_comm]
    congr 1
    apply Finset.sum_congr rfl
    intro i _
    rw [Fin.val_succ, pow_succ, mul_assoc]

theorem horner_add {n : Nat} (b c : F) (f g : Fin n → F) (x : F) :
    horner ((b + c) :: List.ofFn (f + g)) x =
      horner (b :: List.ofFn f) x + horner (c :: List.ofFn g) x := by
  simp only [horner_cons, horner_ofFn, Pi.add_apply, add_mul, Finset.sum_add_distrib]
  ring

variable {xs : Finset F} {n : Nat}

/-- A polynomial with a given constant coefficient that is zero at given points. -/
theorem exists_mask (hzero : 0 ∉ xs) (hcard : xs.card ≤ n) (d : F) :
    ∃ m : Fin n → F, ∀ x ∈ xs, horner (d :: List.ofFn m) x = 0 := by
  let q : F[X] := C (d / (Lagrange.nodal xs id).eval 0) * Lagrange.nodal xs id
  have hnodal : (Lagrange.nodal xs id).eval 0 ≠ 0 := by
    apply Lagrange.eval_nodal_not_at_node
    rintro x hx rfl
    exact hzero hx
  have hcoeff : q.coeff 0 = d := by
    rw [coeff_zero_eq_eval_zero, eval_mul, eval_C, div_mul_cancel₀ d hnodal]
  have hdegree : q.natDegree < n + 1 := by
    have hle := natDegree_C_mul_le (d / (Lagrange.nodal xs id).eval 0) (Lagrange.nodal xs id)
    rw [Lagrange.natDegree_nodal] at hle
    exact Nat.lt_succ_of_le (hle.trans hcard)
  refine ⟨fun i => q.coeff (i + 1), fun x hx => ?_⟩
  have heval : q.eval x = 0 := by
    have hx := Lagrange.eval_nodal_at_node (v := id) hx
    rw [eval_mul, ← id_eq x, hx, mul_zero]
  rw [← heval, eval_eq_sum_range' hdegree, Finset.sum_range_succ', Finset.sum_range, horner_cons,
    horner_ofFn, Finset.sum_mul, hcoeff, pow_zero, mul_one]
  congr 1
  apply Finset.sum_congr rfl
  intro i _
  rw [pow_succ, mul_assoc]

/-- The other coefficients explain what is seen at some points if the secret is `b`. -/
def Consistent (xs : Finset F) (y : F → F) (b : F) (r : Fin n → F) : Prop :=
  ∀ x ∈ xs, horner (b :: List.ofFn r) x = y x

/-- Fewer points than coefficients are explained in the same number of ways for every secret. -/
theorem card_consistent_eq (hzero : 0 ∉ xs) (hcard : xs.card ≤ n) (y : F → F) (b c : F) :
    Nat.card {r : Fin n → F // Consistent xs y b r} =
      Nat.card {r : Fin n → F // Consistent xs y c r} := by
  obtain ⟨m, hm⟩ := exists_mask hzero hcard (c - b)
  apply Nat.card_congr
  refine (Equiv.addRight m).subtypeEquiv fun r => ?_
  apply forall₂_congr
  intro x hx
  have hsum := horner_add b (c - b) r m x
  rw [add_sub_cancel, hm x hx, add_zero] at hsum
  rw [Equiv.coe_addRight, hsum]

end SecretSharing
