import AgenticPay.Shamir
import Mathlib.Data.Set.Finite.Basic
import Mathlib.SetTheory.Cardinal.Finite

/-!
# What the shares of a secret say

As many shares as the threshold give the secret back, whichever they are and in whatever order.
Fewer shares are explained by every byte in the place of every byte of the secret, in the same
number of ways.
-/
namespace Shamir

open ByteField GF256 SecretSharing

variable {secret : List Byte} {threshold totalShares n : Nat} {shares l : List Share}
  {random : Nat → Fin n → Byte} {share : Share}

/-- What `split` checks. -/
structure Accepts (secret : List Byte) (threshold totalShares : Nat) : Prop where
  nonempty : secret.length ≠ 0
  two_le : 2 ≤ threshold
  threshold_le : threshold ≤ totalShares
  le_254 : totalShares ≤ 254

theorem split_ok {random : Nat → Fin (threshold - 1) → Byte} :
    split secret threshold totalShares random = .ok shares ↔
      Accepts secret threshold totalShares ∧
        (List.range' 1 totalShares).map (fun x => shareAt secret random (BitVec.ofNat 8 x)) =
          shares := by
  rw [split]
  constructor
  · intro h
    split_ifs at h with hempty hsmall hfew hmany
    exact ⟨⟨hempty, Nat.le_of_not_lt hsmall, Nat.le_of_not_lt hfew, Nat.le_of_not_lt hmany⟩,
      Except.ok.inj h⟩
  · rintro ⟨⟨hempty, hsmall, hfew, hmany⟩, rfl⟩
    rw [if_neg hempty, if_neg (Nat.not_lt.mpr hsmall), if_neg (Nat.not_lt.mpr hfew),
      if_neg (Nat.not_lt.mpr hmany)]

/-- A share of the secret with these coefficients. -/
def IsShare (secret : List Byte) (random : Nat → Fin n → Byte) (share : Share) : Prop :=
  share.x ≠ 0 ∧ share = shareAt secret random share.x

theorem ofNat_ne_zero {x : Nat} (hpos : 1 ≤ x) (hle : x ≤ 254) : BitVec.ofNat 8 x ≠ 0 := by
  intro h
  have hnat := congrArg BitVec.toNat h
  rw [BitVec.toNat_ofNat, Nat.mod_eq_of_lt (by omega)] at hnat
  exact absurd hnat (by simpa using Nat.ne_of_gt hpos)

theorem isShare_of_split {random : Nat → Fin (threshold - 1) → Byte}
    (h : split secret threshold totalShares random = .ok shares) (hshare : share ∈ shares) :
    IsShare secret random share := by
  obtain ⟨haccepts, rfl⟩ := split_ok.mp h
  obtain ⟨x, hx, rfl⟩ := List.mem_map.mp hshare
  obtain ⟨hpos, hlt⟩ := List.mem_range'_1.mp hx
  have hle := haccepts.le_254
  exact ⟨ofNat_ne_zero hpos (by omega), rfl⟩

theorem IsShare.length (h : IsShare secret random share) : share.y.length = secret.length := by
  rw [h.2]
  exact List.length_mapIdx

theorem IsShare.check (h : IsShare secret random share) :
    checkShare secret.length share = .ok () := by
  rw [checkShare, if_neg (not_not.mpr h.length), if_neg h.1]

theorem IsShare.getD (h : IsShare secret random share) {i : Nat} (hi : i < secret.length) :
    share.y.getD i 0 = evaluate (secret[i] :: List.ofFn (random i)) share.x := by
  rw [h.2, shareAt, List.getD_eq_getElem?_getD, List.getElem?_mapIdx,
    List.getElem?_eq_getElem hi]
  rfl

theorem forM_ok {α ε : Type} {f : α → Except ε Unit} {l : List α} (h : ∀ a ∈ l, f a = .ok ()) :
    l.forM f = .ok () := by
  induction l with
  | nil => rfl
  | cons a l ih =>
    change (f a >>= fun _ => l.forM f) = .ok ()
    rw [h a List.mem_cons_self]
    exact ih fun a ha => h a (List.mem_cons_of_mem _ ha)

theorem mapM_ok {α β ε : Type} {f : α → Except ε β} {g : α → β} {l : List α}
    (h : ∀ a ∈ l, f a = .ok (g a)) : l.mapM f = .ok (l.map g) := by
  induction l with
  | nil => rfl
  | cons a l ih =>
    rw [List.mapM_cons, h a List.mem_cons_self, ih fun a ha => h a (List.mem_cons_of_mem _ ha)]
    rfl

/-- Shares of one secret give it back, if they are more than the random coefficients. -/
theorem reconstruct_of_isShare (hshares : ∀ share ∈ l, IsShare secret random share)
    (hx : (l.map (·.x)).Nodup) (htwo : 2 ≤ l.length) (hlength : n + 1 ≤ l.length) :
    reconstruct l = .ok secret := by
  obtain ⟨first, second, rest, rfl⟩ : ∃ first second rest, l = first :: second :: rest := by
    match l, htwo with
    | first :: second :: rest, _ => exact ⟨first, second, rest, rfl⟩
  have hfirst := (hshares first List.mem_cons_self).length
  have hchecks := forM_ok fun share hs => (hshares share hs).check
  have hbyte : ∀ i ∈ List.range secret.length,
      interpolateAtZero ((first :: second :: rest).map fun s => ⟨s.x, s.y.getD i 0⟩) =
        .ok (secret.getD i 0) := by
    intro i hi
    have hi := List.mem_range.mp hi
    rw [interpolateAtZero_evaluate (secret[i] :: List.ofFn (random i))]
    · rw [List.headD_cons, List.getD_eq_getElem?_getD, List.getElem?_eq_getElem hi]
      rfl
    · rw [List.map_map]
      exact hx
    · intro q hq
      obtain ⟨share, hs, rfl⟩ := List.mem_map.mp hq
      exact (hshares share hs).getD hi
    · simpa using hlength
  have hall := mapM_ok hbyte
  have hsecret : (List.range secret.length).map (fun i => secret.getD i 0) = secret := by
    apply List.ext_getElem (by simp)
    intro i _ hi
    simp [hi]
  rw [hsecret] at hall
  simp only [reconstruct, hfirst, hchecks, hx.dedup]
  exact (if_neg (not_not.mpr rfl)).trans hall

/-- Any shares of a secret, in any order, give it back if they are as many as the threshold. -/
theorem reconstruct_split {random : Nat → Fin (threshold - 1) → Byte}
    (h : split secret threshold totalShares random = .ok shares) (hl : ∀ share ∈ l, share ∈ shares)
    (hx : (l.map (·.x)).Nodup) (hlength : threshold ≤ l.length) : reconstruct l = .ok secret := by
  have htwo := (split_ok.mp h).1.two_le
  exact reconstruct_of_isShare (fun share hs => isShare_of_split h (hl share hs)) hx
    (by omega) (by omega)

/-- The shares of the byte 7, two of which give it back. -/
def sharesOfSeven : List Share :=
  [shareAt [7] (fun _ (_ : Fin 1) => 5) 1, shareAt [7] (fun _ (_ : Fin 1) => 5) 2,
    shareAt [7] (fun _ (_ : Fin 1) => 5) 3]

theorem split_seven : split [7] 2 3 (fun _ _ => 5) = .ok sharesOfSeven := rfl

theorem reconstruct_split_seven : reconstruct
    [shareAt [7] (fun _ (_ : Fin 1) => 5) 3, shareAt [7] (fun _ (_ : Fin 1) => 5) 1] = .ok [7] :=
  reconstruct_split split_seven (by simp [sharesOfSeven]) (by decide) (by decide)

/-! ## Fewer shares than the threshold -/

/-- With the byte `b` at `i` and the random bytes `r` for it, the shares at `xs` hold these values
at `i`. -/
def Explains (secret : List Byte) (threshold totalShares : Nat)
    (random : Nat → Fin (threshold - 1) → Byte) (i : Nat) (xs : Finset Byte) (y : Byte → Byte)
    (b : Byte) (r : Fin (threshold - 1) → Byte) : Prop :=
  ∃ shares, split (secret.set i b) threshold totalShares (Function.update random i r) = .ok shares ∧
    ∀ share ∈ shares, share.x ∈ xs → share.y[i]? = some (y share.x)

variable {random : Nat → Fin (threshold - 1) → Byte} {i : Nat} {xs : Finset Byte} {y : Byte → Byte}

theorem shareAt_set (hi : i < secret.length) (b : Byte) (r : Fin (threshold - 1) → Byte)
    (x : Byte) : (shareAt (secret.set i b) (Function.update random i r) x).y[i]? =
      some (evaluate (b :: List.ofFn r) x) := by
  rw [shareAt, List.getElem?_mapIdx, List.getElem?_set_self hi, Option.map_some,
    Function.update_self]

/-- Only the polynomial of the byte counts. -/
theorem explains_iff (haccepts : Accepts secret threshold totalShares) (hi : i < secret.length)
    (hxs : ∀ x ∈ xs, ∃ k ∈ List.range' 1 totalShares, BitVec.ofNat 8 k = x) {b : Byte}
    {r : Fin (threshold - 1) → Byte} :
    Explains secret threshold totalShares random i xs y b r ↔
      ∀ x ∈ xs, evaluate (b :: List.ofFn r) x = y x := by
  have hset : Accepts (secret.set i b) threshold totalShares :=
    { haccepts with nonempty := by rw [List.length_set]; exact haccepts.nonempty }
  constructor
  · rintro ⟨shares, hsplit, hshares⟩ x hx
    obtain ⟨_, rfl⟩ := split_ok.mp hsplit
    obtain ⟨k, hk, rfl⟩ := hxs x hx
    have hvalue := hshares _ (List.mem_map_of_mem hk) hx
    rw [shareAt_set hi] at hvalue
    exact Option.some.inj hvalue
  · intro h
    refine ⟨_, split_ok.mpr ⟨hset, rfl⟩, fun share hshare hx => ?_⟩
    obtain ⟨k, hk, rfl⟩ := List.mem_map.mp hshare
    rw [shareAt_set hi]
    exact congrArg some (h _ hx)

/-- The elements of the field that bytes are. -/
def ofByte : Byte ≃ GF256 := ⟨mk, byte, fun _ => rfl, fun _ => rfl⟩

theorem evaluate_eq_iff {b : Byte} {r : Fin n → Byte} :
    (∀ x ∈ xs, evaluate (b :: List.ofFn r) x = y x) ↔
      Consistent (xs.map ofByte.toEmbedding) (fun z => mk (y z.byte)) (mk b) (fun k => mk (r k)) := by
  have hcoeffs : mk b :: List.ofFn (fun k => mk (r k)) = (b :: List.ofFn r).map mk := by
    rw [List.map_cons, List.map_ofFn]
    rfl
  rw [Consistent, Finset.forall_mem_map]
  apply forall₂_congr
  intro x _
  rw [hcoeffs]
  change _ ↔ horner _ (mk x) = mk (y x)
  rw [← mk_evaluate, mk.injEq]

/-- The shares at fewer points than the threshold are explained by every byte of the secret in the
same number of ways. -/
theorem card_explains_eq (h : split secret threshold totalShares random = .ok shares)
    (hi : i < secret.length) (hxs : ∀ x ∈ xs, ∃ share ∈ shares, share.x = x)
    (hcard : xs.card < threshold) (y : Byte → Byte) (b c : Byte) :
    Nat.card {r // Explains secret threshold totalShares random i xs y b r} =
      Nat.card {r // Explains secret threshold totalShares random i xs y c r} := by
  obtain ⟨haccepts, rfl⟩ := split_ok.mp h
  have hpoints : ∀ x ∈ xs, ∃ k ∈ List.range' 1 totalShares, BitVec.ofNat 8 k = x := by
    intro x hx
    obtain ⟨share, hshare, rfl⟩ := hxs x hx
    obtain ⟨k, hk, rfl⟩ := List.mem_map.mp hshare
    exact ⟨k, hk, rfl⟩
  have hzero : 0 ∉ xs.map ofByte.toEmbedding := by
    intro hmem
    obtain ⟨x, hx, he⟩ := Finset.mem_map.mp hmem
    obtain ⟨share, hshare, rfl⟩ := hxs x hx
    exact (isShare_of_split h hshare).1 (congrArg byte he)
  have hfield : ∀ b, Nat.card {r // Explains secret threshold totalShares random i xs y b r} =
      Nat.card {r : Fin (threshold - 1) → GF256 //
        Consistent (xs.map ofByte.toEmbedding) (fun z => mk (y z.byte)) (mk b) r} := by
    intro b
    refine Nat.card_congr ((Equiv.piCongrRight fun _ => ofByte).subtypeEquiv fun r => ?_)
    rw [explains_iff haccepts hi hpoints, evaluate_eq_iff]
    rfl
  rw [hfield, hfield]
  apply card_consistent_eq hzero
  rw [Finset.card_map]
  omega

theorem card_explains_eq_seven :
    Nat.card {r // Explains [7] 2 3 (fun _ _ => 5) 0 {2} (fun _ => 9) 7 r} =
      Nat.card {r // Explains [7] 2 3 (fun _ _ => 5) 0 {2} (fun _ => 9) 8 r} :=
  card_explains_eq split_seven (by decide) (by simp [sharesOfSeven, shareAt]) (by decide)
    (fun _ => 9) 7 8

end Shamir
