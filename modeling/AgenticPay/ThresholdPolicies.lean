import AgenticPay.ContractProjects
import Mathlib.Data.List.Pairwise

/-!
# Threshold policies

How many signers an escrow needs, by tiers of its amount. The policy is kept next to the rest of the
storage, under the id of the project that is created with it.
-/
namespace AgenticPayContract

open Soroban Contract

structure ThresholdPolicy where
  minAmount : Nat
  maxAmount : Option Nat
  requiredSigners : Nat
  deriving DecidableEq, Repr

structure MultisigThresholdPolicy where
  policies : List ThresholdPolicy
  defaultThreshold : Nat
  deriving DecidableEq, Repr

/-- The amount is in the tier. -/
def ThresholdPolicy.Covers (tier : ThresholdPolicy) (amount : Nat) : Prop :=
  amount ≥ tier.minAmount ∧ ∀ max ∈ tier.maxAmount, amount ≤ max

instance (tier : ThresholdPolicy) (amount : Nat) : Decidable (tier.Covers amount) :=
  inferInstanceAs (Decidable (_ ∧ ∀ max ∈ tier.maxAmount, amount ≤ max))

/-- The loop of `get_required_signers`. -/
def firstCovering (amount defaultThreshold : Nat) : List ThresholdPolicy → Nat
  | [] => defaultThreshold
  | tier :: rest =>
    if tier.Covers amount then tier.requiredSigners
    else firstCovering amount defaultThreshold rest

def getRequiredSigners (amount : Nat) (policy : MultisigThresholdPolicy) : Nat :=
  firstCovering amount policy.defaultThreshold policy.policies

/-- The tier begins after the one before it and does not reach into its range. -/
def Follows (prev tier : ThresholdPolicy) : Prop :=
  ¬ prev.minAmount ≥ tier.minAmount ∧ ∀ prevMax ∈ prev.maxAmount, ¬ prevMax ≥ tier.minAmount

instance (prev tier : ThresholdPolicy) : Decidable (Follows prev tier) :=
  inferInstanceAs (Decidable (_ ∧ ∀ prevMax ∈ prev.maxAmount, ¬ prevMax ≥ tier.minAmount))

/-- The loop of `validate_threshold_policy`, with the tier before. -/
def validTiers (prev : Option ThresholdPolicy) : List ThresholdPolicy → Bool
  | [] => true
  | tier :: rest =>
    if tier.requiredSigners = 0 then false
    else if ∃ max ∈ tier.maxAmount, tier.minAmount > max then false
    else if ∃ p ∈ prev, ¬ Follows p tier then false
    else validTiers (some tier) rest

def validateThresholdPolicy (policy : MultisigThresholdPolicy) : Bool :=
  if policy.defaultThreshold = 0 then false else validTiers none policy.policies

/-! ## Escrows with a policy -/

/-- The storage with `DataKey::EscrowPolicy`. -/
structure PolicyStorage extends Storage where
  escrowPolicy : Nat → Option MultisigThresholdPolicy

/-- The part of the storage that the rest of the contract is about. -/
def onStorage {α : Type} (m : Entry α) : Contract PolicyStorage Event α := fun env w =>
  match m env { storage := w.storage.toStorage, events := w.events } with
  | .ok (a, w') =>
    .ok (a, { storage := { w.storage with toStorage := w'.storage }, events := w'.events })
  | .error t => .error t

/-- `amount.unsigned_abs() as u64`. -/
def unsignedAmount (amount : Int) : Nat := amount.natAbs % u64Bound

/-- The id of the project, and with it the signers that are looked up, which the code drops. -/
def createEscrowWithPolicy (client freelancer : Address) (amount : Int)
    (description githubRepo : String) (deadline : Nat) (policy : MultisigThresholdPolicy) :
    Contract PolicyStorage Event (Nat × Nat) := do
  onStorage requireNotPaused
  requireAuth client
  onStorage acquireLock
  assert (validateThresholdPolicy policy = true) "Invalid threshold policy"
  let signers := getRequiredSigners (unsignedAmount amount) policy
  let stored ← read (·.projectCount.getD 0)
  let count ← addU64 stored 1
  let now ← timestamp
  let project : Project :=
    { id := count, client, freelancer, amount, deposited := 0, status := .created,
      githubRepo, description, createdAt := now, deadline }
  onStorage (setProject count project)
  onStorage (write ({ · with projectCount := some count }))
  write fun s => { s with
    escrowPolicy := Function.update s.escrowPolicy count (some policy) }
  publish (.projectCreated count client freelancer amount)
  onStorage releaseLock
  return (count, signers)

/-! ## Tiers that do not overlap -/

/-- No amount is in two tiers. -/
def Disjoint (tiers : List ThresholdPolicy) : Prop :=
  tiers.Pairwise fun a b => ∀ amount, ¬ (a.Covers amount ∧ b.Covers amount)

/-- The number of signers is that of a tier with the amount, or the default if there is none. -/
def Requires (policy : MultisigThresholdPolicy) (amount signers : Nat) : Prop :=
  (∃ tier ∈ policy.policies, tier.Covers amount ∧ tier.requiredSigners = signers) ∨
    (∀ tier ∈ policy.policies, ¬ tier.Covers amount) ∧ policy.defaultThreshold = signers

/-- No tier but the last one is without an upper bound. -/
def OnlyLastOpen (tiers : List ThresholdPolicy) : Prop :=
  ∀ tier ∈ tiers.dropLast, tier.maxAmount ≠ none

instance (tiers : List ThresholdPolicy) : Decidable (OnlyLastOpen tiers) :=
  inferInstanceAs (Decidable (∀ tier ∈ tiers.dropLast, tier.maxAmount ≠ none))

variable {prev : Option ThresholdPolicy} {tier : ThresholdPolicy}
  {tiers rest : List ThresholdPolicy} {policy : MultisigThresholdPolicy} {amount : Nat}

theorem validTiers_cons (h : validTiers prev (tier :: rest) = true) :
    (∀ max ∈ tier.maxAmount, tier.minAmount ≤ max) ∧ (∀ p ∈ prev, Follows p tier) ∧
      validTiers (some tier) rest = true := by
  rw [validTiers] at h
  split_ifs at h with _ hrange hfollows
  refine ⟨?_, ?_, h⟩
  · intro max hmax
    exact Nat.not_lt.mp fun hless => hrange ⟨max, hmax, hless⟩
  · intro p hp
    by_contra hnot
    exact hfollows ⟨p, hp, hnot⟩

/-- Where every tier but the last has an upper bound, that bound is before all later tiers. -/
theorem after_of_validTiers {p : ThresholdPolicy} (h : validTiers (some p) tiers = true)
    {bound : Nat} (hbound : p.maxAmount = some bound) : ∀ t ∈ tiers, bound < t.minAmount := by
  have hmin : ∀ {q : ThresholdPolicy} {ts : List ThresholdPolicy}, validTiers (some q) ts = true →
      ∀ t ∈ ts, q.minAmount < t.minAmount := by
    intro q ts hts
    induction ts generalizing q with
    | nil => exact List.forall_mem_nil _
    | cons t rest ih =>
      obtain ⟨_, hfollows, hrest⟩ := validTiers_cons hts
      have hless : q.minAmount < t.minAmount := Nat.not_le.mp (hfollows q rfl).1
      exact List.forall_mem_cons.mpr
        ⟨hless, fun other hother => hless.trans (ih hrest other hother)⟩
  cases tiers with
  | nil => exact List.forall_mem_nil _
  | cons t rest =>
    obtain ⟨_, hfollows, hrest⟩ := validTiers_cons h
    have hless : bound < t.minAmount := Nat.not_le.mp ((hfollows p rfl).2 bound hbound)
    exact List.forall_mem_cons.mpr
      ⟨hless, fun other hother => hless.trans (hmin hrest other hother)⟩

theorem disjoint_iff (h : validTiers prev tiers = true) : Disjoint tiers ↔ OnlyLastOpen tiers := by
  induction tiers generalizing prev with
  | nil => exact ⟨fun _ => List.forall_mem_nil _, fun _ => List.Pairwise.nil⟩
  | cons tier rest ih =>
    obtain ⟨_, _, hrest⟩ := validTiers_cons h
    cases rest with
    | nil => exact ⟨fun _ => List.forall_mem_nil _, fun _ => List.pairwise_singleton _ _⟩
    | cons next others =>
      have hopen : OnlyLastOpen (tier :: next :: others) ↔
          tier.maxAmount ≠ none ∧ OnlyLastOpen (next :: others) := by
        rw [OnlyLastOpen, List.dropLast_cons_of_ne_nil (List.cons_ne_nil _ _), List.forall_mem_cons]
        rfl
      rw [hopen, ← ih hrest, Disjoint, List.pairwise_cons]
      refine and_congr_left fun _ => ?_
      constructor
      · intro hnone hmax
        obtain ⟨hrange, hfollows, _⟩ := validTiers_cons hrest
        have hless : tier.minAmount < next.minAmount := Nat.not_le.mp (hfollows tier rfl).1
        refine hnone next List.mem_cons_self next.minAmount ⟨⟨hless.le, ?_⟩, le_refl _, hrange⟩
        intro max hmem
        rw [hmax] at hmem
        cases hmem
      · intro hmax other hother amount hboth
        obtain ⟨bound, hbound⟩ := Option.ne_none_iff_exists'.mp hmax
        have hafter := after_of_validTiers hrest hbound other hother
        have hwithin := hboth.1.2 bound hbound
        have hfrom := hboth.2.1
        omega

/-! ## The count that is looked up -/

theorem firstCovering_requires (policy : MultisigThresholdPolicy) (amount : Nat) :
    Requires policy amount (getRequiredSigners amount policy) := by
  rw [getRequiredSigners, Requires]
  induction policy.policies with
  | nil => exact .inr ⟨List.forall_mem_nil _, rfl⟩
  | cons tier rest ih =>
    rw [firstCovering]
    split_ifs with hcovers
    · exact .inl ⟨tier, List.mem_cons_self, hcovers, rfl⟩
    · obtain ⟨other, hother, hrest⟩ | ⟨hnone, hdefault⟩ := ih
      · exact .inl ⟨other, List.mem_cons_of_mem _ hother, hrest⟩
      · exact .inr ⟨List.forall_mem_cons.mpr ⟨hcovers, hnone⟩, hdefault⟩

/-- Where no amount is in two tiers, the first tier with an amount is the only one. -/
theorem requires_iff (h : Disjoint policy.policies) {signers : Nat} :
    Requires policy amount signers ↔ getRequiredSigners amount policy = signers := by
  have hfirst := firstCovering_requires policy amount
  constructor
  · intro hrequires
    obtain ⟨a, ha, hcovers, hsigners⟩ | ⟨hnone, hdefault⟩ := hfirst
    · obtain ⟨b, hb, hcovers', rfl⟩ | ⟨hnone, _⟩ := hrequires
      · have hsame : a = b := by
          by_contra hne
          have : Std.Symm fun x y : ThresholdPolicy => ∀ z, ¬ (x.Covers z ∧ y.Covers z) :=
            ⟨fun x y hxy z hboth => hxy z hboth.symm⟩
          exact List.Pairwise.forall h ha hb hne amount ⟨hcovers, hcovers'⟩
        rw [← hsigners, hsame]
      · exact absurd hcovers (hnone a ha)
    · obtain ⟨b, hb, hcovers', _⟩ | ⟨_, rfl⟩ := hrequires
      · exact absurd hcovers' (hnone b hb)
      · exact hdefault.symm
  · rintro rfl
    exact hfirst

/-- What is to hold of a policy and an amount: no amount is in two tiers, and a call that creates
an escrow of the amount looks up what its tier requires. -/
def LooksUpTier (policy : MultisigThresholdPolicy) (amount : Int) : Prop :=
  Disjoint policy.policies ∧
    ∀ client freelancer description githubRepo deadline env w w' id signers,
      createEscrowWithPolicy client freelancer amount description githubRepo deadline policy env w =
        .ok ((id, signers), w') →
      ∀ n, Requires policy amount.toNat n ↔ signers = n

theorem createEscrowWithPolicy_signers {client freelancer : Address} {amount : Int}
    {description githubRepo : String} {deadline id signers : Nat} {env : Env}
    {w w' : Soroban.World PolicyStorage Event}
    (h : createEscrowWithPolicy client freelancer amount description githubRepo deadline policy
      env w = .ok ((id, signers), w')) :
    signers = getRequiredSigners (unsignedAmount amount) policy := by
  simp only [createEscrowWithPolicy, bind_ok, requireAuth_ok, assert_ok, read_ok, addU64_ok,
    timestamp_ok, write_ok, publish_ok, pure_ok, Prod.mk.injEq, and_assoc, exists_and_left,
    exists_eq_left', exists_const] at h
  obtain ⟨_, _, _, _, _, _, _, _, _, _, _, _, _, _, _, _, _, _, _, hsigners, _⟩ := h
  exact hsigners.symm

/-- A contract that has been deployed, without a policy. -/
def deployedWithPolicies : Soroban.World PolicyStorage Event where
  storage := { deployed.storage with escrowPolicy := fun _ => none }
  events := []

theorem createEscrowWithPolicy_returns (hvalid : validateThresholdPolicy policy = true)
    (amount : Int) :
    ∃ w', createEscrowWithPolicy ⟨1⟩ ⟨2⟩ amount "" "" 0 policy { timestamp := 0, auths := [⟨1⟩] }
      deployedWithPolicies =
        .ok ((1, getRequiredSigners (unsignedAmount amount) policy), w') := by
  simp only [createEscrowWithPolicy, assert, if_pos hvalid]
  exact ⟨_, rfl⟩

/-- An accepted policy is looked up as it is meant exactly if only its last tier is open, and the
amount fits into 64 bits or requires as much as its lowest 64 bits. -/
theorem looksUpTier_iff {amount : Int} (hvalid : validateThresholdPolicy policy = true)
    (hpos : 0 < amount) :
    LooksUpTier policy amount ↔ OnlyLastOpen policy.policies ∧
      (amount < u64Bound ∨ ∀ n, Requires policy amount.toNat n ↔
        Requires policy (amount.toNat % u64Bound) n) := by
  have htiers : validTiers none policy.policies = true := by
    rw [validateThresholdPolicy] at hvalid
    split_ifs at hvalid
    exact hvalid
  have hunsigned : unsignedAmount amount = amount.toNat % u64Bound := by
    rw [unsignedAmount]
    congr 1
    omega
  have hnarrow : amount < u64Bound → amount.toNat % u64Bound = amount.toNat := by
    intro hless
    exact Nat.mod_eq_of_lt (by omega)
  rw [LooksUpTier, disjoint_iff htiers]
  refine and_congr_right fun hopen => ?_
  have hlooked : ∀ n, getRequiredSigners (unsignedAmount amount) policy = n ↔
      Requires policy (amount.toNat % u64Bound) n := by
    intro n
    rw [hunsigned, requires_iff ((disjoint_iff htiers).mpr hopen)]
  constructor
  · intro h
    right
    obtain ⟨w', hreturned⟩ := createEscrowWithPolicy_returns hvalid amount
    intro n
    rw [h _ _ _ _ _ _ _ _ _ _ hreturned n, hlooked]
  · intro h _ _ _ _ _ _ _ _ _ signers hreturned n
    rw [createEscrowWithPolicy_signers hreturned, hlooked]
    obtain hless | hsame := h
    · rw [hnarrow hless]
    · exact hsame n

/-- Two open tiers: the amount 5000 is in both, and the first one is looked up. -/
def twoOpen : MultisigThresholdPolicy where
  policies := [⟨0, none, 1⟩, ⟨1000, none, 3⟩]
  defaultThreshold := 1

/-- One signer up to 99, and three from there on. -/
def openAbove : MultisigThresholdPolicy where
  policies := [⟨0, some 99, 1⟩, ⟨100, none, 3⟩]
  defaultThreshold := 1

theorem looksUpTier_iff_openAbove :
    LooksUpTier openAbove 5000 ↔ OnlyLastOpen openAbove.policies ∧
      ((5000 : Int) < u64Bound ∨ ∀ n, Requires openAbove (5000 : Int).toNat n ↔
        Requires openAbove ((5000 : Int).toNat % u64Bound) n) :=
  looksUpTier_iff (by decide) (by decide)

/-- Both policies are accepted. In the first one two tiers have the amount 5000, and their order
decides; in the second one an escrow of 2 ^ 64 + 5 is looked up as one of 5. -/
theorem tiers_misread :
    validateThresholdPolicy twoOpen = true ∧
      ⟨0, none, 1⟩ ∈ twoOpen.policies ∧ ⟨1000, none, 3⟩ ∈ twoOpen.policies ∧
      (⟨0, none, 1⟩ : ThresholdPolicy).Covers 5000 ∧
      (⟨1000, none, 3⟩ : ThresholdPolicy).Covers 5000 ∧ getRequiredSigners 5000 twoOpen = 1 ∧
      getRequiredSigners 5000 ⟨twoOpen.policies.reverse, 1⟩ = 3 ∧
    validateThresholdPolicy openAbove = true ∧
      (⟨100, none, 3⟩ : ThresholdPolicy).Covers (2 ^ 64 + 5) ∧
      ∃ w', createEscrowWithPolicy ⟨1⟩ ⟨2⟩ (2 ^ 64 + 5) "" "" 0 openAbove
        { timestamp := 0, auths := [⟨1⟩] } deployedWithPolicies = .ok ((1, 1), w') := by
  refine ⟨by decide, by decide, by decide, by decide, by decide, by decide, by decide, by decide,
    by decide, ?_⟩
  exact createEscrowWithPolicy_returns (by decide) (2 ^ 64 + 5)

end AgenticPayContract
