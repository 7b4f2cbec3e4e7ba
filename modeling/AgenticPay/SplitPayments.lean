import AgenticPay.Billing
import AgenticPay.LargestRemainder
import Mathlib.Algebra.BigOperators.Ring.List
import Mathlib.Algebra.Order.Field.Rat
import Mathlib.Data.Rat.Floor

/-!
# Split payments

A plan splits every payment between the platform and its recipients in basis points that add up to
the whole, and a payment is allocated down to the last minor unit by largest remainders. Amounts and
percentages are exact numbers.
-/
namespace SplitPayments

open Billing (Failure Host)
open LargestRemainder

/-- A number of the host, `none` if it is not finite. -/
abbrev JsNumber := Option ℚ

structure SplitRecipientInput where
  recipientId : Option String
  walletAddress : Option String
  percentage : JsNumber
  minimumAmount : Option JsNumber

structure SplitRecipient where
  recipientId : String
  walletAddress : String
  percentage : ℚ
  shareBps : Int
  minimumAmount : ℚ
  deriving DecidableEq

structure CreateSplitPlanInput where
  tenantId : Option String
  recipients : Option (List SplitRecipientInput)
  platformFeePercentage : Option JsNumber
  currency : Option String

structure SplitConfig where
  supportedCurrencies : List String
  defaultCurrency : String
  maxRecipients : Nat

def defaultSplitConfig : SplitConfig :=
  { supportedCurrencies := ["USD", "EUR", "GBP", "XLM", "USDC"], defaultCurrency := "USD",
    maxRecipients := 25 }

structure NormalizedSplitPlan where
  tenantId : String
  currency : String
  platformFeePercentage : ℚ
  platformFeeBps : Int
  recipients : List SplitRecipient
  deriving DecidableEq

def bpsTotal : Int := 10000

/-- `Math.round`. -/
def mathRound (value : ℚ) : Int := (value + 1 / 2).floor

def roundCurrency (value : ℚ) : ℚ := Billing.roundMoney value 2

def toBasisPoints (percentage : ℚ) : Int := mathRound (percentage * 100)

def fromBasisPoints (bps : Int) : ℚ := bps / 100

/-! ## Plans -/

def validationError (message : String) : Failure := ⟨message, 400, "VALIDATION_ERROR"⟩

/-- A text that is there and not empty. -/
def given (text : Option String) (message : String) : Except Failure String :=
  match text.filter (· ≠ "") with
  | none => .error (validationError message)
  | some text => .ok text

/-- A number that is finite and, after rounding, as it has to be. -/
def rounded (value : JsNumber) (fits : ℚ → Bool) (message : String) : Except Failure ℚ :=
  match (value.map roundCurrency).filter fits with
  | none => .error (validationError message)
  | some value => .ok value

/-- The loop over the recipients, with the ids seen so far. -/
def checkRecipients (seen : List String) :
    List SplitRecipientInput → Except Failure (List SplitRecipient)
  | [] => .ok []
  | raw :: rest => do
    let recipientId ← given raw.recipientId "Each recipient requires a recipientId"
    Billing.validate (recipientId ∉ seen) s!"Duplicate recipientId \"{recipientId}\""
    let walletAddress ← given raw.walletAddress
      s!"Recipient \"{recipientId}\" requires a walletAddress"
    let percentage ← rounded raw.percentage (fun p => 0 < p ∧ p ≤ 100)
      s!"Recipient \"{recipientId}\" percentage must be greater than 0 and at most 100"
    let minimumAmount ← rounded (raw.minimumAmount.getD (some 0)) (0 ≤ ·)
      s!"Recipient \"{recipientId}\" minimumAmount must be a non-negative number"
    let recipients ← checkRecipients (recipientId :: seen) rest
    return { recipientId, walletAddress, percentage, shareBps := toBasisPoints percentage,
             minimumAmount } :: recipients

def validateSplitPlan (host : Host) (config : SplitConfig) (input : Option CreateSplitPlanInput) :
    Except Failure NormalizedSplitPlan := do
  let input ← Billing.orElse input (validationError "Split request body is required")
  let tenantId ← given input.tenantId "tenantId is required"
  let raws := input.recipients.getD []
  Billing.validate (raws ≠ []) "At least one split recipient is required"
  let maxRecipients := config.maxRecipients
  Billing.validate (¬ raws.length > config.maxRecipients)
    s!"A split may have at most {maxRecipients} recipients"
  let currency := host.toUpperCase (input.currency.getD config.defaultCurrency)
  let supported := String.intercalate ", " config.supportedCurrencies
  Billing.validate (currency ∈ config.supportedCurrencies) s!"currency must be one of: {supported}"
  let platformFeePercentage ← rounded (input.platformFeePercentage.getD (some 0))
    (fun p => 0 ≤ p ∧ p ≤ 100) "platformFeePercentage must be between 0 and 100"
  let recipients ← checkRecipients [] raws
  let platformFeeBps := toBasisPoints platformFeePercentage
  let totalBps := (recipients.map (·.shareBps)).sum + platformFeeBps
  let got := host.formatNumber (fromBasisPoints totalBps)
  Billing.validate (totalBps = bpsTotal)
    s!"Recipient percentages plus platform fee must sum to exactly 100 (got {got})"
  return { tenantId, currency, platformFeePercentage, platformFeeBps, recipients }

/-! ## Allocation -/

/-- Largest-remainder allocation of `totalMinor` across `weights`. -/
def allocateMinorUnits (totalMinor : Int) (weights : List ℚ) : List Int :=
  let totalWeight := weights.sum
  if totalMinor ≤ 0 ∨ totalWeight ≤ 0 then weights.map fun _ => 0
  else
    let exact := weights.map fun weight => totalMinor * weight / totalWeight
    let minors := floors exact
    handOut (totalMinor - minors.sum) (byRemainder exact) minors

structure AllocateSplitParams where
  totalAmount : JsNumber
  platformFeePercentage : ℚ
  platformFeeBps : Int
  recipients : List SplitRecipient

structure SplitAllocationShare where
  recipientId : String
  walletAddress : String
  percentage : ℚ
  amount : ℚ
  amountMinor : Int
  skipped : Bool
  reason : Option String
  deriving DecidableEq

structure SplitAllocation where
  totalAmount : ℚ
  totalMinor : Int
  platformFeePercentage : ℚ
  platformFeeBps : Int
  platformFeeAmount : ℚ
  platformFeeMinor : Int
  shares : List SplitAllocationShare
  allocatedMinor : Int
  unallocatedMinor : Int
  deriving DecidableEq

def shareOf (recipient : SplitRecipient) (amountMinor : Int) : SplitAllocationShare :=
  let amount := roundCurrency (amountMinor / 100)
  let skipped := decide (amount < recipient.minimumAmount)
  { recipientId := recipient.recipientId, walletAddress := recipient.walletAddress,
    percentage := recipient.percentage, amount, amountMinor, skipped,
    reason := if skipped = true then some "Below minimum amount" else none }

def totalMinorOf (totalAmount : ℚ) : Int := mathRound (totalAmount * 100)

def allocate (params : AllocateSplitParams) (totalAmount : ℚ) : SplitAllocation :=
  let totalMinor := totalMinorOf totalAmount
  let weights : List ℚ :=
    (params.platformFeeBps : ℚ) :: params.recipients.map fun recipient => (recipient.shareBps : ℚ)
  let minors := allocateMinorUnits totalMinor weights
  let platformFeeMinor := minors[0]?.getD 0
  let shares := params.recipients.mapIdx fun index recipient =>
    shareOf recipient (minors[index + 1]?.getD 0)
  let allocatedMinor := platformFeeMinor + (shares.map (·.amountMinor)).sum
  { totalAmount := roundCurrency totalAmount, totalMinor
    platformFeePercentage := params.platformFeePercentage
    platformFeeBps := params.platformFeeBps
    platformFeeAmount := roundCurrency (platformFeeMinor / 100), platformFeeMinor, shares
    allocatedMinor, unallocatedMinor := totalMinor - allocatedMinor }

/-- An amount that does not round to a positive number of minor units is thrown at. -/
def allocateSplit (params : AllocateSplitParams) : Except String SplitAllocation :=
  match params.totalAmount with
  | none => .error "totalAmount must be a positive number"
  | some totalAmount =>
    if totalMinorOf totalAmount ≤ 0 then .error "totalAmount must be a positive number"
    else .ok (allocate params totalAmount)

/-- A payment of the plan. -/
def NormalizedSplitPlan.params (plan : NormalizedSplitPlan) (totalAmount : ℚ) :
    AllocateSplitParams :=
  { totalAmount := some totalAmount, platformFeePercentage := plan.platformFeePercentage,
    platformFeeBps := plan.platformFeeBps, recipients := plan.recipients }

/-! ## What is allocated -/

variable {total : Int} {weights : List ℚ} {host : Host} {config : SplitConfig}
  {input : Option CreateSplitPlanInput} {plan : NormalizedSplitPlan} {amount : ℚ}

/-- Each part is the exact quota rounded down or up. -/
theorem allocateMinorUnits_spec (htotal : 0 < total) (hweights : 0 < weights.sum) :
    (allocateMinorUnits total weights).sum = total ∧
      List.Forall₂ (fun weight part => (part = ⌊total * weight / weights.sum⌋ ∨
        part = ⌈total * weight / weights.sum⌉) ∧ (weight = 0 → part = 0)) weights
        (allocateMinorUnits total weights) := by
  have hexact : (weights.map fun weight => total * weight / weights.sum).sum = (total : ℚ) := by
    have hquota : (weights.map fun weight => (total : ℚ) * weight / weights.sum) =
        weights.map fun weight => weight * (total / weights.sum) :=
      List.map_congr_left fun weight _ => by ring
    rw [hquota, List.sum_map_mul_right, List.map_id', mul_div_cancel₀ _ hweights.ne']
  rw [allocateMinorUnits, if_neg (by rw [not_or]; exact ⟨by omega, not_le.mpr hweights⟩)]
  obtain ⟨hsum, hparts⟩ := handOut_spec hexact
  refine ⟨hsum, ?_⟩
  rw [List.forall₂_map_left_iff] at hparts
  refine hparts.imp ?_
  intro weight part hpart
  refine ⟨hpart, ?_⟩
  rintro rfl
  rw [mul_zero, zero_div, Int.floor_zero, Int.ceil_zero, or_self] at hpart
  exact hpart

theorem allocateMinorUnits_length (total : Int) (weights : List ℚ) :
    (allocateMinorUnits total weights).length = weights.length := by
  rw [allocateMinorUnits]
  split_ifs
  · rw [List.length_map]
  · rw [length_handOut, floors, List.length_map, List.length_map]

/-- The basis points of an accepted plan are all of the payment. -/
theorem validateSplitPlan_total (h : validateSplitPlan host config input = .ok plan) :
    (plan.recipients.map (·.shareBps)).sum + plan.platformFeeBps = bpsTotal := by
  obtain ⟨_, _, h⟩ := Transaction.bind_returns h
  obtain ⟨_, _, h⟩ := Transaction.bind_returns h
  obtain ⟨_, _, h⟩ := Transaction.bind_returns h
  obtain ⟨_, _, h⟩ := Transaction.bind_returns h
  obtain ⟨_, _, h⟩ := Transaction.bind_returns h
  obtain ⟨_, _, h⟩ := Transaction.bind_returns h
  obtain ⟨_, _, h⟩ := Transaction.bind_returns h
  obtain ⟨_, htotal, h⟩ := Transaction.bind_returns h
  cases h
  exact Billing.validate_ok.mp htotal

/-- The shares are the parts after that of the platform. -/
theorem shares_minor {recipients : List SplitRecipient} {fee : Int} {parts : List Int}
    (h : parts.length = recipients.length) :
    (recipients.mapIdx fun index recipient =>
      shareOf recipient ((fee :: parts)[index + 1]?.getD 0)).map (·.amountMinor) = parts := by
  apply List.ext_getElem
  · rw [List.length_map, List.length_mapIdx, h]
  · intro i _ hi
    simp [shareOf, hi]

theorem sum_weights (recipients : List SplitRecipient) (fee : Int) :
    ((fee : ℚ) :: recipients.map fun recipient => (recipient.shareBps : ℚ)).sum =
      (((recipients.map (·.shareBps)).sum + fee : Int) : ℚ) := by
  rw [List.sum_cons, Int.cast_add, add_comm]
  congr 1
  induction recipients with
  | nil => rfl
  | cons recipient rest ih =>
    rw [List.map_cons, List.map_cons, List.sum_cons, List.sum_cons, ih, Int.cast_add]

/-- A payment of an accepted plan is allocated, all of it. -/
theorem allocate_exact (h : validateSplitPlan host config input = .ok plan)
    (hamount : 0 < totalMinorOf amount) :
    (allocate (plan.params amount) amount).platformFeeMinor +
        ((allocate (plan.params amount) amount).shares.map (·.amountMinor)).sum =
      totalMinorOf amount := by
  have hweights : ((plan.platformFeeBps : ℚ) ::
      plan.recipients.map fun recipient => (recipient.shareBps : ℚ)).sum = bpsTotal := by
    rw [sum_weights, validateSplitPlan_total h]
  obtain ⟨hsum, _⟩ := allocateMinorUnits_spec hamount
    (by rw [hweights]; decide +kernel : (0 : ℚ) < ((plan.platformFeeBps : ℚ) ::
      plan.recipients.map fun recipient => (recipient.shareBps : ℚ)).sum)
  have hlength := allocateMinorUnits_length (totalMinorOf amount)
    ((plan.platformFeeBps : ℚ) :: plan.recipients.map fun recipient => (recipient.shareBps : ℚ))
  cases hminors : allocateMinorUnits (totalMinorOf amount)
      ((plan.platformFeeBps : ℚ) ::
        plan.recipients.map fun recipient => (recipient.shareBps : ℚ)) with
  | nil =>
    rw [hminors] at hlength
    cases hlength
  | cons fee parts =>
    rw [hminors, List.length_cons, List.length_cons, List.length_map] at hlength
    rw [hminors, List.sum_cons] at hsum
    simp only [allocate, NormalizedSplitPlan.params, hminors]
    rw [shares_minor (Nat.succ_inj.mp hlength)]
    exact hsum

/-- Largest remainders allocate a total without loss, next to the exact quotas and nothing to a
weight of zero; so every payment of an accepted plan is allocated, all of it. -/
theorem allocateSplit_exact (htotal : 0 < total) (hweights : 0 < weights.sum)
    (hplan : validateSplitPlan host config input = .ok plan) (hamount : 0 < totalMinorOf amount) :
    ((allocateMinorUnits total weights).sum = total ∧
      List.Forall₂ (fun weight part => (part = ⌊total * weight / weights.sum⌋ ∨
        part = ⌈total * weight / weights.sum⌉) ∧ (weight = 0 → part = 0)) weights
        (allocateMinorUnits total weights)) ∧
    ∃ allocation, allocateSplit (plan.params amount) = .ok allocation ∧
      allocation.totalMinor = totalMinorOf amount ∧
      allocation.platformFeeMinor + (allocation.shares.map (·.amountMinor)).sum =
        allocation.totalMinor ∧ allocation.unallocatedMinor = 0 := by
  refine ⟨allocateMinorUnits_spec htotal hweights, allocate (plan.params amount) amount,
    if_neg (not_le.mpr hamount), rfl, allocate_exact hplan hamount, ?_⟩
  exact sub_eq_zero.mpr (allocate_exact hplan hamount).symm

/-! ## A plan for three recipients -/

def threeWays : CreateSplitPlanInput where
  tenantId := some "tenant"
  recipients := some
    [⟨some "a", some "GA", some 30, none⟩, ⟨some "b", some "GB", some (65 / 2), none⟩,
      ⟨some "c", some "GC", some 35, some (some 4)⟩]
  platformFeePercentage := some (some (5 / 2))
  currency := none

def threeWaysPlan : NormalizedSplitPlan where
  tenantId := "tenant"
  currency := "USD"
  platformFeePercentage := 5 / 2
  platformFeeBps := 250
  recipients := [⟨"a", "GA", 30, 3000, 0⟩, ⟨"b", "GB", 65 / 2, 3250, 0⟩, ⟨"c", "GC", 35, 3500, 4⟩]

/-- Of ten cents, the two that rounding leaves go to the second recipient and to the third. -/
example : allocateMinorUnits 10 [250, 3000, 3250, 3500] = [0, 3, 3, 4] := by decide +kernel

theorem allocateSplit_exact_threeWays :
    ((allocateMinorUnits 10 [250, 3000, 3250, 3500]).sum = 10 ∧
      List.Forall₂ (fun weight part => (part = ⌊(10 : Int) * weight / ([250, 3000, 3250, 3500] :
        List ℚ).sum⌋ ∨ part = ⌈(10 : Int) * weight / ([250, 3000, 3250, 3500] : List ℚ).sum⌉) ∧
          (weight = 0 → part = 0)) [250, 3000, 3250, 3500]
        (allocateMinorUnits 10 [250, 3000, 3250, 3500])) ∧
    ∃ allocation, allocateSplit (threeWaysPlan.params (1 / 10)) = .ok allocation ∧
      allocation.totalMinor = totalMinorOf (1 / 10) ∧
      allocation.platformFeeMinor + (allocation.shares.map (·.amountMinor)).sum =
        allocation.totalMinor ∧ allocation.unallocatedMinor = 0 := by
  have hplan : validateSplitPlan ⟨id, fun _ => ""⟩ defaultSplitConfig (some threeWays) =
      .ok threeWaysPlan := by decide +kernel
  exact allocateSplit_exact (by decide) (by decide +kernel) hplan (by decide +kernel)

end SplitPayments
