import Mathlib.Algebra.BigOperators.Group.List.Basic
import Mathlib.Algebra.Order.Field.Rat
import Mathlib.Tactic.LinearCombination
import Mathlib.Tactic.Ring

/-!
# The fee engine

A fee schedule charges by its own terms or by a tier of the amount; a merchant may
have an override and a volume discount, and a high price of gas adds a surcharge.
What the database returns comes with the call. A decimal column that is set counts
as true whatever its value is. Numbers are exact, and `toFixed8` is what is read
back of a number that is written with eight digits.
-/
namespace FeeEngine

structure VolumeTier where
  minVolume : ℚ
  maxVolume : Option ℚ
  flatFee : Option ℚ
  percentageFee : ℚ
  deriving DecidableEq

structure FeeSchedule where
  id : String
  name : String
  feeType : String
  flatFee : Option ℚ
  percentageFee : Option ℚ
  minFee : Option ℚ
  maxFee : Option ℚ
  gasSurchargePct : Option ℚ
  gasThresholdGwei : Option ℚ
  effectiveFrom : Int
  effectiveTo : Option Int
  status : String
  volumeTiers : List VolumeTier
  deriving DecidableEq

structure MerchantOverride where
  flatFee : Option ℚ
  percentageFee : Option ℚ
  minFee : Option ℚ
  maxFee : Option ℚ
  deriving DecidableEq

/-- What the queries of one call return: the schedule of the tenant, the same schedule when its
tier and when the discount are looked up, the override, and the payments of the month. -/
structure Reads where
  schedule : Option FeeSchedule
  tierSchedule : Option FeeSchedule
  override : Option MerchantOverride
  monthlyPayments : List ℚ
  discountSchedule : Option FeeSchedule
  deriving DecidableEq

structure FeeCalculationInput where
  merchantId : Option String
  amount : ℚ
  gasPriceGwei : Option ℚ
  deriving DecidableEq

inductive TierLabel where
  | default
  | between (minVolume : ℚ) (maxVolume : Option ℚ)
  | above (volume : ℚ)
  deriving DecidableEq

structure TierResult where
  tierLabel : TierLabel
  flatFee : ℚ
  percentageFee : ℚ
  minFee : Option ℚ
  maxFee : Option ℚ
  deriving DecidableEq

inductive VolumeTierLabel where
  | noTiers
  | base
  | tier (minVolume : ℚ)
  deriving DecidableEq

structure VolumeDiscountResult where
  originalFee : ℚ
  discountedFee : ℚ
  discountPct : ℚ
  monthlyVolume : ℚ
  volumeTier : VolumeTierLabel
  deriving DecidableEq

structure FeeBreakdown where
  baseFee : ℚ
  processingFee : ℚ
  gasSurcharge : ℚ
  volumeDiscount : ℚ
  totalFee : ℚ
  netAmount : ℚ
  deriving DecidableEq

/-- What a call returns. The schedule comes without its tiers. -/
structure Calculation where
  breakdown : FeeBreakdown
  schedule : FeeSchedule
  appliedVolumeDiscount : Bool
  deriving DecidableEq

structure AppError where
  statusCode : Nat
  message : String
  code : String
  deriving DecidableEq, Repr

/-! ## The tier and the discount -/

/-- At most a bound that may be absent, which is infinite then. -/
def atMost (amount : ℚ) : Option ℚ → Bool
  | none => true
  | some bound => amount ≤ bound

def tierFees (label : TierLabel) (tier : VolumeTier) : TierResult :=
  { tierLabel := label, flatFee := tier.flatFee.getD 0, percentageFee := tier.percentageFee,
    minFee := none, maxFee := none }

/-- The first tier of the amount, or the last one for an amount that is above it. -/
def matchTier (tiers : List VolumeTier) (amount : ℚ) : Option TierResult :=
  match tiers.find? fun tier => tier.minVolume ≤ amount && atMost amount tier.maxVolume with
  | some tier => some (tierFees (.between tier.minVolume tier.maxVolume) tier)
  | none =>
    match tiers.getLast? with
    | none => none
    | some last =>
      match last.maxVolume with
      | none => none
      | some bound => if bound ≤ amount then some (tierFees (.above bound) last) else none

def resolveTier (found : Option FeeSchedule) (amount : ℚ) : Option TierResult :=
  match found with
  | none => none
  | some schedule =>
    if schedule.status ≠ "active" then none
    else if schedule.feeType ≠ "tiered" ∨ schedule.volumeTiers = [] then
      some
        { tierLabel := .default, flatFee := schedule.flatFee.getD 0,
          percentageFee := schedule.percentageFee.getD 0, minFee := schedule.minFee,
          maxFee := schedule.maxFee }
    else matchTier schedule.volumeTiers amount

def noDiscount (amount monthlyVolume : ℚ) (volumeTier : VolumeTierLabel) : VolumeDiscountResult :=
  { originalFee := amount, discountedFee := amount, discountPct := 0, monthlyVolume, volumeTier }

def calculateDiscount (payments : List ℚ) (found : Option FeeSchedule) (amount : ℚ) :
    VolumeDiscountResult :=
  let monthlyVolume := payments.sum + amount
  match found with
  | none => noDiscount amount monthlyVolume .noTiers
  | some schedule =>
    if schedule.volumeTiers = [] then noDiscount amount monthlyVolume .noTiers
    else
      match schedule.volumeTiers.reverse.find? fun tier => tier.minVolume ≤ monthlyVolume with
      | none => noDiscount amount monthlyVolume .base
      | some tier =>
        { originalFee := amount, discountedFee := amount * (tier.percentageFee / 100),
          discountPct := 100 - tier.percentageFee, monthlyVolume,
          volumeTier := .tier tier.minVolume }

/-! ## The calculation -/

def applyMinMax (fee : ℚ) (lo hi : Option ℚ) : ℚ :=
  let result := match lo with
    | some least => if fee < least then least else fee
    | none => fee
  match hi with
  | some greatest => if result > greatest then greatest else result
  | none => result

/-- `Number` of a column, which is 0 for `null`. -/
def number (column : Option ℚ) : ℚ := column.getD 0

/-- A merchant is named, and not by the empty text. -/
def named (merchantId : Option String) : Bool :=
  match merchantId with
  | some id => id ≠ ""
  | none => false

def overrideFee (override : MerchantOverride) (tier : TierResult) (amount : ℚ) : ℚ :=
  let overrideFlat := override.flatFee.getD tier.flatFee
  let overridePct := override.percentageFee.getD tier.percentageFee
  applyMinMax (overrideFlat + amount * overridePct / 100)
    (some (number (override.minFee.or tier.minFee)))
    (some (number (override.maxFee.or tier.maxFee)))

/-- The base fee once the override of the merchant has been looked up. -/
def merchantFee (db : Reads) (input : FeeCalculationInput) (tier : TierResult) (baseFee : ℚ) : ℚ :=
  if named input.merchantId then
    match db.override with
    | some override => overrideFee override tier input.amount
    | none => baseFee
  else baseFee

/-- The percentage of the discount, which only a merchant gets. -/
def discountPct (db : Reads) (input : FeeCalculationInput) : ℚ :=
  if named input.merchantId then
    (calculateDiscount db.monthlyPayments db.discountSchedule input.amount).discountPct
  else 0

/-- A price of gas is given, not as 0, and it is above the threshold of the schedule. -/
def gasIsDear (schedule : FeeSchedule) (input : FeeCalculationInput) : Bool :=
  match input.gasPriceGwei with
  | some price => price ≠ 0 && price > schedule.gasThresholdGwei.getD 50
  | none => false

def FeeBreakdown.map (f : ℚ → ℚ) (b : FeeBreakdown) : FeeBreakdown :=
  { baseFee := f b.baseFee, processingFee := f b.processingFee, gasSurcharge := f b.gasSurcharge,
    volumeDiscount := f b.volumeDiscount, totalFee := f b.totalFee, netAmount := f b.netAmount }

/-- The amounts that a call comes to. -/
def breakdown (db : Reads) (input : FeeCalculationInput) (schedule : FeeSchedule)
    (tier : TierResult) : FeeBreakdown :=
  let tierFee :=
    applyMinMax (tier.flatFee + input.amount * tier.percentageFee / 100) tier.minFee tier.maxFee
  let processingFee := tierFee
  let merchantFee := merchantFee db input tier tierFee
  let pct := discountPct db input
  let volumeDiscount := if pct > 0 then merchantFee * (pct / 100) else 0
  let discountedFee := merchantFee - volumeDiscount
  let gasSurcharge :=
    if gasIsDear schedule input then discountedFee * (schedule.gasSurchargePct.getD 10 / 100)
    else 0
  let totalFee := processingFee + gasSurcharge
  { baseFee := discountedFee + gasSurcharge, processingFee, gasSurcharge, volumeDiscount, totalFee,
    netAmount := input.amount - totalFee }

def calculate (toFixed8 : ℚ → ℚ) (db : Reads) (input : FeeCalculationInput) :
    Except AppError Calculation :=
  match db.schedule with
  | none => .error ⟨404, "No active fee schedule found", "FEE_SCHEDULE_NOT_FOUND"⟩
  | some schedule =>
    match resolveTier db.tierSchedule input.amount with
    | none => .error ⟨400, "No applicable fee tier for this amount", "NO_TIER_FOUND"⟩
    | some tier =>
      .ok
        { breakdown := (breakdown db input schedule tier).map toFixed8
          schedule := { schedule with volumeTiers := [] }
          appliedVolumeDiscount := discountPct db input > 0 }

/-! ## What is to be charged -/

/-- A fee within the limits that are set. -/
def within (lo hi : Option ℚ) (fee : ℚ) : ℚ :=
  let raised := lo.elim fee (max fee ·)
  hi.elim raised (min raised ·)

/-- The override that the merchant has. -/
def overrideOf (db : Reads) (input : FeeCalculationInput) : Option MerchantOverride :=
  if named input.merchantId then db.override else none

/-- The fee of the override where it is set and of the tier otherwise, before the limits. -/
def plainFee (override : Option MerchantOverride) (tier : TierResult) (amount : ℚ) : ℚ :=
  (override.bind (·.flatFee)).getD tier.flatFee +
    amount * (override.bind (·.percentageFee)).getD tier.percentageFee / 100

def minOf (override : Option MerchantOverride) (tier : TierResult) : Option ℚ :=
  (override.bind (·.minFee)).or tier.minFee

def maxOf (override : Option MerchantOverride) (tier : TierResult) : Option ℚ :=
  (override.bind (·.maxFee)).or tier.maxFee

/-- The fee within the limits that are set. -/
def dueFee (override : Option MerchantOverride) (tier : TierResult) (amount : ℚ) : ℚ :=
  within (minOf override tier) (maxOf override tier) (plainFee override tier amount)

/-- What of the fee the volume discount takes off. -/
def discountRate (db : Reads) (input : FeeCalculationInput) : ℚ :=
  if discountPct db input > 0 then discountPct db input / 100 else 0

/-- What the surcharge puts on the fee. -/
def surchargeRate (schedule : FeeSchedule) (input : FeeCalculationInput) : ℚ :=
  if gasIsDear schedule input then schedule.gasSurchargePct.getD 10 / 100 else 0

/-- The fee less the discount, plus the surcharge. -/
def charge (db : Reads) (input : FeeCalculationInput) (schedule : FeeSchedule)
    (tier : TierResult) : ℚ :=
  let fee := dueFee (overrideOf db input) tier input.amount
  let discounted := fee - fee * discountRate db input
  discounted + discounted * surchargeRate schedule input

/-- The fee where a limit that the merchant's override and the tier leave open is read as 0. -/
def readFee (override : Option MerchantOverride) (tier : TierResult) (amount : ℚ) : ℚ :=
  match override with
  | some _ => within (some (number (minOf override tier))) (some (number (maxOf override tier)))
      (plainFee override tier amount)
  | none => dueFee none tier amount

/-- What the override and the discount take off the fee of the tier is no more and no less than
what the surcharge loses where a limit that is not set is read as 0. -/
def Neutral (db : Reads) (input : FeeCalculationInput) (schedule : FeeSchedule)
    (tier : TierResult) : Prop :=
  let due := dueFee (overrideOf db input) tier input.amount
  let read := readFee (overrideOf db input) tier input.amount
  let kept := 1 - discountRate db input
  dueFee none tier input.amount - due * kept = (due - read) * kept * surchargeRate schedule input

variable {db : Reads} {input : FeeCalculationInput} {schedule : FeeSchedule} {tier : TierResult}

theorem applyMinMax_eq (fee : ℚ) (lo hi : Option ℚ) : applyMinMax fee lo hi = within lo hi fee := by
  have hraise : ∀ least : ℚ, (if fee < least then least else fee) = max fee least := by
    intro least
    split_ifs with h
    · exact (max_eq_right h.le).symm
    · exact (max_eq_left (not_lt.mp h)).symm
  have hlower : ∀ raised greatest : ℚ,
      (if raised > greatest then greatest else raised) = min raised greatest := by
    intro raised greatest
    split_ifs with h
    · exact (min_eq_right h.le).symm
    · exact (min_eq_left (not_lt.mp h)).symm
  cases lo <;> cases hi <;> simp only [applyMinMax, within, hraise, hlower, Option.elim]

theorem tierFee_eq (tier : TierResult) (amount : ℚ) :
    applyMinMax (tier.flatFee + amount * tier.percentageFee / 100) tier.minFee tier.maxFee =
      dueFee none tier amount := applyMinMax_eq _ _ _

/-- The base fee of the engine, before the discount. -/
theorem merchantFee_eq :
    merchantFee db input tier (dueFee none tier input.amount) =
      readFee (overrideOf db input) tier input.amount := by
  rw [merchantFee, overrideOf]
  cases named input.merchantId with
  | false => rfl
  | true =>
    simp only [if_true]
    cases db.override with
    | none => rfl
    | some override =>
      simp only [overrideFee, applyMinMax_eq]
      rfl

theorem breakdown_totalFee :
    (breakdown db input schedule tier).totalFee =
      dueFee none tier input.amount + readFee (overrideOf db input) tier input.amount *
        (1 - discountRate db input) * surchargeRate schedule input := by
  have hdiscount : ∀ fee : ℚ, (if discountPct db input > 0
      then fee * (discountPct db input / 100) else 0) = fee * discountRate db input := by
    intro fee
    rw [discountRate]
    split_ifs <;> simp
  have hsurcharge : ∀ fee : ℚ, (if gasIsDear schedule input
      then fee * (schedule.gasSurchargePct.getD 10 / 100) else 0) =
        fee * surchargeRate schedule input := by
    intro fee
    rw [surchargeRate]
    split_ifs <;> simp
  simp only [breakdown, tierFee_eq, merchantFee_eq, hdiscount, hsurcharge]
  ring

/-- Without an override the discount has nothing to take off, or there is none. -/
theorem neutral_iff_of_unset (h : overrideOf db input = none) :
    Neutral db input schedule tier ↔
      dueFee none tier input.amount = 0 ∨ discountRate db input = 0 := by
  rw [← mul_eq_zero]
  simp only [Neutral, h, readFee]
  constructor
  · intro he
    linear_combination he
  · intro he
    linear_combination he

/-- With an override within limits that are set, the fee of the tier is the one that is due. -/
theorem neutral_iff_of_limited {override : MerchantOverride}
    (h : overrideOf db input = some override) (hmin : (minOf (some override) tier).isSome)
    (hmax : (maxOf (some override) tier).isSome) :
    Neutral db input schedule tier ↔
      dueFee none tier input.amount =
        dueFee (some override) tier input.amount * (1 - discountRate db input) := by
  obtain ⟨least, hleast⟩ := Option.isSome_iff_exists.mp hmin
  obtain ⟨greatest, hgreatest⟩ := Option.isSome_iff_exists.mp hmax
  have hread : readFee (some override) tier input.amount =
      dueFee (some override) tier input.amount := by
    simp only [readFee, dueFee, hleast, hgreatest, number, Option.getD_some]
  simp only [Neutral, h, hread, sub_self, zero_mul, sub_eq_zero]

/-- What a call charges is the fee less the discount plus the surcharge exactly if the override
and the discount make no difference. -/
theorem calculate_charge_iff (hschedule : db.schedule = some schedule)
    (htier : resolveTier db.tierSchedule input.amount = some tier) :
    ∃ r, calculate id db input = .ok r ∧
      (r.breakdown.totalFee = charge db input schedule tier ∧
          r.breakdown.netAmount = input.amount - r.breakdown.totalFee ↔
        Neutral db input schedule tier) := by
  refine ⟨_, by rw [calculate, hschedule]; simp only [htier]; rfl, ?_⟩
  have htotal : (breakdown db input schedule tier).totalFee = _ := breakdown_totalFee
  simp only [FeeBreakdown.map, id, htotal, charge, Neutral]
  constructor
  · rintro ⟨h, _⟩
    linear_combination h
  · intro h
    refine ⟨by linear_combination h, ?_⟩
    rw [← htotal]
    rfl

def twoPercent : FeeSchedule :=
  { id := "s", name := "standard", feeType := "percentage", flatFee := none,
    percentageFee := some 2, minFee := none, maxFee := none, gasSurchargePct := none,
    gasThresholdGwei := none, effectiveFrom := 0, effectiveTo := none, status := "active",
    volumeTiers := [] }

def twoPercentTier : TierResult := ⟨.default, 0, 2, none, none⟩

def readsOf (override : Option MerchantOverride) : Reads :=
  { schedule := some twoPercent, tierSchedule := some twoPercent, override, monthlyPayments := [],
    discountSchedule := some twoPercent }

def dearGas : FeeCalculationInput :=
  { merchantId := some "m", amount := 1000, gasPriceGwei := some 100 }

theorem calculate_charge_iff_twoPercent :
    ∃ r, calculate id (readsOf none) dearGas = .ok r ∧
      (r.breakdown.totalFee = charge (readsOf none) dearGas twoPercent twoPercentTier ∧
          r.breakdown.netAmount = 1000 - r.breakdown.totalFee ↔
        Neutral (readsOf none) dearGas twoPercent twoPercentTier) :=
  calculate_charge_iff rfl (by decide +kernel)

/-- A merchant with an override of 1 and one percent is charged two percent, and no surcharge. -/
theorem calculate_ignores_override :
    (calculate id (readsOf (some ⟨some 1, some 1, none, none⟩)) dearGas).map
        (·.breakdown.totalFee) = .ok 20 ∧
      charge (readsOf (some ⟨some 1, some 1, none, none⟩)) dearGas twoPercent twoPercentTier =
        121 / 10 := by
  decide +kernel

end FeeEngine
