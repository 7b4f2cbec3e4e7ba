import AgenticPay.BillingTypes
import Mathlib.Data.List.Sort

/-!
# Subscription billing: prices, proration and discounts

The calculations that the service makes, without its state.
-/
namespace Billing

/-! ## Metered prices -/

def meteredError (metric text : String) : Option String := some s!"Meter {metric}{text}"

/-- The loop of `validateTiers`. -/
def validateTiersFrom (metric : String) (previous : ℚ) : List MeterTier → Option String
  | [] => none
  | tier :: rest =>
    if ¬ 0 ≤ tier.unitPrice then meteredError metric ": tier unitPrice cannot be negative"
    else if tier.flatFee.getD 0 < 0 then meteredError metric ": tier flatFee cannot be negative"
    else
      match tier.upTo with
      | none =>
        if rest ≠ [] then meteredError metric ": only the last tier can be open-ended"
        else validateTiersFrom metric previous rest
      | some upTo =>
        if rest = [] then meteredError metric ": the last tier must be open-ended (upTo: null)"
        else if ¬ previous < upTo then
          meteredError metric ": tiers must be sorted by ascending upTo"
        else validateTiersFrom metric upTo rest

def validateTiers (metric : String) (tiers : Option (List MeterTier)) : Option String :=
  match tiers with
  | none | some [] => meteredError metric ": tiered pricing requires at least one tier"
  | some tiers => validateTiersFrom metric 0 tiers

def validateMeteredPrice (price : MeteredPrice) : Option String :=
  if trim price.metric = "" then some "Meter metric is required"
  else if ¬ 0 ≤ price.includedUnits then
    meteredError price.metric ": includedUnits cannot be negative"
  else
    match price.model with
    | .perUnit =>
      if ∃ unitPrice ∈ price.unitPrice, 0 ≤ unitPrice then none
      else meteredError price.metric ": per_unit pricing requires a non-negative unitPrice"
    | .package =>
      if ¬ ∃ packageSize ∈ price.packageSize, isInteger packageSize = true ∧ 0 < packageSize then
        meteredError price.metric ": packageSize must be a positive integer"
      else if ¬ ∃ packagePrice ∈ price.packagePrice, 0 ≤ packagePrice then
        meteredError price.metric ": packagePrice cannot be negative"
      else none
    | .graduated | .volume => validateTiers price.metric price.tiers

def applyReading (reading : Option MeterReading) (quantity : ℚ) : MeterReading :=
  match reading with
  | none => { sum := quantity, max := quantity, last := quantity, count := 1 }
  | some reading =>
    { sum := reading.sum + quantity, max := max reading.max quantity, last := quantity,
      count := reading.count + 1 }

def aggregateReading (reading : Option MeterReading) (aggregation : MeterAggregation) : ℚ :=
  match reading, aggregation with
  | none, _ => 0
  | some reading, .sum => reading.sum
  | some reading, .max => reading.max
  | some reading, .last => reading.last

/-- The loop of `priceGraduated`. -/
def priceGraduatedFrom (remaining cursor amount : ℚ) : List MeterTier → ℚ
  | [] => amount
  | tier :: rest =>
    if remaining ≤ 0 then amount
    else
      let span := match tier.upTo with
        | none => remaining
        | some upTo => min remaining (upTo - cursor)
      if span ≤ 0 then priceGraduatedFrom remaining cursor amount rest
      else priceGraduatedFrom (remaining - span) (cursor + span)
        (amount + (span * tier.unitPrice + tier.flatFee.getD 0)) rest

def priceGraduated (tiers : List MeterTier) (units : ℚ) : ℚ := priceGraduatedFrom units 0 0 tiers

def priceVolume (tiers : List MeterTier) (units : ℚ) : ℚ :=
  let reached := tiers.find? fun t => t.upTo.all fun upTo => decide (units ≤ upTo)
  match reached.or tiers.getLast? with
  | none => 0  -- no accepted price is without tiers
  | some tier => units * tier.unitPrice + tier.flatFee.getD 0

def meteredAmount (price : MeteredPrice) (billableUnits : ℚ) : ℚ :=
  if 0 < billableUnits then
    match price.model with
    | .perUnit => billableUnits * price.unitPrice.getD 0
    | .package => (billableUnits / price.packageSize.getD 1).ceil * price.packagePrice.getD 0
    | .graduated => priceGraduated (price.tiers.getD []) billableUnits
    | .volume => priceVolume (price.tiers.getD []) billableUnits
  else 0

def priceMeteredUsage (price : MeteredPrice) (quantity : ℚ) : MeterCharge :=
  let billableUnits := max 0 (quantity - price.includedUnits)
  let name := price.displayName.getD price.metric
  { metric := price.metric, description := s!"Metered usage — {name}",
    aggregation := price.aggregation, model := price.model, quantity,
    includedUnits := price.includedUnits, billableUnits,
    amount := roundMoney (meteredAmount price billableUnits) 2 }

/-! ## Usage -/

/-- The loop of `priceOverage`, and what is left after the last tier. -/
def priceOverageFrom (plan : BillingPlan) (remaining cursor amount : ℚ) : List PricingTier → ℚ
  | [] => if 0 < remaining then amount + remaining * plan.overageUnitPrice else amount
  | tier :: rest =>
    if remaining ≤ 0 then amount
    else if tier.upTo ≤ cursor then priceOverageFrom plan remaining cursor amount rest
    else
      let span := min remaining (tier.upTo - cursor)
      priceOverageFrom plan (remaining - span) (cursor + span) (amount + span * tier.unitPrice) rest

def priceOverage (plan : BillingPlan) (overageUnits : ℚ) : ℚ :=
  if overageUnits ≤ 0 then 0
  else
    match plan.tiers with
    | none | some [] => roundMoney (overageUnits * plan.overageUnitPrice) 2
    | some tiers => roundMoney (priceOverageFrom plan overageUnits plan.includedUnits 0 tiers) 2

structure UsageCharges where
  totalUnits : ℚ
  includedUnits : ℚ
  overageUnits : ℚ
  usageAmount : ℚ
  meters : Option (List MeterCharge)
  lineItems : List InvoiceLineItem

def meterLineItem (m : MeterCharge) : InvoiceLineItem :=
  { description := .metered m.description, quantity := m.billableUnits,
    unitPrice := roundMoney (m.amount / m.billableUnits) 6, amount := m.amount }

def meteredCharges (subscription : Subscription) (meters : List MeteredPrice) : UsageCharges :=
  let meters := meters.map fun meter =>
    priceMeteredUsage meter
      (aggregateReading (subscription.meterReadings.lookup meter.metric) meter.aggregation)
  { totalUnits := (meters.map (·.quantity)).sum
    includedUnits := (meters.map (·.includedUnits)).sum
    overageUnits := (meters.map (·.billableUnits)).sum
    usageAmount := roundMoney (meters.map (·.amount)).sum 2
    meters := some meters
    lineItems := (meters.filter (0 < ·.amount)).map meterLineItem }

def overageCharges (subscription : Subscription) (plan : BillingPlan) : UsageCharges :=
  let totalUnits := (subscription.usage.map (·.2)).sum
  let overageUnits := max 0 (totalUnits - plan.includedUnits)
  let usageAmount := priceOverage plan overageUnits
  { totalUnits, includedUnits := plan.includedUnits, overageUnits, usageAmount, meters := none
    lineItems := if 0 < overageUnits then
      [{ description := .overage, quantity := overageUnits,
         unitPrice := roundMoney (usageAmount / overageUnits) 6, amount := usageAmount }] else [] }

def computeUsageCharges (subscription : Subscription) (plan : BillingPlan) : UsageCharges :=
  match plan.meters with
  | none | some [] => overageCharges subscription plan
  | some meters => meteredCharges subscription meters

/-! ## Proration -/

def positiveLength (periodStart periodEnd : Int) : Except Failure Unit :=
  if 0 < periodEnd - periodStart then .ok ()
  else .error ⟨"Billing period must have a positive length", 500, "RANGE_ERROR"⟩

def remainingFraction (periodStart periodEnd time : Int) : ℚ :=
  ((periodEnd - min (max time periodStart) periodEnd : Int) : ℚ) / (periodEnd - periodStart : Int)

def quoteProration (currentPrice newPrice : ℚ) (periodStart periodEnd changeAt : Int) :
    Except Failure ProrationQuote := do
  positiveLength periodStart periodEnd
  let fractionRemaining := remainingFraction periodStart periodEnd changeAt
  let unusedCredit := roundMoney (currentPrice * fractionRemaining) 2
  let remainingCharge := roundMoney (newPrice * fractionRemaining) 2
  return { fractionElapsed := roundMoney (1 - fractionRemaining) 6
           fractionRemaining := roundMoney fractionRemaining 6
           unusedCredit, remainingCharge
           net := roundMoney (remainingCharge - unusedCredit) 2 }

def byStart (segments : List PlanSegment) : List PlanSegment :=
  segments.insertionSort fun a b => a.startedAt ≤ b.startedAt

/-- The share of a segment that runs until `nextStart`. -/
def shareOf (periodStart periodEnd untilMs nextStart : Int) (segment : PlanSegment) :
    SegmentShare :=
  let start := max segment.startedAt periodStart
  let stop := min (min nextStart untilMs) periodEnd
  { planId := segment.planId, startedAt := start, endedAt := max stop start
    fraction := ((max 0 (stop - start) : Int) : ℚ) / (periodEnd - periodStart : Int) }

/-- Segments in the order of their starts; each one runs until the next segment starts. -/
def sharesOf (periodStart periodEnd untilMs : Int) : List PlanSegment → List SegmentShare
  | [] => []
  | segment :: rest =>
    let nextStart := (rest.head?.map (·.startedAt)).getD untilMs
    shareOf periodStart periodEnd untilMs nextStart segment ::
      sharesOf periodStart periodEnd untilMs rest

def segmentShares (segments : List PlanSegment) (periodStart periodEnd untilMs : Int) :
    Except Failure (List SegmentShare) := do
  positiveLength periodStart periodEnd
  return (sharesOf periodStart periodEnd untilMs (byStart segments)).filter (0 < ·.fraction)

/-! ## Promo codes -/

def PromoCodePattern (code : String) : Prop :=
  3 ≤ code.length ∧ code.length ≤ 40 ∧
    ∀ c ∈ code.toList, c.isUpper = true ∨ c.isDigit = true ∨ c = '_' ∨ c = '-'

-- the characters of the code are looked at, and not all characters that there are
instance (code : String) : Decidable (PromoCodePattern code) :=
  have := List.decidableBAll
    (fun c : Char => c.isUpper = true ∨ c.isDigit = true ∨ c = '_' ∨ c = '-') code.toList
  inferInstanceAs (Decidable (_ ∧ _ ∧ _))

/-- What the host makes of a text, and how it writes a number. -/
structure Host where
  toUpperCase : String → String
  formatNumber : ℚ → String

variable (host : Host)

def normalizeCode (code : String) : String := host.toUpperCase (trim code)

def discountTypeError (input : PromoCodeInput) : Option String :=
  match input.discountType with
  | .percent =>
    if ¬ ∃ percentOff ∈ input.percentOff, 0 < percentOff ∧ percentOff ≤ 100 then
      some "percentOff must be greater than 0 and at most 100"
    else if input.amountOff ≠ none then
      some "amountOff cannot be combined with a percent discount"
    else none
  | .fixed =>
    if ¬ ∃ amountOff ∈ input.amountOff, 0 < amountOff then some "amountOff must be greater than 0"
    else if input.currency.getD "" = "" then
      some "currency is required for a fixed amount discount"
    else if input.percentOff ≠ none then
      some "percentOff cannot be combined with a fixed discount"
    else none

def durationError (input : PromoCodeInput) : Option String :=
  if input.duration.getD .once = .repeating then
    if ¬ ∃ periods ∈ input.durationInPeriods, isInteger periods = true ∧ 0 < periods then
      some "durationInPeriods must be a positive integer for a repeating discount"
    else none
  else if input.durationInPeriods ≠ none then
    some "durationInPeriods is only valid for a repeating discount"
  else none

def NotPositiveInteger (value : Option ℚ) : Prop :=
  ∃ n ∈ value, ¬ (isInteger n = true ∧ 0 < n)

instance (value : Option ℚ) : Decidable (NotPositiveInteger value) :=
  inferInstanceAs (Decidable (∃ n ∈ value, ¬ (isInteger n = true ∧ 0 < n)))

def limitsError (input : PromoCodeInput) : Option String :=
  if NotPositiveInteger input.maxRedemptions then some "maxRedemptions must be a positive integer"
  else if NotPositiveInteger input.perCustomerLimit then
    some "perCustomerLimit must be a positive integer"
  else if ∃ amount ∈ input.minimumAmount, ¬ 0 ≤ amount then
    some "minimumAmount cannot be negative"
  else none

def ParsedDate.time? : ParsedDate → Option Int
  | .invalid => none
  | .at time => some time

def datesError (input : PromoCodeInput) : Option String :=
  if input.startsAt = some .invalid then some "startsAt must be a valid date"
  else if input.expiresAt = some .invalid then some "expiresAt must be a valid date"
  else if ∃ startsAt ∈ input.startsAt.bind (·.time?), ∃ expiresAt ∈ input.expiresAt.bind (·.time?),
      expiresAt ≤ startsAt then
    some "expiresAt must be after startsAt"
  else none

def validatePromoCodeInput (input : PromoCodeInput) : Option String :=
  if ¬ PromoCodePattern (normalizeCode host input.code) then
    some "code must be 3-40 characters of letters, digits, \"-\" or \"_\""
  else
    (discountTypeError input).or ((durationError input).or ((limitsError input).or
      (datesError input)))

structure RedemptionContext where
  now : Int
  merchantId : MerchantId
  planId : PlanId
  currency : String
  planPrice : ℚ
  customerRedemptions : Nat

def redemptionError (promo : PromoCode) (ctx : RedemptionContext) : Option String :=
  if promo.active = false then some "Promo code is inactive"
  else if ∃ startsAt ∈ promo.startsAt, ctx.now < startsAt then some "Promo code is not yet valid"
  else if ∃ expiresAt ∈ promo.expiresAt, expiresAt ≤ ctx.now then some "Promo code has expired"
  else if ∃ limit ∈ promo.maxRedemptions, limit ≤ promo.timesRedeemed then
    some "Promo code has reached its redemption limit"
  else if promo.perCustomerLimit ≤ ctx.customerRedemptions then
    some "Customer has already redeemed this promo code"
  else if promo.merchantId.getD "" ≠ "" ∧ promo.merchantId ≠ some ctx.merchantId then
    some "Promo code is not valid for this merchant"
  else if promo.appliesToPlanIds.getD [] ≠ [] ∧ ctx.planId ∉ promo.appliesToPlanIds.getD [] then
    some "Promo code does not apply to this plan"
  else if promo.discountType = .fixed ∧ promo.currency ≠ some ctx.currency then
    let currency := promo.currency.getD "undefined"
    let planCurrency := ctx.currency
    some s!"Promo code currency {currency} does not match plan currency {planCurrency}"
  else
    match promo.minimumAmount with
    | none => none
    | some amount =>
      let minimum := host.formatNumber amount
      if ctx.planPrice < amount then
        some s!"Plan price is below the promo code minimum of {minimum}"
      else none

def toAppliedDiscount (promo : PromoCode) (redemption : Nat) : AppliedDiscount :=
  { promoCodeId := promo.id, code := promo.code, discountType := promo.discountType,
    percentOff := promo.percentOff, amountOff := promo.amountOff, currency := promo.currency,
    duration := promo.duration
    remainingPeriods := match promo.duration with
      | .once => some 1
      | .repeating => promo.durationInPeriods
      | .forever => none
    redemption }

def discountAmount (discount : AppliedDiscount) (subtotal : ℚ) : ℚ :=
  if subtotal ≤ 0 then 0
  else
    let raw := match discount.discountType with
      | .percent => subtotal * (discount.percentOff.getD 0 / 100)
      | .fixed => discount.amountOff.getD 0
    roundMoney (min subtotal (max 0 raw)) 2

def isDiscountActive (discount : AppliedDiscount) : Bool :=
  discount.duration = .forever ∨ 0 < discount.remainingPeriods.getD 0

/-- A period of a discount has ended. -/
def consumeDiscountPeriod (discount : AppliedDiscount) : Option AppliedDiscount :=
  if discount.duration = .forever then some discount
  else
    let remainingPeriods := discount.remainingPeriods.getD 0 - 1
    if remainingPeriods ≤ 0 then none
    else some { discount with remainingPeriods := some remainingPeriods }

/-! ## Dunning -/

def defaultDunningConfig : DunningConfig :=
  { retryScheduleDays := [1, 3, 5, 7], finalAction := .cancelSubscription }

def maxRetryAttempts : Nat := 10

def maxRetryWindowDays : ℚ := 60

def retryDaysError (previous : ℚ) : List ℚ → Option String
  | [] => none
  | day :: rest =>
    if ¬ 0 < day then some "retryScheduleDays entries must be positive numbers of days"
    else if day ≤ previous then some "retryScheduleDays must be strictly ascending"
    else if maxRetryWindowDays < day then
      some "retryScheduleDays cannot extend beyond 60 days"
    else retryDaysError day rest

def validateRetrySchedule (days : List ℚ) : Option String :=
  if days = [] then some "retryScheduleDays must contain at least one retry"
  else if maxRetryAttempts < days.length then
    some "retryScheduleDays supports at most 10 retries"
  else retryDaysError 0 days

/-- A time that is not whole loses its fraction. -/
def timeClip (time : ℚ) : Int := if 0 ≤ time then time.floor else time.ceil

def nextRetryAt (startedAt : Int) (scheduleDays : List ℚ) (retriesAttempted : Nat) : Option Int :=
  (scheduleDays[retriesAttempted]?).map fun offset => timeClip (startedAt + offset * dayMs)

end Billing
