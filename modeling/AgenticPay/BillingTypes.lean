import Mathlib.Data.Rat.Floor

/-!
# Subscription billing: data

Amounts and quantities are exact numbers, times are milliseconds, and a date that is given as a text
comes as what parsing makes of it. Left out is what is kept and read nowhere (dates of creation,
notes, feature lists).
-/
namespace Billing

abbrev PlanId := String
abbrev SubscriptionId := String
abbrev InvoiceId := String
abbrev MerchantId := String
abbrev CustomerId := String
abbrev EventId := String
abbrev PromoCodeId := String

/-- An error with the status and the code that `BaseService` gives it. -/
structure Failure where
  message : String
  statusCode : Nat
  code : String
  deriving DecidableEq, Repr

def validateAs (condition : Prop) [Decidable condition] (message code : String) :
    Except Failure Unit :=
  if condition then .ok () else .error ⟨message, 400, code⟩

def validate (condition : Prop) [Decidable condition] (message : String) : Except Failure Unit :=
  validateAs condition message "VALIDATION_ERROR"

theorem validate_ok {condition : Prop} [Decidable condition] {message : String} {u : Unit} :
    validate condition message = .ok u ↔ condition := by
  rw [validate, validateAs]
  split_ifs with h <;> simp [h]

def notFound (resource id : String) : Failure := ⟨s!"{resource} not found: {id}", 404, "NOT_FOUND"⟩

def conflict (message : String) : Failure := ⟨message, 409, "CONFLICT"⟩

def forbidden (message : String) : Failure := ⟨message, 403, "FORBIDDEN"⟩

/-- `validate` with what a check has found. -/
def validateNone : Option String → Except Failure Unit
  | none => .ok ()
  | some error => .error ⟨error, 400, "VALIDATION_ERROR"⟩

/-- The characters that `trim` takes away. -/
def isWhiteSpace (c : Char) : Bool :=
  (9 ≤ c.toNat && c.toNat ≤ 13) || (0x2000 ≤ c.toNat && c.toNat ≤ 0x200A) ||
    c.toNat ∈ [0x20, 0xA0, 0x1680, 0x2028, 0x2029, 0x202F, 0x205F, 0x3000, 0xFEFF]

def trim (text : String) : String :=
  String.ofList (((text.toList.dropWhile isWhiteSpace).reverse.dropWhile isWhiteSpace).reverse)

/-! ## Money -/

def epsilon : ℚ := 1 / 4503599627370496

/-- Rounding half up. -/
def roundMoney (value : ℚ) (decimals : Nat) : ℚ :=
  (((value + epsilon) * 10 ^ decimals + 1 / 2).floor : ℚ) / 10 ^ decimals

def isInteger (value : ℚ) : Bool := value.den == 1

def dayMs : Int := 24 * 60 * 60 * 1000

/-! ## Metered prices -/

inductive MeterAggregation where
  | sum | max | last
  deriving DecidableEq, Repr

inductive MeteredPricingModel where
  | perUnit | package | graduated | volume
  deriving DecidableEq, Repr

structure MeterTier where
  upTo : Option ℚ
  unitPrice : ℚ
  flatFee : Option ℚ
  deriving DecidableEq

structure MeteredPriceInput where
  metric : String
  displayName : Option String
  aggregation : Option MeterAggregation
  model : MeteredPricingModel
  includedUnits : Option ℚ
  unitPrice : Option ℚ
  packageSize : Option ℚ
  packagePrice : Option ℚ
  tiers : Option (List MeterTier)

structure MeteredPrice where
  metric : String
  displayName : Option String
  aggregation : MeterAggregation
  model : MeteredPricingModel
  includedUnits : ℚ
  unitPrice : Option ℚ
  packageSize : Option ℚ
  packagePrice : Option ℚ
  tiers : Option (List MeterTier)
  deriving DecidableEq

structure MeterReading where
  sum : ℚ
  max : ℚ
  last : ℚ
  count : Nat
  deriving DecidableEq

structure MeterCharge where
  metric : String
  description : String
  aggregation : MeterAggregation
  model : MeteredPricingModel
  quantity : ℚ
  includedUnits : ℚ
  billableUnits : ℚ
  amount : ℚ
  deriving DecidableEq

/-! ## Plans -/

inductive BillingInterval where
  | monthly | annual
  deriving DecidableEq, Repr

def intervalDays : BillingInterval → Int
  | .monthly => 30
  | .annual => 365

structure PricingTier where
  upTo : ℚ
  unitPrice : ℚ
  deriving DecidableEq

structure BillingPlan where
  id : PlanId
  name : String
  currency : String
  basePrice : ℚ
  includedUnits : ℚ
  overageUnitPrice : ℚ
  tiers : Option (List PricingTier)
  meters : Option (List MeteredPrice)
  billingInterval : BillingInterval
  deriving DecidableEq

structure PlanInput where
  id : Option PlanId
  name : String
  currency : Option String
  basePrice : ℚ
  includedUnits : Option ℚ
  overageUnitPrice : Option ℚ
  tiers : Option (List PricingTier)
  meters : Option (List MeteredPriceInput)
  billingInterval : Option BillingInterval

/-! ## Proration -/

inductive ProrationBehavior where
  | createProrations | alwaysInvoice | none
  deriving DecidableEq, Repr

structure PlanSegment where
  planId : PlanId
  startedAt : Int
  deriving DecidableEq

structure SegmentShare extends PlanSegment where
  endedAt : Int
  fraction : ℚ
  deriving DecidableEq

structure ProrationQuote where
  fractionElapsed : ℚ
  fractionRemaining : ℚ
  unusedCredit : ℚ
  remainingCharge : ℚ
  net : ℚ
  deriving DecidableEq

/-! ## Promo codes -/

inductive DiscountType where
  | percent | fixed
  deriving DecidableEq, Repr

inductive DiscountDuration where
  | once | repeating | forever
  deriving DecidableEq, Repr

/-- A text that is read as a date. -/
inductive ParsedDate where
  | invalid
  | at (time : Int)
  deriving DecidableEq

structure PromoCodeInput where
  code : String
  merchantId : Option MerchantId
  discountType : DiscountType
  percentOff : Option ℚ
  amountOff : Option ℚ
  currency : Option String
  duration : Option DiscountDuration
  durationInPeriods : Option ℚ
  maxRedemptions : Option ℚ
  perCustomerLimit : Option ℚ
  appliesToPlanIds : Option (List PlanId)
  minimumAmount : Option ℚ
  startsAt : Option ParsedDate
  expiresAt : Option ParsedDate

structure PromoCode where
  id : PromoCodeId
  code : String
  merchantId : Option MerchantId
  discountType : DiscountType
  percentOff : Option ℚ
  amountOff : Option ℚ
  currency : Option String
  duration : DiscountDuration
  durationInPeriods : Option ℚ
  maxRedemptions : Option ℚ
  perCustomerLimit : ℚ
  appliesToPlanIds : Option (List PlanId)
  minimumAmount : Option ℚ
  startsAt : Option Int
  expiresAt : Option Int
  active : Bool
  timesRedeemed : Nat
  deriving DecidableEq

/-- A discount, with the place of its redemption among all, which no function reads. -/
structure AppliedDiscount where
  promoCodeId : PromoCodeId
  code : String
  discountType : DiscountType
  percentOff : Option ℚ
  amountOff : Option ℚ
  currency : Option String
  duration : DiscountDuration
  remainingPeriods : Option ℚ
  redemption : Nat
  deriving DecidableEq

structure PromoRedemption where
  promoCodeId : PromoCodeId
  customerId : CustomerId
  subscriptionId : SubscriptionId
  deriving DecidableEq

/-! ## Subscriptions and invoices -/

inductive SubscriptionStatus where
  | trialing | active | pastDue | cancelled
  deriving DecidableEq, Repr

structure UsageEvent where
  id : EventId
  subscriptionId : SubscriptionId
  metric : String
  quantity : ℚ
  idempotencyKey : Option String
  deriving DecidableEq

/-- A subscription, with the events behind its counters, which no function reads. -/
structure Subscription where
  id : SubscriptionId
  merchantId : MerchantId
  customerId : CustomerId
  planId : PlanId
  status : SubscriptionStatus
  currentPeriodStart : Int
  currentPeriodEnd : Int
  trialEndsAt : Option Int
  cancelAtPeriodEnd : Bool
  usage : List (String × ℚ)
  meterReadings : List (String × MeterReading)
  planSegments : List PlanSegment
  discount : Option AppliedDiscount
  counted : List UsageEvent
  deriving DecidableEq

inductive DunningFinalAction where
  | cancelSubscription | markUncollectible
  deriving DecidableEq, Repr

inductive DunningStatus where
  | retrying | recovered | exhausted | stopped
  deriving DecidableEq, Repr

structure DunningConfig where
  retryScheduleDays : List ℚ
  finalAction : DunningFinalAction
  deriving DecidableEq

structure DunningAttempt where
  attempt : Nat
  attemptedAt : Int
  success : Bool
  deriving DecidableEq

structure DunningState where
  status : DunningStatus
  startedAt : Int
  retryScheduleDays : List ℚ
  finalAction : DunningFinalAction
  retriesAttempted : Nat
  nextRetryAt : Option Int
  history : List DunningAttempt
  deriving DecidableEq

/-- What a line item is for. -/
inductive Description where
  | basePlan (name : String)
  | prorated (name : String) (percent : ℚ)
  | overage
  | metered (text : String)
  | discount (code : String)
  deriving DecidableEq

structure InvoiceLineItem where
  description : Description
  quantity : ℚ
  unitPrice : ℚ
  amount : ℚ
  deriving DecidableEq

inductive InvoiceStatus where
  | draft | opened | paid | void | uncollectible
  deriving DecidableEq, Repr

inductive InvoiceKind where
  | period | planChange
  deriving DecidableEq, Repr

/-- An invoice, with the shares behind its base price, the events behind its usage charge and the
redemption behind its discount, which no function reads. -/
structure Invoice where
  id : InvoiceId
  kind : InvoiceKind
  subscriptionId : SubscriptionId
  merchantId : MerchantId
  customerId : CustomerId
  planId : PlanId
  periodStart : Int
  periodEnd : Int
  currency : String
  status : InvoiceStatus
  lineItems : List InvoiceLineItem
  baseAmount : ℚ
  usageAmount : ℚ
  subtotal : ℚ
  discountAmount : ℚ
  discountCode : Option String
  total : ℚ
  dunning : Option DunningState
  shares : List SegmentShare
  counted : List UsageEvent
  redemption : Option Nat
  deriving DecidableEq

end Billing
