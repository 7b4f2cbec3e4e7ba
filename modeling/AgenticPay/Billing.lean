import AgenticPay.BillingPricing
import AgenticPay.Transaction
import Mathlib.Logic.Function.Basic

/-!
# Subscription billing: the service

Plans, subscriptions, metered usage, invoices, promo codes and dunning. A call that throws changes
nothing. The ids that are drawn for what a call creates come with the call, as does the time.
-/
namespace Billing

structure State where
  plans : PlanId → Option BillingPlan
  subscriptions : SubscriptionId → Option Subscription
  usageEvents : List UsageEvent
  usageIdempotency : String → Option EventId
  invoices : List Invoice
  promoCodes : PromoCodeId → Option PromoCode
  promoCodeIds : String → Option PromoCodeId
  promoRedemptions : List PromoRedemption
  dunningConfigs : MerchantId → Option DunningConfig

structure Env where
  now : Int
  uuid : String

def orElse {α : Type} (value : Option α) (failure : Failure) : Except Failure α :=
  match value with
  | none => .error failure
  | some value => .ok value

def State.setSubscription (s : State) (subscription : Subscription) : State :=
  { s with subscriptions :=
      Function.update s.subscriptions subscription.id (some subscription) }

def State.setPromoCode (s : State) (promo : PromoCode) : State :=
  { s with promoCodes := Function.update s.promoCodes promo.id (some promo) }

/-- `set` of an entry that is there keeps its place. -/
def putEntry {α : Type} (entries : List (String × α)) (key : String) (value : α) :
    List (String × α) :=
  if entries.any (·.1 = key) then entries.map fun e => if e.1 = key then (key, value) else e
  else entries ++ [(key, value)]

def State.invoice? (s : State) (id : InvoiceId) : Option Invoice := s.invoices.find? (·.id = id)

def State.setInvoice (s : State) (invoice : Invoice) : State :=
  { s with invoices := s.invoices.map fun i => if i.id = invoice.id then invoice else i }

def findSubscription (s : State) (id : SubscriptionId) : Except Failure Subscription :=
  orElse (s.subscriptions id) (notFound "Subscription" id)

def findPlan (s : State) (id : PlanId) : Except Failure BillingPlan :=
  orElse (s.plans id) (notFound "Billing plan" id)

/-! ## Plans -/

/-- The loop over the tiers of a plan. -/
def checkTiers (previous : ℚ) : List PricingTier → Except Failure Unit
  | [] => .ok ()
  | tier :: rest => do
    validate (0 ≤ tier.upTo) "Tier upTo must be non-negative"
    validate (0 ≤ tier.unitPrice) "Tier unitPrice cannot be negative"
    validate (previous < tier.upTo) "Tiers must be sorted by ascending upTo"
    checkTiers tier.upTo rest

def validateTierList : Option (List PricingTier) → Except Failure Unit
  | none => .ok ()
  | some tiers => do
    validate (tiers ≠ []) "tiers cannot be empty"
    checkTiers (-1) tiers

def withDefaults (meter : MeteredPriceInput) : MeteredPrice :=
  { metric := trim meter.metric, displayName := meter.displayName,
    aggregation := meter.aggregation.getD .sum, model := meter.model,
    includedUnits := meter.includedUnits.getD 0, unitPrice := meter.unitPrice,
    packageSize := meter.packageSize, packagePrice := meter.packagePrice, tiers := meter.tiers }

/-- The loop over the meters of a plan. -/
def checkMeters (seen : List String) : List MeteredPrice → Except Failure Unit
  | [] => .ok ()
  | meter :: rest => do
    validateNone (validateMeteredPrice meter)
    let metric := meter.metric
    validate (meter.metric ∉ seen) s!"Duplicate meter for metric {metric}"
    checkMeters (meter.metric :: seen) rest

def planMeters : Option (List MeteredPriceInput) → Except Failure (Option (List MeteredPrice))
  | none => .ok none
  | some meters => do
    validate (meters ≠ []) "meters cannot be empty"
    checkMeters [] (meters.map withDefaults)
    return some (meters.map withDefaults)

variable (host : Host)

def createPlan (env : Env) (input : PlanInput) (s : State) :
    Except Failure (BillingPlan × State) := do
  validate (trim input.name ≠ "") "Plan name is required"
  validate (0 ≤ input.basePrice) "basePrice cannot be negative"
  validate (0 ≤ input.includedUnits.getD 0) "includedUnits cannot be negative"
  validate (0 ≤ input.overageUnitPrice.getD 0) "overageUnitPrice cannot be negative"
  validateTierList input.tiers
  let meters ← planMeters input.meters
  let plan : BillingPlan :=
    { id := input.id.getD ("plan_" ++ env.uuid)
      name := trim input.name
      currency := host.toUpperCase (input.currency.getD "USD")
      basePrice := roundMoney input.basePrice 2
      includedUnits := input.includedUnits.getD 0
      overageUnitPrice := input.overageUnitPrice.getD 0
      tiers := input.tiers.map (·.insertionSort fun a b => a.upTo ≤ b.upTo)
      meters
      billingInterval := input.billingInterval.getD .monthly }
  return (plan, { s with plans := Function.update s.plans plan.id (some plan) })

/-! ## Promo codes -/

def findPromoPlans (s : State) : List PlanId → Except Failure Unit
  | [] => .ok ()
  | planId :: rest => do
    let _ ← findPlan s planId
    findPromoPlans s rest

def newPromoCode (env : Env) (input : PromoCodeInput) : PromoCode :=
  { id := "promo_" ++ env.uuid, code := normalizeCode host input.code
    merchantId := input.merchantId, discountType := input.discountType
    percentOff := input.percentOff, amountOff := input.amountOff.map (roundMoney · 2)
    currency := input.currency.map host.toUpperCase, duration := input.duration.getD .once
    durationInPeriods := input.durationInPeriods, maxRedemptions := input.maxRedemptions
    perCustomerLimit := input.perCustomerLimit.getD 1
    appliesToPlanIds := input.appliesToPlanIds, minimumAmount := input.minimumAmount
    startsAt := input.startsAt.bind (·.time?), expiresAt := input.expiresAt.bind (·.time?)
    active := true, timesRedeemed := 0 }

def storePromoCode (s : State) (promo : PromoCode) : State :=
  { s.setPromoCode promo with
    promoCodeIds := Function.update s.promoCodeIds promo.code (some promo.id) }

def createPromoCode (env : Env) (input : PromoCodeInput) (s : State) :
    Except Failure (PromoCode × State) := do
  validateNone (validatePromoCodeInput host input)
  let code := normalizeCode host input.code
  if (s.promoCodeIds code).isSome then .error (conflict s!"Promo code {code} already exists")
  else
    findPromoPlans s (input.appliesToPlanIds.getD [])
    let promo := newPromoCode host env input
    return (promo, storePromoCode s promo)

def getPromoCode (s : State) (idOrCode : String) : Option PromoCode :=
  (s.promoCodes idOrCode).or
    ((s.promoCodeIds (normalizeCode host idOrCode)).bind s.promoCodes)

def deactivatePromoCode (idOrCode : String) (s : State) :
    Except Failure (PromoCode × State) := do
  let promo ← orElse (getPromoCode host s idOrCode) (notFound "Promo code" idOrCode)
  let promo := { promo with active := false }
  return (promo, s.setPromoCode promo)

def redemptionContext (env : Env) (s : State) (promo : PromoCode) (merchantId : MerchantId)
    (customerId : CustomerId) (plan : BillingPlan) : RedemptionContext :=
  { now := env.now, merchantId, planId := plan.id, currency := plan.currency,
    planPrice := plan.basePrice
    customerRedemptions := (s.promoRedemptions.filter fun r =>
      r.promoCodeId = promo.id ∧ r.customerId = customerId).length }

def requireRedeemable (env : Env) (s : State) (code : String) (merchantId : MerchantId)
    (customerId : CustomerId) (plan : BillingPlan) : Except Failure PromoCode := do
  let promo ← orElse (getPromoCode host s code)
    (notFound "Promo code" (normalizeCode host code))
  match redemptionError host promo (redemptionContext env s promo merchantId customerId plan) with
  | none => return promo
  | some reason => .error ⟨reason, 400, "PROMO_CODE_INVALID"⟩

/-- The promo code that a subscription starts with. -/
def redeemableAtStart (env : Env) (s : State) (promoCode : Option String)
    (merchantId : MerchantId) (customerId : CustomerId) (plan : BillingPlan) :
    Except Failure (Option PromoCode) :=
  if promoCode.getD "" = "" then .ok none
  else (requireRedeemable host env s (promoCode.getD "") merchantId customerId plan).map some

def redeem (subscription : Subscription) (promo : PromoCode) (s : State) : Subscription × State :=
  let subscription := { subscription with
    discount := some (toAppliedDiscount promo s.promoRedemptions.length) }
  let promo := { promo with timesRedeemed := promo.timesRedeemed + 1 }
  (subscription, { (s.setSubscription subscription).setPromoCode promo with
    promoRedemptions := s.promoRedemptions ++
      [⟨promo.id, subscription.customerId, subscription.id⟩] })

def applyPromoCode (env : Env) (subscriptionId : SubscriptionId) (code : String) (s : State) :
    Except Failure (Subscription × State) := do
  let subscription ← findSubscription s subscriptionId
  if subscription.status = .cancelled then
    .error (conflict "Cannot apply a promo code to a cancelled subscription")
  else if subscription.discount.any isDiscountActive = true then
    .error (conflict "Subscription already has an active discount; remove it first")
  else
    let plan ← findPlan s subscription.planId
    let promo ← requireRedeemable host env s code subscription.merchantId
      subscription.customerId plan
    return redeem subscription promo s

def removeDiscount (subscriptionId : SubscriptionId) (s : State) :
    Except Failure (Subscription × State) := do
  let subscription ← findSubscription s subscriptionId
  if subscription.discount = none then
    .error (notFound "Discount on subscription" subscriptionId)
  else
    let subscription := { subscription with discount := none }
    return (subscription, s.setSubscription subscription)

/-! ## Subscriptions -/

def newSubscription (env : Env) (merchantId : MerchantId) (customerId : CustomerId)
    (plan : BillingPlan) (trialDays : ℚ) : Subscription :=
  { id := "sub_" ++ env.uuid, merchantId, customerId, planId := plan.id
    status := if 0 < trialDays then .trialing else .active
    currentPeriodStart := env.now
    currentPeriodEnd := env.now + intervalDays plan.billingInterval * dayMs
    trialEndsAt := if 0 < trialDays then some (timeClip (env.now + trialDays * dayMs)) else none
    cancelAtPeriodEnd := false, usage := [], meterReadings := []
    planSegments := [⟨plan.id, env.now⟩], discount := none, counted := [] }

def subscribe (env : Env) (merchantId : MerchantId) (customerId : CustomerId) (planId : PlanId)
    (trialDays : Option ℚ) (promoCode : Option String) (s : State) :
    Except Failure (Subscription × State) := do
  validate (merchantId ≠ "") "merchantId is required"
  validate (customerId ≠ "") "customerId is required"
  let plan ← findPlan s planId
  let trialDays := trialDays.getD 0
  validate (0 ≤ trialDays) "trialDays cannot be negative"
  let promo ← redeemableAtStart host env s promoCode merchantId customerId plan
  let subscription := newSubscription env merchantId customerId plan trialDays
  let s := s.setSubscription subscription
  match promo with
  | none => return (subscription, s)
  | some promo => return redeem subscription promo s

def cancelSubscription (id : SubscriptionId) (atPeriodEnd : Option Bool) (s : State) :
    Except Failure (Subscription × State) := do
  let subscription ← findSubscription s id
  if subscription.status = .cancelled then
    .error (conflict "Subscription is already cancelled")
  else
    let atPeriodEnd := atPeriodEnd.getD false
    let subscription := { subscription with
      cancelAtPeriodEnd := atPeriodEnd
      status := if atPeriodEnd = true then subscription.status else .cancelled }
    return (subscription, s.setSubscription subscription)

/-! ## Invoices -/

/-- The line for what a segment of the period costs. -/
def baseLineItem (plan : BillingPlan) (share : SegmentShare) : InvoiceLineItem :=
  if 1 ≤ share.fraction then
    { description := .basePlan plan.name, quantity := 1, unitPrice := plan.basePrice,
      amount := plan.basePrice }
  else
    { description := .prorated plan.name (roundMoney (share.fraction * 100) 2)
      quantity := roundMoney share.fraction 6, unitPrice := plan.basePrice
      amount := roundMoney (plan.basePrice * share.fraction) 2 }

/-- The loop over the shares of the period. -/
def baseLineItems (s : State) : List SegmentShare → Except Failure (List InvoiceLineItem)
  | [] => .ok []
  | share :: rest => do
    let plan ← findPlan s share.planId
    let lineItems ← baseLineItems s rest
    return baseLineItem plan share :: lineItems

def activeDiscount (subscription : Subscription) (subtotal : ℚ) : ℚ :=
  match subscription.discount with
  | none => 0
  | some discount =>
    if isDiscountActive discount = true then discountAmount discount subtotal else 0

def discountLineItems (subscription : Subscription) (discount : ℚ) : List InvoiceLineItem :=
  if 0 < discount then
    [{ description := .discount ((subscription.discount.map (·.code)).getD ""), quantity := 1,
       unitPrice := -discount, amount := -discount }]
  else []

/-- The invoice for the lines of the base price and for the usage. -/
def invoiceOf (env : Env) (subscription : Subscription) (usagePlan : BillingPlan)
    (kind : InvoiceKind) (invoiceEndMs : Int) (shares : List SegmentShare)
    (base : List InvoiceLineItem) : Invoice :=
  let baseAmount := roundMoney (base.map (·.amount)).sum 2
  let usage := computeUsageCharges subscription usagePlan
  let subtotal := roundMoney (baseAmount + usage.usageAmount) 2
  let discount := activeDiscount subscription subtotal
  { id := "inv_" ++ env.uuid, kind, subscriptionId := subscription.id
    merchantId := subscription.merchantId, customerId := subscription.customerId
    planId := usagePlan.id, periodStart := subscription.currentPeriodStart
    periodEnd := invoiceEndMs, currency := usagePlan.currency, status := .opened
    lineItems := base ++ usage.lineItems ++ discountLineItems subscription discount
    baseAmount, usageAmount := usage.usageAmount, subtotal, discountAmount := discount
    discountCode := if 0 < discount then subscription.discount.map (·.code) else none
    total := roundMoney (subtotal - discount) 2, dunning := none, shares
    counted := subscription.counted
    redemption := if 0 < discount then subscription.discount.map (·.redemption) else none }

/-- Base charges cover the plan segments up to `untilMs` (the period end by default). -/
def createInvoice (env : Env) (subscription : Subscription) (usagePlan : BillingPlan)
    (kind : InvoiceKind) (untilMs : Option Int) (s : State) :
    Except Failure (Invoice × State) := do
  let periodEndMs := subscription.currentPeriodEnd
  let invoiceEndMs := min (untilMs.getD periodEndMs) periodEndMs
  let shares ← segmentShares subscription.planSegments subscription.currentPeriodStart periodEndMs
    invoiceEndMs
  let base ← baseLineItems s shares
  let invoice := invoiceOf env subscription usagePlan kind invoiceEndMs shares base
  return (invoice, { s with invoices := s.invoices ++ [invoice] })

def generateInvoice (env : Env) (subscriptionId : SubscriptionId) (s : State) :
    Except Failure (Invoice × State) := do
  let subscription ← findSubscription s subscriptionId
  let plan ← findPlan s subscription.planId
  createInvoice env subscription plan .period none s

/-- The subscription in the period after its current one. -/
def nextPeriod (subscription : Subscription) (plan : BillingPlan) (invoice : Invoice) :
    Subscription :=
  let periodStart := subscription.currentPeriodEnd
  { subscription with
    currentPeriodStart := periodStart
    currentPeriodEnd := periodStart + intervalDays plan.billingInterval * dayMs
    usage := [], meterReadings := [], counted := [], planSegments := [⟨plan.id, periodStart⟩]
    discount := subscription.discount.bind consumeDiscountPeriod
    status :=
      if subscription.cancelAtPeriodEnd = true then .cancelled
      else if subscription.status = .trialing ∧
        ∃ trialEndsAt ∈ subscription.trialEndsAt, trialEndsAt ≤ invoice.periodEnd then .active
      else subscription.status }

def closeBillingPeriod (env : Env) (subscriptionId : SubscriptionId) (s : State) :
    Except Failure ((Invoice × Subscription) × State) := do
  let subscription ← findSubscription s subscriptionId
  let plan ← findPlan s subscription.planId
  let (invoice, s) ← generateInvoice env subscriptionId s
  let subscription := nextPeriod subscription plan invoice
  return ((invoice, subscription), s.setSubscription subscription)

/-! ## Plan changes -/

structure PlanChangePreview extends ProrationQuote where
  subscriptionId : SubscriptionId
  currentPlanId : PlanId
  newPlanId : PlanId
  currency : String
  changeAt : Int
  intervalChange : Bool

structure PlanChangeResult where
  subscription : Subscription
  proration : Option PlanChangePreview
  invoice : Option Invoice

def resolvePlanChange (s : State) (subscriptionId : SubscriptionId) (planId : PlanId) :
    Except Failure (Subscription × BillingPlan × BillingPlan) := do
  let subscription ← findSubscription s subscriptionId
  if subscription.status = .cancelled then
    .error (conflict "Cannot change the plan of a cancelled subscription")
  else
    let currentPlan ← findPlan s subscription.planId
    let newPlan ← findPlan s planId
    if newPlan.id = currentPlan.id then
      .error (conflict "Subscription is already on this plan")
    else
      let currency := currentPlan.currency
      let newCurrency := newPlan.currency
      validate (newPlan.currency = currentPlan.currency)
        s!"Cannot change from a {currency} plan to a {newCurrency} plan"
      return (subscription, currentPlan, newPlan)

/-- The change puts the subscription on another billing interval. -/
def IntervalChange (currentPlan newPlan : BillingPlan) : Prop :=
  currentPlan.billingInterval ≠ newPlan.billingInterval

instance (currentPlan newPlan : BillingPlan) : Decidable (IntervalChange currentPlan newPlan) :=
  inferInstanceAs (Decidable (_ ≠ _))

def buildPlanChangePreview (env : Env) (subscription : Subscription)
    (currentPlan newPlan : BillingPlan) : Except Failure PlanChangePreview := do
  let quote ← quoteProration currentPlan.basePrice newPlan.basePrice
    subscription.currentPeriodStart subscription.currentPeriodEnd env.now
  return { quote with
    subscriptionId := subscription.id, currentPlanId := currentPlan.id, newPlanId := newPlan.id
    currency := currentPlan.currency, changeAt := env.now
    intervalChange := IntervalChange currentPlan newPlan }

/-- `previewPlanChange` changes nothing. -/
def previewPlanChange (env : Env) (s : State) (subscriptionId : SubscriptionId) (planId : PlanId) :
    Except Failure PlanChangePreview := do
  let (subscription, currentPlan, newPlan) ← resolvePlanChange s subscriptionId planId
  buildPlanChangePreview env subscription currentPlan newPlan

/-- Nothing has been consumed during a trial, so the switch is free. -/
def changeTrial (subscription : Subscription) (currentPlan newPlan : BillingPlan) :
    Subscription :=
  { subscription with
    planId := newPlan.id, planSegments := [⟨newPlan.id, subscription.currentPeriodStart⟩]
    currentPeriodEnd :=
      if IntervalChange currentPlan newPlan then
        subscription.currentPeriodStart + intervalDays newPlan.billingInterval * dayMs
      else subscription.currentPeriodEnd }

/-- The subscription after an invoice for what has been used of its current plan. -/
def settleChange (env : Env) (subscription : Subscription) (currentPlan newPlan : BillingPlan) :
    Subscription :=
  let subscription := { subscription with
    planId := newPlan.id, usage := [], meterReadings := [], counted := []
    planSegments := [⟨newPlan.id, env.now⟩] }
  if IntervalChange currentPlan newPlan then
    { subscription with
      currentPeriodStart := env.now
      currentPeriodEnd := env.now + intervalDays newPlan.billingInterval * dayMs
      discount := subscription.discount.bind consumeDiscountPeriod }
  else subscription

def proration (env : Env) (subscription : Subscription) (currentPlan newPlan : BillingPlan)
    (behavior : ProrationBehavior) : Except Failure (Option PlanChangePreview) :=
  if behavior = .none then .ok none
  else (buildPlanChangePreview env subscription currentPlan newPlan).map some

/-- The segments of the current period after a change that is not invoiced yet. -/
def changedSegments (env : Env) (subscription : Subscription) (newPlan : BillingPlan)
    (behavior : ProrationBehavior) : List PlanSegment :=
  if behavior = .createProrations then subscription.planSegments ++ [⟨newPlan.id, env.now⟩]
  else [⟨newPlan.id, subscription.currentPeriodStart⟩]

def changePlan (env : Env) (subscriptionId : SubscriptionId) (planId : PlanId)
    (prorationBehavior : Option ProrationBehavior) (s : State) :
    Except Failure (PlanChangeResult × State) := do
  let behavior := prorationBehavior.getD .createProrations
  let (subscription, currentPlan, newPlan) ← resolvePlanChange s subscriptionId planId
  if subscription.status = .trialing then
    let subscription := changeTrial subscription currentPlan newPlan
    return (⟨subscription, none, none⟩, s.setSubscription subscription)
  else
    validate (¬ (IntervalChange currentPlan newPlan ∧ behavior = .none))
      "Changing billing interval requires proration (create_prorations or always_invoice)"
    let proration ← proration env subscription currentPlan newPlan behavior
    if IntervalChange currentPlan newPlan ∨ behavior = .alwaysInvoice then
      let (invoice, s) ← createInvoice env subscription currentPlan .planChange (some env.now) s
      let subscription := settleChange env subscription currentPlan newPlan
      return (⟨subscription, proration, some invoice⟩, s.setSubscription subscription)
    else
      let subscription := { subscription with
        planId := newPlan.id
        planSegments := changedSegments env subscription newPlan behavior }
      return (⟨subscription, proration, none⟩, s.setSubscription subscription)

/-! ## Metering -/

structure UsageInput where
  subscriptionId : SubscriptionId
  metric : String
  quantity : ℚ
  idempotencyKey : Option String

/-- The event that has been recorded under the key. -/
def recordedEvent (s : State) (idempotencyKey : Option String) : Option UsageEvent :=
  if idempotencyKey.getD "" = "" then none
  else (s.usageIdempotency (idempotencyKey.getD "")).bind fun id =>
    s.usageEvents.find? (·.id = id)

def checkMetered (s : State) (subscription : Subscription) (metric : String) :
    Except Failure Unit :=
  match s.plans subscription.planId with
  | none => .ok ()
  | some plan =>
    match plan.meters with
    | none => .ok ()
    | some meters =>
      let planId := plan.id
      validate (∃ meter ∈ meters, meter.metric = metric)
        s!"Metric {metric} is not metered on plan {planId}"

def addUsage (subscription : Subscription) (event : UsageEvent) : Subscription :=
  { subscription with
    usage := putEntry subscription.usage event.metric
      ((subscription.usage.lookup event.metric).getD 0 + event.quantity)
    meterReadings := putEntry subscription.meterReadings event.metric
      (applyReading (subscription.meterReadings.lookup event.metric) event.quantity)
    counted := subscription.counted ++ [event] }

def storeUsage (s : State) (subscription : Subscription) (event : UsageEvent) : State :=
  { s.setSubscription (addUsage subscription event) with
    usageEvents := s.usageEvents ++ [event]
    usageIdempotency :=
      if event.idempotencyKey.getD "" = "" then s.usageIdempotency
      else Function.update s.usageIdempotency (event.idempotencyKey.getD "") (some event.id) }

def recordUsage (env : Env) (input : UsageInput) (s : State) :
    Except Failure (UsageEvent × State) := do
  validate (trim input.metric ≠ "") "metric is required"
  validate (0 < input.quantity) "quantity must be greater than 0"
  let subscription ← findSubscription s input.subscriptionId
  validate (subscription.status ≠ .cancelled) "Cannot meter usage for a cancelled subscription"
  match recordedEvent s input.idempotencyKey with
  | some existing => return (existing, s)
  | none =>
    checkMetered s subscription input.metric
    let event : UsageEvent :=
      { id := "usg_" ++ env.uuid, subscriptionId := subscription.id, metric := input.metric
        quantity := input.quantity, idempotencyKey := input.idempotencyKey }
    return (event, storeUsage s subscription event)

/-! ## Dunning -/

def getDunningConfig (s : State) (merchantId : MerchantId) : DunningConfig :=
  (s.dunningConfigs merchantId).getD defaultDunningConfig

def configureDunning (merchantId : MerchantId) (retryScheduleDays : Option (List ℚ))
    (finalAction : Option DunningFinalAction) (s : State) :
    Except Failure (DunningConfig × State) := do
  validate (merchantId ≠ "") "merchantId is required"
  let current := getDunningConfig s merchantId
  let config : DunningConfig :=
    { retryScheduleDays := retryScheduleDays.getD current.retryScheduleDays
      finalAction := finalAction.getD current.finalAction }
  validateNone (validateRetrySchedule config.retryScheduleDays)
  return (config, { s with
    dunningConfigs := Function.update s.dunningConfigs merchantId (some config) })

def InvoiceStatus.text : InvoiceStatus → String
  | .draft => "draft"
  | .opened => "open"
  | .paid => "paid"
  | .void => "void"
  | .uncollectible => "uncollectible"

/-- Dunning that is retrying. -/
def Invoice.retrying? (invoice : Invoice) : Option DunningState :=
  invoice.dunning.filter (·.status = .retrying)

/-- The invoice with its retries ended. -/
def endRetries (invoice : Invoice) (status : DunningStatus) : Invoice :=
  match invoice.retrying? with
  | none => invoice
  | some dunning =>
    { invoice with dunning := some { dunning with status, nextRetryAt := none } }

/-- Return a past-due subscription to active once no invoice is still in dunning. -/
def reactivateIfSettled (subscriptionId : SubscriptionId) (s : State) : State :=
  match s.subscriptions subscriptionId with
  | none => s
  | some subscription =>
    if subscription.status = .pastDue ∧
        ¬ ∃ invoice ∈ s.invoices, invoice.subscriptionId = subscriptionId ∧
          invoice.retrying?.isSome = true then
      s.setSubscription { subscription with status := .active }
    else s

def findInvoice (s : State) (id : InvoiceId) : Except Failure Invoice :=
  orElse (s.invoice? id) (notFound "Invoice" id)

def markInvoicePaid (id : InvoiceId) (s : State) : Except Failure (Invoice × State) := do
  let invoice ← findInvoice s id
  let status := invoice.status.text
  validateAs (invoice.status = .opened ∨ invoice.status = .uncollectible)
    s!"Invoice in status {status} cannot be paid" "CONFLICT"
  let invoice := endRetries { invoice with status := .paid } .recovered
  return (invoice, reactivateIfSettled invoice.subscriptionId (s.setInvoice invoice))

def voidInvoice (id : InvoiceId) (s : State) : Except Failure (Invoice × State) := do
  let invoice ← findInvoice s id
  if invoice.status = .paid then .error (conflict "A paid invoice cannot be voided")
  else
    let invoice := endRetries { invoice with status := .void } .stopped
    return (invoice, reactivateIfSettled invoice.subscriptionId (s.setInvoice invoice))

/-- A further attempt, in the record of the retries. -/
def countAttempt (env : Env) (dunning : DunningState) (success : Bool) : DunningState :=
  { dunning with
    retriesAttempted := dunning.retriesAttempted + 1
    history := dunning.history ++ [⟨dunning.retriesAttempted + 1, env.now, success⟩] }

/-- The first failure. -/
def startDunning (env : Env) (s : State) (invoice : Invoice) : Invoice × State :=
  let config := getDunningConfig s invoice.merchantId
  let dunning : DunningState :=
    { status := .retrying, startedAt := env.now, retryScheduleDays := config.retryScheduleDays
      finalAction := config.finalAction, retriesAttempted := 0
      nextRetryAt := nextRetryAt env.now config.retryScheduleDays 0
      history := [⟨0, env.now, false⟩] }
  let invoice := { invoice with dunning := some dunning }
  let s := s.setInvoice invoice
  match s.subscriptions invoice.subscriptionId with
  | none => (invoice, s)
  | some subscription =>
    if subscription.status = .active ∨ subscription.status = .trialing then
      (invoice, s.setSubscription { subscription with status := .pastDue })
    else (invoice, s)

/-- A later failure. -/
def failRetry (env : Env) (s : State) (invoice : Invoice) (dunning : DunningState) :
    Invoice × State :=
  let dunning := countAttempt env dunning false
  match nextRetryAt dunning.startedAt dunning.retryScheduleDays dunning.retriesAttempted with
  | some next =>
    let invoice := { invoice with dunning := some { dunning with nextRetryAt := some next } }
    (invoice, s.setInvoice invoice)
  | none =>
    let invoice := { invoice with
      status := .uncollectible
      dunning := some { dunning with status := .exhausted, nextRetryAt := none } }
    let s := s.setInvoice invoice
    match s.subscriptions invoice.subscriptionId with
    | none => (invoice, s)
    | some subscription =>
      if dunning.finalAction = .cancelSubscription ∧ subscription.status ≠ .cancelled then
        (invoice, s.setSubscription { subscription with status := .cancelled })
      else (invoice, s)

def recordPaymentAttempt (env : Env) (invoiceId : InvoiceId) (success : Bool) (s : State) :
    Except Failure (Invoice × State) := do
  let invoice ← findInvoice s invoiceId
  let status := invoice.status.text
  if invoice.status ≠ .opened then
    .error (conflict s!"Cannot record a payment attempt for a {status} invoice")
  else
    match invoice.retrying?, success with
    | none, true => markInvoicePaid invoiceId s
    | some dunning, true =>
      markInvoicePaid invoiceId
        (s.setInvoice { invoice with dunning := some (countAttempt env dunning true) })
    | none, false => return startDunning env s invoice
    | some dunning, false => return failRetry env s invoice dunning

/-! ## Calls -/

inductive Call where
  | createPlan (input : PlanInput)
  | createPromoCode (input : PromoCodeInput)
  | deactivatePromoCode (idOrCode : String)
  | applyPromoCode (subscriptionId : SubscriptionId) (code : String)
  | removeDiscount (subscriptionId : SubscriptionId)
  | subscribe (merchantId : MerchantId) (customerId : CustomerId) (planId : PlanId)
      (trialDays : Option ℚ) (promoCode : Option String)
  | cancelSubscription (id : SubscriptionId) (atPeriodEnd : Option Bool)
  | changePlan (subscriptionId : SubscriptionId) (planId : PlanId)
      (prorationBehavior : Option ProrationBehavior)
  | recordUsage (input : UsageInput)
  | generateInvoice (subscriptionId : SubscriptionId)
  | closeBillingPeriod (subscriptionId : SubscriptionId)
  | configureDunning (merchantId : MerchantId) (retryScheduleDays : Option (List ℚ))
      (finalAction : Option DunningFinalAction)
  | recordPaymentAttempt (invoiceId : InvoiceId) (success : Bool)
  | markInvoicePaid (id : InvoiceId)
  | voidInvoice (id : InvoiceId)

inductive Result where
  | plan (plan : BillingPlan)
  | promoCode (promo : PromoCode)
  | subscription (subscription : Subscription)
  | planChange (result : PlanChangeResult)
  | usageEvent (event : UsageEvent)
  | invoice (invoice : Invoice)
  | period (invoice : Invoice) (subscription : Subscription)
  | dunningConfig (config : DunningConfig)

def tagged {α : Type} (tag : α → Result) (outcome : Except Failure (α × State)) :
    Except Failure (Result × State) :=
  outcome.map fun (value, s) => (tag value, s)

def perform (env : Env) : Call → State → Except Failure (Result × State)
  | .createPlan input, s => tagged .plan (createPlan host env input s)
  | .createPromoCode input, s => tagged .promoCode (createPromoCode host env input s)
  | .deactivatePromoCode idOrCode, s => tagged .promoCode (deactivatePromoCode host idOrCode s)
  | .applyPromoCode id code, s => tagged .subscription (applyPromoCode host env id code s)
  | .removeDiscount id, s => tagged .subscription (removeDiscount id s)
  | .subscribe merchantId customerId planId trialDays promoCode, s =>
    tagged .subscription (subscribe host env merchantId customerId planId trialDays promoCode s)
  | .cancelSubscription id atPeriodEnd, s =>
    tagged .subscription (cancelSubscription id atPeriodEnd s)
  | .changePlan id planId behavior, s => tagged .planChange (changePlan env id planId behavior s)
  | .recordUsage input, s => tagged .usageEvent (recordUsage env input s)
  | .generateInvoice id, s => tagged .invoice (generateInvoice env id s)
  | .closeBillingPeriod id, s =>
    tagged (fun (invoice, subscription) => .period invoice subscription)
      (closeBillingPeriod env id s)
  | .configureDunning merchantId retryScheduleDays finalAction, s =>
    tagged .dunningConfig (configureDunning merchantId retryScheduleDays finalAction s)
  | .recordPaymentAttempt id success, s =>
    tagged .invoice (recordPaymentAttempt env id success s)
  | .markInvoicePaid id, s => tagged .invoice (markInvoicePaid id s)
  | .voidInvoice id, s => tagged .invoice (voidInvoice id s)

/-- An id that `randomUUID` draws has not been given out. -/
def Fresh (s : State) (uuid : String) : Prop :=
  (s.subscriptions ("sub_" ++ uuid)).isNone ∧ (s.promoCodes ("promo_" ++ uuid)).isNone ∧
    (∀ invoice ∈ s.invoices, invoice.id ≠ "inv_" ++ uuid) ∧
      ∀ event ∈ s.usageEvents, event.id ≠ "usg_" ++ uuid

instance (s : State) (uuid : String) : Decidable (Fresh s uuid) :=
  inferInstanceAs (Decidable (_ ∧ _ ∧ _ ∧ _))

/-- The service. No call is made with an id that is taken. -/
def service : Transaction.System (Env × Call) State (Option Failure) Result := fun (env, call) s =>
  if Fresh s env.uuid then (perform host env call s).mapError some else .error none

def start : State :=
  { plans := fun _ => none, subscriptions := fun _ => none, usageEvents := []
    usageIdempotency := fun _ => none, invoices := [], promoCodes := fun _ => none
    promoCodeIds := fun _ => none, promoRedemptions := [], dunningConfigs := fun _ => none }

end Billing
