import AgenticPay.Billing

/-!
# What a call of the billing service can do

Every call that returns is one of a few steps, with what it has checked and the state that it
leaves. What holds of runs is derived from these steps.
-/
namespace Billing

open Transaction

/-! ## Tables -/

section Tables

variable (s : State) (subscription : Subscription) (invoice : Invoice)

@[simp] theorem setSubscription_subscriptions : (s.setSubscription subscription).subscriptions =
    Function.update s.subscriptions subscription.id (some subscription) := rfl
@[simp] theorem setSubscription_invoices :
    (s.setSubscription subscription).invoices = s.invoices := rfl
@[simp] theorem setInvoice_subscriptions :
    (s.setInvoice invoice).subscriptions = s.subscriptions := rfl
@[simp] theorem setInvoice_invoices : (s.setInvoice invoice).invoices =
    s.invoices.map fun i => if i.id = invoice.id then invoice else i := rfl

end Tables

/-! ## The steps -/

/-- A change of plan that `resolvePlanChange` lets through. -/
structure Resolved (s : State) (id : SubscriptionId) (planId : PlanId)
    (subscription : Subscription) (currentPlan newPlan : BillingPlan) : Prop where
  found : s.subscriptions id = some subscription
  notCancelled : subscription.status ≠ .cancelled
  currentFound : s.plans subscription.planId = some currentPlan
  newFound : s.plans planId = some newPlan
  differs : newPlan.id ≠ currentPlan.id
  sameCurrency : newPlan.currency = currentPlan.currency

/-- The change settles at once what has been used of the current plan. -/
def Immediate (currentPlan newPlan : BillingPlan) (behavior : ProrationBehavior) : Prop :=
  IntervalChange currentPlan newPlan ∨ behavior = .alwaysInvoice

/-- The state after an invoice is paid or void. -/
def releasedState (s : State) (invoice : Invoice) : State :=
  reactivateIfSettled invoice.subscriptionId (s.setInvoice invoice)

/-- What a call that returns can do. -/
inductive Served (host : Host) (env : Env) (s : State) : Call → State → Prop
  | planned {input plan} : Served host env s (.createPlan input)
      { s with plans := Function.update s.plans plan.id (some plan) }
  | offered {input} (valid : validatePromoCodeInput host input = none) :
      Served host env s (.createPromoCode input) (storePromoCode s (newPromoCode host env input))
  | withdrawn {idOrCode promo} (found : getPromoCode host s idOrCode = some promo) :
      Served host env s (.deactivatePromoCode idOrCode)
        (s.setPromoCode { promo with active := false })
  | redeemed {id code subscription plan promo} (found : s.subscriptions id = some subscription)
      (notCancelled : subscription.status ≠ .cancelled)
      (noDiscount : ¬ subscription.discount.any isDiscountActive = true)
      (redeemable : requireRedeemable host env s code subscription.merchantId
        subscription.customerId plan = .ok promo) :
      Served host env s (.applyPromoCode id code) (redeem subscription promo s).2
  | undiscounted {id subscription} (found : s.subscriptions id = some subscription) :
      Served host env s (.removeDiscount id)
        (s.setSubscription { subscription with discount := none })
  | subscribed {merchantId customerId planId trialDays promoCode plan}
      (planFound : s.plans planId = some plan) :
      Served host env s (.subscribe merchantId customerId planId trialDays promoCode)
        (s.setSubscription (newSubscription env merchantId customerId plan (trialDays.getD 0)))
  | subscribedWith {merchantId customerId planId trialDays promoCode plan promo}
      (planFound : s.plans planId = some plan)
      (redeemable : requireRedeemable host env s (promoCode.getD "") merchantId customerId plan =
        .ok promo) :
      Served host env s (.subscribe merchantId customerId planId trialDays promoCode)
        (redeem (newSubscription env merchantId customerId plan (trialDays.getD 0)) promo
          (s.setSubscription
            (newSubscription env merchantId customerId plan (trialDays.getD 0)))).2
  | cancelled {id atPeriodEnd subscription} (found : s.subscriptions id = some subscription) :
      Served host env s (.cancelSubscription id atPeriodEnd) (s.setSubscription { subscription with
        cancelAtPeriodEnd := atPeriodEnd.getD false
        status := if atPeriodEnd.getD false = true then subscription.status else .cancelled })
  | switched {id planId behavior subscription currentPlan newPlan}
      (resolved : resolvePlanChange s id planId = .ok (subscription, currentPlan, newPlan))
      (trialing : subscription.status = .trialing) :
      Served host env s (.changePlan id planId behavior)
        (s.setSubscription (changeTrial subscription currentPlan newPlan))
  | settled {id planId behavior subscription currentPlan newPlan invoice t}
      (resolved : resolvePlanChange s id planId = .ok (subscription, currentPlan, newPlan))
      (notTrialing : subscription.status ≠ .trialing)
      (prorated : IntervalChange currentPlan newPlan → behavior.getD .createProrations ≠ .none)
      (immediate : Immediate currentPlan newPlan (behavior.getD .createProrations))
      (created : createInvoice env subscription currentPlan .planChange (some env.now) s =
        .ok (invoice, t)) :
      Served host env s (.changePlan id planId behavior)
        (t.setSubscription (settleChange env subscription currentPlan newPlan))
  | rescheduled {id planId behavior subscription currentPlan newPlan}
      (resolved : resolvePlanChange s id planId = .ok (subscription, currentPlan, newPlan))
      (notTrialing : subscription.status ≠ .trialing)
      (later : ¬ Immediate currentPlan newPlan (behavior.getD .createProrations)) :
      Served host env s (.changePlan id planId behavior) (s.setSubscription { subscription with
        planId := newPlan.id
        planSegments :=
          changedSegments env subscription newPlan (behavior.getD .createProrations) })
  | repeated {input existing} (recorded : recordedEvent s input.idempotencyKey = some existing) :
      Served host env s (.recordUsage input) s
  | metered {input subscription event}
      (found : s.subscriptions input.subscriptionId = some subscription)
      (notCancelled : subscription.status ≠ .cancelled)
      (unrecorded : recordedEvent s input.idempotencyKey = none)
      (event_eq : event = ⟨"usg_" ++ env.uuid, subscription.id, input.metric, input.quantity,
        input.idempotencyKey⟩) :
      Served host env s (.recordUsage input) (storeUsage s subscription event)
  | invoiced {id subscription plan invoice t} (found : s.subscriptions id = some subscription)
      (planFound : s.plans subscription.planId = some plan)
      (created : createInvoice env subscription plan .period none s = .ok (invoice, t)) :
      Served host env s (.generateInvoice id) t
  | closed {id subscription plan invoice t} (found : s.subscriptions id = some subscription)
      (planFound : s.plans subscription.planId = some plan)
      (created : createInvoice env subscription plan .period none s = .ok (invoice, t)) :
      Served host env s (.closeBillingPeriod id)
        (t.setSubscription (nextPeriod subscription plan invoice))
  | configured {merchantId days action config} :
      Served host env s (.configureDunning merchantId days action)
        { s with dunningConfigs := Function.update s.dunningConfigs merchantId (some config) }
  | paid {id invoice} (found : s.invoice? id = some invoice)
      (payable : invoice.status = .opened ∨ invoice.status = .uncollectible) :
      Served host env s (.markInvoicePaid id)
        (releasedState s (endRetries { invoice with status := .paid } .recovered))
  | voided {id invoice} (found : s.invoice? id = some invoice) (unpaid : invoice.status ≠ .paid) :
      Served host env s (.voidInvoice id)
        (releasedState s (endRetries { invoice with status := .void } .stopped))
  | collected {id invoice} (found : s.invoice? id = some invoice)
      (payable : invoice.status = .opened) :
      Served host env s (.recordPaymentAttempt id true) (releasedState s
        (endRetries { invoice with
          status := .paid
          dunning := match invoice.retrying? with
            | none => invoice.dunning
            | some dunning => some (countAttempt env dunning true) } .recovered))
  | failed {id invoice} (found : s.invoice? id = some invoice)
      (payable : invoice.status = .opened) (first : invoice.retrying? = none) :
      Served host env s (.recordPaymentAttempt id false) (startDunning env s invoice).2
  | failedAgain {id invoice dunning} (found : s.invoice? id = some invoice)
      (payable : invoice.status = .opened) (retrying : invoice.retrying? = some dunning) :
      Served host env s (.recordPaymentAttempt id false) (failRetry env s invoice dunning).2

variable {host : Host} {env : Env} {s s' : State} {id : SubscriptionId} {planId : PlanId}
  {subscription : Subscription} {plan currentPlan newPlan : BillingPlan} {invoice : Invoice}
  {promo : PromoCode} {c : Call} {r : Result}

/-! ## What the checks have found -/

theorem orElse_ok {α : Type} {value : Option α} {failure : Failure} {found : α} :
    orElse value failure = .ok found ↔ value = some found := by
  cases value <;> simp [orElse]

theorem findSubscription_ok :
    findSubscription s id = .ok subscription ↔ s.subscriptions id = some subscription := orElse_ok

theorem findPlan_ok : findPlan s planId = .ok plan ↔ s.plans planId = some plan := orElse_ok

theorem findInvoice_ok {id : InvoiceId} :
    findInvoice s id = .ok invoice ↔ s.invoice? id = some invoice := orElse_ok

theorem validateNone_ok {found : Option String} {u : Unit} :
    validateNone found = .ok u ↔ found = none := by
  cases found <;> simp [validateNone]

theorem resolvePlanChange_ok
    (h : resolvePlanChange s id planId = .ok (subscription, currentPlan, newPlan)) :
    Resolved s id planId subscription currentPlan newPlan := by
  obtain ⟨_, hfound, h⟩ := bind_returns h
  split_ifs at h with hcancelled
  obtain ⟨_, hcurrent, h⟩ := bind_returns h
  obtain ⟨_, hnew, h⟩ := bind_returns h
  split_ifs at h with hsame
  obtain ⟨_, hcurrency, h⟩ := bind_returns h
  cases h
  exact ⟨findSubscription_ok.mp hfound, hcancelled, findPlan_ok.mp hcurrent,
    findPlan_ok.mp hnew, hsame, validate_ok.mp hcurrency⟩

theorem requireRedeemable_found {code merchantId customerId : String}
    (h : requireRedeemable host env s code merchantId customerId plan = .ok promo) :
    getPromoCode host s code = some promo := by
  obtain ⟨_, hfound, h⟩ := bind_returns h
  split at h
  next => exact orElse_ok.mp (Except.ok.inj h ▸ hfound)
  next => contradiction

/-! ## Every call is one of the steps -/

theorem createPlan_served {input : PlanInput} (h : createPlan host env input s = .ok (plan, s')) :
    Served host env s (.createPlan input) s' := by
  obtain ⟨_, _, h⟩ := bind_returns h
  obtain ⟨_, _, h⟩ := bind_returns h
  obtain ⟨_, _, h⟩ := bind_returns h
  obtain ⟨_, _, h⟩ := bind_returns h
  obtain ⟨_, _, h⟩ := bind_returns h
  obtain ⟨_, _, h⟩ := bind_returns h
  cases h
  exact .planned

theorem createPromoCode_served {input : PromoCodeInput}
    (h : createPromoCode host env input s = .ok (promo, s')) :
    Served host env s (.createPromoCode input) s' := by
  obtain ⟨_, hvalid, h⟩ := bind_returns h
  dsimp only at h
  split_ifs at h with hexists
  obtain ⟨_, _, h⟩ := bind_returns h
  cases h
  exact .offered (validateNone_ok.mp hvalid)

theorem deactivatePromoCode_served {idOrCode : String}
    (h : deactivatePromoCode host idOrCode s = .ok (promo, s')) :
    Served host env s (.deactivatePromoCode idOrCode) s' := by
  obtain ⟨_, hfound, h⟩ := bind_returns h
  have hpromo := orElse_ok.mp hfound
  cases h
  exact .withdrawn hpromo

theorem applyPromoCode_served {code : String}
    (h : applyPromoCode host env id code s = .ok (subscription, s')) :
    Served host env s (.applyPromoCode id code) s' := by
  obtain ⟨_, hfound, h⟩ := bind_returns h
  split_ifs at h with hcancelled hactive
  obtain ⟨_, _, h⟩ := bind_returns h
  obtain ⟨_, hredeemable, h⟩ := bind_returns h
  cases h
  exact .redeemed (findSubscription_ok.mp hfound) hcancelled hactive hredeemable

theorem removeDiscount_served (h : removeDiscount id s = .ok (subscription, s')) :
    Served host env s (.removeDiscount id) s' := by
  obtain ⟨_, hfound, h⟩ := bind_returns h
  split_ifs at h with hnone
  cases h
  exact .undiscounted (findSubscription_ok.mp hfound)

theorem subscribe_served {merchantId : MerchantId} {customerId : CustomerId}
    {trialDays : Option ℚ} {promoCode : Option String}
    (h : subscribe host env merchantId customerId planId trialDays promoCode s =
      .ok (subscription, s')) :
    Served host env s (.subscribe merchantId customerId planId trialDays promoCode) s' := by
  obtain ⟨_, _, h⟩ := bind_returns h
  obtain ⟨_, _, h⟩ := bind_returns h
  obtain ⟨plan, hplan, h⟩ := bind_returns h
  obtain ⟨_, _, h⟩ := bind_returns h
  obtain ⟨promo, hpromo, h⟩ := bind_returns h
  have hfound := findPlan_ok.mp hplan
  rw [redeemableAtStart] at hpromo
  split_ifs at hpromo with hcode
  · cases hpromo
    cases h
    exact .subscribed hfound
  · cases hredeemable : requireRedeemable host env s (promoCode.getD "") merchantId customerId plan
    with
    | error failure =>
      rw [hredeemable] at hpromo
      contradiction
    | ok promo =>
      rw [hredeemable] at hpromo
      cases hpromo
      cases h
      exact .subscribedWith hfound hredeemable

theorem cancelSubscription_served {atPeriodEnd : Option Bool}
    (h : cancelSubscription id atPeriodEnd s = .ok (subscription, s')) :
    Served host env s (.cancelSubscription id atPeriodEnd) s' := by
  obtain ⟨_, hfound, h⟩ := bind_returns h
  split_ifs at h with hcancelled
  cases h
  exact .cancelled (findSubscription_ok.mp hfound)

theorem changePlan_served {behavior : Option ProrationBehavior} {result : PlanChangeResult}
    (h : changePlan env id planId behavior s = .ok (result, s')) :
    Served host env s (.changePlan id planId behavior) s' := by
  obtain ⟨⟨subscription, currentPlan, newPlan⟩, hresolved, h⟩ := bind_returns h
  dsimp only at h
  split_ifs at h with htrialing himmediate
  · cases h
    exact .switched hresolved htrialing
  · obtain ⟨_, hprorated, h⟩ := bind_returns h
    obtain ⟨_, _, h⟩ := bind_returns h
    obtain ⟨⟨invoice, t⟩, hcreated, h⟩ := bind_returns h
    cases h
    exact .settled hresolved htrialing
      (fun hchange hnone => validate_ok.mp hprorated ⟨hchange, hnone⟩) himmediate hcreated
  · obtain ⟨_, _, h⟩ := bind_returns h
    obtain ⟨_, _, h⟩ := bind_returns h
    cases h
    exact .rescheduled hresolved htrialing himmediate

theorem recordUsage_served {input : UsageInput} {event : UsageEvent}
    (h : recordUsage env input s = .ok (event, s')) :
    Served host env s (.recordUsage input) s' := by
  obtain ⟨_, _, h⟩ := bind_returns h
  obtain ⟨_, _, h⟩ := bind_returns h
  obtain ⟨_, hfound, h⟩ := bind_returns h
  obtain ⟨_, hcancelled, h⟩ := bind_returns h
  split at h
  next existing hrecorded =>
    cases h
    exact .repeated hrecorded
  next hunrecorded =>
    obtain ⟨_, _, h⟩ := bind_returns h
    cases h
    exact .metered (findSubscription_ok.mp hfound) (validate_ok.mp hcancelled) hunrecorded rfl

theorem generateInvoice_ok (h : generateInvoice env id s = .ok (invoice, s')) :
    ∃ subscription plan, s.subscriptions id = some subscription ∧
      s.plans subscription.planId = some plan ∧
        createInvoice env subscription plan .period none s = .ok (invoice, s') := by
  obtain ⟨subscription, hfound, h⟩ := bind_returns h
  obtain ⟨plan, hplan, h⟩ := bind_returns h
  exact ⟨subscription, plan, findSubscription_ok.mp hfound, findPlan_ok.mp hplan, h⟩

theorem closeBillingPeriod_served {closing : Invoice × Subscription}
    (h : closeBillingPeriod env id s = .ok (closing, s')) :
    Served host env s (.closeBillingPeriod id) s' := by
  obtain ⟨subscription, hfound, h⟩ := bind_returns h
  obtain ⟨plan, hplan, h⟩ := bind_returns h
  obtain ⟨⟨invoice, t⟩, hinvoice, h⟩ := bind_returns h
  cases h
  obtain ⟨subscription', plan', hfound', hplan', hcreated⟩ := generateInvoice_ok hinvoice
  -- both look up the same subscription and the same plan
  obtain rfl := Option.some.inj ((findSubscription_ok.mp hfound).symm.trans hfound')
  obtain rfl := Option.some.inj ((findPlan_ok.mp hplan).symm.trans hplan')
  exact .closed hfound' hplan' hcreated

theorem configureDunning_served {merchantId : MerchantId} {days : Option (List ℚ)}
    {action : Option DunningFinalAction} {config : DunningConfig}
    (h : configureDunning merchantId days action s = .ok (config, s')) :
    Served host env s (.configureDunning merchantId days action) s' := by
  obtain ⟨_, _, h⟩ := bind_returns h
  obtain ⟨_, _, h⟩ := bind_returns h
  cases h
  exact .configured

theorem invoice_found {id : InvoiceId} (h : s.invoice? id = some invoice) :
    invoice ∈ s.invoices ∧ invoice.id = id :=
  ⟨List.mem_of_find?_eq_some h, by simpa using List.find?_some h⟩

theorem invoice?_setInvoice (h : s.invoice? invoice.id ≠ none) :
    (s.setInvoice invoice).invoice? invoice.id = some invoice := by
  rw [State.invoice?, setInvoice_invoices]
  rw [State.invoice?] at h
  generalize s.invoices = invoices at h
  induction invoices with
  | nil => exact absurd rfl h
  | cons first rest ih =>
    by_cases hfirst : first.id = invoice.id
    · simp [hfirst]
    · rw [List.map_cons, if_neg hfirst, List.find?_cons_of_neg (by simpa using hfirst)]
      rw [List.find?_cons_of_neg (by simpa using hfirst)] at h
      exact ih h

theorem setInvoice_setInvoice {invoice' : Invoice} (h : invoice.id = invoice'.id) :
    (s.setInvoice invoice).setInvoice invoice' = s.setInvoice invoice' := by
  rw [State.setInvoice, State.setInvoice, State.setInvoice]
  congr 1
  rw [List.map_map]
  refine List.map_congr_left fun i _ => ?_
  by_cases hi : i.id = invoice.id
  · simp [h, hi]
  · simp [hi, ← h]

theorem endRetries_id (status : DunningStatus) : (endRetries invoice status).id = invoice.id := by
  rw [endRetries]
  split <;> rfl

theorem markInvoicePaid_ok {id : InvoiceId} {result : Invoice}
    (h : markInvoicePaid id s = .ok (result, s')) :
    ∃ invoice, s.invoice? id = some invoice ∧
      (invoice.status = .opened ∨ invoice.status = .uncollectible) ∧
        s' = releasedState s (endRetries { invoice with status := .paid } .recovered) := by
  obtain ⟨invoice, hfound, h⟩ := bind_returns h
  obtain ⟨_, hpayable, h⟩ := bind_returns h
  rw [validateAs] at hpayable
  split_ifs at hpayable with hstatus
  cases h
  exact ⟨invoice, findInvoice_ok.mp hfound, hstatus, rfl⟩

theorem voidInvoice_served {id : InvoiceId} {result : Invoice}
    (h : voidInvoice id s = .ok (result, s')) : Served host env s (.voidInvoice id) s' := by
  obtain ⟨invoice, hfound, h⟩ := bind_returns h
  split_ifs at h with hpaid
  cases h
  exact .voided (findInvoice_ok.mp hfound) hpaid

theorem recordPaymentAttempt_served {id : InvoiceId} {success : Bool} {result : Invoice}
    (h : recordPaymentAttempt env id success s = .ok (result, s')) :
    Served host env s (.recordPaymentAttempt id success) s' := by
  obtain ⟨invoice, hfound, h⟩ := bind_returns h
  have hinvoice := findInvoice_ok.mp hfound
  obtain ⟨_, hid⟩ := invoice_found hinvoice
  dsimp only at h
  split_ifs at h with hstatus
  rw [not_not] at hstatus
  have hcollected : Served host env s (.recordPaymentAttempt id true) _ :=
    .collected hinvoice hstatus
  cases hretrying : invoice.retrying? with
  | none =>
    rw [hretrying] at h hcollected
    cases success with
    | false =>
      obtain rfl : (startDunning env s invoice).2 = s' := congrArg Prod.snd (Except.ok.inj h)
      exact .failed hinvoice hstatus hretrying
    | true =>
      obtain ⟨invoice', hinvoice', _, rfl⟩ := markInvoicePaid_ok h
      obtain rfl := Option.some.inj (hinvoice.symm.trans hinvoice')
      exact hcollected
  | some dunning =>
    rw [hretrying] at h hcollected
    cases success with
    | false =>
      obtain rfl : (failRetry env s invoice dunning).2 = s' := congrArg Prod.snd (Except.ok.inj h)
      exact .failedAgain hinvoice hstatus hretrying
    | true =>
      obtain ⟨invoice', hinvoice', _, rfl⟩ := markInvoicePaid_ok h
      -- the invoice that is paid is the one with the attempt counted
      subst hid
      have hattempted : (s.setInvoice { invoice with
          dunning := some (countAttempt env dunning true) }).invoice? invoice.id = _ :=
        invoice?_setInvoice (hinvoice ▸ Option.some_ne_none _)
      rw [hattempted] at hinvoice'
      obtain rfl := Option.some.inj hinvoice'
      rw [releasedState, setInvoice_setInvoice (by rw [endRetries_id])]
      exact hcollected

theorem tagged_ok {α : Type} {tag : α → Result} {outcome : Except Failure (α × State)}
    (h : tagged tag outcome = .ok (r, s')) : ∃ value, outcome = .ok (value, s') := by
  cases outcome with
  | error failure => contradiction
  | ok found =>
    cases h
    exact ⟨found.1, rfl⟩

theorem served_of_perform (h : perform host env c s = .ok (r, s')) : Served host env s c s' := by
  cases c with
  | createPlan input =>
    obtain ⟨_, h⟩ := tagged_ok h
    exact createPlan_served h
  | createPromoCode input =>
    obtain ⟨_, h⟩ := tagged_ok h
    exact createPromoCode_served h
  | deactivatePromoCode idOrCode =>
    obtain ⟨_, h⟩ := tagged_ok h
    exact deactivatePromoCode_served h
  | applyPromoCode id code =>
    obtain ⟨_, h⟩ := tagged_ok h
    exact applyPromoCode_served h
  | removeDiscount id =>
    obtain ⟨_, h⟩ := tagged_ok h
    exact removeDiscount_served h
  | subscribe merchantId customerId planId trialDays promoCode =>
    obtain ⟨_, h⟩ := tagged_ok h
    exact subscribe_served h
  | cancelSubscription id atPeriodEnd =>
    obtain ⟨_, h⟩ := tagged_ok h
    exact cancelSubscription_served h
  | changePlan id planId behavior =>
    obtain ⟨_, h⟩ := tagged_ok h
    exact changePlan_served h
  | recordUsage input =>
    obtain ⟨_, h⟩ := tagged_ok h
    exact recordUsage_served h
  | generateInvoice id =>
    obtain ⟨_, h⟩ := tagged_ok h
    obtain ⟨subscription, plan, hfound, hplan, hcreated⟩ := generateInvoice_ok h
    exact .invoiced hfound hplan hcreated
  | closeBillingPeriod id =>
    rw [perform] at h
    obtain ⟨_, h⟩ := tagged_ok h
    exact closeBillingPeriod_served h
  | configureDunning merchantId days action =>
    obtain ⟨_, h⟩ := tagged_ok h
    exact configureDunning_served h
  | recordPaymentAttempt id success =>
    obtain ⟨_, h⟩ := tagged_ok h
    exact recordPaymentAttempt_served h
  | markInvoicePaid id =>
    obtain ⟨_, h⟩ := tagged_ok h
    obtain ⟨invoice, hfound, hpayable, rfl⟩ := markInvoicePaid_ok h
    exact .paid hfound hpayable
  | voidInvoice id =>
    obtain ⟨_, h⟩ := tagged_ok h
    exact voidInvoice_served h

/-- A call of the service either changes nothing or is one of the steps, with an id that is new. -/
theorem service_cases (host : Host) (s : State) (a : Env × Call) :
    (Fresh s a.1.uuid ∧ Served host a.1 s a.2 (commit (service host) s a)) ∨
      commit (service host) s a = s := by
  obtain ⟨r, h⟩ | ⟨_, he⟩ := commit_cases (service host) s a
  · left
    rw [service] at h
    split_ifs at h with hfresh
    cases hperform : perform host a.1 a.2 s with
    | error failure =>
      rw [hperform] at h
      contradiction
    | ok value =>
      rw [hperform] at h
      rw [Except.ok.inj h] at hperform
      exact ⟨hfresh, served_of_perform hperform⟩
  · exact .inr he

end Billing
