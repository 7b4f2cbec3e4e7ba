import AgenticPay.BillingSteps

/-!
# What a call means for one subscription

A call keeps the record of a subscription, restates it or raises one invoice for it. What is charged
on the invoices that have been raised never changes: payments touch their status and their dunning.
-/
namespace Billing

open Transaction

/-- Subscriptions are stored under their ids, and ids of invoices and of events are not reused. -/
structure Indexed (s : State) : Prop where
  subscriptions : ∀ id subscription, s.subscriptions id = some subscription → subscription.id = id
  invoices : (s.invoices.map (·.id)).Nodup
  events : (s.usageEvents.map (·.id)).Nodup

/-- The invoice as it was raised. -/
def Invoice.bill (invoice : Invoice) : Invoice :=
  { invoice with status := .opened, dunning := none }

/-- The invoices of a subscription as they were raised. -/
def bills (s : State) (id : SubscriptionId) : List Invoice :=
  (s.invoices.map Invoice.bill).filter (·.subscriptionId = id)

/-- What `createInvoice` raises. -/
structure Raised (env : Env) (s : State) (subscription : Subscription) (usagePlan : BillingPlan)
    (kind : InvoiceKind) (untilMs : Option Int) (invoice : Invoice) (t : State) : Prop where
  state : t = { s with invoices := s.invoices ++ [invoice] }
  made : ∃ shares base,
    segmentShares subscription.planSegments subscription.currentPeriodStart
      subscription.currentPeriodEnd
      (min (untilMs.getD subscription.currentPeriodEnd) subscription.currentPeriodEnd) =
        .ok shares ∧ baseLineItems s shares = .ok base ∧
      invoice = invoiceOf env subscription usagePlan kind
        (min (untilMs.getD subscription.currentPeriodEnd) subscription.currentPeriodEnd) shares base

/-- What the collection of an invoice changes: its status and its dunning, and the status of its
subscription. -/
inductive Collects (s : State) (invoice : Invoice) : State → Prop
  | alone {status dunning} : Collects s invoice (s.setInvoice { invoice with status, dunning })
  | told {status dunning subscription status'}
      (found : s.subscriptions invoice.subscriptionId = some subscription)
      (notCancelled : subscription.status ≠ .cancelled) (notTrialing : status' ≠ .trialing) :
      Collects s invoice ((s.setInvoice { invoice with status, dunning }).setSubscription
        { subscription with status := status' })

/-- The usage events of a subscription. -/
def eventsOf (s : State) (id : SubscriptionId) : List UsageEvent :=
  s.usageEvents.filter (·.subscriptionId = id)

/-- What a call leaves for one subscription: its record, and the invoices, the events and the
redemptions that are added for it. -/
structure Effect where
  record : Option Subscription
  raised : List Invoice := []
  recorded : List UsageEvent := []
  redeemed : List PromoRedemption := []

/-- What a call does to one subscription. -/
inductive Turned (host : Host) (env : Env) (s : State) (id : SubscriptionId) :
    Call → Effect → Prop
  | kept {call} : Turned host env s id call { record := s.subscriptions id }
  | restated {call subscription status cancelAtPeriodEnd}
      (found : s.subscriptions id = some subscription)
      (trial : status = .trialing → subscription.status = .trialing)
      (cancelled : subscription.status = .cancelled → status = .cancelled) :
      Turned host env s id call
        { record := some { subscription with status, cancelAtPeriodEnd } }
  | discounted {code subscription plan promo} (found : s.subscriptions id = some subscription)
      (notCancelled : subscription.status ≠ .cancelled)
      (noDiscount : ¬ subscription.discount.any isDiscountActive = true)
      (redeemable : requireRedeemable host env s code subscription.merchantId
        subscription.customerId plan = .ok promo) :
      Turned host env s id (.applyPromoCode id code)
        { record := some { subscription with
            discount := some (toAppliedDiscount promo s.promoRedemptions.length) }
          redeemed := [⟨promo.id, subscription.customerId, subscription.id⟩] }
  | undiscounted {subscription} (found : s.subscriptions id = some subscription) :
      Turned host env s id (.removeDiscount id)
        { record := some { subscription with discount := none } }
  | subscribed {merchantId customerId planId trialDays promoCode plan}
      (new : id = "sub_" ++ env.uuid) :
      Turned host env s id (.subscribe merchantId customerId planId trialDays promoCode)
        { record := some (newSubscription env merchantId customerId plan (trialDays.getD 0)) }
  | subscribedWith {merchantId customerId planId trialDays promoCode plan promo}
      (new : id = "sub_" ++ env.uuid)
      (redeemable : requireRedeemable host env s (promoCode.getD "") merchantId customerId plan =
        .ok promo) :
      Turned host env s id (.subscribe merchantId customerId planId trialDays promoCode)
        { record := some
            { newSubscription env merchantId customerId plan (trialDays.getD 0) with
              discount := some (toAppliedDiscount promo s.promoRedemptions.length) }
          redeemed := [⟨promo.id, customerId, "sub_" ++ env.uuid⟩] }
  | switched {planId behavior subscription currentPlan newPlan}
      (resolved : resolvePlanChange s id planId = .ok (subscription, currentPlan, newPlan))
      (trialing : subscription.status = .trialing) :
      Turned host env s id (.changePlan id planId behavior)
        { record := some (changeTrial subscription currentPlan newPlan) }
  | settled {planId behavior subscription currentPlan newPlan invoice t}
      (resolved : resolvePlanChange s id planId = .ok (subscription, currentPlan, newPlan))
      (notTrialing : subscription.status ≠ .trialing)
      (prorated : IntervalChange currentPlan newPlan → behavior.getD .createProrations ≠ .none)
      (immediate : Immediate currentPlan newPlan (behavior.getD .createProrations))
      (raised : Raised env s subscription currentPlan .planChange (some env.now) invoice t) :
      Turned host env s id (.changePlan id planId behavior)
        { record := some (settleChange env subscription currentPlan newPlan)
          raised := [invoice] }
  | rescheduled {planId behavior subscription currentPlan newPlan}
      (resolved : resolvePlanChange s id planId = .ok (subscription, currentPlan, newPlan))
      (notTrialing : subscription.status ≠ .trialing)
      (later : ¬ Immediate currentPlan newPlan (behavior.getD .createProrations)) :
      Turned host env s id (.changePlan id planId behavior)
        { record := some { subscription with
            planId := newPlan.id
            planSegments :=
              changedSegments env subscription newPlan (behavior.getD .createProrations) } }
  | metered {input subscription event} (target : input.subscriptionId = id)
      (found : s.subscriptions id = some subscription)
      (notCancelled : subscription.status ≠ .cancelled)
      (unrecorded : recordedEvent s input.idempotencyKey = none)
      (event_eq : event = ⟨"usg_" ++ env.uuid, id, input.metric, input.quantity,
        input.idempotencyKey⟩) :
      Turned host env s id (.recordUsage input)
        { record := some (addUsage subscription event), recorded := [event] }
  | invoiced {subscription plan invoice t} (found : s.subscriptions id = some subscription)
      (raised : Raised env s subscription plan .period none invoice t) :
      Turned host env s id (.generateInvoice id)
        { record := some subscription, raised := [invoice] }
  | closed {subscription plan invoice t} (found : s.subscriptions id = some subscription)
      (raised : Raised env s subscription plan .period none invoice t) :
      Turned host env s id (.closeBillingPeriod id)
        { record := some (nextPeriod subscription plan invoice), raised := [invoice] }

/-- A state is what an effect leaves of another one. -/
structure Leads (s : State) (id : SubscriptionId) (e : Effect) (s' : State) : Prop where
  record : s'.subscriptions id = e.record
  bills : bills s' id = bills s id ++ e.raised
  events : eventsOf s' id = eventsOf s id ++ e.recorded
  redemptions : s.promoRedemptions ++ e.redeemed <+: s'.promoRedemptions

/-- A call leads to a state that is what it does to the subscription. -/
def Turns (host : Host) (env : Env) (s : State) (id : SubscriptionId) (c : Call) (s' : State) :
    Prop :=
  ∃ e, Turned host env s id c e ∧ Leads s id e s'

variable {host : Host} {env : Env} {s s' t : State} {id : SubscriptionId} {planId : PlanId}
  {subscription : Subscription} {plan currentPlan newPlan : BillingPlan} {invoice : Invoice}
  {promo : PromoCode} {c : Call} {a : Env × Call}

/-! ## Invoices -/

theorem createInvoice_ok {usagePlan : BillingPlan} {kind : InvoiceKind} {untilMs : Option Int}
    (h : createInvoice env subscription usagePlan kind untilMs s = .ok (invoice, t)) :
    Raised env s subscription usagePlan kind untilMs invoice t := by
  obtain ⟨shares, hshares, h⟩ := bind_returns h
  obtain ⟨base, hbase, h⟩ := bind_returns h
  cases h
  exact ⟨rfl, shares, base, hshares, hbase, rfl⟩

namespace Raised

variable {usagePlan : BillingPlan} {kind : InvoiceKind} {untilMs : Option Int}

theorem id_eq (h : Raised env s subscription usagePlan kind untilMs invoice t) :
    invoice.id = "inv_" ++ env.uuid := by
  obtain ⟨shares, base, _, _, rfl⟩ := h.made
  rfl

theorem subscriptionId (h : Raised env s subscription usagePlan kind untilMs invoice t) :
    invoice.subscriptionId = subscription.id := by
  obtain ⟨shares, base, _, _, rfl⟩ := h.made
  rfl

theorem bill (h : Raised env s subscription usagePlan kind untilMs invoice t) :
    invoice.bill = invoice := by
  obtain ⟨shares, base, _, _, rfl⟩ := h.made
  rfl

theorem subscriptions (h : Raised env s subscription usagePlan kind untilMs invoice t) :
    t.subscriptions = s.subscriptions := by
  rw [h.state]

theorem bills_self (h : Raised env s subscription usagePlan kind untilMs invoice t) :
    bills t subscription.id = bills s subscription.id ++ [invoice] := by
  rw [bills, bills, h.state, List.map_append, List.filter_append, List.map_singleton, h.bill,
    List.filter_singleton]
  simp [h.subscriptionId]

theorem bills_other (h : Raised env s subscription usagePlan kind untilMs invoice t)
    (hne : subscription.id ≠ id) : bills t id = bills s id := by
  rw [bills, bills, h.state, List.map_append, List.filter_append, List.map_singleton, h.bill,
    List.filter_singleton]
  simp [h.subscriptionId, hne]

end Raised

theorem bills_setInvoice (hi : Indexed s) {old : Invoice} (hmem : old ∈ s.invoices)
    (hid : invoice.id = old.id) (hbill : invoice.bill = old.bill) :
    bills (s.setInvoice invoice) id = bills s id := by
  rw [bills, bills, setInvoice_invoices, List.map_map]
  congr 1
  refine List.map_congr_left fun i hmem' => ?_
  by_cases he : i.id = invoice.id
  · obtain rfl := List.inj_on_of_nodup_map hi.invoices hmem' hmem (he.trans hid)
    simp [he, hbill]
  · simp [he]

theorem bill_mem_bills (hmem : invoice ∈ s.invoices) :
    invoice.bill ∈ bills s invoice.subscriptionId :=
  List.mem_filter.mpr ⟨List.mem_map_of_mem hmem, by simp [Invoice.bill]⟩

/-- Invoices that all are of one subscription are among its bills. -/
theorem filter_bills {p : Invoice → Bool} (hbill : ∀ i : Invoice, p i.bill = p i)
    (howner : ∀ i ∈ s.invoices, p i = true → i.subscriptionId = id) :
    (bills s id).filter p = (s.invoices.filter p).map Invoice.bill := by
  rw [bills, List.filter_filter, List.filter_map]
  congr 1
  refine List.filter_congr fun i hmem => ?_
  rw [Function.comp_apply, hbill]
  by_cases hp : p i = true
  · simp [Invoice.bill, hp, howner i hmem hp]
  · simp [hp]

/-! ## Payments -/

theorem reactivateIfSettled_cases (id : SubscriptionId) (s : State) :
    reactivateIfSettled id s = s ∨ ∃ subscription, s.subscriptions id = some subscription ∧
      subscription.status = .pastDue ∧
        (¬ ∃ invoice ∈ s.invoices, invoice.subscriptionId = id ∧
          invoice.retrying?.isSome = true) ∧
          reactivateIfSettled id s = s.setSubscription { subscription with status := .active } := by
  rw [reactivateIfSettled]
  split
  next => exact .inl rfl
  next subscription hfound =>
    split_ifs with hsettled
    · exact .inr ⟨subscription, hfound, hsettled.1, hsettled.2, rfl⟩
    · exact .inl rfl

/-- What no subscription is part of is as after the invoice has been written. -/
theorem releasedState_frame {β : Type} {f : State → β}
    (hf : ∀ s subscription, f (s.setSubscription subscription) = f s) :
    f (releasedState s invoice) = f (s.setInvoice invoice) := by
  rw [releasedState]
  obtain h | ⟨_, _, _, _, h⟩ :=
    reactivateIfSettled_cases invoice.subscriptionId (s.setInvoice invoice)
  · rw [h]
  · rw [h, hf]

theorem endRetries_eq (invoice : Invoice) (status : DunningStatus) :
    ∃ dunning, endRetries invoice status = { invoice with dunning } := by
  rw [endRetries]
  split
  next => exact ⟨invoice.dunning, rfl⟩
  next => exact ⟨_, rfl⟩

theorem releasedState_collects {status : InvoiceStatus} {dunning : Option DunningState}
    {ended : DunningStatus} :
    Collects s invoice
      (releasedState s (endRetries { invoice with status, dunning } ended)) := by
  obtain ⟨dunning', he⟩ := endRetries_eq { invoice with status, dunning } ended
  rw [he, releasedState]
  obtain h | ⟨subscription, hfound, hdue, _, h⟩ := reactivateIfSettled_cases invoice.subscriptionId
    (s.setInvoice { invoice with status, dunning := dunning' })
  · rw [h]
    exact .alone
  · rw [h]
    exact .told hfound (by rw [hdue]; decide) (by decide)

theorem startDunning_collects (env : Env) (s : State) (invoice : Invoice) :
    Collects s invoice (startDunning env s invoice).2 := by
  rw [startDunning]
  dsimp only
  split
  next => exact .alone
  next subscription hfound =>
    split_ifs with hstatus
    · refine .told hfound ?_ (by decide)
      rcases hstatus with h | h <;> rw [h] <;> decide
    · exact .alone

theorem failRetry_collects (env : Env) (s : State) (invoice : Invoice) (dunning : DunningState) :
    Collects s invoice (failRetry env s invoice dunning).2 := by
  rw [failRetry]
  dsimp only
  split
  next => exact .alone
  next =>
    split
    next => exact .alone
    next subscription hfound =>
      split_ifs with hfinal
      · exact .told hfound hfinal.2 (by decide)
      · exact .alone

/-! ## One subscription -/

theorem bills_congr (h : s'.invoices = s.invoices) : bills s' id = bills s id := by
  rw [bills, bills, h]

theorem eventsOf_congr (h : s'.usageEvents = s.usageEvents) : eventsOf s' id = eventsOf s id := by
  rw [eventsOf, eventsOf, h]

theorem turns_kept (hsubscription : s'.subscriptions id = s.subscriptions id)
    (hbills : bills s' id = bills s id) (hevents : eventsOf s' id = eventsOf s id)
    (hredemptions : s.promoRedemptions <+: s'.promoRedemptions) : Turns host env s id c s' :=
  ⟨_, .kept, hsubscription, by rw [hbills, List.append_nil], by rw [hevents, List.append_nil],
    by rwa [List.append_nil]⟩

/-- A call that writes one record, and adds nothing to the tables. -/
theorem turns_update {record : Subscription}
    (hsubscriptions : s'.subscriptions = Function.update s.subscriptions record.id (some record))
    (hbills : bills s' id = bills s id) (hevents : s'.usageEvents = s.usageEvents)
    (hredemptions : s'.promoRedemptions = s.promoRedemptions)
    (hself : record.id = id → Turned host env s id c { record := some record }) :
    Turns host env s id c s' := by
  by_cases he : record.id = id
  · refine ⟨_, hself he, ?_, ?_, ?_, ?_⟩
    · rw [hsubscriptions, he, Function.update_self]
    · rw [hbills, List.append_nil]
    · rw [eventsOf_congr hevents, List.append_nil]
    · rw [hredemptions, List.append_nil]
  · refine turns_kept ?_ hbills (eventsOf_congr hevents) (by rw [hredemptions])
    rw [hsubscriptions, Function.update_of_ne (Ne.symm he)]

/-- A call that redeems a promo code for the record that it writes. -/
theorem turns_redeemed {record : Subscription} {redemption : PromoRedemption}
    (hsubscriptions : s'.subscriptions = Function.update s.subscriptions record.id (some record))
    (hbills : bills s' id = bills s id) (hevents : s'.usageEvents = s.usageEvents)
    (hredemptions : s'.promoRedemptions = s.promoRedemptions ++ [redemption])
    (hself : record.id = id →
      Turned host env s id c { record := some record, redeemed := [redemption] }) :
    Turns host env s id c s' := by
  by_cases he : record.id = id
  · refine ⟨_, hself he, ?_, ?_, ?_, ?_⟩
    · rw [hsubscriptions, he, Function.update_self]
    · rw [hbills, List.append_nil]
    · rw [eventsOf_congr hevents, List.append_nil]
    · rw [hredemptions]
  · refine turns_kept ?_ hbills (eventsOf_congr hevents) ?_
    · rw [hsubscriptions, Function.update_of_ne (Ne.symm he)]
    · rw [hredemptions]
      exact List.prefix_append _ _

/-- A call that raises an invoice for a subscription and writes its record. -/
theorem turns_raised {record usagePlan kind untilMs}
    (hraised : Raised env s subscription usagePlan kind untilMs invoice t)
    (hrecord : record.id = subscription.id)
    (hself : subscription.id = id →
      Turned host env s id c { record := some record, raised := [invoice] }) :
    Turns host env s id c (t.setSubscription record) := by
  have hevents : (t.setSubscription record).usageEvents = s.usageEvents := by
    rw [hraised.state]
    rfl
  have hredemptions : (t.setSubscription record).promoRedemptions = s.promoRedemptions := by
    rw [hraised.state]
    rfl
  by_cases he : subscription.id = id
  · refine ⟨_, hself he, ?_, ?_, ?_, ?_⟩
    · rw [setSubscription_subscriptions, hrecord, he, Function.update_self]
    · rw [bills_congr (setSubscription_invoices _ _), ← he, hraised.bills_self]
    · rw [eventsOf_congr hevents, List.append_nil]
    · rw [hredemptions, List.append_nil]
  · refine turns_kept ?_ ?_ (eventsOf_congr hevents) (by rw [hredemptions])
    · rw [setSubscription_subscriptions, hrecord, Function.update_of_ne (Ne.symm he),
        hraised.subscriptions]
    · rw [bills_congr (setSubscription_invoices _ _), hraised.bills_other he]

theorem Collects.turns (hi : Indexed s) (hmem : invoice ∈ s.invoices)
    (h : Collects s invoice s') : Turns host env s id c s' := by
  cases h with
  | @alone status dunning =>
    exact turns_kept rfl (bills_setInvoice hi hmem rfl rfl) rfl List.prefix_rfl
  | @told status dunning subscription status' hfound hcancelled htrialing =>
    refine turns_update rfl ((bills_congr rfl).trans (bills_setInvoice hi hmem rfl rfl)) rfl rfl ?_
    intro he
    have hid := hi.subscriptions _ _ hfound
    refine .restated ?_ (fun htrial => absurd htrial htrialing) fun hc => absurd hc hcancelled
    rw [← he, hid]
    exact hfound

theorem settleChange_id : (settleChange env subscription currentPlan newPlan).id =
    subscription.id := by
  rw [settleChange]
  split_ifs <;> rfl

theorem Served.turns (h : Served host env s c s') (hi : Indexed s) (id : SubscriptionId) :
    Turns host env s id c s' := by
  have hindexed := fun {id' subscription} (hfound : s.subscriptions id' = some subscription) =>
    hi.subscriptions id' subscription hfound
  cases h with
  | planned => exact turns_kept rfl rfl rfl List.prefix_rfl
  | offered valid => exact turns_kept rfl rfl rfl List.prefix_rfl
  | withdrawn found => exact turns_kept rfl rfl rfl List.prefix_rfl
  | @redeemed id' code subscription plan promo found notCancelled noDiscount redeemable =>
    refine turns_redeemed rfl rfl rfl rfl fun he => ?_
    obtain rfl := (hindexed found).symm.trans he
    exact .discounted found notCancelled noDiscount redeemable
  | undiscounted found =>
    refine turns_update rfl rfl rfl rfl fun he => ?_
    obtain rfl := (hindexed found).symm.trans he
    exact .undiscounted found
  | subscribed planFound => exact turns_update rfl rfl rfl rfl fun he => .subscribed he.symm
  | @subscribedWith merchantId customerId planId trialDays promoCode plan promo planFound
      redeemable =>
    exact turns_redeemed (Function.update_idem _ _ _) rfl rfl rfl fun he =>
      .subscribedWith he.symm redeemable
  | @cancelled id' atPeriodEnd subscription found =>
    refine turns_update rfl rfl rfl rfl fun he => ?_
    obtain rfl := (hindexed found).symm.trans he
    refine .restated found ?_ ?_
    · split_ifs
      · exact fun htrial => htrial
      · exact fun htrial => absurd htrial (by decide)
    · intro hcancelled
      rw [hcancelled, ite_self]
  | switched resolved trialing =>
    refine turns_update rfl rfl rfl rfl fun he => ?_
    obtain rfl := (hindexed (resolvePlanChange_ok resolved).found).symm.trans he
    exact .switched resolved trialing
  | settled resolved notTrialing prorated immediate created =>
    refine turns_raised (createInvoice_ok created) settleChange_id fun he => ?_
    obtain rfl := (hindexed (resolvePlanChange_ok resolved).found).symm.trans he
    exact .settled resolved notTrialing prorated immediate (createInvoice_ok created)
  | rescheduled resolved notTrialing later =>
    refine turns_update rfl rfl rfl rfl fun he => ?_
    obtain rfl := (hindexed (resolvePlanChange_ok resolved).found).symm.trans he
    exact .rescheduled resolved notTrialing later
  | repeated recorded => exact turns_kept rfl rfl rfl List.prefix_rfl
  | @metered input subscription event found notCancelled unrecorded event_eq =>
    have hid := hindexed found
    have htarget : event.subscriptionId = subscription.id := by rw [event_eq]
    by_cases he : subscription.id = id
    · refine ⟨{ record := some (addUsage subscription event), recorded := [event] }, ?_, ?_, ?_, ?_,
        ?_⟩
      · obtain rfl := hid.symm.trans he
        exact .metered rfl found notCancelled unrecorded (by rw [event_eq, hid])
      · rw [← he]
        exact Function.update_self _ _ _
      · rw [List.append_nil]
        rfl
      · rw [eventsOf, eventsOf, storeUsage, List.filter_append, List.filter_singleton]
        simp [htarget, he]
      · exact (List.append_nil _).symm ▸ List.prefix_rfl
    · refine turns_kept (Function.update_of_ne (Ne.symm he) _ _) rfl ?_ List.prefix_rfl
      rw [eventsOf, eventsOf, storeUsage, List.filter_append, List.filter_singleton]
      simp [htarget, he]
  | @invoiced id' subscription plan invoice t found planFound created =>
    have hraised := createInvoice_ok created
    have hevents : s'.usageEvents = s.usageEvents := by rw [hraised.state]
    have hredemptions : s'.promoRedemptions = s.promoRedemptions := by rw [hraised.state]
    by_cases he : id' = id
    · subst he
      refine ⟨_, .invoiced found hraised, ?_, ?_, ?_, ?_⟩
      · rw [hraised.subscriptions, found]
      · rw [← hindexed found, hraised.bills_self]
      · rw [eventsOf_congr hevents, List.append_nil]
      · rw [hredemptions, List.append_nil]
    · exact turns_kept (by rw [hraised.subscriptions])
        (hraised.bills_other (by rwa [hindexed found])) (eventsOf_congr hevents)
        (by rw [hredemptions])
  | closed found planFound created =>
    refine turns_raised (createInvoice_ok created) rfl fun he => ?_
    obtain rfl := (hindexed found).symm.trans he
    exact .closed found (createInvoice_ok created)
  | configured => exact turns_kept rfl rfl rfl List.prefix_rfl
  | paid found payable => exact releasedState_collects.turns hi (invoice_found found).1
  | voided found unpaid => exact releasedState_collects.turns hi (invoice_found found).1
  | collected found payable => exact releasedState_collects.turns hi (invoice_found found).1
  | failed found payable first =>
    exact (startDunning_collects env s _).turns hi (invoice_found found).1
  | failedAgain found payable retrying =>
    exact (failRetry_collects env s _ _).turns hi (invoice_found found).1

/-! ## The tables stay indexed -/

theorem Indexed.update (hi : Indexed s) {record : Subscription}
    (hsubscriptions : s'.subscriptions = Function.update s.subscriptions record.id (some record))
    (hids : s'.invoices.map (·.id) = s.invoices.map (·.id))
    (hevents : (s'.usageEvents.map (·.id)).Nodup) : Indexed s' := by
  refine ⟨fun id subscription h => ?_, hids ▸ hi.invoices, hevents⟩
  rw [hsubscriptions] at h
  by_cases he : id = record.id
  · subst he
    rw [Function.update_self] at h
    exact congrArg Subscription.id (Option.some.inj h).symm
  · rw [Function.update_of_ne he] at h
    exact hi.subscriptions id subscription h

theorem Indexed.same (hi : Indexed s) (hsubscriptions : s'.subscriptions = s.subscriptions)
    (hids : s'.invoices.map (·.id) = s.invoices.map (·.id))
    (hevents : s'.usageEvents = s.usageEvents) : Indexed s' :=
  ⟨hsubscriptions ▸ hi.subscriptions, hids ▸ hi.invoices, hevents ▸ hi.events⟩

theorem setInvoice_ids : (s.setInvoice invoice).invoices.map (·.id) = s.invoices.map (·.id) := by
  rw [setInvoice_invoices, List.map_map]
  refine List.map_congr_left fun i _ => ?_
  by_cases he : i.id = invoice.id <;> simp [he]

theorem Collects.indexed (h : Collects s invoice s') (hi : Indexed s) : Indexed s' := by
  cases h with
  | alone => exact hi.same rfl setInvoice_ids rfl
  | told found => exact hi.update rfl setInvoice_ids hi.events

theorem nodup_snoc {α : Type} {f : α → String} {list : List α} {x : α}
    (h : (list.map f).Nodup) (hnew : ∀ y ∈ list, f y ≠ f x) : ((list ++ [x]).map f).Nodup := by
  rw [List.map_append, List.map_singleton, ← List.concat_eq_append, List.nodup_concat]
  refine ⟨fun hmem => ?_, h⟩
  obtain ⟨y, hy, he⟩ := List.mem_map.mp hmem
  exact hnew y hy he

theorem Raised.indexed {usagePlan kind untilMs}
    (h : Raised env s subscription usagePlan kind untilMs invoice t) (hfresh : Fresh s env.uuid)
    (hi : Indexed s) : Indexed t := by
  refine ⟨h.subscriptions ▸ hi.subscriptions, ?_, ?_⟩
  · rw [h.state]
    exact nodup_snoc hi.invoices fun old hold he => hfresh.2.2.1 old hold (he.trans h.id_eq)
  · rw [h.state]
    exact hi.events

theorem Served.indexed (h : Served host env s c s') (hfresh : Fresh s env.uuid)
    (hi : Indexed s) : Indexed s' := by
  cases h with
  | planned => exact hi.same rfl rfl rfl
  | offered valid => exact hi.same rfl rfl rfl
  | withdrawn found => exact hi.same rfl rfl rfl
  | redeemed found notCancelled noDiscount redeemable => exact hi.update rfl rfl hi.events
  | undiscounted found => exact hi.update rfl rfl hi.events
  | subscribed planFound => exact hi.update rfl rfl hi.events
  | subscribedWith planFound redeemable =>
    exact hi.update (Function.update_idem _ _ _) rfl hi.events
  | cancelled found => exact hi.update rfl rfl hi.events
  | switched resolved trialing => exact hi.update rfl rfl hi.events
  | settled resolved notTrialing prorated immediate created =>
    have ht := (createInvoice_ok created).indexed hfresh hi
    exact ht.update rfl rfl ht.events
  | rescheduled resolved notTrialing later => exact hi.update rfl rfl hi.events
  | repeated recorded => exact hi
  | metered found notCancelled unrecorded event_eq =>
    refine hi.update rfl rfl (nodup_snoc hi.events fun old hold he => ?_)
    exact hfresh.2.2.2 old hold (he.trans (by rw [event_eq]))
  | invoiced found planFound created => exact (createInvoice_ok created).indexed hfresh hi
  | closed found planFound created =>
    have ht := (createInvoice_ok created).indexed hfresh hi
    exact ht.update rfl rfl ht.events
  | configured => exact hi.same rfl rfl rfl
  | paid found payable => exact releasedState_collects.indexed hi
  | voided found unpaid => exact releasedState_collects.indexed hi
  | collected found payable => exact releasedState_collects.indexed hi
  | failed found payable first => exact (startDunning_collects env s _).indexed hi
  | failedAgain found payable retrying => exact (failRetry_collects env s _ _).indexed hi

theorem start_indexed : Indexed start := by
  refine ⟨fun _ _ h => ?_, List.nodup_nil, List.nodup_nil⟩
  contradiction

/-- A call that is made changes nothing for a subscription, or it has one of the effects. -/
theorem commit_leads (host : Host) (hi : Indexed s) (a : Env × Call) (id : SubscriptionId) :
    Indexed (commit (service host) s a) ∧ (commit (service host) s a = s ∨
      Fresh s a.1.uuid ∧ ∃ e, Turned host a.1 s id a.2 e ∧
        Leads s id e (commit (service host) s a)) := by
  obtain ⟨hfresh, h⟩ | h := service_cases host s a
  · exact ⟨h.indexed hfresh hi, .inr ⟨hfresh, h.turns hi id⟩⟩
  · exact ⟨h.symm ▸ hi, .inl h⟩

end Billing
