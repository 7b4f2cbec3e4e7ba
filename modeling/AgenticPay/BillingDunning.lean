import AgenticPay.BillingCoverage

/-!
# Past due

A subscription is past due while an invoice of it is retried. It stays so when all retries have
failed and the merchant keeps the subscription, until an invoice of it is paid or void.
-/
namespace Billing

open Transaction

/-- The invoice is retried. -/
def Invoice.Retrying (invoice : Invoice) : Prop := invoice.retrying?.isSome = true

/-- All retries have failed, and the subscription has been kept. -/
def Invoice.GivenUp (invoice : Invoice) : Prop :=
  invoice.status = .uncollectible ∧ ∃ dunning ∈ invoice.dunning,
    dunning.status = .exhausted ∧ dunning.finalAction = .markUncollectible

/-- The subscription has an invoice of the kind. -/
def HasInvoice (s : State) (id : SubscriptionId) (p : Invoice → Prop) : Prop :=
  ∃ invoice ∈ s.invoices, invoice.subscriptionId = id ∧ p invoice

/-- A subscription that is not cancelled is past due while an invoice of it is retried, and it is
past due only for an invoice that is retried or given up. -/
structure PastDueFor (s : State) (id : SubscriptionId) (subscription : Subscription) : Prop where
  retried : HasInvoice s id Invoice.Retrying → subscription.status = .pastDue
  reason : subscription.status = .pastDue →
    HasInvoice s id fun invoice => invoice.Retrying ∨ invoice.GivenUp

variable {host : Host} {env : Env} {s s' t : State} {id : SubscriptionId} {invoice : Invoice}
  {subscription record : Subscription} {c : Call}

structure Dunned (s : State) : Prop where
  indexed : Indexed s
  known : ∀ invoice ∈ s.invoices, s.subscriptions invoice.subscriptionId ≠ none
  due : ∀ id, ∀ subscription ∈ s.subscriptions id, subscription.status ≠ .cancelled →
    PastDueFor s id subscription

/-! ## Calls that collect nothing -/

/-- How a record is replaced by a call that collects nothing. -/
inductive Follows (s : State) (record : Subscription) : Prop
  | same {old} (found : s.subscriptions record.id = some old) (status : record.status = old.status)
  | cancelled (found : s.subscriptions record.id ≠ none) (status : record.status = .cancelled)
  | converted {old} (found : s.subscriptions record.id = some old) (trial : old.status = .trialing)
      (status : record.status = .active)
  | joined (new : s.subscriptions record.id = none) (status : record.status ≠ .pastDue)

/-- What such a call does to the subscriptions and the invoices. -/
inductive Leaves (s s' : State) : Prop
  | same (subscriptions : s'.subscriptions = s.subscriptions) (invoices : s'.invoices = s.invoices)
  | restated {written : Subscription} (follows : Follows s written)
      (subscriptions : s'.subscriptions = Function.update s.subscriptions written.id (some written))
      (invoices : s'.invoices = s.invoices)
  | invoiced {written : Subscription} {raised : Invoice} (follows : Follows s written)
      (subscriptions : s'.subscriptions = Function.update s.subscriptions written.id (some written))
      (invoices : s'.invoices = s.invoices ++ [raised])
      (owner : raised.subscriptionId = written.id) (untried : raised.dunning = none)

theorem not_retrying_of_none (h : invoice.dunning = none) : ¬ invoice.Retrying := by
  simp [Invoice.Retrying, Invoice.retrying?, h]

theorem Dunned.follows (h : Dunned s) (hf : Follows s record)
    (hactive : record.status ≠ .cancelled) : PastDueFor s record.id record := by
  cases hf with
  | @same old found status =>
    have hold := h.due _ _ found (status ▸ hactive)
    exact ⟨fun hr => status.trans (hold.retried hr), fun hp => hold.reason (status.symm.trans hp)⟩
  | cancelled found status => exact absurd status hactive
  | @converted old found trial status =>
    have hold := h.due _ _ found (by rw [trial]; decide)
    refine ⟨fun hr => ?_, fun hp => ?_⟩
    · exact absurd (trial.symm.trans (hold.retried hr)) (by decide)
    · exact absurd (status.symm.trans hp) (by decide)
  | joined new status =>
    refine ⟨fun ⟨invoice, hmem, hid, _⟩ => ?_, fun hp => absurd hp status⟩
    exact absurd new (hid ▸ h.known invoice hmem)

/-- A record that is written, with invoices that have the same retries as before. -/
theorem PastDueFor.mono (h : PastDueFor s id subscription)
    (hr : HasInvoice s' id Invoice.Retrying → HasInvoice s id Invoice.Retrying)
    (hg : ∀ invoice ∈ s.invoices, invoice.Retrying ∨ invoice.GivenUp → invoice ∈ s'.invoices) :
    PastDueFor s' id subscription := by
  refine ⟨fun hretrying => h.retried (hr hretrying), fun hdue => ?_⟩
  obtain ⟨invoice, hmem, hid, hreason⟩ := h.reason hdue
  exact ⟨invoice, hg invoice hmem hreason, hid, hreason⟩

theorem Dunned.written (h : Dunned s) (hi : Indexed s') (hf : Follows s record)
    (hsubscriptions : s'.subscriptions = Function.update s.subscriptions record.id (some record))
    (hknown : ∀ invoice ∈ s'.invoices, s'.subscriptions invoice.subscriptionId ≠ none)
    (hr : ∀ id, HasInvoice s' id Invoice.Retrying → HasInvoice s id Invoice.Retrying)
    (hg : ∀ invoice ∈ s.invoices, invoice.Retrying ∨ invoice.GivenUp → invoice ∈ s'.invoices) :
    Dunned s' := by
  refine ⟨hi, hknown, fun id subscription hfound hactive => ?_⟩
  rw [hsubscriptions] at hfound
  by_cases he : id = record.id
  · subst he
    rw [Function.update_self] at hfound
    obtain rfl := Option.some.inj hfound
    exact (h.follows hf hactive).mono (hr _) hg
  · rw [Function.update_of_ne he] at hfound
    exact (h.due id subscription hfound hactive).mono (hr id) hg

theorem known_update (h : s.subscriptions id ≠ none) :
    Function.update s.subscriptions record.id (some record) id ≠ none := by
  by_cases he : id = record.id
  · subst he
    rw [Function.update_self]
    exact Option.some_ne_none _
  · rwa [Function.update_of_ne he]

theorem Dunned.after (h : Dunned s) (hi : Indexed s') (hl : Leaves s s') : Dunned s' := by
  cases hl with
  | same subscriptions invoices =>
    refine ⟨hi, by rw [invoices, subscriptions]; exact h.known, fun id subscription hfound ha => ?_⟩
    have hold := h.due id subscription (subscriptions ▸ hfound) ha
    refine hold.mono (fun ⟨invoice, hmem, hr⟩ => ⟨invoice, invoices ▸ hmem, hr⟩) ?_
    exact fun invoice hmem _ => invoices ▸ hmem
  | @restated record follows subscriptions invoices =>
    refine h.written hi follows subscriptions ?_ ?_ fun invoice hmem _ => invoices ▸ hmem
    · rw [invoices, subscriptions]
      exact fun invoice hmem => known_update (h.known invoice hmem)
    · exact fun id ⟨invoice, hmem, hr⟩ => ⟨invoice, invoices ▸ hmem, hr⟩
  | @invoiced record raised follows subscriptions invoices owner untried =>
    refine h.written hi follows subscriptions ?_ ?_ ?_
    · rw [invoices, subscriptions]
      intro invoice hmem
      rcases List.mem_append.mp hmem with hold | hnew
      · exact known_update (h.known invoice hold)
      · rw [List.mem_singleton.mp hnew, owner, Function.update_self]
        exact Option.some_ne_none _
    · rintro id ⟨invoice, hmem, hid, hr⟩
      rw [invoices] at hmem
      rcases List.mem_append.mp hmem with hold | hnew
      · exact ⟨invoice, hold, hid, hr⟩
      · rw [List.mem_singleton.mp hnew] at hr
        exact absurd hr (not_retrying_of_none untried)
    · intro invoice hmem _
      rw [invoices]
      exact List.mem_append_left _ hmem

/-! ## Collection -/

theorem mem_setInvoice {old new j : Invoice} (hmem : old ∈ s.invoices) (hid : new.id = old.id) :
    j ∈ (s.setInvoice new).invoices ↔ j = new ∨ j ∈ s.invoices ∧ j.id ≠ old.id := by
  rw [setInvoice_invoices, List.mem_map]
  constructor
  · rintro ⟨i, hi, rfl⟩
    split_ifs with he
    · exact .inl rfl
    · exact .inr ⟨hi, fun h => he (h.trans hid.symm)⟩
  · rintro (rfl | ⟨hj, hne⟩)
    · exact ⟨old, hmem, if_pos hid.symm⟩
    · exact ⟨j, hj, if_neg fun h => hne (h.trans hid)⟩

theorem hasInvoice_setInvoice {old new : Invoice} {p : Invoice → Prop} (hmem : old ∈ s.invoices)
    (hid : new.id = old.id) (h : HasInvoice (s.setInvoice new) id p) :
    p new ∨ HasInvoice s id p := by
  obtain ⟨j, hj, hjid, hp⟩ := h
  obtain rfl | ⟨hold, _⟩ := (mem_setInvoice hmem hid).mp hj
  · exact .inl hp
  · exact .inr ⟨j, hold, hjid, hp⟩

theorem hasInvoice_kept {old new : Invoice} {p : Invoice → Prop} (hi : Indexed s)
    (hmem : old ∈ s.invoices) (hid : new.id = old.id) (h : HasInvoice s id p)
    (hold : old.subscriptionId = id → ¬ p old) : HasInvoice (s.setInvoice new) id p := by
  obtain ⟨j, hj, hjid, hp⟩ := h
  refine ⟨j, (mem_setInvoice hmem hid).mpr (.inr ⟨hj, fun he => ?_⟩), hjid, hp⟩
  obtain rfl := List.inj_on_of_nodup_map hi.invoices hj hmem he
  exact hold hjid hp

/-- The collection of an invoice concerns its own subscription. -/
theorem Dunned.collected {old new : Invoice} (h : Dunned s) (hi : Indexed s')
    (hmem : old ∈ s.invoices) (hid : new.id = old.id)
    (howner : new.subscriptionId = old.subscriptionId)
    (hinvoices : s'.invoices = (s.setInvoice new).invoices)
    (hothers : ∀ id, id ≠ old.subscriptionId → s'.subscriptions id = s.subscriptions id)
    (hknown : s'.subscriptions old.subscriptionId ≠ none)
    (hdue : ∀ subscription ∈ s'.subscriptions old.subscriptionId,
      subscription.status ≠ .cancelled → PastDueFor s' old.subscriptionId subscription) :
    Dunned s' := by
  have hhas : ∀ {id p}, HasInvoice s' id p ↔ HasInvoice (s.setInvoice new) id p := by
    intro id p
    rw [HasInvoice, HasInvoice, hinvoices]
  refine ⟨hi, fun invoice hinvoice => ?_, fun id subscription hfound ha => ?_⟩
  · by_cases he : invoice.subscriptionId = old.subscriptionId
    · rwa [he]
    · rw [hothers _ he]
      rw [hinvoices] at hinvoice
      obtain rfl | ⟨hold, _⟩ := (mem_setInvoice hmem hid).mp hinvoice
      · exact absurd howner he
      · exact h.known invoice hold
  · by_cases he : id = old.subscriptionId
    · subst he
      exact hdue subscription hfound ha
    · have hbefore := h.due id subscription (hothers id he ▸ hfound) ha
      refine ⟨fun hr => ?_, fun hp => ?_⟩
      · obtain ⟨j, hj, hjid, hr⟩ := hhas.mp hr
        obtain rfl | ⟨hold, _⟩ := (mem_setInvoice hmem hid).mp hj
        · exact absurd (hjid.symm.trans howner) he
        · exact hbefore.retried ⟨j, hold, hjid, hr⟩
      · exact hhas.mpr (hasInvoice_kept h.indexed hmem hid (hbefore.reason hp)
          fun hold => absurd hold.symm he)

section Collected

variable {old new : Invoice} {status : SubscriptionStatus}

theorem Dunned.alone (h : Dunned s) (hi : Indexed (s.setInvoice new)) (hmem : old ∈ s.invoices)
    (hid : new.id = old.id) (howner : new.subscriptionId = old.subscriptionId)
    (hfound : s.subscriptions old.subscriptionId = some subscription)
    (hdue : subscription.status ≠ .cancelled →
      PastDueFor (s.setInvoice new) old.subscriptionId subscription) :
    Dunned (s.setInvoice new) := by
  refine h.collected hi hmem hid howner rfl (fun _ _ => rfl) (h.known old hmem) ?_
  intro after hafter ha
  obtain rfl := Option.some.inj (hfound.symm.trans hafter)
  exact hdue ha

theorem Dunned.told (h : Dunned s)
    (hi : Indexed ((s.setInvoice new).setSubscription { subscription with status }))
    (hmem : old ∈ s.invoices) (hid : new.id = old.id)
    (howner : new.subscriptionId = old.subscriptionId)
    (hfound : s.subscriptions old.subscriptionId = some subscription)
    (hdue : status ≠ .cancelled →
      PastDueFor (s.setInvoice new) old.subscriptionId { subscription with status }) :
    Dunned ((s.setInvoice new).setSubscription { subscription with status }) := by
  have hindexed := h.indexed.subscriptions _ _ hfound
  have hself : ((s.setInvoice new).setSubscription { subscription with status }).subscriptions
      old.subscriptionId = some { subscription with status } := by
    rw [← hindexed]
    exact Function.update_self _ _ _
  refine h.collected hi hmem hid howner rfl (fun id he => ?_) ?_ fun after hafter ha => ?_
  · exact Function.update_of_ne (fun h => he (h.trans hindexed)) _ _
  · rw [hself]
    exact Option.some_ne_none _
  · obtain rfl := Option.some.inj (hself.symm.trans hafter)
    have hdue' := hdue ha
    exact ⟨hdue'.retried, hdue'.reason⟩

/-- An invoice that is paid or void is not retried. -/
theorem Dunned.released (h : Dunned s) (hi : Indexed (releasedState s new))
    (hmem : old ∈ s.invoices) (hid : new.id = old.id)
    (howner : new.subscriptionId = old.subscriptionId) (hnew : ¬ new.Retrying) :
    Dunned (releasedState s new) := by
  obtain ⟨subscription, hfound⟩ := Option.ne_none_iff_exists'.mp (h.known old hmem)
  rw [releasedState, howner, reactivateIfSettled, setInvoice_subscriptions, hfound] at hi ⊢
  dsimp only at hi ⊢
  split_ifs at hi ⊢ with hsettled
  · refine h.told hi hmem hid howner hfound fun _ => ⟨?_, fun hp => ?_⟩
    · rintro ⟨j, hj, hjid, hr⟩
      exact absurd ⟨j, hj, hjid, hr⟩ hsettled.2
    · exact absurd (show SubscriptionStatus.active = .pastDue from hp) (by decide)
  · refine h.alone hi hmem hid howner hfound fun ha => ⟨fun hr => ?_, fun hp => ?_⟩
    · exact (h.due _ _ hfound ha).retried ((hasInvoice_setInvoice hmem hid hr).resolve_left hnew)
    · by_contra hnone
      refine hsettled ⟨hp, ?_⟩
      rintro ⟨j, hj, hjid, hr⟩
      exact hnone ⟨j, hj, hjid, .inl hr⟩

theorem hasInvoice_new {p : Invoice → Prop} (hmem : old ∈ s.invoices) (hid : new.id = old.id)
    (howner : new.subscriptionId = old.subscriptionId) (hp : p new) :
    HasInvoice (s.setInvoice new) old.subscriptionId p :=
  ⟨new, (mem_setInvoice hmem hid).mpr (.inl rfl), howner, hp⟩

end Collected

theorem endRetries_not_retrying {status : DunningStatus} (h : status ≠ .retrying) :
    ¬ (endRetries invoice status).Retrying := by
  rw [Invoice.Retrying, Invoice.retrying?, endRetries]
  cases hr : invoice.retrying? with
  | none =>
    show ¬ invoice.retrying?.isSome = true
    rw [hr]
    decide
  | some dunning => simp [h]

theorem endRetries_subscriptionId (status : DunningStatus) :
    (endRetries invoice status).subscriptionId = invoice.subscriptionId := by
  rw [endRetries]
  split <;> rfl

theorem Dunned.started (h : Dunned s) (hi : Indexed (startDunning env s invoice).2)
    (hmem : invoice ∈ s.invoices) : Dunned (startDunning env s invoice).2 := by
  obtain ⟨subscription, hfound⟩ := Option.ne_none_iff_exists'.mp (h.known invoice hmem)
  rw [startDunning] at hi ⊢
  dsimp only [setInvoice_subscriptions] at hi ⊢
  rw [hfound] at hi ⊢
  dsimp only at hi ⊢
  split_ifs at hi ⊢ with hstatus
  · exact h.told hi hmem rfl rfl hfound fun _ => ⟨fun _ => rfl, fun _ =>
      hasInvoice_new hmem rfl rfl (.inl rfl)⟩
  · refine h.alone hi hmem rfl rfl hfound fun ha => ⟨fun _ => ?_, fun _ =>
      hasInvoice_new hmem rfl rfl (.inl rfl)⟩
    cases hs : subscription.status with
    | pastDue => rfl
    | cancelled => exact absurd hs ha
    | active => exact absurd (.inl hs) hstatus
    | trialing => exact absurd (.inr hs) hstatus

theorem Dunned.failed {dunning : DunningState} (h : Dunned s)
    (hi : Indexed (failRetry env s invoice dunning).2) (hmem : invoice ∈ s.invoices)
    (hretrying : invoice.retrying? = some dunning) :
    Dunned (failRetry env s invoice dunning).2 := by
  obtain ⟨subscription, hfound⟩ := Option.ne_none_iff_exists'.mp (h.known invoice hmem)
  obtain ⟨hdunning, hstatus⟩ := Option.filter_eq_some_iff.mp hretrying
  have hdue : subscription.status ≠ .cancelled → subscription.status = .pastDue := fun ha =>
    (h.due _ _ hfound ha).retried ⟨invoice, hmem, rfl, by rw [Invoice.Retrying, hretrying]; rfl⟩
  rw [failRetry] at hi ⊢
  dsimp only at hi ⊢
  split at hi
  next =>
    refine h.alone hi hmem rfl rfl hfound fun ha => ⟨fun _ => hdue ha, fun _ =>
      hasInvoice_new hmem rfl rfl (.inl ?_)⟩
    simpa [Invoice.Retrying, Invoice.retrying?, countAttempt] using hstatus
  next =>
    dsimp only [setInvoice_subscriptions] at hi ⊢
    rw [hfound] at hi ⊢
    dsimp only at hi ⊢
    split_ifs at hi ⊢ with hfinal
    · exact h.told hi hmem rfl rfl hfound fun ha => absurd rfl ha
    · refine h.alone hi hmem rfl rfl hfound fun ha => ⟨fun _ => hdue ha, fun _ =>
        hasInvoice_new hmem rfl rfl (.inr ⟨rfl, _, rfl, rfl, ?_⟩)⟩
      cases haction : dunning.finalAction with
      | markUncollectible => exact haction
      | cancelSubscription => exact absurd ⟨haction, ha⟩ hfinal

/-! ## Every run -/

theorem Raised.untried {usagePlan kind untilMs}
    (h : Raised env s subscription usagePlan kind untilMs invoice t) : invoice.dunning = none := by
  obtain ⟨shares, base, _, _, rfl⟩ := h.made
  rfl

theorem nextPeriod_follows {plan : BillingPlan} (hi : Indexed s)
    (hfound : s.subscriptions id = some subscription) :
    Follows s (nextPeriod subscription plan invoice) := by
  obtain rfl := hi.subscriptions id subscription hfound
  by_cases hcancel : subscription.cancelAtPeriodEnd = true
  · refine .cancelled (hfound ▸ Option.some_ne_none _) ?_
    exact if_pos hcancel
  · by_cases htrial : subscription.status = .trialing ∧
        ∃ trialEndsAt ∈ subscription.trialEndsAt, trialEndsAt ≤ invoice.periodEnd
    · refine .converted hfound htrial.1 ?_
      exact (if_neg hcancel).trans (if_pos htrial)
    · refine .same hfound ?_
      exact (if_neg hcancel).trans (if_neg htrial)

theorem settleChange_status {currentPlan newPlan : BillingPlan} :
    (settleChange env subscription currentPlan newPlan).status = subscription.status := by
  rw [settleChange]
  split_ifs <;> rfl

/-- A record of a subscription that is known, with the status that it has. -/
theorem Indexed.follows (hi : Indexed s) (hfound : s.subscriptions id = some subscription)
    (hid : record.id = subscription.id) (hstatus : record.status = subscription.status) :
    Follows s record :=
  .same (by rw [hid, hi.subscriptions id subscription hfound, hfound]) hstatus

theorem Dunned.restated (h : Dunned s) (hi : Indexed s')
    (hfound : s.subscriptions id = some subscription)
    (hsubscriptions : s'.subscriptions = Function.update s.subscriptions record.id (some record))
    (hinvoices : s'.invoices = s.invoices) (hid : record.id = subscription.id)
    (hstatus : record.status = subscription.status) : Dunned s' :=
  h.after hi (.restated (h.indexed.follows hfound hid hstatus) hsubscriptions hinvoices)

theorem Dunned.raised {usagePlan kind untilMs} (h : Dunned s)
    (hi : Indexed (t.setSubscription record))
    (hcreated : createInvoice env subscription usagePlan kind untilMs s = .ok (invoice, t))
    (hid : record.id = subscription.id) (hfollows : Follows s record) :
    Dunned (t.setSubscription record) := by
  have hmade := createInvoice_ok hcreated
  refine h.after hi (.invoiced hfollows ?_ ?_ (hmade.subscriptionId.trans hid.symm) hmade.untried)
  · rw [setSubscription_subscriptions, hmade.subscriptions]
  · rw [setSubscription_invoices, hmade.state]

theorem newSubscription_status (env : Env) (merchantId : MerchantId) (customerId : CustomerId)
    (plan : BillingPlan) (trialDays : ℚ) :
    (newSubscription env merchantId customerId plan trialDays).status ≠ .pastDue := by
  show (if 0 < trialDays then SubscriptionStatus.trialing else .active) ≠ .pastDue
  split_ifs <;> decide

theorem Served.dunned (h : Served host env s c s') (hfresh : Fresh s env.uuid) (hd : Dunned s) :
    Dunned s' := by
  have hi := h.indexed hfresh hd.indexed
  have hnew := Option.isNone_iff_eq_none.mp hfresh.1
  cases h with
  | planned | offered | withdrawn | configured => exact hd.after hi (.same rfl rfl)
  | repeated => exact hd
  | redeemed found | undiscounted found => exact hd.restated hi found rfl rfl rfl rfl
  | subscribed planFound =>
    exact hd.after hi (.restated (.joined hnew (newSubscription_status _ _ _ _ _)) rfl rfl)
  | @subscribedWith merchantId customerId _ trialDays _ plan _ planFound redeemable =>
    refine hd.after hi (.restated ?_ (Function.update_idem _ _ _) rfl)
    exact .joined hnew (newSubscription_status env merchantId customerId plan (trialDays.getD 0))
  | @cancelled id atPeriodEnd subscription found =>
    refine hd.after hi (.restated ?_ rfl rfl)
    have hid := hd.indexed.subscriptions id subscription found
    by_cases hlater : atPeriodEnd.getD false = true
    · exact hd.indexed.follows found rfl (if_pos hlater)
    · exact .cancelled (hid ▸ found ▸ Option.some_ne_none _) (if_neg hlater)
  | switched resolved trialing =>
    exact hd.restated hi (resolvePlanChange_ok resolved).found rfl rfl rfl rfl
  | rescheduled resolved notTrialing later =>
    exact hd.restated hi (resolvePlanChange_ok resolved).found rfl rfl rfl rfl
  | settled resolved notTrialing prorated immediate created =>
    exact hd.raised hi created settleChange_id (hd.indexed.follows
      (resolvePlanChange_ok resolved).found settleChange_id settleChange_status)
  | metered found notCancelled unrecorded event_eq => exact hd.restated hi found rfl rfl rfl rfl
  | @invoiced id subscription plan invoice t found planFound created =>
    -- the record that is there is written again
    have hmade := createInvoice_ok created
    have hsame : s'.setSubscription subscription = s' := by
      rw [State.setSubscription, hmade.subscriptions,
        hd.indexed.subscriptions id subscription found, ← found, Function.update_eq_self,
        ← hmade.subscriptions]
    rw [← hsame] at hi ⊢
    exact hd.raised hi created rfl (hd.indexed.follows found rfl rfl)
  | closed found planFound created =>
    exact hd.raised hi created rfl (nextPeriod_follows hd.indexed found)
  | paid found payable | voided found unpaid | collected found payable =>
    obtain ⟨hmem, _⟩ := invoice_found found
    exact hd.released hi hmem (endRetries_id _) (endRetries_subscriptionId _)
      (endRetries_not_retrying (by decide))
  | failed found payable first => exact hd.started hi (invoice_found found).1
  | failedAgain found payable retrying => exact hd.failed hi (invoice_found found).1 retrying

theorem start_dunned : Dunned start where
  indexed := start_indexed
  known := fun _ hmem => absurd hmem List.not_mem_nil
  due := fun _ _ hmem => absurd hmem.symm (Option.some_ne_none _)

theorem dunned_run (host : Host) (calls : List (Env × Call)) :
    Dunned (run (service host) start calls) := by
  refine run_preserves (I := Dunned) (fun s a h => ?_) start_dunned calls
  obtain ⟨hfresh, hserved⟩ | he := service_cases host s a
  · exact hserved.dunned hfresh h
  · rwa [he]

/-- After every run, a subscription that is not cancelled is past due while an invoice of it is
retried, and only for an invoice that is retried or has been given up. -/
theorem pastDueFor_run (host : Host) (calls : List (Env × Call)) (id : SubscriptionId)
    (subscription : Subscription)
    (hfound : (run (service host) start calls).subscriptions id = some subscription)
    (hactive : subscription.status ≠ .cancelled) :
    PastDueFor (run (service host) start calls) id subscription :=
  (dunned_run host calls).due id subscription hfound hactive

/-- A merchant who keeps subscriptions gives an invoice one retry. -/
def fails : List (Env × Call) := joins ++
  [atDay 0 "4" (.configureDunning "m" (some [1]) (some .markUncollectible)),
    atDay 30 "5" (.closeBillingPeriod "sub_3"),
    atDay 30 "6" (.recordPaymentAttempt "inv_5" false)]

theorem fails_pastDueFor : ∃ subscription,
    (run (service capitals) start fails).subscriptions "sub_3" = some subscription ∧
      subscription.status = .pastDue ∧
        PastDueFor (run (service capitals) start fails) "sub_3" subscription := by
  have hrun : ((run (service capitals) start fails).subscriptions "sub_3").map (·.status) =
      some .pastDue := by
    decide +kernel
  obtain ⟨subscription, hfound, hstatus⟩ := Option.map_eq_some_iff.mp hrun
  refine ⟨subscription, hfound, hstatus,
    pastDueFor_run capitals fails "sub_3" subscription hfound ?_⟩
  rw [hstatus]
  decide

/-- The retry fails too. -/
def failsTwice : List (Env × Call) := fails ++
  [atDay 31 "7" (.recordPaymentAttempt "inv_5" false)]

instance (s : State) (id : SubscriptionId) (p : Invoice → Prop) [DecidablePred p] :
    Decidable (HasInvoice s id p) :=
  inferInstanceAs (Decidable (∃ invoice ∈ s.invoices, invoice.subscriptionId = id ∧ p invoice))

instance : DecidablePred Invoice.Retrying := fun _ => inferInstanceAs (Decidable (_ = _))

/-- The subscription is past due, and nothing is retried. -/
theorem past_due_without_retries :
    ¬ ∀ (host : Host) (calls : List (Env × Call)) (id : SubscriptionId)
        (subscription : Subscription),
      (run (service host) start calls).subscriptions id = some subscription →
        subscription.status ≠ .cancelled →
          (subscription.status = .pastDue ↔
            HasInvoice (run (service host) start calls) id Invoice.Retrying) := by
  intro hall
  have hrun : ((run (service capitals) start failsTwice).subscriptions "sub_3").map (·.status) =
        some .pastDue ∧
      ¬ HasInvoice (run (service capitals) start failsTwice) "sub_3" Invoice.Retrying := by
    decide +kernel
  obtain ⟨subscription, hfound, hstatus⟩ := Option.map_eq_some_iff.mp hrun.1
  have hactive : subscription.status ≠ .cancelled := by
    rw [hstatus]
    decide
  exact hrun.2 ((hall capitals failsTwice "sub_3" subscription hfound hactive).mp hstatus)

end Billing
