import AgenticPay.BillingCoverage

/-!
# Usage is billed once

The counters of a subscription stand for the events since they were emptied last. Closing a period
and settling a change of the plan empty them when they have been invoiced; a direct invoice does
not.
-/
namespace Billing

open Transaction

variable {host : Host} {env : Env} {s s' t : State} {id : SubscriptionId}
  {subscription : Subscription} {invoice : Invoice} {event : UsageEvent} {c : Call}
  {entries : List (String × ℚ)} {e : Effect}

/-- The usage charges of at most one invoice count the event. -/
def BilledOnce (s : State) (event : UsageEvent) : Prop :=
  (s.invoices.filter fun i => event ∈ i.counted).length ≤ 1

/-- A direct invoice of the subscription finds no usage in the counters. -/
def InvoicesNoUsage (id : SubscriptionId) (s : State) : Env × Call → Prop
  | (_, .generateInvoice id') => id' = id →
      ∀ subscription ∈ s.subscriptions id, subscription.usage = []
  | _ => True

instance (id : SubscriptionId) (s : State) : (a : Env × Call) → Decidable (InvoicesNoUsage id s a)
  | (_, .generateInvoice id') => inferInstanceAs (Decidable (id' = id →
      ∀ subscription ∈ s.subscriptions id, subscription.usage = []))
  | (_, .createPlan ..) | (_, .createPromoCode ..) | (_, .deactivatePromoCode ..)
  | (_, .applyPromoCode ..) | (_, .removeDiscount ..) | (_, .subscribe ..)
  | (_, .cancelSubscription ..) | (_, .recordUsage ..) | (_, .changePlan ..)
  | (_, .closeBillingPeriod ..) | (_, .configureDunning ..) | (_, .recordPaymentAttempt ..)
  | (_, .markInvoicePaid ..) | (_, .voidInvoice ..) => isTrue trivial

/-! ## Counters -/

section Entries

variable {α : Type} {key key' : String} {value value' : α} {rest : List (String × α)}

theorem putEntry_ne_nil (list : List (String × α)) : putEntry list key value ≠ [] := by
  cases list with
  | nil => simp [putEntry]
  | cons first rest =>
    rw [putEntry]
    split_ifs <;> simp

theorem putEntry_other (h : ∀ entry ∈ rest, entry.1 ≠ key) :
    rest.map (fun entry => if entry.1 = key then (key, value) else entry) = rest := by
  refine (List.map_congr_left fun entry hmem => ?_).trans (List.map_id rest)
  rw [if_neg (h entry hmem)]
  rfl

theorem putEntry_cons_self (h : ∀ entry ∈ rest, entry.1 ≠ key) :
    putEntry ((key, value') :: rest) key value = (key, value) :: rest := by
  simp only [putEntry, List.any_cons, decide_true, Bool.true_or, if_true, List.map_cons]
  rw [putEntry_other h]

theorem putEntry_cons_ne (h : key' ≠ key) : putEntry ((key', value') :: rest) key value =
    (key', value') :: putEntry rest key value := by
  simp only [putEntry, List.any_cons, h, decide_false, Bool.false_or, List.map_cons, if_false]
  split_ifs <;> rfl

theorem lookup_replaced (hk : key' ≠ key) (rest : List (String × α)) :
    (rest.map fun entry => if entry.1 = key then (key, value) else entry).lookup key' =
      rest.lookup key' := by
  induction rest with
  | nil => rfl
  | cons first rest ih =>
    have hne : (key' == key) = false := by simpa using hk
    rw [List.map_cons, List.lookup_cons, List.lookup_cons, ih]
    by_cases hfirst : first.1 = key
    · rw [if_pos hfirst, hfirst, hne]
    · rw [if_neg hfirst]

theorem lookup_putEntry (list : List (String × α)) (key key' : String) (value : α) :
    (putEntry list key value).lookup key' =
      if key' = key then some value else list.lookup key' := by
  by_cases hk : key' = key
  · subst hk
    induction list with
    | nil => simp [putEntry]
    | cons first rest ih =>
      obtain ⟨first, old⟩ := first
      by_cases hfirst : first = key'
      · subst hfirst
        simp [putEntry]
      · have hne : (key' == first) = false := by simpa using Ne.symm hfirst
        rw [putEntry_cons_ne hfirst, List.lookup_cons, hne]
        simpa using ih
  · have hne : (key' == key) = false := by simpa using hk
    rw [putEntry, if_neg hk]
    split_ifs
    · exact lookup_replaced hk list
    · rw [List.lookup_append]
      simp [List.lookup_cons, hne]

theorem mem_putEntry {entry : String × α} (h : entry ∈ putEntry rest key value) :
    entry = (key, value) ∨ entry ∈ rest := by
  rw [putEntry] at h
  split_ifs at h
  · obtain ⟨old, hold, rfl⟩ := List.mem_map.mp h
    split_ifs
    · exact .inl rfl
    · exact .inr hold
  · rcases List.mem_append.mp h with hold | hnew
    · exact .inr hold
    · exact .inl (List.mem_singleton.mp hnew)

theorem keys_putEntry (h : (rest.map (·.1)).Nodup) :
    ((putEntry rest key value).map (·.1)).Nodup := by
  induction rest with
  | nil => simp [putEntry]
  | cons first rest ih =>
    obtain ⟨first, old⟩ := first
    rw [List.map_cons, List.nodup_cons] at h
    have hfirst : ∀ entry ∈ rest, entry.1 ≠ first := fun entry hmem he =>
      h.1 (List.mem_map.mpr ⟨entry, hmem, he⟩)
    by_cases hk : first = key
    · subst hk
      rw [putEntry_cons_self hfirst, List.map_cons, List.nodup_cons]
      exact h
    · rw [putEntry_cons_ne hk, List.map_cons, List.nodup_cons]
      refine ⟨fun hmem => ?_, ih h.2⟩
      obtain ⟨entry, hentry, he⟩ := List.mem_map.mp hmem
      rcases mem_putEntry hentry with rfl | hold
      · exact hk he.symm
      · exact hfirst entry hold he

end Entries

/-- Adding to an entry adds to the total. -/
theorem sum_putEntry (h : (entries.map (·.1)).Nodup) (key : String) (quantity : ℚ) :
    ((putEntry entries key ((entries.lookup key).getD 0 + quantity)).map (·.2)).sum =
      (entries.map (·.2)).sum + quantity := by
  induction entries with
  | nil => simp [putEntry]
  | cons first rest ih =>
    obtain ⟨first, old⟩ := first
    rw [List.map_cons, List.nodup_cons] at h
    by_cases hk : first = key
    · subst hk
      rw [putEntry_cons_self fun entry hmem he => h.1 (List.mem_map.mpr ⟨entry, hmem, he⟩)]
      simp [add_right_comm]
    · have hne : (key == first) = false := by simpa using Ne.symm hk
      rw [putEntry_cons_ne hk, List.lookup_cons, hne, List.map_cons, List.sum_cons, ih h.2]
      simp [add_assoc]

/-- The counters of a subscription stand for the events that they count. -/
structure Tallied (subscription : Subscription) : Prop where
  keys : (subscription.usage.map (·.1)).Nodup
  total : (subscription.usage.map (·.2)).sum = (subscription.counted.map (·.quantity)).sum
  readings : ∀ metric, subscription.meterReadings.lookup metric =
    (subscription.counted.filter (·.metric = metric)).foldl
      (fun reading event => some (applyReading reading event.quantity)) none
  empty : subscription.usage = [] → subscription.counted = []

theorem tallied_empty (husage : subscription.usage = [])
    (hreadings : subscription.meterReadings = []) (hcounted : subscription.counted = []) :
    Tallied subscription := by
  refine ⟨?_, ?_, fun metric => ?_, fun _ => hcounted⟩
  · rw [husage]
    exact List.nodup_nil
  · rw [husage, hcounted]
    rfl
  · rw [hreadings, hcounted]
    rfl

theorem Tallied.addUsage (h : Tallied subscription) (event : UsageEvent) :
    Tallied (addUsage subscription event) where
  keys := keys_putEntry h.keys
  total := by
    refine (sum_putEntry h.keys event.metric event.quantity).trans ?_
    rw [h.total]
    simp [Billing.addUsage]
  readings := by
    intro metric
    refine (lookup_putEntry _ _ _ _).trans ?_
    simp only [Billing.addUsage, List.filter_append, List.foldl_append]
    by_cases hm : metric = event.metric
    · subst hm
      simp [h.readings event.metric]
    · have hm' : ¬ event.metric = metric := fun he => hm he.symm
      simp [hm, hm', h.readings metric]
  empty := fun hnil => absurd hnil (putEntry_ne_nil _)

/-- The usage that a plan without meters charges is that of the events. -/
theorem Tallied.totalUnits (h : Tallied subscription) (plan : BillingPlan) :
    (overageCharges subscription plan).totalUnits = (subscription.counted.map (·.quantity)).sum :=
  h.total

/-! ## One subscription -/

def countedBy (record : Option Subscription) : List UsageEvent := (record.map (·.counted)).getD []

/-- The events of a subscription that are invoiced or still counted. -/
def accounted (s : State) (id : SubscriptionId) : List UsageEvent :=
  (bills s id).flatMap (·.counted) ++ countedBy (s.subscriptions id)

/-- What an effect does to the events that are counted. -/
inductive Counts (c : Call) (id : SubscriptionId) (old : List UsageEvent) (e : Effect) : Prop
  | same (record : countedBy e.record = old) (raised : e.raised = []) (recorded : e.recorded = [])
  | adds (event : UsageEvent) (record : countedBy e.record = old ++ [event])
      (raised : e.raised = []) (recorded : e.recorded = [event])
  | empties (invoice : Invoice) (counted : invoice.counted = old) (record : countedBy e.record = [])
      (raised : e.raised = [invoice]) (recorded : e.recorded = [])
  | copies (invoice : Invoice) (direct : c = .generateInvoice id) (counted : invoice.counted = old)
      (record : countedBy e.record = old) (raised : e.raised = [invoice])
      (recorded : e.recorded = [])

theorem Raised.counted {usagePlan kind until?}
    (h : Raised env s subscription usagePlan kind until? invoice t) :
    invoice.counted = subscription.counted := by
  obtain ⟨shares, base, _, _, rfl⟩ := h.made
  rfl

theorem countedBy_found (h : s.subscriptions id = some subscription) :
    countedBy (s.subscriptions id) = subscription.counted := by
  rw [h]
  rfl

theorem Turned.counts (h : Turned host env s id c e) (hfresh : Fresh s env.uuid) :
    Counts c id (countedBy (s.subscriptions id)) e := by
  have hnew : id = "sub_" ++ env.uuid → countedBy (s.subscriptions id) = [] := by
    rintro rfl
    rw [Option.isNone_iff_eq_none.mp hfresh.1]
    rfl
  cases h with
  | kept => exact .same rfl rfl rfl
  | restated found => exact .same (countedBy_found found).symm rfl rfl
  | discounted found => exact .same (countedBy_found found).symm rfl rfl
  | undiscounted found => exact .same (countedBy_found found).symm rfl rfl
  | subscribed new => exact .same (hnew new).symm rfl rfl
  | subscribedWith new => exact .same (hnew new).symm rfl rfl
  | switched resolved =>
    exact .same (countedBy_found (resolvePlanChange_ok resolved).found).symm rfl rfl
  | @settled planId behavior subscription currentPlan newPlan invoice t resolved notTrialing
      prorated immediate raised =>
    refine .empties invoice ?_ ?_ rfl rfl
    · rw [countedBy_found (resolvePlanChange_ok resolved).found, raised.counted]
    · rw [settleChange]
      split_ifs <;> rfl
  | rescheduled resolved =>
    exact .same (countedBy_found (resolvePlanChange_ok resolved).found).symm rfl rfl
  | metered target found =>
    exact .adds _ (by rw [countedBy_found found]; rfl) rfl rfl
  | invoiced found raised =>
    exact .copies _ rfl (by rw [countedBy_found found, raised.counted])
      (countedBy_found found).symm rfl rfl
  | closed found raised =>
    exact .empties _ (by rw [countedBy_found found, raised.counted]) rfl rfl rfl

theorem Turned.tallied (h : Turned host env s id c e)
    (ht : ∀ subscription ∈ s.subscriptions id, Tallied subscription) :
    ∀ subscription ∈ e.record, Tallied subscription := by
  cases h with
  | kept => exact ht
  | restated found | discounted found | undiscounted found | invoiced found =>
    rintro _ ⟨⟩
    have h := ht _ found
    exact ⟨h.keys, h.total, h.readings, h.empty⟩
  | switched resolved | rescheduled resolved =>
    rintro _ ⟨⟩
    have h := ht _ (resolvePlanChange_ok resolved).found
    exact ⟨h.keys, h.total, h.readings, h.empty⟩
  | subscribed | subscribedWith | closed =>
    rintro _ ⟨⟩
    exact tallied_empty rfl rfl rfl
  | settled resolved =>
    rintro _ ⟨⟩
    rw [settleChange]
    split_ifs <;> exact tallied_empty rfl rfl rfl
  | metered target found =>
    rintro _ ⟨⟩
    exact (ht _ found).addUsage _

/-- What is invoiced or counted has been recorded for the subscription. -/
theorem accounted_subset (h : Turned host env s id c e) (hfresh : Fresh s env.uuid)
    (hl : Leads s id e s') (hs : accounted s id ⊆ eventsOf s id) :
    accounted s' id ⊆ eventsOf s' id := by
  rw [accounted] at hs ⊢
  rw [hl.bills, hl.events, hl.record, List.flatMap_append]
  obtain ⟨hbilled, hcounted⟩ := List.append_subset.mp hs
  have hold : eventsOf s id ⊆ eventsOf s id ++ e.recorded := List.subset_append_left _ _
  refine List.append_subset.mpr ⟨List.append_subset.mpr ⟨List.Subset.trans hbilled hold, ?_⟩, ?_⟩
  · cases h.counts hfresh with
    | same record raised recorded | adds event record raised recorded =>
      rw [raised]
      exact List.nil_subset _
    | empties invoice counted record raised recorded
    | copies invoice direct counted record raised recorded =>
      rw [raised, List.flatMap_singleton, counted]
      exact List.Subset.trans hcounted hold
  · cases h.counts hfresh with
    | same record raised recorded | copies invoice direct counted record raised recorded =>
      rw [record]
      exact List.Subset.trans hcounted hold
    | adds event record raised recorded =>
      rw [record, recorded]
      exact List.append_subset.mpr ⟨List.Subset.trans hcounted (List.subset_append_left _ _),
        List.subset_append_right _ _⟩
    | empties invoice counted record raised recorded =>
      rw [record]
      exact List.nil_subset _

/-- Every event is invoiced or counted, once, in the order of the events. -/
theorem accounted_eq (h : Turned host env s id c e) (hfresh : Fresh s env.uuid)
    (hl : Leads s id e s') (ht : ∀ subscription ∈ s.subscriptions id, Tallied subscription)
    (hq : InvoicesNoUsage id s (env, c)) (hs : accounted s id = eventsOf s id) :
    accounted s' id = eventsOf s' id := by
  rw [accounted] at hs ⊢
  rw [hl.bills, hl.events, hl.record, ← hs, List.flatMap_append]
  cases h.counts hfresh with
  | same record raised recorded =>
    rw [record, raised, recorded, List.flatMap_nil, List.append_nil, List.append_nil]
  | adds event record raised recorded =>
    rw [record, raised, recorded, List.flatMap_nil, List.append_nil, List.append_assoc]
  | empties invoice counted record raised recorded =>
    rw [record, raised, recorded, List.flatMap_singleton, counted, List.append_nil]
  | copies invoice direct counted record raised recorded =>
    subst direct
    -- a direct invoice is empty
    have hempty : countedBy (s.subscriptions id) = [] := by
      cases hfound : s.subscriptions id with
      | none => rfl
      | some subscription => exact (ht _ hfound).empty (hq rfl _ hfound)
    rw [record, raised, recorded, List.flatMap_singleton, counted, hempty,
      List.append_nil]

/-! ## Every run -/

/-- The counters are those of the events, and no event is invoiced for another subscription. -/
structure Metered (s : State) : Prop where
  indexed : Indexed s
  tallied : ∀ id, ∀ subscription ∈ s.subscriptions id, Tallied subscription
  recorded : ∀ id, accounted s id ⊆ eventsOf s id

theorem start_metered : Metered start := by
  refine ⟨start_indexed, fun id subscription hmem => ?_, fun id => List.nil_subset _⟩
  contradiction

theorem Metered.commit (h : Metered s) (a : Env × Call) :
    Metered (commit (service host) s a) := by
  have hleads := commit_leads host h.indexed a
  refine ⟨(hleads "").1, fun id => ?_, fun id => ?_⟩
  · obtain he | ⟨hfresh, e, hturned, hl⟩ := (hleads id).2
    · rw [he]
      exact h.tallied id
    · rw [hl.record]
      exact hturned.tallied (h.tallied id)
  · obtain he | ⟨hfresh, e, hturned, hl⟩ := (hleads id).2
    · rw [he]
      exact h.recorded id
    · exact accounted_subset hturned hfresh hl (h.recorded id)

theorem Metered.subscriptionId (h : Metered s) (hmem : invoice ∈ s.invoices)
    (hcounted : event ∈ invoice.counted) :
    invoice.subscriptionId = event.subscriptionId := by
  have hin := h.recorded _
    (List.mem_append_left _ (List.mem_flatMap.mpr ⟨_, bill_mem_bills hmem, hcounted⟩))
  exact (of_decide_eq_true (List.mem_filter.mp hin).2).symm

theorem billedOnce_of_accounted (h : Metered s) (hs : accounted s id = eventsOf s id)
    (hid : event.subscriptionId = id) : BilledOnce s event := by
  have hnodup : ((bills s id).flatMap (·.counted)).Nodup := by
    have hevents : (eventsOf s id).Nodup := h.indexed.events.of_map.filter _
    rw [← hs, accounted] at hevents
    exact hevents.of_append_left
  have honce : ((bills s id).filter fun i => event ∈ i.counted).length ≤ 1 := by
    refine filter_length_le_one (List.nodup_flatMap.mp hnodup).2 ?_
    intro i j hij hi hj
    exact hij hi hj
  have hsame : (bills s id).filter (fun i => event ∈ i.counted) =
      (s.invoices.filter fun i => event ∈ i.counted).map Invoice.bill :=
    filter_bills (fun i => rfl) fun i hmem hcounted =>
      (h.subscriptionId hmem (of_decide_eq_true hcounted)).trans hid
  rw [hsame, List.length_map] at honce
  exact honce

/-- Every event of a subscription is billed at most once, after every run in which direct invoices
of it find no usage. -/
theorem billedOnce_of_invoicesNoUsage (host : Host) (id : SubscriptionId)
    (calls : List (Env × Call)) (h : Along (service host) (InvoicesNoUsage id) start calls) :
    ∀ event ∈ (run (service host) start calls).usageEvents, event.subscriptionId = id →
      BilledOnce (run (service host) start calls) event := by
  have hinvariant := run_invariant
    (I := fun s => Metered s ∧ accounted s id = eventsOf s id) ?_ ⟨start_metered, rfl⟩ h
  · exact fun _ _ hid => billedOnce_of_accounted hinvariant.1 hinvariant.2 hid
  · intro s a hi hq
    refine ⟨hi.1.commit a, ?_⟩
    obtain ⟨-, he | ⟨hfresh, e, hturned, hl⟩⟩ := commit_leads host hi.1.indexed a id
    · rw [he]
      exact hi.2
    · exact accounted_eq hturned hfresh hl (hi.1.tallied id) hq hi.2

/-- A plan that charges for every unit that is used, and a customer who uses five. -/
def meters : List (Env × Call) :=
  [atDay 0 "1" (.createPlan {
      id := some "api", name := "api", currency := none, basePrice := 0, includedUnits := none,
      overageUnitPrice := some 2, tiers := none, meters := none, billingInterval := none }),
    atDay 0 "2" (.subscribe "m" "c" "api" none none),
    atDay 1 "3" (.recordUsage ⟨"sub_2", "calls", 5, none⟩)]

/-- Two periods are closed. -/
def closesTwice : List (Env × Call) := meters ++
  [atDay 30 "4" (.closeBillingPeriod "sub_2"), atDay 60 "5" (.closeBillingPeriod "sub_2")]

theorem closesTwice_billedOnce :
    ((run (service capitals) start closesTwice).invoices.map (·.usageAmount)) = [10, 0] ∧
      ∀ event ∈ (run (service capitals) start closesTwice).usageEvents,
        event.subscriptionId = "sub_2" →
          BilledOnce (run (service capitals) start closesTwice) event := by
  have hrun : ((run (service capitals) start closesTwice).invoices.map (·.usageAmount)) = [10, 0] ∧
      Along (service capitals) (InvoicesNoUsage "sub_2") start closesTwice := by
    decide +kernel
  exact ⟨hrun.1, billedOnce_of_invoicesNoUsage capitals "sub_2" closesTwice hrun.2⟩

/-- An invoice in the middle of the period, and the one that closes it. -/
def invoicesBeforeClosing : List (Env × Call) := meters ++
  [atDay 10 "4" (.generateInvoice "sub_2"), atDay 30 "5" (.closeBillingPeriod "sub_2")]

/-- The five units are charged on both invoices. -/
theorem usage_charged_twice :
    ((run (service capitals) start invoicesBeforeClosing).invoices.map (·.usageAmount)) =
        [10, 10] ∧
      ¬ ∀ (host : Host) (calls : List (Env × Call)),
        ∀ event ∈ (run (service host) start calls).usageEvents,
          BilledOnce (run (service host) start calls) event := by
  have hrun : ((run (service capitals) start invoicesBeforeClosing).invoices.map (·.usageAmount)) =
      [10, 10] ∧ ∃ event ∈ (run (service capitals) start invoicesBeforeClosing).usageEvents,
        1 < ((run (service capitals) start invoicesBeforeClosing).invoices.filter
          fun i => event ∈ i.counted).length := by
    decide +kernel
  refine ⟨hrun.1, fun hall => ?_⟩
  obtain ⟨event, hmem, htwice⟩ := hrun.2
  exact absurd htwice (Nat.not_lt.mpr (hall capitals invoicesBeforeClosing event hmem))

end Billing
