import AgenticPay.BillingTariffs
import AgenticPay.BillingTurns

/-!
# What an invoice adds up to

Every line of an invoice is in whole cents, and so are the amounts that are computed apart from the
lines. Plans that have been created have prices that are not negative.
-/
namespace Billing

open Brackets Transaction

variable {host : Host} {env : Env} {s s' t : State} {c : Call} {subscription : Subscription}
  {plan usagePlan : BillingPlan} {invoice : Invoice} {units subtotal : ℚ}

/-! ## The plans of the service -/

/-- Every plan is as the checks of `createPlan` leave it. -/
def Stocked (s : State) : Prop := ∀ id plan, s.plans id = some plan → plan.Priced

theorem Collects.plans (h : Collects s invoice s') : s'.plans = s.plans := by
  cases h <;> rfl

/-- Only `createPlan` changes the plans. -/
theorem Served.plans (h : Served host env s c s') :
    s'.plans = s.plans ∨ ∃ input, c = .createPlan input := by
  have hraised : ∀ {subscription plan kind untilMs invoice t},
      createInvoice env subscription plan kind untilMs s = .ok (invoice, t) →
        t.plans = s.plans := by
    intro _ _ _ _ _ _ hcreated
    rw [(createInvoice_ok hcreated).state]
  cases h with
  | @planned input plan => exact .inr ⟨input, rfl⟩
  | settled resolved notTrialing prorated immediate created =>
    have h := hraised created
    exact .inl h
  | invoiced found planFound created | closed found planFound created =>
    have h := hraised created
    exact .inl h
  | paid found payable | voided found unpaid | collected found payable =>
    exact .inl (releasedState_frame (f := State.plans) fun _ _ => rfl)
  | @failed id invoice found payable first =>
    exact .inl (startDunning_collects env s invoice).plans
  | @failedAgain id invoice dunning found payable retrying =>
    exact .inl (failRetry_collects env s invoice dunning).plans
  | offered | withdrawn | redeemed | undiscounted | subscribed | subscribedWith | cancelled
  | switched | rescheduled | repeated | metered | configured => exact .inl rfl

theorem commit_stocked (s : State) (a : Env × Call) (h : Stocked s) :
    Stocked (commit (service host) s a) := by
  obtain ⟨env, c⟩ := a
  refine commit_preserves (I := Stocked) ?_ h
  intro r s' hservice
  rw [service] at hservice
  split_ifs at hservice with hfresh
  cases hperform : perform host env c s with
  | error failure =>
    rw [hperform] at hservice
    contradiction
  | ok value =>
    rw [hperform] at hservice
    rw [Except.ok.inj hservice] at hperform
    obtain hplans | ⟨input, rfl⟩ := (served_of_perform hperform).plans
    · rw [Stocked, hplans]
      exact h
    · obtain ⟨created, hcreated⟩ := tagged_ok hperform
      obtain ⟨hpriced, hplans⟩ := createPlan_priced hcreated
      intro id plan hfound
      rw [hplans, Function.update_apply] at hfound
      split_ifs at hfound
      · exact Option.some_inj.mp hfound ▸ hpriced
      · exact h id plan hfound

theorem run_stocked (host : Host) (calls : List (Env × Call)) :
    Stocked (run (service host) start calls) :=
  run_preserves commit_stocked (fun _ _ hfound => by cases hfound) calls

/-! ## The lines of the base price -/

theorem sum_cents {α : Type} {items : List α} {amount : α → ℚ}
    (h : ∀ item ∈ items, IsCents (amount item) ∧ 0 ≤ amount item) :
    IsCents (items.map amount).sum ∧ 0 ≤ (items.map amount).sum := by
  constructor
  · refine IsCents.sum fun a ha => ?_
    obtain ⟨item, hitem, rfl⟩ := List.mem_map.mp ha
    exact (h item hitem).1
  · refine List.sum_nonneg fun a ha => ?_
    obtain ⟨item, hitem, rfl⟩ := List.mem_map.mp ha
    exact (h item hitem).2

theorem baseLineItem_cents (h : plan.Priced) {share : SegmentShare} (hshare : 0 < share.fraction) :
    IsCents (baseLineItem plan share).amount ∧ 0 ≤ (baseLineItem plan share).amount := by
  rw [baseLineItem]
  split_ifs
  · exact h.basePrice
  · exact ⟨roundMoney_isCents _, roundMoney_nonneg (mul_nonneg h.basePrice.2 hshare.le) 2⟩

theorem baseLineItems_cents (hs : Stocked s) {shares : List SegmentShare}
    {base : List InvoiceLineItem} (hshares : ∀ share ∈ shares, 0 < share.fraction)
    (h : baseLineItems s shares = .ok base) :
    ∀ item ∈ base, IsCents item.amount ∧ 0 ≤ item.amount := by
  induction shares generalizing base with
  | nil =>
    cases h
    exact List.forall_mem_nil _
  | cons share rest ih =>
    obtain ⟨plan, hplan, h⟩ := bind_returns h
    obtain ⟨items, hitems, h⟩ := bind_returns h
    cases h
    obtain ⟨hshare, hrest⟩ := List.forall_mem_cons.mp hshares
    exact List.forall_mem_cons.mpr
      ⟨baseLineItem_cents (hs _ _ (findPlan_ok.mp hplan)) hshare, ih hrest hitems⟩

theorem segmentShares_pos {segments : List PlanSegment} {periodStart periodEnd untilMs : Int}
    {shares : List SegmentShare}
    (h : segmentShares segments periodStart periodEnd untilMs = .ok shares) :
    ∀ share ∈ shares, 0 < share.fraction := by
  obtain ⟨_, _, h⟩ := bind_returns h
  cases h
  intro share hshare
  exact of_decide_eq_true (List.mem_filter.mp hshare).2

/-! ## The lines of the usage -/

/-- What is charged for usage is in whole cents, not negative, and all of it is on the lines. -/
structure UsageCharges.Balanced (usage : UsageCharges) : Prop where
  cents : IsCents usage.usageAmount
  nonneg : 0 ≤ usage.usageAmount
  lines : (usage.lineItems.map (·.amount)).sum = usage.usageAmount

theorem getD_nonneg {value : Option ℚ} (h : ∃ v ∈ value, 0 ≤ v) : 0 ≤ value.getD 0 := by
  obtain ⟨v, hv, hpos⟩ := h
  rw [Option.mem_def.mp hv]
  exact hpos

theorem tiersAmount_nonneg {metric : String} {tiers : Option (List MeterTier)}
    (h : validateTiers metric tiers = none) (hunits : 0 < units) :
    0 ≤ priceGraduated (tiers.getD []) units ∧ 0 ≤ priceVolume (tiers.getD []) units := by
  cases tiers with
  | none => cases h
  | some tiers =>
    obtain ⟨hcovers, hcharging⟩ := validateTiers_covers h
    rw [Option.getD_some]
    constructor
    · rw [priceGraduated_charge hcovers]
      exact charge_nonneg hcharging
    · obtain ⟨b, hb, hcontains⟩ := hcovers.exists_contains hunits
      rw [priceVolume_contains hcovers hb hcontains]
      exact add_nonneg (mul_nonneg hunits.le (hcharging b hb).1) (hcharging b hb).2

/-- What an accepted meter has of the fields that its model reads. -/
def PricedBy (price : MeteredPrice) : MeteredPricingModel → Prop
  | .perUnit => ∃ unitPrice ∈ price.unitPrice, 0 ≤ unitPrice
  | .package => (∃ packageSize ∈ price.packageSize, 0 < packageSize) ∧
      ∃ packagePrice ∈ price.packagePrice, 0 ≤ packagePrice
  | .graduated | .volume => validateTiers price.metric price.tiers = none

theorem validateMeteredPrice_pricedBy {price : MeteredPrice}
    (h : validateMeteredPrice price = none) : PricedBy price price.model := by
  rw [validateMeteredPrice, ite_eq_iff] at h
  obtain ⟨_, h⟩ | ⟨_, h⟩ := h
  · cases h
  · rw [meteredError_none] at h
    cases hmodel : price.model with
    | perUnit =>
      simp only [hmodel] at h
      by_contra hnot
      have hprice : ¬ ∃ unitPrice ∈ price.unitPrice, 0 ≤ unitPrice := hnot
      rw [if_neg hprice] at h
      cases h.2
    | package =>
      simp only [hmodel, meteredError_none, not_not, and_true] at h
      obtain ⟨_, ⟨size, hsize, _, hpos⟩, hprice⟩ := h
      exact ⟨⟨size, hsize, hpos⟩, hprice⟩
    | graduated | volume =>
      simp only [hmodel] at h
      exact h.2

theorem meteredAmount_nonneg {price : MeteredPrice} (h : validateMeteredPrice price = none) :
    0 ≤ meteredAmount price units := by
  have hpriced := validateMeteredPrice_pricedBy h
  by_cases hunits : 0 < units
  · rw [meteredAmount, if_pos hunits]
    cases hmodel : price.model with
    | perUnit =>
      rw [hmodel] at hpriced
      exact mul_nonneg hunits.le (getD_nonneg hpriced)
    | package =>
      rw [hmodel] at hpriced
      obtain ⟨⟨size, hsize, hpos⟩, hprice⟩ := hpriced
      have hceil : (0 : ℚ) ≤ (units / price.packageSize.getD 1).ceil := by
        rw [Option.mem_def.mp hsize, Option.getD_some]
        exact (div_nonneg hunits.le hpos.le).trans Rat.le_ceil
      exact mul_nonneg hceil (getD_nonneg hprice)
    | graduated =>
      rw [hmodel] at hpriced
      exact (tiersAmount_nonneg hpriced hunits).1
    | volume =>
      rw [hmodel] at hpriced
      exact (tiersAmount_nonneg hpriced hunits).2
  · rw [meteredAmount, if_neg hunits]

/-- Lines of nothing are left out. -/
theorem sum_charged {charges : List MeterCharge} (h : ∀ m ∈ charges, 0 ≤ m.amount) :
    (((charges.filter (0 < ·.amount)).map meterLineItem).map (·.amount)).sum =
      (charges.map (·.amount)).sum := by
  induction charges with
  | nil => rfl
  | cons m rest ih =>
    obtain ⟨hm, hrest⟩ := List.forall_mem_cons.mp h
    rw [List.map_cons, List.sum_cons, ← ih hrest, List.filter_cons]
    split_ifs with hcharged
    · rw [List.map_cons, List.map_cons, List.sum_cons]
      rfl
    · have hzero : m.amount = 0 := by
        refine le_antisymm (not_lt.mp ?_) hm
        simpa using hcharged
      rw [hzero, zero_add]

theorem meteredCharges_balanced {meters : List MeteredPrice}
    (h : ∀ meter ∈ meters, validateMeteredPrice meter = none) :
    (meteredCharges subscription meters).Balanced := by
  have hcharges : ∀ m ∈ meters.map fun meter => priceMeteredUsage meter
      (aggregateReading (subscription.meterReadings.lookup meter.metric) meter.aggregation),
      IsCents m.amount ∧ 0 ≤ m.amount := by
    intro m hm
    obtain ⟨meter, hmeter, rfl⟩ := List.mem_map.mp hm
    exact ⟨roundMoney_isCents _, roundMoney_nonneg (meteredAmount_nonneg (h meter hmeter)) 2⟩
  obtain ⟨hwhole, hpos⟩ := sum_cents hcharges
  exact {
    cents := roundMoney_isCents _
    nonneg := roundMoney_nonneg hpos 2
    lines := (sum_charged fun m hm => (hcharges m hm).2).trans hwhole.round.symm }

theorem overageCharges_balanced (h : plan.Priced) :
    (overageCharges subscription plan).Balanced := by
  have hcharge : ∀ overageUnits, IsCents (priceOverage plan overageUnits) ∧
      0 ≤ priceOverage plan overageUnits := by
    intro overageUnits
    rw [priceOverage_charge h]
    exact ⟨roundMoney_isCents _, roundMoney_nonneg (charge_nonneg (Priced.tiers_covers h).2) 2⟩
  refine ⟨(hcharge _).1, (hcharge _).2, ?_⟩
  rw [overageCharges]
  dsimp only
  split_ifs with hunits
  · exact List.sum_singleton
  · rw [priceOverage, if_pos (not_lt.mp hunits)]
    rfl

theorem computeUsageCharges_balanced (h : plan.Priced) :
    (computeUsageCharges subscription plan).Balanced := by
  have hmeters := h.meters
  rw [computeUsageCharges]
  split
  · exact overageCharges_balanced h
  · exact overageCharges_balanced h
  next meters _ heq => exact meteredCharges_balanced (hmeters meters heq)

/-! ## The discount -/

theorem activeDiscount_cents (subscription : Subscription) (hcents : IsCents subtotal)
    (hpos : 0 ≤ subtotal) :
    IsCents (activeDiscount subscription subtotal) ∧ 0 ≤ activeDiscount subscription subtotal ∧
      activeDiscount subscription subtotal ≤ subtotal := by
  have hnone : IsCents 0 ∧ (0 : ℚ) ≤ 0 ∧ 0 ≤ subtotal := ⟨.zero, le_refl 0, hpos⟩
  rw [activeDiscount]
  cases subscription.discount with
  | none => exact hnone
  | some discount =>
    dsimp only
    rw [discountAmount]
    split_ifs
    · exact hnone
    · exact ⟨roundMoney_isCents _, roundMoney_nonneg (le_min hpos (le_max_left _ _)) 2,
        roundMoney_le (min_le_left _ _) hcents⟩
    · exact hnone

theorem sum_discountLineItems {discount : ℚ} (h : 0 ≤ discount) :
    ((discountLineItems subscription discount).map (·.amount)).sum = -discount := by
  rw [discountLineItems]
  split_ifs with hpos
  · exact List.sum_singleton
  · rw [le_antisymm (not_lt.mp hpos) h, neg_zero]
    rfl

/-! ## The invoice -/

/-- The amounts of the invoice agree with one another and with the lines. -/
structure Invoice.Balanced (invoice : Invoice) : Prop where
  subtotal : invoice.subtotal = invoice.baseAmount + invoice.usageAmount
  discount : 0 ≤ invoice.discountAmount ∧ invoice.discountAmount ≤ invoice.subtotal
  total : invoice.total = invoice.subtotal - invoice.discountAmount ∧ 0 ≤ invoice.total
  lines : invoice.total = (invoice.lineItems.map (·.amount)).sum

theorem invoiceOf_balanced {kind : InvoiceKind} {invoiceEndMs : Int} {shares : List SegmentShare}
    {base : List InvoiceLineItem} (h : usagePlan.Priced)
    (hbase : ∀ item ∈ base, IsCents item.amount ∧ 0 ≤ item.amount) :
    (invoiceOf env subscription usagePlan kind invoiceEndMs shares base).Balanced := by
  have husage : (computeUsageCharges subscription usagePlan).Balanced :=
    computeUsageCharges_balanced h
  obtain ⟨hwhole, hpos⟩ := sum_cents hbase
  have hbaseAmount : roundMoney (base.map (·.amount)).sum 2 = (base.map (·.amount)).sum :=
    hwhole.round
  have hsubtotal : roundMoney ((base.map (·.amount)).sum +
      (computeUsageCharges subscription usagePlan).usageAmount) 2 =
        (base.map (·.amount)).sum + (computeUsageCharges subscription usagePlan).usageAmount :=
    (hwhole.add husage.cents).round
  obtain ⟨hcents, hnonneg, hle⟩ := activeDiscount_cents subscription
    (hwhole.add husage.cents) (add_nonneg hpos husage.nonneg)
  have htotal := ((hwhole.add husage.cents).sub hcents).round
  refine ⟨?_, ?_, ?_, ?_⟩
  all_goals simp only [invoiceOf, hbaseAmount, hsubtotal, htotal]
  · exact ⟨hnonneg, hle⟩
  · exact ⟨trivial, sub_nonneg.mpr hle⟩
  · rw [List.map_append, List.map_append, List.sum_append, List.sum_append, husage.lines,
      sum_discountLineItems hnonneg, sub_eq_add_neg]

/-- A customer of the tiered plan since the middle of the period, with a discount of a third. -/
def discountedCustomer : Subscription where
  id := "sub"
  merchantId := "m"
  customerId := "c"
  planId := "plan"
  status := .active
  currentPeriodStart := 0
  currentPeriodEnd := 30 * dayMs
  trialEndsAt := none
  cancelAtPeriodEnd := false
  usage := [("calls", 25)]
  meterReadings := []
  planSegments := [⟨"plan", 10 * dayMs⟩]
  discount := some ⟨"promo", "THIRD", .percent, some (100 / 3), none, none, .forever, none, 0⟩
  counted := []

/-- The service after the tiered plan has been created. -/
def tieredService : State :=
  run (service ⟨id, fun _ => ""⟩) start [(⟨0, "1"⟩, .createPlan tieredInput)]

end Billing
