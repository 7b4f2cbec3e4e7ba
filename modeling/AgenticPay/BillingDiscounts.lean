import AgenticPay.BillingCoverage
import AgenticPay.BillingMoney
import Mathlib.Algebra.Order.BigOperators.Group.List
import Mathlib.Tactic.Linarith

/-!
# Discounts that last for one period

A discount comes from one redemption. It is on the invoices that are raised for its subscription
until it is used up, and that is when a period ends: an invoice within the period leaves it.
-/
namespace Billing

open Transaction

/-- What a promo code grants. -/
structure Terms where
  duration : DiscountDuration
  discountType : DiscountType
  amountOff : Option ℚ
  deriving DecidableEq

def PromoCode.terms (promo : PromoCode) : Terms :=
  ⟨promo.duration, promo.discountType, promo.amountOff⟩

def AppliedDiscount.terms (discount : AppliedDiscount) : Terms :=
  ⟨discount.duration, discount.discountType, discount.amountOff⟩

/-- The subscription has the discount of the redemption. -/
def Subscription.Holds (subscription : Subscription) (k : Nat) : Prop :=
  ∃ discount ∈ subscription.discount, discount.redemption = k

instance (subscription : Subscription) (k : Nat) : Decidable (subscription.Holds k) :=
  inferInstanceAs (Decidable (∃ discount ∈ subscription.discount, discount.redemption = k))

/-- The invoices on which the discount of a redemption appears. -/
def discounted (s : State) (k : Nat) : List Invoice := s.invoices.filter (·.redemption = some k)

/-- The call is to invoice a subscription that has the discount, without an end of its period. -/
def MidPeriod (k : Nat) (s : State) : Env × Call → Prop
  | (_, .generateInvoice id) => ∃ subscription ∈ s.subscriptions id, subscription.Holds k
  | (_, .changePlan id planId behavior) => behavior = some .alwaysInvoice ∧
      ∃ change ∈ (resolvePlanChange s id planId).toOption,
        change.1.Holds k ∧ ¬ IntervalChange change.2.1 change.2.2
  | _ => False

instance (k : Nat) (s : State) : (a : Env × Call) → Decidable (MidPeriod k s a)
  | (_, .generateInvoice id) =>
    inferInstanceAs (Decidable (∃ subscription ∈ s.subscriptions id, subscription.Holds k))
  | (_, .changePlan id planId behavior) => inferInstanceAs (Decidable (
      behavior = some .alwaysInvoice ∧ ∃ change ∈ (resolvePlanChange s id planId).toOption,
        change.1.Holds k ∧ ¬ IntervalChange change.2.1 change.2.2))
  | (_, .createPlan ..) | (_, .createPromoCode ..) | (_, .deactivatePromoCode ..)
  | (_, .applyPromoCode ..) | (_, .removeDiscount ..) | (_, .subscribe ..)
  | (_, .cancelSubscription ..) | (_, .recordUsage ..) | (_, .closeBillingPeriod ..)
  | (_, .configureDunning ..) | (_, .recordPaymentAttempt ..) | (_, .markInvoicePaid ..)
  | (_, .voidInvoice ..) => isFalse id

def midPeriod (k : Nat) (s : State) (a : Env × Call) : Int := if MidPeriod k s a then 1 else 0

/-- The discount of a redemption is on invoices of one period, and on one of them more than are
raised within the period. -/
structure DiscountedOnce (s : State) (k : Nat) (redemption : PromoRedemption) (promo : PromoCode)
    (within : Int) : Prop where
  owner : ∀ invoice ∈ discounted s k, invoice.subscriptionId = redemption.subscriptionId
  period : ∀ invoice ∈ discounted s k, ∀ invoice' ∈ discounted s k,
    invoice.periodStart = invoice'.periodStart
  count : ((discounted s k).length : Int) ≤ 1 + within
  amount : promo.discountType = .fixed → ∀ amount ∈ promo.amountOff,
    ((discounted s k).map (·.discountAmount)).sum ≤ (1 + within : Int) * amount

variable {host : Host} {env : Env} {s s' t : State} {id : SubscriptionId} {k : Nat} {n : Int}
  {subscription : Subscription} {invoice : Invoice} {discount discount' : AppliedDiscount}
  {promo : PromoCode} {c : Call} {e : Effect}

/-! ## Amounts -/

/-- A fixed discount takes at most what the promo code grants. -/
theorem discountAmount_le {amount subtotal : ℚ} (hfixed : discount.discountType = .fixed)
    (hamount : discount.amountOff = some (roundMoney amount 2)) (hpos : 0 ≤ amount) :
    discountAmount discount subtotal ≤ roundMoney amount 2 := by
  have hnonneg := roundMoney_nonneg hpos 2
  rw [discountAmount]
  split_ifs
  · exact hnonneg
  · rw [hfixed, hamount]
    dsimp only [Option.getD_some]
    rw [max_eq_right hnonneg]
    exact (roundMoney_mono (min_le_right _ _) 2).trans (roundMoney_twice amount).le

theorem validatePromoCodeInput_fixed {input : PromoCodeInput}
    (h : validatePromoCodeInput host input = none) (hfixed : input.discountType = .fixed) :
    ∃ amount, input.amountOff = some amount ∧ 0 < amount := by
  rw [validatePromoCodeInput] at h
  split_ifs at h
  obtain ⟨htype, -⟩ := Option.or_eq_none_iff.mp h
  rw [discountTypeError, hfixed] at htype
  dsimp only at htype
  split_ifs at htype with hamount
  obtain ⟨amount, hmem, hpos⟩ := hamount
  exact ⟨amount, hmem, hpos⟩

/-! ## Promo codes -/

/-- Promo codes are stored under their ids, with amounts that are rounded. -/
structure Offered (s : State) : Prop where
  ids : ∀ id promo, s.promoCodes id = some promo → promo.id = id
  amounts : ∀ id promo, s.promoCodes id = some promo → promo.discountType = .fixed →
    ∃ amount, promo.amountOff = some (roundMoney amount 2) ∧ 0 < amount

/-- What a call does to the promo codes: one is new, or it keeps its terms and may be redeemed. -/
inductive Restocks (host : Host) (env : Env) (s s' : State) : Prop
  | same (codes : s'.promoCodes = s.promoCodes)
      (redemptions : s'.promoRedemptions = s.promoRedemptions)
  | offered {input} (valid : validatePromoCodeInput host input = none)
      (codes : s'.promoCodes = Function.update s.promoCodes ("promo_" ++ env.uuid)
        (some (newPromoCode host env input)))
      (redemptions : s'.promoRedemptions = s.promoRedemptions)
  | restated {old promo} (found : s.promoCodes promo.id = some old) (kept : promo.terms = old.terms)
      (codes : s'.promoCodes = Function.update s.promoCodes promo.id (some promo))
      (redemptions : ∀ redemption ∈ s'.promoRedemptions,
        redemption ∈ s.promoRedemptions ∨ redemption.promoCodeId = promo.id)

theorem Offered.found {idOrCode : String} (h : Offered s)
    (hfound : getPromoCode host s idOrCode = some promo) : s.promoCodes promo.id = some promo := by
  have hat : ∀ id, s.promoCodes id = some promo → s.promoCodes promo.id = some promo := by
    intro id hid
    rwa [h.ids id promo hid]
  rw [getPromoCode, Option.or_eq_some_iff] at hfound
  obtain hid | ⟨-, hcode⟩ := hfound
  · exact hat _ hid
  · obtain ⟨id, -, hid⟩ := Option.bind_eq_some_iff.mp hcode
    exact hat _ hid

theorem releasedState_promos : (releasedState s invoice).promoCodes = s.promoCodes ∧
    (releasedState s invoice).promoRedemptions = s.promoRedemptions :=
  ⟨releasedState_frame (f := State.promoCodes) fun _ _ => rfl,
    releasedState_frame (f := State.promoRedemptions) fun _ _ => rfl⟩

theorem Collects.promos (h : Collects s invoice s') :
    s'.promoCodes = s.promoCodes ∧ s'.promoRedemptions = s.promoRedemptions := by
  cases h <;> exact ⟨rfl, rfl⟩

/-- What a call does to the promo codes and to the redemptions of them. -/
inductive Redeems (host : Host) (env : Env) (s s' : State) : Prop
  | same (codes : s'.promoCodes = s.promoCodes)
      (redemptions : s'.promoRedemptions = s.promoRedemptions)
  | offered {input} (valid : validatePromoCodeInput host input = none)
      (codes : s'.promoCodes = Function.update s.promoCodes ("promo_" ++ env.uuid)
        (some (newPromoCode host env input)))
      (redemptions : s'.promoRedemptions = s.promoRedemptions)
  | withdrawn {promo : PromoCode} (found : s.promoCodes promo.id = some promo)
      (codes : s'.promoCodes = Function.update s.promoCodes promo.id
        (some { promo with active := false }))
      (redemptions : s'.promoRedemptions = s.promoRedemptions)
  | redeemed {promo : PromoCode} {code : String} {merchantId : MerchantId}
      {customerId : CustomerId} {plan : BillingPlan} {subscriptionId : SubscriptionId}
      (found : s.promoCodes promo.id = some promo)
      (redeemable : requireRedeemable host env s code merchantId customerId plan = .ok promo)
      (codes : s'.promoCodes = Function.update s.promoCodes promo.id
        (some { promo with timesRedeemed := promo.timesRedeemed + 1 }))
      (redemptions : s'.promoRedemptions =
        s.promoRedemptions ++ [⟨promo.id, customerId, subscriptionId⟩])

theorem Served.redeems (h : Served host env s c s') (ho : Offered s) :
    Redeems host env s s' := by
  have hraised : ∀ {subscription plan kind untilMs invoice t},
      createInvoice env subscription plan kind untilMs s = .ok (invoice, t) →
        t.promoCodes = s.promoCodes ∧ t.promoRedemptions = s.promoRedemptions := by
    intro _ _ _ _ _ _ hcreated
    rw [(createInvoice_ok hcreated).state]
    exact ⟨rfl, rfl⟩
  cases h with
  | offered valid => exact .offered valid rfl rfl
  | withdrawn found => exact .withdrawn (ho.found found) rfl rfl
  | redeemed found notCancelled noDiscount redeemable =>
    exact .redeemed (ho.found (requireRedeemable_found redeemable)) redeemable rfl rfl
  | subscribedWith planFound redeemable =>
    exact .redeemed (ho.found (requireRedeemable_found redeemable)) redeemable rfl rfl
  | settled resolved notTrialing prorated immediate created =>
    obtain ⟨hcodes, hredemptions⟩ := hraised created
    exact .same hcodes hredemptions
  | closed found planFound created | invoiced found planFound created =>
    obtain ⟨hcodes, hredemptions⟩ := hraised created
    exact .same hcodes hredemptions
  | paid found payable | voided found unpaid | collected found payable =>
    exact .same releasedState_promos.1 releasedState_promos.2
  | @failed id invoice found payable first =>
    have h := (startDunning_collects env s invoice).promos
    exact .same h.1 h.2
  | @failedAgain id invoice dunning found payable retrying =>
    have h := (failRetry_collects env s invoice dunning).promos
    exact .same h.1 h.2
  | planned | undiscounted | subscribed | cancelled | switched | rescheduled | repeated | metered
  | configured => exact .same rfl rfl

theorem Redeems.restocks (h : Redeems host env s s') : Restocks host env s s' := by
  cases h with
  | same codes redemptions => exact .same codes redemptions
  | offered valid codes redemptions => exact .offered valid codes redemptions
  | @withdrawn promo found codes redemptions =>
    refine @Restocks.restated host env s s' promo { promo with active := false } found rfl codes ?_
    exact fun _ hmem => .inl (redemptions ▸ hmem)
  | @redeemed promo _ _ _ _ _ found redeemable codes redemptions =>
    refine @Restocks.restated host env s s' promo
      { promo with timesRedeemed := promo.timesRedeemed + 1 } found rfl codes ?_
    intro redemption hmem
    rw [redemptions] at hmem
    rcases List.mem_append.mp hmem with hold | hnew
    · exact .inl hold
    · exact .inr (List.mem_singleton.mp hnew ▸ rfl)

theorem Served.restocks (h : Served host env s c s') (ho : Offered s) :
    Restocks host env s s' := (h.redeems ho).restocks

theorem Restocks.terms (h : Restocks host env s s') (hfresh : Fresh s env.uuid) {id : PromoCodeId}
    (hfound : s.promoCodes id = some promo) :
    ∃ promo', s'.promoCodes id = some promo' ∧ promo'.terms = promo.terms := by
  cases h with
  | same codes redemptions => exact ⟨promo, codes ▸ hfound, rfl⟩
  | @offered input valid codes redemptions =>
    refine ⟨promo, ?_, rfl⟩
    have hne : id ≠ "promo_" ++ env.uuid := by
      rintro rfl
      rw [Option.isNone_iff_eq_none.mp hfresh.2.1] at hfound
      contradiction
    rw [codes, Function.update_of_ne hne, hfound]
  | @restated old promo' found kept codes redemptions =>
    by_cases he : id = promo'.id
    · subst he
      obtain rfl := Option.some.inj (found.symm.trans hfound)
      exact ⟨promo', by rw [codes, Function.update_self], kept⟩
    · exact ⟨promo, by rw [codes, Function.update_of_ne he, hfound], rfl⟩

theorem Restocks.keeps (h : Restocks host env s s') (ho : Offered s) : Offered s' := by
  have hupdate : ∀ {promo : PromoCode},
      s'.promoCodes = Function.update s.promoCodes promo.id (some promo) →
        (promo.discountType = .fixed →
          ∃ amount, promo.amountOff = some (roundMoney amount 2) ∧ 0 < amount) → Offered s' := by
    intro promo hcodes hamount
    refine ⟨fun id promo' hfound => ?_, fun id promo' hfound => ?_⟩ <;>
      rw [hcodes, Function.update_apply] at hfound <;> split_ifs at hfound with hid
    · exact hid ▸ congrArg PromoCode.id (Option.some.inj hfound).symm
    · exact ho.ids id promo' hfound
    · exact Option.some.inj hfound ▸ hamount
    · exact ho.amounts id promo' hfound
  cases h with
  | same codes redemptions => exact ⟨codes ▸ ho.ids, codes ▸ ho.amounts⟩
  | @offered input valid codes redemptions =>
    refine @hupdate (newPromoCode host env input) codes fun hfixed => ?_
    obtain ⟨amount, hamount, hpos⟩ := validatePromoCodeInput_fixed valid hfixed
    exact ⟨amount, congrArg (Option.map (roundMoney · 2)) hamount, hpos⟩
  | @restated old promo found kept codes redemptions =>
    refine hupdate codes fun hfixed => ?_
    obtain ⟨amount, hamount, hpos⟩ := ho.amounts _ _ found
      ((congrArg Terms.discountType kept).symm.trans hfixed)
    exact ⟨amount, (congrArg Terms.amountOff kept).trans hamount, hpos⟩

/-! ## One subscription -/

/-- The redemption is one of the subscription, on these terms. -/
def Grants (s : State) (id : SubscriptionId) (k : Nat) (terms : Terms) : Prop :=
  ∃ redemption promo, s.promoRedemptions[k]? = some redemption ∧ redemption.subscriptionId = id ∧
    s.promoCodes redemption.promoCodeId = some promo ∧ promo.terms = terms

/-- What an effect does to the discount of a subscription. -/
inductive Discounts (env : Env) (s : State) (id : SubscriptionId) (c : Call) (e : Effect) : Prop
  | same (record : ∀ subscription ∈ e.record, ∃ old ∈ s.subscriptions id,
      subscription.discount = old.discount ∧
        subscription.currentPeriodStart = old.currentPeriodStart) (raised : e.raised = [])
  | granted {after : Subscription} {code : PromoCode} (stored : s.promoCodes code.id = some code)
      (record : e.record = some after)
      (discount : after.discount = some (toAppliedDiscount code s.promoRedemptions.length))
      (raised : e.raised = []) (redeemed : e.redeemed = [⟨code.id, after.customerId, id⟩])
  | dropped (record : ∀ subscription ∈ e.record, subscription.discount = none)
      (raised : e.raised = [])
  | used {old after usagePlan kind untilMs new state} (found : s.subscriptions id = some old)
      (invoiced : Raised env s old usagePlan kind untilMs new state)
      (record : e.record = some after) (discount : after.discount = old.discount)
      (period : after.currentPeriodStart = old.currentPeriodStart) (raised : e.raised = [new])
      (midPeriod : ∀ k, old.Holds k → MidPeriod k s (env, c))
  | ended {old after usagePlan kind untilMs new state} (found : s.subscriptions id = some old)
      (invoiced : Raised env s old usagePlan kind untilMs new state)
      (record : e.record = some after)
      (discount : after.discount = old.discount.bind consumeDiscountPeriod)
      (raised : e.raised = [new])

theorem Turned.discounts (h : Turned host env s id c e) (hi : Indexed s) (ho : Offered s) :
    Discounts env s id c e := by
  have hsame : ∀ {subscription subscription' : Subscription},
      s.subscriptions id = some subscription → subscription'.discount = subscription.discount →
        subscription'.currentPeriodStart = subscription.currentPeriodStart →
          ∀ record ∈ some subscription', ∃ old ∈ s.subscriptions id,
            record.discount = old.discount ∧
              record.currentPeriodStart = old.currentPeriodStart := by
    rintro subscription subscription' hfound hdiscount hperiod _ ⟨⟩
    exact ⟨subscription, hfound, hdiscount, hperiod⟩
  cases h with
  | kept => exact .same (fun subscription hmem => ⟨subscription, hmem, rfl, rfl⟩) rfl
  | restated found => exact .same (hsame found rfl rfl) rfl
  | @discounted code subscription plan promo found notCancelled noDiscount redeemable =>
    refine .granted (ho.found (requireRedeemable_found redeemable)) rfl rfl rfl ?_
    rw [hi.subscriptions _ _ found]
  | undiscounted found =>
    refine .dropped ?_ rfl
    rintro _ ⟨⟩
    rfl
  | subscribed new =>
    refine .dropped ?_ rfl
    rintro _ ⟨⟩
    rfl
  | subscribedWith new redeemable =>
    refine .granted (ho.found (requireRedeemable_found redeemable)) rfl rfl rfl ?_
    rw [new]
    rfl
  | switched resolved => exact .same (hsame (resolvePlanChange_ok resolved).found rfl rfl) rfl
  | @settled planId behavior subscription currentPlan newPlan invoice t resolved notTrialing
      prorated immediate raised =>
    have hfound := (resolvePlanChange_ok resolved).found
    by_cases hchange : IntervalChange currentPlan newPlan
    · refine .ended hfound raised rfl ?_ rfl
      rw [settleChange, if_pos hchange]
    · refine .used hfound raised rfl ?_ ?_ rfl fun k hk => ⟨?_, ?_⟩
      · rw [settleChange, if_neg hchange]
      · rw [settleChange, if_neg hchange]
      · have halways := immediate.resolve_left hchange
        cases behavior with
        | none => exact absurd halways (by decide)
        | some behavior => exact congrArg some halways
      · exact ⟨_, by rw [resolved]; rfl, hk, hchange⟩
  | rescheduled resolved => exact .same (hsame (resolvePlanChange_ok resolved).found rfl rfl) rfl
  | metered target found => exact .same (hsame found rfl rfl) rfl
  | invoiced found raised =>
    exact .used found raised rfl rfl rfl rfl fun k hk => ⟨_, found, hk⟩
  | closed found raised => exact .ended found raised rfl rfl rfl

namespace Raised

variable {usagePlan : BillingPlan} {kind : InvoiceKind} {untilMs : Option Int}

theorem periodStart (h : Raised env s subscription usagePlan kind untilMs invoice t) :
    invoice.periodStart = subscription.currentPeriodStart := by
  obtain ⟨shares, base, _, _, rfl⟩ := h.made
  rfl

/-- A discount that appears on an invoice is that of the subscription. -/
theorem redemption (h : Raised env s subscription usagePlan kind untilMs invoice t)
    (hk : invoice.redemption = some k) :
    ∃ discount, subscription.discount = some discount ∧ discount.redemption = k ∧
      ∃ subtotal, invoice.discountAmount = discountAmount discount subtotal := by
  obtain ⟨shares, base, _, _, rfl⟩ := h.made
  dsimp only [invoiceOf] at hk ⊢
  split_ifs at hk with hpos
  cases hdiscount : subscription.discount with
  | none =>
    rw [hdiscount] at hk
    contradiction
  | some discount =>
    rw [hdiscount] at hk
    refine ⟨discount, rfl, Option.some.inj hk, ?_⟩
    rw [activeDiscount, hdiscount] at hpos ⊢
    dsimp only at hpos ⊢
    split_ifs at hpos ⊢
    · exact ⟨_, rfl⟩
    · exact absurd hpos (lt_irrefl 0)

end Raised

theorem consumeDiscountPeriod_some (h : consumeDiscountPeriod discount = some discount') :
    discount'.terms = discount.terms ∧ discount'.redemption = discount.redemption := by
  rw [consumeDiscountPeriod] at h
  dsimp only at h
  split_ifs at h
  · cases h
    exact ⟨rfl, rfl⟩
  · cases h
    exact ⟨rfl, rfl⟩

theorem consumeDiscountPeriod_code (h : consumeDiscountPeriod discount = some discount') :
    discount'.promoCodeId = discount.promoCodeId := by
  rw [consumeDiscountPeriod] at h
  dsimp only at h
  split_ifs at h
  · cases h
    rfl
  · cases h
    rfl

/-- A discount that is in its last period. -/
def LastPeriod (discount : AppliedDiscount) : Prop :=
  discount.duration = .once → discount.remainingPeriods = some 1

theorem consumeDiscountPeriod_once (hlast : LastPeriod discount)
    (honce : discount.duration = .once) : consumeDiscountPeriod discount = none := by
  simp [consumeDiscountPeriod, honce, hlast honce]

theorem toAppliedDiscount_lastPeriod : LastPeriod (toAppliedDiscount promo k) := by
  intro honce
  have hpromo : promo.duration = .once := honce
  simp [toAppliedDiscount, hpromo]

/-! ## Where discounts come from -/

theorem getElem?_initial {α : Type} {list list' : List α} {x : α} (h : list <+: list')
    (hk : list[k]? = some x) : list'[k]? = some x := by
  obtain ⟨hlt, he⟩ := List.getElem?_eq_some_iff.mp hk
  rw [List.prefix_iff_getElem?.mp h k hlt, he]

/-- The discounts of the subscriptions and of the invoices are those of their redemptions. -/
structure Traced (s : State) : Prop where
  indexed : Indexed s
  offered : Offered s
  codes : ∀ redemption ∈ s.promoRedemptions,
    ∃ promo, s.promoCodes redemption.promoCodeId = some promo
  held : ∀ id, ∀ subscription ∈ s.subscriptions id, ∀ discount ∈ subscription.discount,
    Grants s id discount.redemption discount.terms ∧ LastPeriod discount
  billed : ∀ id, ∀ invoice ∈ bills s id, ∀ k ∈ invoice.redemption,
    ∃ terms, Grants s id k terms ∧ (terms.discountType = .fixed →
      ∀ amount ∈ terms.amountOff, invoice.discountAmount ≤ amount)

theorem start_traced : Traced start where
  indexed := start_indexed
  offered := ⟨fun _ _ h => absurd h.symm (Option.some_ne_none _),
    fun _ _ h => absurd h.symm (Option.some_ne_none _)⟩
  codes := fun _ hmem => absurd hmem List.not_mem_nil
  held := fun _ _ hmem => absurd hmem.symm (Option.some_ne_none _)
  billed := fun _ _ hmem => absurd hmem List.not_mem_nil

theorem Grants.lt {terms : Terms} (h : Grants s id k terms) : k < s.promoRedemptions.length := by
  obtain ⟨redemption, _, hk, _⟩ := h
  exact (List.getElem?_eq_some_iff.mp hk).1

theorem Grants.mono {terms : Terms} (h : Grants s id k terms) (hfresh : Fresh s env.uuid)
    (hr : Restocks host env s s') (hp : s.promoRedemptions <+: s'.promoRedemptions) :
    Grants s' id k terms := by
  obtain ⟨redemption, promo, hk, hid, hpromo, hterms⟩ := h
  obtain ⟨promo', hpromo', hterms'⟩ := hr.terms hfresh hpromo
  exact ⟨redemption, promo', getElem?_initial hp hk, hid, hpromo', hterms'.trans hterms⟩

theorem held_after (hl : Leads s id e s') (h : Traced s) (hfresh : Fresh s env.uuid)
    (hr : Restocks host env s s') (hd : Discounts env s id c e) :
    ∀ subscription ∈ s'.subscriptions id, ∀ discount ∈ subscription.discount,
      Grants s' id discount.redemption discount.terms ∧ LastPeriod discount := by
  have hp : s.promoRedemptions <+: s'.promoRedemptions :=
    (List.prefix_append _ _).trans hl.redemptions
  have hold : ∀ subscription ∈ s.subscriptions id, ∀ discount ∈ subscription.discount,
      Grants s' id discount.redemption discount.terms ∧ LastPeriod discount := by
    intro subscription hfound discount hdiscount
    obtain ⟨hgrants, hlast⟩ := h.held id subscription hfound discount hdiscount
    exact ⟨hgrants.mono hfresh hr hp, hlast⟩
  rw [hl.record]
  intro subscription hmem discount hdiscount
  cases hd with
  | same record raised =>
    obtain ⟨old, hfound, hsame, _⟩ := record subscription hmem
    exact hold old hfound discount (hsame ▸ hdiscount)
  | @granted after promo stored record granted raised redeemed =>
    obtain rfl := Option.some.inj (record.symm.trans hmem)
    obtain rfl := Option.some.inj (granted.symm.trans hdiscount)
    refine ⟨?_, toAppliedDiscount_lastPeriod⟩
    obtain ⟨promo', hpromo', hterms⟩ := hr.terms hfresh stored
    refine ⟨⟨promo.id, after.customerId, id⟩, promo', ?_, rfl, hpromo', hterms⟩
    refine getElem?_initial hl.redemptions ?_
    rw [redeemed]
    exact List.getElem?_concat_length
  | dropped record raised =>
    rw [record subscription hmem] at hdiscount
    contradiction
  | @used old _ _ _ _ _ _ found invoiced record same period raised midPeriod =>
    obtain rfl := Option.some.inj (record.symm.trans hmem)
    exact hold old found discount (same ▸ hdiscount)
  | @ended old _ _ _ _ _ _ found invoiced record consumed raised =>
    obtain rfl := Option.some.inj (record.symm.trans hmem)
    rw [consumed] at hdiscount
    obtain ⟨discount', hdiscount', hconsume⟩ := Option.bind_eq_some_iff.mp hdiscount
    obtain ⟨hterms, hredemption⟩ := consumeDiscountPeriod_some hconsume
    obtain ⟨hgrants, hlast⟩ := hold old found discount' hdiscount'
    rw [hterms, hredemption]
    refine ⟨hgrants, fun honce => ?_⟩
    have honce' : discount'.duration = .once := (congrArg Terms.duration hterms).symm.trans honce
    rw [consumeDiscountPeriod_once hlast honce'] at hconsume
    contradiction

theorem billed_after (hl : Leads s id e s') (h : Traced s) (hfresh : Fresh s env.uuid)
    (hr : Restocks host env s s') (hd : Discounts env s id c e) :
    ∀ invoice ∈ bills s' id, ∀ k ∈ invoice.redemption,
      ∃ terms, Grants s' id k terms ∧ (terms.discountType = .fixed →
        ∀ amount ∈ terms.amountOff, invoice.discountAmount ≤ amount) := by
  have hp : s.promoRedemptions <+: s'.promoRedemptions :=
    (List.prefix_append _ _).trans hl.redemptions
  have hraised : ∀ {subscription usagePlan kind untilMs invoice t},
      s.subscriptions id = some subscription →
      Raised env s subscription usagePlan kind untilMs invoice t → ∀ k ∈ invoice.redemption,
        ∃ terms, Grants s' id k terms ∧ (terms.discountType = .fixed →
          ∀ amount ∈ terms.amountOff, invoice.discountAmount ≤ amount) := by
    intro subscription usagePlan kind untilMs invoice t hfound hinvoiced k hk
    obtain ⟨discount, hdiscount, rfl, subtotal, hamount⟩ := hinvoiced.redemption hk
    have hgrants := (h.held id subscription hfound discount hdiscount).1
    refine ⟨discount.terms, hgrants.mono hfresh hr hp, fun hfixed amount hmem => ?_⟩
    obtain ⟨_, promo, _, _, hpromo, hterms⟩ := hgrants
    -- the promo code has a rounded amount, and so has the discount
    obtain ⟨rounded, hrounded, hpos⟩ := h.offered.amounts _ _ hpromo
      ((congrArg Terms.discountType hterms).trans hfixed)
    have hamountOff : discount.amountOff = some (roundMoney rounded 2) :=
      (congrArg Terms.amountOff hterms).symm.trans hrounded
    obtain rfl := Option.some.inj (hamountOff.symm.trans hmem)
    exact hamount ▸ discountAmount_le hfixed hamountOff hpos.le
  intro invoice hmem k hk
  rw [hl.bills] at hmem
  rcases List.mem_append.mp hmem with hold | hnew
  · obtain ⟨terms, hgrants, hamount⟩ := h.billed id invoice hold k hk
    exact ⟨terms, hgrants.mono hfresh hr hp, hamount⟩
  · cases hd with
    | same record raised | granted stored record granted raised | dropped record raised =>
      rw [raised] at hnew
      contradiction
    | used found invoiced record same period raised
    | ended found invoiced record consumed raised =>
      rw [raised] at hnew
      obtain rfl := List.mem_singleton.mp hnew
      exact hraised found invoiced k hk

theorem Restocks.codes (hr : Restocks host env s s') (h : Traced s) (hfresh : Fresh s env.uuid) :
    ∀ redemption ∈ s'.promoRedemptions,
      ∃ promo, s'.promoCodes redemption.promoCodeId = some promo := by
  have hold : ∀ redemption ∈ s.promoRedemptions,
      ∃ promo, s'.promoCodes redemption.promoCodeId = some promo := by
    intro redemption hmem
    obtain ⟨promo, hpromo⟩ := h.codes redemption hmem
    obtain ⟨promo', hpromo', _⟩ := hr.terms hfresh hpromo
    exact ⟨promo', hpromo'⟩
  cases hr with
  | same codes redemptions => exact redemptions ▸ hold
  | offered valid codes redemptions => exact redemptions ▸ hold
  | restated found kept codes redemptions =>
    intro redemption hmem
    rcases redemptions redemption hmem with hmem | hcode
    · exact hold redemption hmem
    · exact ⟨_, by rw [hcode, codes, Function.update_self]⟩

theorem Traced.commit (h : Traced s) (a : Env × Call) : Traced (commit (service host) s a) := by
  obtain ⟨hfresh, hserved⟩ | he := service_cases host s a
  · have hr := hserved.restocks h.offered
    have hturns := fun id => hserved.turns h.indexed id
    refine ⟨hserved.indexed hfresh h.indexed, hr.keeps h.offered, hr.codes h hfresh, fun id => ?_,
      fun id => ?_⟩
    · obtain ⟨e, hturned, hl⟩ := hturns id
      exact held_after hl h hfresh hr (hturned.discounts h.indexed h.offered)
    · obtain ⟨e, hturned, hl⟩ := hturns id
      exact billed_after hl h hfresh hr (hturned.discounts h.indexed h.offered)
  · rwa [he]

/-! ## One redemption -/

/-- The invoices of a subscription on which the discount of a redemption appears. -/
def uses (s : State) (id : SubscriptionId) (k : Nat) : List Invoice :=
  (bills s id).filter (·.redemption = some k)

/-- The discount has been on `n` invoices within the period, and on one more once it is used up. -/
structure Spent (s : State) (id : SubscriptionId) (k : Nat) (n : Int) : Prop where
  count : ((uses s id k).length : Int) ≤ n + 1
  period : ∀ invoice ∈ uses s id k, ∀ invoice' ∈ uses s id k,
    invoice.periodStart = invoice'.periodStart
  held : ∀ subscription ∈ s.subscriptions id, subscription.Holds k →
    ((uses s id k).length : Int) ≤ n ∧
      ∀ invoice ∈ uses s id k, invoice.periodStart = subscription.currentPeriodStart

theorem uses_after (hl : Leads s id e s') :
    uses s' id k = uses s id k ++ e.raised.filter (·.redemption = some k) := by
  rw [uses, uses, hl.bills, List.filter_append]

/-- A redemption that is not yet made has no invoice. -/
theorem uses_new (h : Traced s) (hk : s.promoRedemptions.length ≤ k) : uses s id k = [] := by
  refine List.filter_eq_nil_iff.mpr fun invoice hmem huse => ?_
  obtain ⟨terms, hgrants, _⟩ := h.billed id invoice hmem k (of_decide_eq_true huse)
  exact absurd hgrants.lt (Nat.not_lt.mpr hk)

theorem Spent.raise {usagePlan kind untilMs} (h : Spent s id k n) (hl : Leads s id e s')
    (hfound : s.subscriptions id = some subscription)
    (hinvoiced : Raised env s subscription usagePlan kind untilMs invoice t)
    (hraised : e.raised = [invoice]) :
    (uses s' id k = uses s id k ∨ subscription.Holds k) ∧
      (uses s' id k).length ≤ (uses s id k).length + 1 ∧
        (subscription.Holds k → ∀ invoice ∈ uses s' id k,
          invoice.periodStart = subscription.currentPeriodStart) := by
  rw [uses_after hl, hraised, List.filter_singleton]
  by_cases huse : invoice.redemption = some k
  · obtain ⟨discount, hdiscount, hk, _⟩ := hinvoiced.redemption huse
    have hholds : subscription.Holds k := ⟨discount, hdiscount, hk⟩
    simp only [huse, decide_true, cond_true]
    refine ⟨.inr hholds, by simp, fun _ old hmem => ?_⟩
    rcases List.mem_append.mp hmem with hold | hnew
    · exact (h.held subscription hfound hholds).2 old hold
    · rw [List.mem_singleton.mp hnew, hinvoiced.periodStart]
  · simp only [huse, decide_false, cond_false, List.append_nil]
    exact ⟨.inl trivial, Nat.le_succ _, fun hholds => (h.held subscription hfound hholds).2⟩

theorem midPeriod_nonneg (k : Nat) (s : State) (a : Env × Call) : 0 ≤ midPeriod k s a := by
  rw [midPeriod]
  split_ifs <;> decide

/-- A discount that is used up is not kept. -/
theorem not_holds_of_ended {after old : Subscription} (ht : Traced s)
    (hfound : s.subscriptions id = some old)
    (honce : ∀ terms, Grants s id k terms → terms.duration = .once)
    (hconsumed : after.discount = old.discount.bind consumeDiscountPeriod) : ¬ after.Holds k := by
  rintro ⟨discount', hdiscount', rfl⟩
  rw [hconsumed] at hdiscount'
  obtain ⟨discount, hdiscount, hconsume⟩ := Option.bind_eq_some_iff.mp hdiscount'
  obtain ⟨hgrants, hlast⟩ := ht.held id old hfound discount hdiscount
  rw [← (consumeDiscountPeriod_some hconsume).2] at hgrants
  rw [consumeDiscountPeriod_once hlast (honce _ hgrants)] at hconsume
  contradiction

theorem Spent.turn (h : Spent s id k n) (hpos : 0 ≤ n) (ht : Traced s)
    (hd : Discounts env s id c e) (hl : Leads s id e s')
    (honce : ∀ terms, Grants s id k terms → terms.duration = .once) :
    Spent s' id k (n + midPeriod k s (env, c)) := by
  have hn := midPeriod_nonneg k s (env, c)
  have hcount := h.count
  have hquiet : e.raised = [] → uses s' id k = uses s id k := by
    intro hraised
    rw [uses_after hl, hraised, List.filter_nil, List.append_nil]
  have hnone : (∀ subscription ∈ e.record, ¬ subscription.Holds k) → e.raised = [] →
      Spent s' id k (n + midPeriod k s (env, c)) := by
    intro hrecord hraised
    refine ⟨?_, ?_, fun subscription hmem hholds => ?_⟩
    · rw [hquiet hraised]
      omega
    · rw [hquiet hraised]
      exact h.period
    · exact absurd hholds (hrecord subscription (hl.record ▸ hmem))
  cases hd with
  | same record raised =>
    refine ⟨?_, ?_, fun subscription hmem hholds => ?_⟩
    · rw [hquiet raised]
      omega
    · rw [hquiet raised]
      exact h.period
    · obtain ⟨old, hold, hdiscount, hperiod⟩ := record subscription (hl.record ▸ hmem)
      rw [Subscription.Holds, hdiscount] at hholds
      obtain ⟨hle, hall⟩ := h.held old hold hholds
      rw [hquiet raised, hperiod]
      exact ⟨by omega, hall⟩
  | granted stored record granted raised redeemed =>
    by_cases hk : s.promoRedemptions.length = k
    · have hnew : uses s' id k = [] := (hquiet raised).trans (uses_new ht hk.le)
      refine ⟨?_, ?_, fun subscription hmem hholds => ⟨?_, ?_⟩⟩ <;> rw [hnew]
      · exact add_nonneg (add_nonneg hpos hn) zero_le_one
      · exact fun _ hmem => absurd hmem List.not_mem_nil
      · exact add_nonneg hpos hn
      · exact fun _ hmem => absurd hmem List.not_mem_nil
    · refine hnone ?_ raised
      intro subscription hmem ⟨discount, hdiscount, he⟩
      obtain rfl := Option.some.inj (record.symm.trans hmem)
      obtain rfl := Option.some.inj (granted.symm.trans hdiscount)
      exact hk he
  | dropped record raised =>
    refine hnone ?_ raised
    intro subscription hmem ⟨discount, hdiscount, _⟩
    rw [record subscription hmem] at hdiscount
    contradiction
  | @used old after _ _ _ invoice _ found invoiced record same period raised mid =>
    obtain ⟨hsame, hle, hall⟩ := h.raise hl found invoiced raised
    have hmid : old.Holds k → midPeriod k s (env, c) = 1 := fun hholds => if_pos (mid k hholds)
    refine ⟨?_, ?_, fun subscription hmem hholds => ?_⟩
    · rcases hsame with he | hholds
      · rw [he]
        omega
      · have := (h.held old found hholds).1
        have := hmid hholds
        omega
    · rcases hsame with he | hholds
      · rw [he]
        exact h.period
      · exact fun i hi j hj => (hall hholds i hi).trans (hall hholds j hj).symm
    · rw [hl.record, record] at hmem
      obtain rfl := Option.some.inj hmem
      rw [Subscription.Holds, same] at hholds
      have := (h.held old found hholds).1
      have := hmid hholds
      exact ⟨by omega, period ▸ hall hholds⟩
  | @ended old after _ _ _ invoice _ found invoiced record consumed raised =>
    obtain ⟨hsame, hle, hall⟩ := h.raise hl found invoiced raised
    refine ⟨?_, ?_, fun subscription hmem hholds => ?_⟩
    · rcases hsame with he | hholds
      · rw [he]
        omega
      · have := (h.held old found hholds).1
        omega
    · rcases hsame with he | hholds
      · rw [he]
        exact h.period
      · exact fun i hi j hj => (hall hholds i hi).trans (hall hholds j hj).symm
    · rw [hl.record, record] at hmem
      obtain rfl := Option.some.inj hmem
      exact absurd hholds (not_holds_of_ended ht found honce consumed)

/-! ## Every run -/

/-- The invoices with the discount of each redemption, after the calls. -/
structure Counted (host : Host) (calls : List (Env × Call)) (s : State) : Prop where
  traced : Traced s
  spent : ∀ id k, (∀ terms, Grants s id k terms → terms.duration = .once) →
    Spent s id k (total (service host) (midPeriod k) start calls)

theorem Counted.snoc {calls : List (Env × Call)} (h : Counted host calls s) (a : Env × Call)
    (hs : s = run (service host) start calls) :
    Counted host (calls ++ [a]) (commit (service host) s a) := by
  refine ⟨h.traced.commit a, fun id k honce => ?_⟩
  rw [total_snoc, ← hs]
  obtain ⟨hfresh, hserved⟩ | he := service_cases host s a
  · have hr := hserved.restocks h.traced.offered
    obtain ⟨e, hturned, hl⟩ := hserved.turns h.traced.indexed id
    have hp : s.promoRedemptions <+: (commit (service host) s a).promoRedemptions :=
      (List.prefix_append _ _).trans hl.redemptions
    have hold : ∀ terms, Grants s id k terms → terms.duration = .once := fun terms hgrants =>
      honce terms (hgrants.mono hfresh hr hp)
    exact (h.spent id k hold).turn (total_nonneg (midPeriod_nonneg k) _ _) h.traced
      (hturned.discounts h.traced.indexed h.traced.offered) hl hold
  · have hspent := h.spent id k (he ▸ honce)
    have hn := midPeriod_nonneg k s a
    rw [he]
    exact ⟨by have := hspent.count; omega, hspent.period, fun subscription hmem hholds =>
      ⟨by have := (hspent.held subscription hmem hholds).1; omega,
        (hspent.held subscription hmem hholds).2⟩⟩

theorem counted_run (host : Host) (calls : List (Env × Call)) :
    Counted host calls (run (service host) start calls) := by
  refine run_history (I := Counted host) (P := fun _ _ => True) ?_ ?_ calls
    (along_iff_initial.mpr fun _ _ _ => trivial)
  · refine ⟨start_traced, fun id k _ => ⟨zero_le_one, ?_, fun _ hmem => ?_⟩⟩
    · exact fun _ hmem => absurd hmem List.not_mem_nil
    · exact absurd hmem.symm (Option.some_ne_none _)
  · exact fun calls a h _ => h.snoc a rfl

theorem uses_eq (ht : Traced s) {redemption : PromoRedemption}
    (hk : s.promoRedemptions[k]? = some redemption) :
    uses s redemption.subscriptionId k = (discounted s k).map Invoice.bill := by
  refine filter_bills (fun i => rfl) fun i hmem huse => ?_
  obtain ⟨_, ⟨redemption', _, hk', hid, _⟩, _⟩ :=
    ht.billed _ _ (bill_mem_bills hmem) k (of_decide_eq_true huse)
  obtain rfl := Option.some.inj (hk.symm.trans hk')
  exact hid.symm

/-- The discount of a redemption with duration `once` is on invoices of one period of its
subscription. One of them at most ends the period, and each is reduced by the amount at most. -/
theorem discountedOnce_of_once (host : Host) (calls : List (Env × Call)) (k : Nat)
    (redemption : PromoRedemption) (promo : PromoCode)
    (hk : (run (service host) start calls).promoRedemptions[k]? = some redemption)
    (hpromo : (run (service host) start calls).promoCodes redemption.promoCodeId = some promo)
    (honce : promo.duration = .once) :
    DiscountedOnce (run (service host) start calls) k redemption promo
      (total (service host) (midPeriod k) start calls) := by
  have hcounted := counted_run host calls
  have ht := hcounted.traced
  have hsame : ∀ terms, Grants (run (service host) start calls) redemption.subscriptionId k terms →
      terms = promo.terms := by
    rintro terms ⟨redemption', promo', hk', -, hpromo', rfl⟩
    obtain rfl := Option.some.inj (hk.symm.trans hk')
    rw [Option.some.inj (hpromo.symm.trans hpromo')]
  have hspent := hcounted.spent redemption.subscriptionId k fun terms h => by
    rw [hsame terms h]
    exact honce
  have hn : 0 ≤ total (service host) (midPeriod k) start calls :=
    total_nonneg (midPeriod_nonneg k) start calls
  generalize total (service host) (midPeriod k) start calls = n at hspent hn ⊢
  generalize run (service host) start calls = s at hk hpromo ht hsame hspent ⊢
  have huses := uses_eq ht hk
  have hmem : ∀ invoice ∈ discounted s k, invoice.bill ∈ uses s redemption.subscriptionId k :=
    fun invoice h => huses ▸ List.mem_map_of_mem h
  have hbilled : ∀ invoice ∈ discounted s k, invoice.bill ∈ bills s redemption.subscriptionId :=
    fun invoice h => List.mem_of_mem_filter (hmem invoice h)
  have hcount : ((discounted s k).length : Int) ≤ 1 + n := by
    have := hspent.count
    rw [huses, List.length_map] at this
    omega
  refine ⟨fun invoice h => ?_, fun invoice h invoice' h' => ?_, hcount, fun hfixed amount ha => ?_⟩
  · exact of_decide_eq_true (List.mem_filter.mp (hbilled invoice h)).2
  · exact hspent.period invoice.bill (hmem invoice h) invoice'.bill (hmem invoice' h')
  · obtain ⟨rounded, hrounded, hpos⟩ := ht.offered.amounts _ _ hpromo hfixed
    have hamount : 0 ≤ amount := by
      rw [← Option.some.inj (hrounded.symm.trans ha)]
      exact roundMoney_nonneg hpos.le 2
    have hle : ∀ x ∈ (discounted s k).map (·.discountAmount), x ≤ amount := by
      intro x hx
      obtain ⟨invoice, h, rfl⟩ := List.mem_map.mp hx
      obtain ⟨terms, hgrants, hterms⟩ := ht.billed _ _ (hbilled invoice h) k
        (of_decide_eq_true (List.mem_filter.mp h).2)
      rw [hsame terms hgrants] at hterms
      exact hterms hfixed amount ha
    have hlength : ((discounted s k).length : ℚ) ≤ (1 + n : Int) := by exact_mod_cast hcount
    calc ((discounted s k).map (·.discountAmount)).sum
        ≤ ((discounted s k).map (·.discountAmount)).length • amount :=
          List.sum_le_card_nsmul _ amount hle
      _ = (discounted s k).length * amount := by rw [List.length_map, nsmul_eq_mul]
      _ ≤ (1 + n : Int) * amount := mul_le_mul_of_nonneg_right hlength hamount

/-- Five off, once. -/
def fiveOff : PromoCodeInput :=
  { code := "FIVEOFF", merchantId := none, discountType := .fixed, percentOff := none
    amountOff := some 5, currency := some "USD", duration := none, durationInPeriods := none
    maxRedemptions := none, perCustomerLimit := none, appliesToPlanIds := none
    minimumAmount := none, startsAt := none, expiresAt := none }

def redeemedCode : PromoCode := { newPromoCode capitals ⟨0, "3"⟩ fiveOff with timesRedeemed := 1 }

/-- A customer who redeems the code. -/
def redeems : List (Env × Call) :=
  [atDay 0 "1" (monthly "basic" 30), atDay 0 "2" (monthly "pro" 60),
    atDay 0 "3" (.createPromoCode fiveOff),
    atDay 0 "4" (.subscribe "m" "c" "basic" none (some "FIVEOFF"))]

def closesPeriods : List (Env × Call) := redeems ++
  [atDay 30 "5" (.closeBillingPeriod "sub_4"), atDay 60 "6" (.closeBillingPeriod "sub_4")]

theorem closesPeriods_discountedOnce :
    ((run (service capitals) start closesPeriods).invoices.map (·.discountAmount)) = [5, 0] ∧
      DiscountedOnce (run (service capitals) start closesPeriods) 0 ⟨"promo_3", "c", "sub_4"⟩
        redeemedCode 0 := by
  have hrun : ((run (service capitals) start closesPeriods).invoices.map (·.discountAmount)) =
        [5, 0] ∧
      (run (service capitals) start closesPeriods).promoRedemptions[0]? =
        some ⟨"promo_3", "c", "sub_4"⟩ ∧
      (run (service capitals) start closesPeriods).promoCodes "promo_3" = some redeemedCode ∧
      total (service capitals) (midPeriod 0) start closesPeriods = 0 := by
    decide +kernel
  obtain ⟨hamounts, hredemption, hcode, htotal⟩ := hrun
  refine ⟨hamounts, ?_⟩
  rw [← htotal]
  exact discountedOnce_of_once capitals closesPeriods 0 _ redeemedCode hredemption hcode (by decide)

/-- A plan change within the period is invoiced at once. -/
def changesWithin : List (Env × Call) := redeems ++
  [atDay 10 "5" (.changePlan "sub_4" "pro" (some .alwaysInvoice)),
    atDay 30 "6" (.closeBillingPeriod "sub_4")]

/-- Five off twice. -/
theorem discounted_twice_within_period :
    ((run (service capitals) start changesWithin).invoices.map (·.discountAmount)) = [5, 5] ∧
      ¬ ∀ (host : Host) (calls : List (Env × Call)) (k : Nat) (redemption : PromoRedemption)
        (promo : PromoCode),
        (run (service host) start calls).promoRedemptions[k]? = some redemption →
          (run (service host) start calls).promoCodes redemption.promoCodeId = some promo →
            promo.duration = .once →
              (discounted (run (service host) start calls) k).length ≤ 1 := by
  have hrun : ((run (service capitals) start changesWithin).invoices.map (·.discountAmount)) =
        [5, 5] ∧
      (run (service capitals) start changesWithin).promoRedemptions[0]? =
        some ⟨"promo_3", "c", "sub_4"⟩ ∧
      (run (service capitals) start changesWithin).promoCodes "promo_3" = some redeemedCode ∧
      1 < (discounted (run (service capitals) start changesWithin) 0).length := by
    decide +kernel
  obtain ⟨hamounts, hredemption, hcode, htwice⟩ := hrun
  refine ⟨hamounts, fun hall => ?_⟩
  exact absurd htwice (Nat.not_lt.mpr
    (hall capitals changesWithin 0 _ redeemedCode hredemption hcode (by decide)))

end Billing
