import AgenticPay.BillingDiscounts

/-!
# Redemptions of promo codes

The counter of a promo code is the number of its redemptions, and both limits of the code hold. The
discount of a subscription is that of one redemption by its customer.
-/
namespace Billing

open Transaction

/-- The redemptions of a promo code. -/
def redemptionsOf (s : State) (id : PromoCodeId) : List PromoRedemption :=
  s.promoRedemptions.filter (·.promoCodeId = id)

/-- The redemptions of a promo code by one customer. -/
def redemptionsBy (s : State) (id : PromoCodeId) (customerId : CustomerId) :
    List PromoRedemption :=
  s.promoRedemptions.filter fun r => r.promoCodeId = id ∧ r.customerId = customerId

/-- The counter of a promo code and its limits. -/
structure Limited (s : State) (promo : PromoCode) : Prop where
  counted : promo.timesRedeemed = (redemptionsOf s promo.id).length
  total : ∀ limit ∈ promo.maxRedemptions, (promo.timesRedeemed : ℚ) ≤ limit
  perCustomer : ∀ customerId,
    ((redemptionsBy s promo.id customerId).length : ℚ) ≤ promo.perCustomerLimit

/-- The discount is the one that a redemption by the customer of the subscription has granted. -/
def ComesFrom (s : State) (id : SubscriptionId) (subscription : Subscription)
    (discount : AppliedDiscount) : Prop :=
  s.promoRedemptions[discount.redemption]? =
    some ⟨discount.promoCodeId, subscription.customerId, id⟩

/-- Promo codes are within their limits, every discount comes from a redemption and no two from the
same one, and no call takes a redemption back. A call that throws changes nothing. -/
structure Redeemed (host : Host) (s : State) : Prop where
  limited : ∀ id promo, s.promoCodes id = some promo → promo.id = id ∧ Limited s promo
  granted : ∀ id, ∀ subscription ∈ s.subscriptions id, ∀ discount ∈ subscription.discount,
    ComesFrom s id subscription discount
  once : ∀ id, ∀ subscription ∈ s.subscriptions id, ∀ discount ∈ subscription.discount,
    ∀ id', ∀ subscription' ∈ s.subscriptions id', ∀ discount' ∈ subscription'.discount,
      discount.redemption = discount'.redemption → id = id'
  kept : ∀ a, s.promoRedemptions <+: (commit (service host) s a).promoRedemptions
  thrown : ∀ a failure, service host a s = .error failure → commit (service host) s a = s

variable {host : Host} {env : Env} {s s' : State} {id : SubscriptionId} {promo : PromoCode}
  {c : Call} {e : Effect} {subscription : Subscription} {discount : AppliedDiscount}

/-! ## Limits -/

theorem isInteger_succ_le {n : Nat} {limit : ℚ} (hinteger : isInteger limit = true)
    (h : (n : ℚ) < limit) : ((n + 1 : Nat) : ℚ) ≤ limit := by
  have hnum : ((limit.num : Int) : ℚ) = limit :=
    (Rat.den_eq_one_iff limit).mp (beq_iff_eq.mp hinteger)
  rw [← hnum] at h ⊢
  have hlt : (n : Int) < limit.num := by exact_mod_cast h
  have hle : ((n + 1 : Nat) : Int) ≤ limit.num := by omega
  exact_mod_cast hle

/-- The limits of a promo code are whole numbers, and hold. -/
structure Bounded (s : State) (promo : PromoCode) : Prop where
  total : ∀ limit ∈ promo.maxRedemptions, isInteger limit = true
  perCustomer : isInteger promo.perCustomerLimit = true
  limited : Limited s promo

theorem limitsError_none {input : PromoCodeInput} (h : limitsError input = none) :
    (∀ limit ∈ input.maxRedemptions, isInteger limit = true ∧ 0 < limit) ∧
      ∀ limit ∈ input.perCustomerLimit, isInteger limit = true ∧ 0 < limit := by
  rw [limitsError] at h
  split_ifs at h with htotal hcustomer
  constructor
  · intro limit hmem
    by_contra hnot
    exact htotal ⟨limit, hmem, hnot⟩
  · intro limit hmem
    by_contra hnot
    exact hcustomer ⟨limit, hmem, hnot⟩

theorem validatePromoCodeInput_limits {input : PromoCodeInput}
    (h : validatePromoCodeInput host input = none) : limitsError input = none := by
  rw [validatePromoCodeInput] at h
  split_ifs at h
  obtain ⟨-, h⟩ := Option.or_eq_none_iff.mp h
  obtain ⟨-, h⟩ := Option.or_eq_none_iff.mp h
  exact (Option.or_eq_none_iff.mp h).1

theorem ite_some_eq_none {p : Prop} [Decidable p] {error : String} {rest : Option String} :
    (if p then some error else rest) = none ↔ ¬ p ∧ rest = none := by
  by_cases h : p
  · simp [h]
  · simp [h]

/-- What a promo code that can be redeemed has left. -/
theorem requireRedeemable_left {code merchantId customerId : String} {plan : BillingPlan}
    (h : requireRedeemable host env s code merchantId customerId plan = .ok promo) :
    (∀ limit ∈ promo.maxRedemptions, (promo.timesRedeemed : ℚ) < limit) ∧
      ((redemptionsBy s promo.id customerId).length : ℚ) < promo.perCustomerLimit := by
  obtain ⟨promo', -, h⟩ := bind_returns h
  split at h
  next hnone =>
    cases h
    rw [redemptionError] at hnone
    simp only [ite_some_eq_none] at hnone
    obtain ⟨_, _, _, htotal, hcustomer, _⟩ := hnone
    refine ⟨fun limit hmem => ?_, not_le.mp hcustomer⟩
    exact not_le.mp fun hle => htotal ⟨limit, hmem, hle⟩
  next => contradiction

theorem Limited.congr (h : Limited s promo)
    (hof : redemptionsOf s' promo.id = redemptionsOf s promo.id)
    (hby : ∀ customerId,
      redemptionsBy s' promo.id customerId = redemptionsBy s promo.id customerId) :
    Limited s' promo := by
  refine ⟨?_, h.total, fun customerId => ?_⟩
  · rw [hof]
    exact h.counted
  · rw [hby]
    exact h.perCustomer customerId

section Added

variable {redemption : PromoRedemption} {codeId : PromoCodeId} {customerId : CustomerId}
  (h : s'.promoRedemptions = s.promoRedemptions ++ [redemption])

include h

theorem redemptionsOf_added (hcode : redemption.promoCodeId = codeId) :
    redemptionsOf s' codeId = redemptionsOf s codeId ++ [redemption] := by
  rw [redemptionsOf, redemptionsOf, h, List.filter_append, List.filter_singleton,
    decide_eq_true hcode]
  rfl

theorem redemptionsOf_other (hcode : redemption.promoCodeId ≠ codeId) :
    redemptionsOf s' codeId = redemptionsOf s codeId := by
  rw [redemptionsOf, redemptionsOf, h, List.filter_append, List.filter_singleton,
    decide_eq_false hcode]
  exact List.append_nil _

theorem redemptionsBy_added (hcode : redemption.promoCodeId = codeId)
    (hcustomer : redemption.customerId = customerId) :
    redemptionsBy s' codeId customerId = redemptionsBy s codeId customerId ++ [redemption] := by
  rw [redemptionsBy, redemptionsBy, h, List.filter_append, List.filter_singleton,
    decide_eq_true ⟨hcode, hcustomer⟩]
  rfl

theorem redemptionsBy_other
    (hother : ¬ (redemption.promoCodeId = codeId ∧ redemption.customerId = customerId)) :
    redemptionsBy s' codeId customerId = redemptionsBy s codeId customerId := by
  rw [redemptionsBy, redemptionsBy, h, List.filter_append, List.filter_singleton,
    decide_eq_false hother]
  exact List.append_nil _

end Added

/-- What a promo code that is written leaves of all of them. -/
theorem forall_codes {P : PromoCode → Prop} {key : PromoCodeId} {new : PromoCode}
    (hcodes : s'.promoCodes = Function.update s.promoCodes key (some new)) (hnew : P new)
    (hold : ∀ id promo, id ≠ key → s.promoCodes id = some promo → P promo) :
    ∀ id promo, s'.promoCodes id = some promo → P promo := by
  intro id promo hfound
  rw [hcodes, Function.update_apply] at hfound
  split_ifs at hfound with hid
  · exact Option.some.inj hfound ▸ hnew
  · exact hold id promo hid hfound

theorem bounded_new {input : PromoCodeInput} (hvalid : validatePromoCodeInput host input = none)
    (hnone : ∀ redemption ∈ s.promoRedemptions, redemption.promoCodeId ≠ "promo_" ++ env.uuid) :
    Bounded s (newPromoCode host env input) := by
  obtain ⟨htotal, hcustomer⟩ := limitsError_none (validatePromoCodeInput_limits hvalid)
  have hempty (p : PromoRedemption → Bool) (hp : ∀ redemption, p redemption = true →
      redemption.promoCodeId = (newPromoCode host env input).id) :
      s.promoRedemptions.filter p = [] :=
    List.filter_eq_nil_iff.mpr fun redemption hmem he => hnone redemption hmem (hp _ he)
  have hlimit : isInteger (input.perCustomerLimit.getD 1) = true ∧
      0 < input.perCustomerLimit.getD 1 := by
    cases hinput : input.perCustomerLimit with
    | none => exact ⟨rfl, one_pos⟩
    | some limit => exact hcustomer limit hinput
  refine ⟨fun limit hmem => (htotal limit hmem).1, hlimit.1, ?_, fun limit hmem => ?_, ?_⟩
  · rw [redemptionsOf, hempty _ fun _ he => of_decide_eq_true he]
    rfl
  · exact_mod_cast (htotal limit hmem).2.le
  · intro customerId
    rw [redemptionsBy, hempty _ fun _ he => (of_decide_eq_true he).1]
    exact_mod_cast hlimit.2.le

/-- Promo codes stay within their limits. -/
theorem bounded_redeems (h : ∀ id promo, s.promoCodes id = some promo → Bounded s promo)
    (ht : Traced s) (hfresh : Fresh s env.uuid) (hr : Redeems host env s s') :
    ∀ id promo, s'.promoCodes id = some promo → Bounded s' promo := by
  have hsame : s'.promoRedemptions = s.promoRedemptions → ∀ {promo}, Bounded s promo →
      Bounded s' promo := by
    intro hredemptions promo hbounded
    refine ⟨hbounded.total, hbounded.perCustomer, hbounded.limited.congr ?_ fun customerId => ?_⟩
    · rw [redemptionsOf, redemptionsOf, hredemptions]
    · rw [redemptionsBy, redemptionsBy, hredemptions]
  cases hr with
  | same codes redemptions =>
    intro id promo hfound
    exact hsame redemptions (h id promo (codes ▸ hfound))
  | @offered input valid codes redemptions =>
    refine forall_codes codes (hsame redemptions (bounded_new valid ?_))
      fun id promo _ hfound => hsame redemptions (h id promo hfound)
    intro redemption hmem he
    obtain ⟨promo, hpromo⟩ := ht.codes redemption hmem
    have hnone := Option.isNone_iff_eq_none.mp hfresh.2.1
    rw [← he, hpromo] at hnone
    contradiction
  | @withdrawn promo found codes redemptions =>
    refine forall_codes codes (hsame redemptions ?_)
      fun id promo _ hfound => hsame redemptions (h id promo hfound)
    have hold := h promo.id promo found
    exact ⟨hold.total, hold.perCustomer, hold.limited.counted, hold.limited.total,
      hold.limited.perCustomer⟩
  | @redeemed promo code merchantId customerId plan subscriptionId found redeemable codes
      redemptions =>
    obtain ⟨htotal, hcustomer⟩ := requireRedeemable_left redeemable
    have hold := h promo.id promo found
    refine forall_codes codes ⟨hold.total, hold.perCustomer, ?_, ?_, ?_⟩ ?_
    · rw [redemptionsOf_added redemptions rfl, List.length_append, ← hold.limited.counted]
      rfl
    · exact fun limit hmem => isInteger_succ_le (hold.total limit hmem) (htotal limit hmem)
    · intro other
      by_cases he : customerId = other
      · rw [redemptionsBy_added redemptions rfl he, List.length_append, ← he]
        exact isInteger_succ_le hold.perCustomer hcustomer
      · rw [redemptionsBy_other redemptions fun hboth => he hboth.2]
        exact hold.limited.perCustomer other
    · intro id promo' hid hfound
      have hbounded := h id promo' hfound
      have hne : promo.id ≠ promo'.id := by
        rw [ht.offered.ids id promo' hfound]
        exact Ne.symm hid
      refine ⟨hbounded.total, hbounded.perCustomer, hbounded.limited.congr ?_ fun other => ?_⟩
      · exact redemptionsOf_other redemptions hne
      · exact redemptionsBy_other redemptions fun hboth => hne hboth.1

/-! ## Discounts -/

/-- The discount of a record that an effect leaves was there before, or the effect has redeemed
it. -/
theorem Turned.redeemed (h : Turned host env s id c e) (hi : Indexed s)
    (hmem : subscription ∈ e.record) (hdiscount : discount ∈ subscription.discount) :
    (∃ old ∈ s.subscriptions id, old.customerId = subscription.customerId ∧
      ∃ before ∈ old.discount, before.redemption = discount.redemption ∧
        before.promoCodeId = discount.promoCodeId) ∨
    (discount.redemption = s.promoRedemptions.length ∧
      e.redeemed = [⟨discount.promoCodeId, subscription.customerId, id⟩]) := by
  have hkept {old : Subscription} (hfound : s.subscriptions id = some old)
      (hcustomer : old.customerId = subscription.customerId)
      (hsame : old.discount = subscription.discount) :
      ∃ old ∈ s.subscriptions id, old.customerId = subscription.customerId ∧
        ∃ before ∈ old.discount, before.redemption = discount.redemption ∧
          before.promoCodeId = discount.promoCodeId :=
    ⟨old, hfound, hcustomer, discount, hsame ▸ hdiscount, rfl, rfl⟩
  have hconsumed {old : Subscription} (hfound : s.subscriptions id = some old)
      (hcustomer : old.customerId = subscription.customerId)
      (hused : subscription.discount = old.discount.bind consumeDiscountPeriod) :
      ∃ old ∈ s.subscriptions id, old.customerId = subscription.customerId ∧
        ∃ before ∈ old.discount, before.redemption = discount.redemption ∧
          before.promoCodeId = discount.promoCodeId := by
    rw [hused] at hdiscount
    obtain ⟨before, hbefore, hconsume⟩ := Option.bind_eq_some_iff.mp hdiscount
    exact ⟨old, hfound, hcustomer, before, hbefore, (consumeDiscountPeriod_some hconsume).2.symm,
      (consumeDiscountPeriod_code hconsume).symm⟩
  cases h with
  | kept => exact .inl (hkept hmem rfl rfl)
  | restated found =>
    cases hmem
    exact .inl (hkept found rfl rfl)
  | discounted found notCancelled noDiscount redeemable =>
    cases hmem
    cases hdiscount
    refine .inr ⟨rfl, ?_⟩
    rw [hi.subscriptions _ _ found]
    rfl
  | undiscounted found =>
    cases hmem
    cases hdiscount
  | subscribed new =>
    cases hmem
    cases hdiscount
  | subscribedWith new redeemable =>
    cases hmem
    cases hdiscount
    refine .inr ⟨rfl, ?_⟩
    rw [new]
    rfl
  | switched resolved =>
    cases hmem
    exact .inl (hkept (resolvePlanChange_ok resolved).found rfl rfl)
  | @settled planId behavior old currentPlan newPlan invoice t resolved notTrialing prorated
      immediate raised =>
    cases hmem
    have hfound := (resolvePlanChange_ok resolved).found
    by_cases hchange : IntervalChange currentPlan newPlan
    · refine .inl (hconsumed hfound ?_ ?_)
      · rw [settleChange, if_pos hchange]
      · rw [settleChange, if_pos hchange]
    · refine .inl (hkept hfound ?_ ?_)
      · rw [settleChange, if_neg hchange]
      · rw [settleChange, if_neg hchange]
  | rescheduled resolved =>
    cases hmem
    exact .inl (hkept (resolvePlanChange_ok resolved).found rfl rfl)
  | metered target found =>
    cases hmem
    exact .inl (hkept found rfl rfl)
  | invoiced found raised =>
    cases hmem
    exact .inl (hkept found rfl rfl)
  | closed found raised =>
    cases hmem
    exact .inl (hconsumed found rfl rfl)

theorem ComesFrom.turn (hl : Leads s id e s') (ht : Turned host env s id c e) (hi : Indexed s)
    (h : ∀ subscription ∈ s.subscriptions id, ∀ discount ∈ subscription.discount,
      ComesFrom s id subscription discount) :
    ∀ subscription ∈ s'.subscriptions id, ∀ discount ∈ subscription.discount,
      ComesFrom s' id subscription discount := by
  intro subscription hmem discount hdiscount
  rw [hl.record] at hmem
  obtain ⟨old, hold, hcustomer, before, hbefore, hredemption, hcode⟩ | ⟨hredemption, hredeemed⟩ :=
    ht.redeemed hi hmem hdiscount
  · have hfrom := h old hold before hbefore
    rw [ComesFrom, hredemption, hcode, hcustomer] at hfrom
    exact getElem?_initial ((List.prefix_append _ _).trans hl.redemptions) hfrom
  · refine getElem?_initial hl.redemptions ?_
    rw [hredemption, hredeemed]
    exact List.getElem?_concat_length

/-! ## Every run -/

/-- What is kept of promo codes and of discounts. -/
structure Traceable (s : State) : Prop where
  traced : Traced s
  bounded : ∀ id promo, s.promoCodes id = some promo → Bounded s promo
  granted : ∀ id, ∀ subscription ∈ s.subscriptions id, ∀ discount ∈ subscription.discount,
    ComesFrom s id subscription discount

theorem Traceable.commit (h : Traceable s) (a : Env × Call) :
    Traceable (commit (service host) s a) ∧
      s.promoRedemptions <+: (commit (service host) s a).promoRedemptions := by
  have htraced : Traced (Transaction.commit (service host) s a) := h.traced.commit a
  obtain ⟨hfresh, hserved⟩ | he := service_cases host s a
  · refine ⟨⟨htraced, ?_, fun id => ?_⟩, ?_⟩
    · exact bounded_redeems h.bounded h.traced hfresh (hserved.redeems h.traced.offered)
    · obtain ⟨e, hturned, hl⟩ := hserved.turns h.traced.indexed id
      exact ComesFrom.turn hl hturned h.traced.indexed (h.granted id)
    · obtain ⟨e, -, hl⟩ := hserved.turns h.traced.indexed ""
      exact (List.prefix_append _ _).trans hl.redemptions
  · rw [he]
    exact ⟨h, List.prefix_rfl⟩

theorem start_traceable : Traceable start where
  traced := start_traced
  bounded := fun _ _ h => absurd h.symm (Option.some_ne_none _)
  granted := fun _ _ hmem => absurd hmem.symm (Option.some_ne_none _)

theorem Traceable.redeemed (h : Traceable s) : Redeemed host s where
  limited := fun id promo hfound =>
    ⟨h.traced.offered.ids id promo hfound, (h.bounded id promo hfound).limited⟩
  granted := h.granted
  once := by
    intro id subscription hmem discount hdiscount id' subscription' hmem' discount' hdiscount' he
    have hfrom := h.granted id subscription hmem discount hdiscount
    have hfrom' := h.granted id' subscription' hmem' discount' hdiscount'
    rw [ComesFrom, he] at hfrom
    rw [ComesFrom, hfrom] at hfrom'
    exact congrArg PromoRedemption.subscriptionId (Option.some.inj hfrom')
  kept := fun a => (h.commit a).2
  thrown := fun a failure hthrown => by rw [Transaction.commit, hthrown]

/-- In every state that calls lead to, promo codes and discounts agree with the redemptions. -/
theorem redemptions_run (host : Host) (calls : List (Env × Call)) :
    Redeemed host (run (service host) start calls) := by
  have h : Traceable (run (service host) start calls) :=
    run_preserves (I := Traceable) (fun _ a h => (h.commit a).1) start_traceable calls
  exact h.redeemed

/-- A second redemption by the same customer is rejected, also after the discount is removed. -/
example :
    let s := run (service capitals) start (redeems ++
      [atDay 1 "5" (.removeDiscount "sub_4"), atDay 2 "6" (.applyPromoCode "sub_4" "FIVEOFF")])
    s.promoRedemptions = [⟨"promo_3", "c", "sub_4"⟩] ∧
      (s.promoCodes "promo_3").map (·.timesRedeemed) = some 1 ∧
        (s.subscriptions "sub_4").map (·.discount) = some none := by
  decide +kernel

end Billing
