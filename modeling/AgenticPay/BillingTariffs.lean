import AgenticPay.BillingMoney
import AgenticPay.BillingSteps
import AgenticPay.Brackets

/-!
# What tiers charge

The tiers of a meter and the tiers of a plan are brackets of a tariff, counted from zero on. The
loops over them walk through the brackets from the first unit that is charged.
-/
namespace Billing

open Brackets Transaction

/-- The units that each tier of a meter prices. -/
def meterBrackets (lower : ℚ) : List MeterTier → List (Bracket ℚ)
  | [] => []
  | tier :: rest =>
    { lower, upper := tier.upTo, rate := tier.unitPrice, fee := tier.flatFee.getD 0 } ::
      meterBrackets (tier.upTo.getD lower) rest

/-- The units that each tier of a plan prices, and those beyond the last tier. -/
def planBrackets (plan : BillingPlan) (lower : ℚ) : List PricingTier → List (Bracket ℚ)
  | [] => [{ lower, upper := none, rate := plan.overageUnitPrice, fee := 0 }]
  | tier :: rest =>
    { lower, upper := some tier.upTo, rate := tier.unitPrice, fee := 0 } ::
      planBrackets plan tier.upTo rest

/-- What a plan charges for the units after those that it includes, before it is rounded. -/
def overageCharge (plan : BillingPlan) (overageUnits : ℚ) : ℚ :=
  charge plan.includedUnits (plan.includedUnits + overageUnits)
    (planBrackets plan 0 (plan.tiers.getD []))

/-- The plan is as the checks of `createPlan` leave it. -/
structure BillingPlan.Priced (plan : BillingPlan) : Prop where
  basePrice : IsCents plan.basePrice ∧ 0 ≤ plan.basePrice
  includedUnits : 0 ≤ plan.includedUnits
  overageUnitPrice : 0 ≤ plan.overageUnitPrice
  tiers : validateTierList plan.tiers = .ok ()
  meters : ∀ meters ∈ plan.meters, ∀ meter ∈ meters, validateMeteredPrice meter = none

variable {metric : String} {previous lower remaining cursor amount units : ℚ}
  {tiers : List MeterTier} {planTiers : List PricingTier} {plan : BillingPlan}

/-! ## The checks -/

/-- No bracket takes money back. -/
def Charging (bs : List (Bracket ℚ)) : Prop := ∀ b ∈ bs, 0 ≤ b.rate ∧ 0 ≤ b.fee

theorem meteredError_none {c : Prop} [Decidable c] {text : String} {found : Option String} :
    (if c then meteredError metric text else found) = none ↔ ¬ c ∧ found = none := by
  split_ifs with hc
  · simp [meteredError, hc]
  · simp [hc]

theorem validateTiersFrom_covers (h : validateTiersFrom metric previous tiers = none)
    (hne : tiers ≠ []) :
    Covers previous (meterBrackets previous tiers) ∧ Charging (meterBrackets previous tiers) := by
  induction tiers generalizing previous with
  | nil => exact absurd rfl hne
  | cons tier rest ih =>
    rw [validateTiersFrom, meteredError_none, meteredError_none] at h
    obtain ⟨hprice, hfee, h⟩ := h
    have hcharging : 0 ≤ tier.unitPrice ∧ 0 ≤ tier.flatFee.getD 0 :=
      ⟨not_not.mp hprice, not_lt.mp hfee⟩
    rw [meterBrackets]
    cases hu : tier.upTo with
    | none =>
      simp only [hu, meteredError_none] at h
      obtain rfl := not_not.mp h.1
      refine ⟨⟨rfl, rfl⟩, ?_⟩
      intro b hb
      obtain rfl := List.mem_singleton.mp hb
      exact hcharging
    | some u =>
      simp only [hu, meteredError_none] at h
      obtain ⟨hrest, hless, h⟩ := h
      obtain ⟨hcovers, hall⟩ := ih h hrest
      refine ⟨⟨rfl, (not_not.mp hless).le, hcovers⟩, ?_⟩
      intro b hb
      cases hb with
      | head => exact hcharging
      | tail _ hb => exact hall b hb

theorem validateTiers_covers (h : validateTiers metric (some tiers) = none) :
    Covers 0 (meterBrackets 0 tiers) ∧ Charging (meterBrackets 0 tiers) := by
  cases tiers with
  | nil => cases h
  | cons tier rest => exact validateTiersFrom_covers h (List.cons_ne_nil tier rest)

theorem checkTiers_cons {tier : PricingTier}
    (h : checkTiers previous (tier :: planTiers) = .ok ()) :
    0 ≤ tier.upTo ∧ 0 ≤ tier.unitPrice ∧ previous < tier.upTo ∧
      checkTiers tier.upTo planTiers = .ok () := by
  obtain ⟨_, hupTo, h⟩ := bind_returns h
  obtain ⟨_, hprice, h⟩ := bind_returns h
  obtain ⟨_, hless, h⟩ := bind_returns h
  exact ⟨validate_ok.mp hupTo, validate_ok.mp hprice, validate_ok.mp hless, h⟩

theorem checkTiers_covers (h : checkTiers previous planTiers = .ok ())
    (hlower : lower ≤ max 0 previous) (hprice : 0 ≤ plan.overageUnitPrice) :
    Covers lower (planBrackets plan lower planTiers) ∧
      Charging (planBrackets plan lower planTiers) := by
  induction planTiers generalizing previous lower with
  | nil =>
    refine ⟨⟨rfl, rfl⟩, ?_⟩
    intro b hb
    obtain rfl := List.mem_singleton.mp hb
    exact ⟨hprice, le_refl 0⟩
  | cons tier rest ih =>
    obtain ⟨hupTo, hunit, hless, hrest⟩ := checkTiers_cons h
    obtain ⟨hcovers, hall⟩ := ih hrest (le_max_right _ _)
    refine ⟨⟨rfl, hlower.trans (max_le hupTo hless.le), hcovers⟩, ?_⟩
    intro b hb
    cases hb with
    | head => exact ⟨hunit, le_refl 0⟩
    | tail _ hb => exact hall b hb

theorem checkTiers_sorted (h : checkTiers previous planTiers = .ok ()) :
    (∀ tier ∈ planTiers, previous < tier.upTo) ∧
      planTiers.Pairwise fun a b => a.upTo ≤ b.upTo := by
  induction planTiers generalizing previous with
  | nil => exact ⟨List.forall_mem_nil _, List.Pairwise.nil⟩
  | cons tier rest ih =>
    obtain ⟨_, _, hless, hrest⟩ := checkTiers_cons h
    obtain ⟨hall, hsorted⟩ := ih hrest
    refine ⟨?_, List.pairwise_cons.mpr ⟨fun other hother => (hall other hother).le, hsorted⟩⟩
    intro other hother
    cases hother with
    | head => exact hless
    | tail _ hother => exact hless.trans (hall other hother)

theorem validateTierList_sorted {list : Option (List PricingTier)}
    (h : validateTierList list = .ok ()) :
    list.map (·.insertionSort fun a b => a.upTo ≤ b.upTo) = list := by
  cases list with
  | none => rfl
  | some tiers =>
    obtain ⟨_, _, h⟩ := bind_returns h
    rw [Option.map_some, List.Pairwise.insertionSort_eq (checkTiers_sorted h).2]

theorem Priced.tiers_covers (h : plan.Priced) :
    Covers 0 (planBrackets plan 0 (plan.tiers.getD [])) ∧
      Charging (planBrackets plan 0 (plan.tiers.getD [])) := by
  have hchecked : checkTiers (-1) (plan.tiers.getD []) = .ok () := by
    have htiers := h.tiers
    cases hlist : plan.tiers with
    | none => rfl
    | some tiers =>
      rw [hlist] at htiers
      obtain ⟨_, _, hchecked⟩ := bind_returns htiers
      exact hchecked
  exact checkTiers_covers hchecked (le_max_left _ _) h.overageUnitPrice

theorem checkMeters_valid {seen : List String} {meters : List MeteredPrice}
    (h : checkMeters seen meters = .ok ()) :
    ∀ meter ∈ meters, validateMeteredPrice meter = none := by
  induction meters generalizing seen with
  | nil => exact List.forall_mem_nil _
  | cons meter rest ih =>
    obtain ⟨_, hvalid, h⟩ := bind_returns h
    obtain ⟨_, _, h⟩ := bind_returns h
    exact List.forall_mem_cons.mpr ⟨validateNone_ok.mp hvalid, ih h⟩

theorem planMeters_valid {input : Option (List MeteredPriceInput)}
    {list : Option (List MeteredPrice)} (h : planMeters input = .ok list) :
    ∀ meters ∈ list, ∀ meter ∈ meters, validateMeteredPrice meter = none := by
  cases input with
  | none =>
    cases h
    intro meters hmeters
    cases hmeters
  | some inputs =>
    obtain ⟨_, _, h⟩ := bind_returns h
    obtain ⟨_, hchecked, h⟩ := bind_returns h
    cases h
    intro meters hmeters
    cases hmeters
    exact checkMeters_valid hchecked

theorem createPlan_priced {host : Host} {env : Env} {input : PlanInput} {s s' : State}
    (h : createPlan host env input s = .ok (plan, s')) :
    plan.Priced ∧ s'.plans = Function.update s.plans plan.id (some plan) := by
  obtain ⟨_, _, h⟩ := bind_returns h
  obtain ⟨_, hbase, h⟩ := bind_returns h
  obtain ⟨_, hincluded, h⟩ := bind_returns h
  obtain ⟨_, hoverage, h⟩ := bind_returns h
  obtain ⟨_, htiers, h⟩ := bind_returns h
  obtain ⟨meters, hmeters, h⟩ := bind_returns h
  cases h
  have hsorted := validateTierList_sorted htiers
  exact ⟨{
    basePrice := ⟨roundMoney_isCents _, roundMoney_nonneg (validate_ok.mp hbase) 2⟩
    includedUnits := validate_ok.mp hincluded
    overageUnitPrice := validate_ok.mp hoverage
    tiers := by rw [hsorted]; exact htiers
    meters := planMeters_valid hmeters }, rfl⟩

/-! ## The loops -/

/-- When units are left after a tier, the cursor has come to its end. -/
theorem le_of_units_left {upTo : ℚ} (hleft : 0 < remaining - min remaining (upTo - cursor)) :
    upTo ≤ cursor + min remaining (upTo - cursor) := by
  rcases le_total remaining (upTo - cursor) with hle | hle
  · rw [min_eq_left hle, sub_self] at hleft
    exact absurd hleft (lt_irrefl 0)
  · rw [min_eq_right hle, add_sub_cancel]

/-- From the bracket of the first tier on, `priceGraduated` walks through the brackets. -/
theorem priceGraduatedFrom_charge (hcovers : Covers lower (meterBrackets lower tiers))
    (hcursor : 0 < remaining → lower ≤ cursor) (hremaining : 0 ≤ remaining) :
    priceGraduatedFrom remaining cursor amount tiers =
      amount + charge cursor (cursor + remaining) (meterBrackets lower tiers) := by
  induction tiers generalizing remaining cursor amount lower with
  | nil => exact hcovers.elim
  | cons tier rest ih =>
    by_cases hdone : remaining ≤ 0
    · obtain rfl := le_antisymm hdone hremaining
      rw [priceGraduatedFrom, if_pos hdone, add_zero, charge_nothing, add_zero]
    · have hpos : 0 < remaining := not_le.mp hdone
      have hrange : cursor < cursor + remaining := lt_add_of_pos_right cursor hpos
      obtain ⟨_, hupper⟩ := hcovers
      rw [priceGraduatedFrom, if_neg hdone, meterBrackets]
      cases hu : tier.upTo with
      | none =>
        rw [hu] at hupper
        have hnil : rest = [] := by
          cases rest with
          | nil => rfl
          | cons other others => cases (show meterBrackets _ (other :: others) = [] from hupper)
        subst hnil
        simp only [if_neg hdone, meterBrackets, priceGraduatedFrom]
        rw [charge_last (hcursor hpos) rfl hrange, add_sub_cancel_left]
      | some u =>
        rw [hu] at hupper
        obtain ⟨_, hrest⟩ := hupper
        simp only [Option.getD_some] at hrest ⊢
        by_cases hpast : u ≤ cursor
        · have hspan : min remaining (u - cursor) ≤ 0 :=
            (min_le_right _ _).trans (sub_nonpos.mpr hpast)
          rw [if_pos hspan, charge_past rfl hpast]
          exact ih hrest (fun _ => hpast) hremaining
        · have hwithin : cursor < u := not_le.mp hpast
          have hspan : ¬ min remaining (u - cursor) ≤ 0 :=
            not_le.mpr (lt_min hpos (sub_pos.mpr hwithin))
          have hends : cursor + min remaining (u - cursor) +
              (remaining - min remaining (u - cursor)) = cursor + remaining := by ring
          rw [if_neg hspan, charge_within hrest (hcursor hpos) rfl hwithin hrange
            (by rw [add_sub_cancel_left]),
            ih hrest le_of_units_left (sub_nonneg.mpr (min_le_left _ _)), hends]
          simp only [add_assoc]

/-- The same of `priceOverage`, from the first unit that is not included on. -/
theorem priceOverageFrom_charge (hcovers : Covers lower (planBrackets plan lower planTiers))
    (hcursor : 0 < remaining → lower ≤ cursor) (hremaining : 0 ≤ remaining) :
    priceOverageFrom plan remaining cursor amount planTiers =
      amount + charge cursor (cursor + remaining) (planBrackets plan lower planTiers) := by
  induction planTiers generalizing remaining cursor amount lower with
  | nil =>
    rw [priceOverageFrom, planBrackets]
    split_ifs with hpos
    · have hrange : cursor < cursor + remaining := lt_add_of_pos_right cursor hpos
      rw [charge_last (hcursor hpos) rfl hrange, add_sub_cancel_left, add_zero]
    · obtain rfl := le_antisymm (not_lt.mp hpos) hremaining
      rw [add_zero, charge_nothing, add_zero]
  | cons tier rest ih =>
    by_cases hdone : remaining ≤ 0
    · obtain rfl := le_antisymm hdone hremaining
      rw [priceOverageFrom, if_pos hdone, add_zero, charge_nothing, add_zero]
    · have hpos : 0 < remaining := not_le.mp hdone
      have hrange : cursor < cursor + remaining := lt_add_of_pos_right cursor hpos
      obtain ⟨_, _, hrest⟩ := hcovers
      rw [priceOverageFrom, if_neg hdone, planBrackets]
      by_cases hpast : tier.upTo ≤ cursor
      · rw [if_pos hpast, charge_past rfl hpast]
        exact ih hrest (fun _ => hpast) hremaining
      · have hwithin : cursor < tier.upTo := not_le.mp hpast
        have hends : cursor + min remaining (tier.upTo - cursor) +
            (remaining - min remaining (tier.upTo - cursor)) = cursor + remaining := by ring
        rw [if_neg hpast, charge_within hrest (hcursor hpos) rfl hwithin hrange
          (by rw [add_sub_cancel_left]),
          ih hrest le_of_units_left (sub_nonneg.mpr (min_le_left _ _)), hends]
        simp only [add_zero, add_assoc]

theorem priceGraduated_charge (hcovers : Covers 0 (meterBrackets 0 tiers)) (units : ℚ) :
    priceGraduated tiers units = charge 0 units (meterBrackets 0 tiers) := by
  rw [priceGraduated]
  rcases le_total units 0 with hnone | hsome
  · have hnothing : charge 0 units (meterBrackets 0 tiers) = 0 :=
      charge_below fun b _ => hnone.trans (le_max_left _ _)
    rw [hnothing]
    cases tiers with
    | nil => rfl
    | cons tier rest => rw [priceGraduatedFrom, if_pos hnone]
  · rw [priceGraduatedFrom_charge hcovers (fun _ => le_refl 0) hsome, zero_add, zero_add]

theorem priceOverage_charge (h : plan.Priced) (overageUnits : ℚ) :
    priceOverage plan overageUnits = roundMoney (overageCharge plan overageUnits) 2 := by
  have hloop : ∀ {remaining}, 0 ≤ remaining → priceOverageFrom plan remaining plan.includedUnits 0
      (plan.tiers.getD []) = overageCharge plan remaining := by
    intro remaining hremaining
    rw [priceOverageFrom_charge (Priced.tiers_covers h).1 (fun _ => h.includedUnits) hremaining,
      zero_add, overageCharge]
  rw [priceOverage]
  split_ifs with hnone
  · have hnothing : overageCharge plan overageUnits = 0 :=
      charge_below fun b _ => le_trans (by linarith) (le_max_left _ _)
    rw [hnothing]
    exact IsCents.zero.round.symm
  · have hpos : 0 < overageUnits := not_le.mp hnone
    rw [← hloop hpos.le]
    cases plan.tiers with
    | none => simp only [Option.getD_none, priceOverageFrom, if_pos hpos, zero_add]
    | some tiers =>
      cases tiers with
      | nil => simp only [Option.getD_some, priceOverageFrom, if_pos hpos, zero_add]
      | cons tier rest => rfl

/-- The first tier that does not end before the units is the one that contains them. -/
theorem priceVolume_contains {b : Bracket ℚ} (hcovers : Covers lower (meterBrackets lower tiers))
    (hb : b ∈ meterBrackets lower tiers) (hcontains : b.Contains units) :
    priceVolume tiers units = units * b.rate + b.fee := by
  have hfound : ∃ tier, tiers.find? (fun t => t.upTo.all fun upTo => decide (units ≤ upTo)) =
      some tier ∧ tier.unitPrice = b.rate ∧ tier.flatFee.getD 0 = b.fee := by
    induction tiers generalizing lower with
    | nil => cases hb
    | cons tier rest ih =>
      rw [meterBrackets] at hb hcovers
      cases hb with
      | head =>
        have hreached : (tier.upTo.all fun upTo => decide (units ≤ upTo)) = true :=
          (Option.all_eq_true _ _).mpr fun upTo hupTo => decide_eq_true (hcontains.2 upTo hupTo)
        exact ⟨tier, List.find?_cons_of_pos hreached, rfl, rfl⟩
      | tail _ hb =>
        obtain ⟨u, hu, hless⟩ := hcovers.contains_tail hb hcontains
        have hu : tier.upTo = some u := hu
        obtain ⟨v, hv, hrest⟩ := hcovers.tail (List.ne_nil_of_mem hb)
        obtain rfl : u = v := Option.some_inj.mp (hu.symm.trans hv)
        have hpassed : (tier.upTo.all fun upTo => decide (units ≤ upTo)) = false := by
          rw [hu, Option.all_some, decide_eq_false_iff_not]
          exact not_le.mpr hless
        rw [hu] at hrest hb
        obtain ⟨found, hfind, hrate⟩ := ih hrest hb
        refine ⟨found, ?_, hrate⟩
        rw [List.find?_cons, hpassed]
        exact hfind
  obtain ⟨tier, hfind, hrate, hfee⟩ := hfound
  rw [priceVolume, hfind, ← hrate, ← hfee]
  rfl

/-! ## What is charged -/

/-- A meter with accepted tiers charges every unit at the price of the one tier that it lies in,
and the flat fee of each tier that is reached. -/
structure MeterCharges (tiers : List MeterTier) : Prop where
  contained : ∀ units, 0 < units → ∃! b, b ∈ meterBrackets 0 tiers ∧ b.Contains units
  all : ∀ units, 0 ≤ units → ((meterBrackets 0 tiers).map (·.part 0 units)).sum = units
  graduated : ∀ units, priceGraduated tiers units = charge 0 units (meterBrackets 0 tiers)
  monotone : ∀ units units', units ≤ units' →
    priceGraduated tiers units ≤ priceGraduated tiers units'
  volume : ∀ units, ∀ b ∈ meterBrackets 0 tiers, b.Contains units →
    priceVolume tiers units = units * b.rate + b.fee

/-- A plan charges every unit after those included at the price of the one tier that it lies in,
or at the price for what lies beyond the last tier. -/
structure OverageCharges (plan : BillingPlan) : Prop where
  contained : ∀ units, 0 < units →
    ∃! b, b ∈ planBrackets plan 0 (plan.tiers.getD []) ∧ b.Contains units
  all : ∀ overageUnits, 0 ≤ overageUnits →
    ((planBrackets plan 0 (plan.tiers.getD [])).map
      (·.part plan.includedUnits (plan.includedUnits + overageUnits))).sum = overageUnits
  overage : ∀ overageUnits,
    priceOverage plan overageUnits = roundMoney (overageCharge plan overageUnits) 2
  monotone : ∀ overageUnits overageUnits', overageUnits ≤ overageUnits' →
    overageCharge plan overageUnits ≤ overageCharge plan overageUnits'

theorem validateTiers_charges (h : validateTiers metric (some tiers) = none) :
    MeterCharges tiers := by
  obtain ⟨hcovers, hcharging⟩ := validateTiers_covers h
  refine ⟨fun units => hcovers.exists_unique, ?_, priceGraduated_charge hcovers, ?_,
    fun units b => priceVolume_contains hcovers⟩
  · intro units hunits
    rw [hcovers.sum_part (le_refl 0) hunits, sub_zero]
  · intro units units' hle
    rw [priceGraduated_charge hcovers, priceGraduated_charge hcovers]
    exact charge_mono hcharging hle

theorem Priced.charges (h : plan.Priced) : OverageCharges plan := by
  obtain ⟨hcovers, hcharging⟩ := Priced.tiers_covers h
  refine ⟨fun units => hcovers.exists_unique, ?_, priceOverage_charge h, ?_⟩
  · intro overageUnits hunits
    rw [hcovers.sum_part h.includedUnits (le_add_of_nonneg_right hunits), add_sub_cancel_left]
  · intro overageUnits overageUnits' hle
    exact charge_mono hcharging (add_le_add_right hle _)

/-- The tiers of an accepted meter and of a plan that has been created. -/
theorem tiers_charge {host : Host} {env : Env} {input : PlanInput} {s s' : State}
    (hmeter : validateTiers metric (some tiers) = none)
    (hplan : createPlan host env input s = .ok (plan, s')) :
    MeterCharges tiers ∧ OverageCharges plan :=
  ⟨validateTiers_charges hmeter, Priced.charges (createPlan_priced hplan).1⟩

def tieredInput : PlanInput where
  id := some "plan"
  name := "Tiered"
  currency := some "USD"
  basePrice := 10
  includedUnits := some 5
  overageUnitPrice := some (1 / 2)
  tiers := some [⟨3, 4⟩, ⟨8, 2⟩, ⟨20, 1⟩]
  meters := none
  billingInterval := none

def tieredPlan : BillingPlan where
  id := "plan"
  name := "Tiered"
  currency := "USD"
  basePrice := 10
  includedUnits := 5
  overageUnitPrice := 1 / 2
  tiers := some [⟨3, 4⟩, ⟨8, 2⟩, ⟨20, 1⟩]
  meters := none
  billingInterval := .monthly

/-- Of 20 units after the first five, three are in the second tier and five beyond the last. -/
example : overageCharge tieredPlan 20 = 3 * 2 + 12 * 1 + 5 * (1 / 2) := by decide +kernel

theorem createPlan_tiered : ∃ s', createPlan ⟨id, fun _ => ""⟩ ⟨0, "1"⟩ tieredInput start =
    .ok (tieredPlan, s') :=
  ⟨_, by with_unfolding_all rfl⟩

theorem tiers_charge_tiered :
    MeterCharges [⟨some 10, 2, some 1⟩, ⟨some 50, 1, none⟩, ⟨none, 1 / 2, some 3⟩] ∧
      OverageCharges tieredPlan := by
  have hmeter : validateTiers "calls"
      (some [⟨some 10, 2, some 1⟩, ⟨some 50, 1, none⟩, ⟨none, 1 / 2, some 3⟩]) = none := by
    decide +kernel
  obtain ⟨s', hplan⟩ := createPlan_tiered
  exact tiers_charge hmeter hplan

end Billing
