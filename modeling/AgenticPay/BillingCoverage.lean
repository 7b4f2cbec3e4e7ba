import AgenticPay.BillingTurns
import Mathlib.Algebra.Order.Field.Rat
import Mathlib.Tactic.Positivity.Basic

/-!
# No time is charged twice

The shares of the base price that a subscription has been invoiced for follow one another. Each
change of the plan puts new segments into the period, and they begin after all that is invoiced by
then unless the change reaches back behind an earlier invoice.
-/
namespace Billing

open Transaction

variable {host : Host} {env : Env} {s s' t : State} {id : SubscriptionId} {time : Int}
  {subscription : Subscription} {invoice : Invoice} {invoices : List Invoice}
  {segments : List PlanSegment} {shares : List SegmentShare}
  {periodStart periodEnd untilMs : Int} {a : Env × Call}

/-- The base price of the time has been invoiced with the share. -/
def SegmentShare.Covers (share : SegmentShare) (time : Int) : Prop :=
  share.startedAt ≤ time ∧ time < share.endedAt

instance (share : SegmentShare) (time : Int) : Decidable (share.Covers time) :=
  inferInstanceAs (Decidable (_ ∧ _))

/-- At most one invoice covers each time, with one share. -/
def ChargedOnce (invoices : List Invoice) : Prop :=
  ∀ time, (invoices.filter fun i => ∃ share ∈ i.shares, share.Covers time).length ≤ 1 ∧
    ∀ invoice ∈ invoices, (invoice.shares.filter (·.Covers time)).length ≤ 1

/-- All that has been invoiced ends by the time. -/
def BilledBy (invoices : List Invoice) (time : Int) : Prop :=
  ∀ invoice ∈ invoices, ∀ share ∈ invoice.shares, share.endedAt ≤ time

instance (invoices : List Invoice) (time : Int) : Decidable (BilledBy invoices time) :=
  inferInstanceAs (Decidable (∀ invoice ∈ invoices, ∀ share ∈ invoice.shares, share.endedAt ≤ time))

/-- Where a change of plan makes the new plan begin. -/
def beginsAt (env : Env) (subscription : Subscription) (currentPlan newPlan : BillingPlan)
    (behavior : ProrationBehavior) : Int :=
  if IntervalChange currentPlan newPlan then env.now
  else if behavior = .none then subscription.currentPeriodStart
  else max env.now subscription.currentPeriodStart

/-- The new plan begins after all that the subscription has been invoiced for. -/
def BeginsAfterBills (id : SubscriptionId) (s : State) : Env × Call → Prop
  | (env, .changePlan id' planId behavior) => id' = id →
      ∀ change ∈ (resolvePlanChange s id planId).toOption, change.1.status ≠ .trialing →
        ¬ (IntervalChange change.2.1 change.2.2 ∧ behavior.getD .createProrations = .none) →
          BilledBy (bills s id)
            (beginsAt env change.1 change.2.1 change.2.2 (behavior.getD .createProrations))
  | _ => True

instance (id : SubscriptionId) (s : State) : (a : Env × Call) → Decidable (BeginsAfterBills id s a)
  | (env, .changePlan id' planId behavior) => inferInstanceAs (Decidable (id' = id →
      ∀ change ∈ (resolvePlanChange s id planId).toOption, change.1.status ≠ .trialing →
        ¬ (IntervalChange change.2.1 change.2.2 ∧ behavior.getD .createProrations = .none) →
          BilledBy (bills s id)
            (beginsAt env change.1 change.2.1 change.2.2 (behavior.getD .createProrations))))
  | (_, .createPlan ..) | (_, .createPromoCode ..) | (_, .deactivatePromoCode ..)
  | (_, .applyPromoCode ..) | (_, .removeDiscount ..) | (_, .subscribe ..)
  | (_, .cancelSubscription ..) | (_, .recordUsage ..) | (_, .generateInvoice ..)
  | (_, .closeBillingPeriod ..) | (_, .configureDunning ..) | (_, .recordPaymentAttempt ..)
  | (_, .markInvoicePaid ..) | (_, .voidInvoice ..) => isTrue trivial

/-! ## Shares -/

/-- The one ends before the other begins. -/
def Precedes (a b : SegmentShare) : Prop := a.endedAt ≤ b.startedAt

theorem shareOf_of_pos {nextStart : Int} {segment : PlanSegment}
    (h : 0 < (shareOf periodStart periodEnd untilMs nextStart segment).fraction) :
    (shareOf periodStart periodEnd untilMs nextStart segment).endedAt =
      min (min nextStart untilMs) periodEnd := by
  have hlt : max segment.startedAt periodStart < min (min nextStart untilMs) periodEnd := by
    by_contra hle
    have hzero : max 0 (min (min nextStart untilMs) periodEnd -
        max segment.startedAt periodStart) = 0 := by omega
    simp only [shareOf, hzero, Int.cast_zero, zero_div, lt_irrefl] at h
  exact max_eq_left hlt.le

/-- What `segmentShares` says of a share. -/
structure ShareOf (segments : List PlanSegment) (periodStart periodEnd untilMs : Int)
    (share : SegmentShare) : Prop where
  began : ∃ segment ∈ segments, share.startedAt = max segment.startedAt periodStart
  ended_le : share.endedAt ≤ min untilMs periodEnd

theorem sharesOf_mem {share : SegmentShare}
    (hmem : share ∈ sharesOf periodStart periodEnd untilMs segments) (hpos : 0 < share.fraction) :
    ShareOf segments periodStart periodEnd untilMs share := by
  induction segments with
  | nil => exact absurd hmem List.not_mem_nil
  | cons segment rest ih =>
    rw [sharesOf] at hmem
    rcases List.mem_cons.mp hmem with rfl | hmem
    · refine ⟨⟨segment, List.mem_cons_self, rfl⟩, ?_⟩
      rw [shareOf_of_pos hpos]
      omega
    · obtain ⟨⟨segment', hmem', hbegan⟩, hended⟩ := ih hmem
      exact ⟨⟨segment', List.mem_cons_of_mem segment hmem', hbegan⟩, hended⟩

theorem sharesOf_ordered (hsorted : segments.Pairwise fun a b => a.startedAt ≤ b.startedAt) :
    ((sharesOf periodStart periodEnd untilMs segments).filter (0 < ·.fraction)).Pairwise
      Precedes := by
  induction segments with
  | nil => exact List.Pairwise.nil
  | cons segment rest ih =>
    obtain ⟨hfirst, hrest⟩ := List.pairwise_cons.mp hsorted
    dsimp only [sharesOf]
    by_cases hpos : 0 < (shareOf periodStart periodEnd untilMs
        ((rest.head?.map (·.startedAt)).getD untilMs) segment).fraction
    · rw [List.filter_cons_of_pos (by simpa using hpos)]
      refine List.pairwise_cons.mpr ⟨fun share hshare => ?_, ih hrest⟩
      obtain ⟨hmem, hshare⟩ := List.mem_filter.mp hshare
      obtain ⟨⟨segment', hmem', hbegan⟩, -⟩ := sharesOf_mem hmem (by simpa using hshare)
      rw [Precedes, shareOf_of_pos hpos, hbegan]
      -- the share ends where the next segment starts, and no later one starts before that
      cases rest with
      | nil => exact absurd hmem' List.not_mem_nil
      | cons next rest =>
        have hnext : next.startedAt ≤ segment'.startedAt := by
          rcases List.mem_cons.mp hmem' with rfl | hlater
          · exact le_rfl
          · exact (List.pairwise_cons.mp hrest).1 segment' hlater
        simp only [List.head?_cons, Option.map_some, Option.getD_some]
        omega
    · rw [List.filter_cons_of_neg (by simpa using hpos)]
      exact ih hrest

theorem byStart_sorted (segments : List PlanSegment) :
    (byStart segments).Pairwise fun a b => a.startedAt ≤ b.startedAt :=
  have : Std.Total fun a b : PlanSegment => a.startedAt ≤ b.startedAt :=
    ⟨fun a b => Int.le_total a.startedAt b.startedAt⟩
  have : IsTrans PlanSegment fun a b => a.startedAt ≤ b.startedAt :=
    ⟨fun _ _ _ => Int.le_trans⟩
  List.pairwise_insertionSort _ segments

theorem segmentShares_ok
    (h : segmentShares segments periodStart periodEnd untilMs = .ok shares) :
    shares.Pairwise Precedes ∧
      ∀ share ∈ shares, ShareOf segments periodStart periodEnd untilMs share := by
  obtain ⟨_, _, h⟩ := bind_returns h
  cases h
  refine ⟨sharesOf_ordered (byStart_sorted segments), fun share hshare => ?_⟩
  obtain ⟨hmem, hpos⟩ := List.mem_filter.mp hshare
  obtain ⟨⟨segment, hsegment, hbegan⟩, hended⟩ := sharesOf_mem hmem (by simpa using hpos)
  exact ⟨⟨segment, (List.mem_insertionSort _).mp hsegment, hbegan⟩, hended⟩

/-! ## One subscription -/

/-- What is still to be billed of a subscription begins after its bills. -/
structure Due (subscription : Subscription) (raised : List Invoice) : Prop where
  byEnd : BilledBy raised subscription.currentPeriodEnd
  bySegment : ∀ segment ∈ subscription.planSegments,
    BilledBy raised (max segment.startedAt subscription.currentPeriodStart)
  byTrial : subscription.status = .trialing → BilledBy raised subscription.currentPeriodStart

/-- The bills follow one another, and what is still to be billed begins after them. -/
structure Orderly (record : Option Subscription) (raised : List Invoice) : Prop where
  ordered : (raised.flatMap (·.shares)).Pairwise Precedes
  unknown : record = none → raised.flatMap (·.shares) = []
  due : ∀ subscription, record = some subscription → Due subscription raised

theorem BilledBy.mono {later : Int} (h : BilledBy invoices time) (hle : time ≤ later) :
    BilledBy invoices later :=
  fun invoice hmem share hshare => (h invoice hmem share hshare).trans hle

theorem billedBy_snoc : BilledBy (invoices ++ [invoice]) time ↔
    BilledBy invoices time ∧ ∀ share ∈ invoice.shares, share.endedAt ≤ time := by
  simp only [BilledBy, List.mem_append, List.mem_singleton, or_imp, forall_and, forall_eq]

theorem billedBy_of_none (h : invoices.flatMap (·.shares) = []) (time : Int) :
    BilledBy invoices time := fun invoice hmem share hshare =>
  absurd (List.mem_flatMap.mpr ⟨invoice, hmem, hshare⟩) (by rw [h]; exact List.not_mem_nil)

theorem intervalMs_nonneg (interval : BillingInterval) : 0 ≤ intervalDays interval * dayMs := by
  cases interval <;> decide

theorem Raised.shareOf {usagePlan kind until?}
    (h : Raised env s subscription usagePlan kind until? invoice t) :
    invoice.shares.Pairwise Precedes ∧ ∀ share ∈ invoice.shares,
      ShareOf subscription.planSegments subscription.currentPeriodStart
        subscription.currentPeriodEnd
          (min (until?.getD subscription.currentPeriodEnd) subscription.currentPeriodEnd)
          share := by
  obtain ⟨shares, base, hshares, _, rfl⟩ := h.made
  exact segmentShares_ok hshares

theorem Orderly.of_due (h : (invoices.flatMap (·.shares)).Pairwise Precedes)
    (hdue : Due subscription invoices) : Orderly (some subscription) invoices :=
  ⟨h, fun hnone => absurd hnone (Option.some_ne_none _), fun _ he => Option.some.inj he ▸ hdue⟩

/-- What does not touch the periods leaves them billed as they are. -/
theorem Due.restated {record : Subscription} (h : Due subscription invoices)
    (hstart : record.currentPeriodStart = subscription.currentPeriodStart)
    (hend : record.currentPeriodEnd = subscription.currentPeriodEnd)
    (hsegments : record.planSegments = subscription.planSegments)
    (htrial : record.status = .trialing → subscription.status = .trialing) :
    Due record invoices :=
  ⟨hend ▸ h.byEnd, hstart ▸ hsegments ▸ h.bySegment, fun ht => hstart ▸ h.byTrial (htrial ht)⟩

/-- A new invoice follows all earlier ones. -/
theorem Orderly.raise {usagePlan kind until?}
    (h : Orderly (some subscription) invoices)
    (hraised : Raised env s subscription usagePlan kind until? invoice t) :
    ((invoices ++ [invoice]).flatMap (·.shares)).Pairwise Precedes := by
  obtain ⟨hordered, hshares⟩ := hraised.shareOf
  rw [List.flatMap_append, List.flatMap_singleton, List.pairwise_append]
  refine ⟨h.ordered, hordered, fun earlier hearlier share hshare => ?_⟩
  obtain ⟨⟨segment, hsegment, hbegan⟩, -⟩ := hshares share hshare
  obtain ⟨old, hold, hearlier⟩ := List.mem_flatMap.mp hearlier
  rw [Precedes, hbegan]
  exact (h.due subscription rfl).bySegment segment hsegment old hold earlier hearlier

theorem Due.switched {currentPlan newPlan : BillingPlan} (h : Due subscription invoices)
    (htrialing : subscription.status = .trialing) :
    Due (changeTrial subscription currentPlan newPlan) invoices := by
  have hstart := h.byTrial htrialing
  refine ⟨?_, fun _ _ => hstart.mono (le_max_right _ _), fun _ => hstart⟩
  rw [changeTrial]
  dsimp only
  split_ifs
  · have := intervalMs_nonneg newPlan.billingInterval
    exact hstart.mono (by omega)
  · exact h.byEnd

/-- The invoice of a change of plan ends where the new plan begins. -/
theorem Due.settled {currentPlan newPlan : BillingPlan} {kind : InvoiceKind}
    {behavior : ProrationBehavior} (h : Due subscription invoices)
    (htrialing : subscription.status ≠ .trialing)
    (himmediate : Immediate currentPlan newPlan behavior)
    (hraised : Raised env s subscription currentPlan kind (some env.now) invoice t)
    (hbegins : BilledBy invoices (beginsAt env subscription currentPlan newPlan behavior)) :
    Due (settleChange env subscription currentPlan newPlan) (invoices ++ [invoice]) := by
  have hnow : ∀ share ∈ invoice.shares,
      share.endedAt ≤ env.now ∧ share.endedAt ≤ subscription.currentPeriodEnd := by
    intro share hshare
    have hended := (hraised.shareOf.2 share hshare).ended_le
    rw [Option.getD_some] at hended
    omega
  rw [beginsAt] at hbegins
  rw [settleChange]
  by_cases hchange : IntervalChange currentPlan newPlan
  · rw [if_pos hchange] at hbegins ⊢
    have hbilled : BilledBy (invoices ++ [invoice]) env.now :=
      billedBy_snoc.mpr ⟨hbegins, fun share hshare => (hnow share hshare).1⟩
    have := intervalMs_nonneg newPlan.billingInterval
    exact ⟨hbilled.mono (by dsimp only; omega), fun _ _ => hbilled.mono (le_max_right _ _),
      fun htrial => absurd htrial htrialing⟩
  · have halways := himmediate.resolve_left hchange
    rw [if_neg hchange, if_neg (by rw [halways]; decide)] at hbegins
    rw [if_neg hchange]
    refine ⟨?_, fun segment hsegment => ?_, fun htrial => absurd htrial htrialing⟩
    · exact billedBy_snoc.mpr ⟨h.byEnd, fun share hshare => (hnow share hshare).2⟩
    · obtain rfl := List.mem_singleton.mp hsegment
      exact billedBy_snoc.mpr ⟨hbegins, fun share hshare =>
        (hnow share hshare).1.trans (le_max_left _ _)⟩

theorem Due.rescheduled {currentPlan newPlan : BillingPlan} {behavior : ProrationBehavior}
    (h : Due subscription invoices) (htrialing : subscription.status ≠ .trialing)
    (hlater : ¬ Immediate currentPlan newPlan behavior)
    (hbegins : BilledBy invoices (beginsAt env subscription currentPlan newPlan behavior)) :
    Due { subscription with
      planId := newPlan.id
      planSegments := changedSegments env subscription newPlan behavior } invoices := by
  rw [beginsAt, if_neg fun hchange => hlater (.inl hchange)] at hbegins
  refine ⟨h.byEnd, fun segment hsegment => ?_, fun htrial => absurd htrial htrialing⟩
  dsimp only [changedSegments] at hsegment
  cases behavior with
  | createProrations =>
    rw [if_neg (by decide)] at hbegins
    rw [if_pos rfl] at hsegment
    rcases List.mem_append.mp hsegment with hsegment | hsegment
    · exact h.bySegment segment hsegment
    · obtain rfl := List.mem_singleton.mp hsegment
      exact hbegins
  | alwaysInvoice => exact absurd (.inr rfl) hlater
  | none =>
    rw [if_pos rfl] at hbegins
    rw [if_neg (by decide)] at hsegment
    obtain rfl := List.mem_singleton.mp hsegment
    exact hbegins.mono (le_max_right _ _)

theorem Due.closed {plan : BillingPlan} {kind : InvoiceKind} (h : Due subscription invoices)
    (hraised : Raised env s subscription plan kind none invoice t) :
    Due (nextPeriod subscription plan invoice) (invoices ++ [invoice]) := by
  have hbilled : BilledBy (invoices ++ [invoice]) subscription.currentPeriodEnd := by
    refine billedBy_snoc.mpr ⟨h.byEnd, fun share hshare => ?_⟩
    exact (hraised.shareOf.2 share hshare).ended_le.trans (min_le_right _ _)
  have := intervalMs_nonneg plan.billingInterval
  exact ⟨hbilled.mono (by dsimp only [nextPeriod]; omega),
    fun _ _ => hbilled.mono (le_max_right _ _), fun _ => hbilled⟩

theorem Turned.orderly {e : Effect} {c : Call} (h : Turned host env s id c e)
    (hfresh : Fresh s env.uuid)
    (ho : Orderly (s.subscriptions id) (bills s id)) (hq : BeginsAfterBills id s (env, c))
    (hdirect : c ≠ .generateInvoice id) : Orderly e.record (bills s id ++ e.raised) := by
  have hnew : id = "sub_" ++ env.uuid → ∀ time, BilledBy (bills s id) time := by
    rintro rfl
    exact billedBy_of_none (ho.unknown (Option.isNone_iff_eq_none.mp hfresh.1))
  cases h with
  | kept =>
    rw [List.append_nil]
    exact ho
  | restated found trial cancelled =>
    rw [List.append_nil]
    exact .of_due ho.ordered ((ho.due _ found).restated rfl rfl rfl trial)
  | discounted found notCancelled noDiscount redeemable =>
    rw [List.append_nil]
    exact .of_due ho.ordered ((ho.due _ found).restated rfl rfl rfl fun ht => ht)
  | undiscounted found =>
    rw [List.append_nil]
    exact .of_due ho.ordered ((ho.due _ found).restated rfl rfl rfl fun ht => ht)
  | subscribed new =>
    rw [List.append_nil]
    exact .of_due ho.ordered ⟨hnew new _, fun _ _ => hnew new _, fun _ => hnew new _⟩
  | subscribedWith new redeemable =>
    rw [List.append_nil]
    exact .of_due ho.ordered ⟨hnew new _, fun _ _ => hnew new _, fun _ => hnew new _⟩
  | metered target found notCancelled unrecorded event_eq =>
    rw [List.append_nil]
    exact .of_due ho.ordered ((ho.due _ found).restated rfl rfl rfl fun ht => ht)
  | switched resolved trialing =>
    rw [List.append_nil]
    have hfound := (resolvePlanChange_ok resolved).found
    exact .of_due ho.ordered ((ho.due _ hfound).switched trialing)
  | @settled planId behavior subscription currentPlan newPlan invoice t resolved notTrialing
      prorated immediate raised =>
    have hfound := (resolvePlanChange_ok resolved).found
    have hbegins := hq rfl (subscription, currentPlan, newPlan) (by rw [resolved]; rfl) notTrialing
      fun hboth => prorated hboth.1 hboth.2
    exact .of_due (Orderly.raise (hfound ▸ ho) raised)
      ((ho.due _ hfound).settled notTrialing immediate raised hbegins)
  | @rescheduled planId behavior subscription currentPlan newPlan resolved notTrialing later =>
    rw [List.append_nil]
    have hfound := (resolvePlanChange_ok resolved).found
    have hbegins := hq rfl (subscription, currentPlan, newPlan) (by rw [resolved]; rfl) notTrialing
      fun hboth => later (.inl hboth.1)
    exact .of_due ho.ordered ((ho.due _ hfound).rescheduled notTrialing later hbegins)
  | invoiced found raised => exact absurd rfl hdirect
  | closed found raised =>
    exact .of_due (Orderly.raise (found ▸ ho) raised) ((ho.due _ found).closed raised)

/-! ## Every run -/

/-- At most one member of a list has a property that no two in order share. -/
theorem filter_length_le_one {α : Type} {R : α → α → Prop} {p : α → Prop} [DecidablePred p]
    {list : List α} (hordered : list.Pairwise R) (hexclusive : ∀ x y, R x y → p x → ¬ p y) :
    (list.filter (p ·)).length ≤ 1 := by
  induction list with
  | nil => exact Nat.zero_le 1
  | cons x rest ih =>
    obtain ⟨hx, hrest⟩ := List.pairwise_cons.mp hordered
    by_cases hp : p x
    · have hnone : rest.filter (p ·) = [] := by
        refine List.filter_eq_nil_iff.mpr fun y hy => ?_
        simpa using hexclusive x y (hx y hy) hp
      rw [List.filter_cons_of_pos (by simpa using hp), hnone]
      exact Nat.le_refl 1
    · rw [List.filter_cons_of_neg (by simpa using hp)]
      exact ih hrest

theorem chargedOnce_of_ordered (h : (invoices.flatMap (·.shares)).Pairwise Precedes) :
    ChargedOnce invoices := by
  have hexclusive : ∀ time, ∀ a b : SegmentShare, Precedes a b → a.Covers time →
      ¬ b.Covers time := by
    intro time a b hab ha hb
    exact absurd (hab.trans hb.1) (not_le.mpr ha.2)
  rw [List.pairwise_flatMap] at h
  refine fun time => ⟨?_, fun invoice hmem => ?_⟩
  · refine filter_length_le_one h.2 ?_
    rintro x y hxy ⟨share, hshare, hcovers⟩ ⟨share', hshare', hcovers'⟩
    exact hexclusive time share share' (hxy share hshare share' hshare') hcovers hcovers'
  · exact filter_length_le_one (h.1 invoice hmem) (hexclusive time)

/-- No time of a subscription is charged twice, after every run in which the plans that it changes
to begin after its bills. -/
theorem chargedOnce_of_beginsAfterBills (host : Host) (id : SubscriptionId)
    (calls : List (Env × Call)) (h : Along (service host) (BeginsAfterBills id) start calls)
    (hdirect : ∀ a ∈ calls, a.2 ≠ .generateInvoice id) :
    ChargedOnce (bills (run (service host) start calls) id) := by
  have hall := h.and (along_forall.mpr hdirect)
  have hinvariant := run_invariant
    (I := fun s => Indexed s ∧ Orderly (s.subscriptions id) (bills s id)) ?_
    ⟨start_indexed, List.Pairwise.nil, fun _ => rfl,
      fun _ he => absurd he.symm (Option.some_ne_none _)⟩ hall
  · exact chargedOnce_of_ordered hinvariant.2.ordered
  · intro s a hi hq
    obtain ⟨hindexed, he | ⟨hfresh, e, hturned, hleads⟩⟩ := commit_leads host hi.1 a id
    · rwa [he]
    · refine ⟨hindexed, ?_⟩
      rw [hleads.record, hleads.bills]
      exact hturned.orderly hfresh hi.2 hq.1 hq.2

/-- A host that is given texts in capitals. -/
def capitals : Host := { toUpperCase := fun text => text, formatNumber := fun _ => "" }

def atDay (day : Int) (uuid : String) (call : Call) : Env × Call := (⟨day * dayMs, uuid⟩, call)

/-- A monthly plan without usage. -/
def monthly (id : PlanId) (basePrice : ℚ) : Call :=
  .createPlan { id := some id, name := id, currency := none, basePrice, includedUnits := none,
                overageUnitPrice := none, tiers := none, meters := none, billingInterval := none }

/-- A customer of the cheaper of two plans. -/
def joins : List (Env × Call) :=
  [atDay 0 "1" (monthly "basic" 30), atDay 0 "2" (monthly "pro" 60),
    atDay 0 "3" (.subscribe "m" "c" "basic" none none)]

/-- A change that is invoiced at once, and the end of the period. -/
def upgrades : List (Env × Call) := joins ++
  [atDay 10 "4" (.changePlan "sub_3" "pro" (some .alwaysInvoice)),
    atDay 30 "5" (.closeBillingPeriod "sub_3")]

theorem upgrades_chargedOnce :
    ((bills (run (service capitals) start upgrades) "sub_3").map (·.baseAmount)) = [10, 40] ∧
      ChargedOnce (bills (run (service capitals) start upgrades) "sub_3") := by
  have hrun : ((bills (run (service capitals) start upgrades) "sub_3").map (·.baseAmount)) =
      [10, 40] ∧ Along (service capitals) (BeginsAfterBills "sub_3") start upgrades := by
    decide +kernel
  refine ⟨hrun.1, chargedOnce_of_beginsAfterBills capitals "sub_3" upgrades hrun.2 ?_⟩
  simp [upgrades, joins, atDay, monthly]

/-- A change that is invoiced at once, and one without proration, in the same period. -/
def changesTwice : List (Env × Call) := joins ++
  [atDay 10 "4" (.changePlan "sub_3" "pro" (some .alwaysInvoice)),
    atDay 20 "5" (.changePlan "sub_3" "basic" (some .none)),
    atDay 30 "6" (.closeBillingPeriod "sub_3")]

/-- The first ten days are charged on both invoices. -/
theorem first_days_charged_twice :
    ((bills (run (service capitals) start changesTwice) "sub_3").map (·.baseAmount)) = [10, 30] ∧
      ¬ ∀ (host : Host) (calls : List (Env × Call)) (id : SubscriptionId),
        (∀ a ∈ calls, a.2 ≠ .generateInvoice id) →
          ChargedOnce (bills (run (service host) start calls) id) := by
  have hrun : ((bills (run (service capitals) start changesTwice) "sub_3").map (·.baseAmount)) =
      [10, 30] ∧ 1 < ((bills (run (service capitals) start changesTwice) "sub_3").filter
        fun i => ∃ share ∈ i.shares, share.Covers 0).length := by
    decide +kernel
  refine ⟨hrun.1, fun hall => ?_⟩
  have honce := (hall capitals changesTwice "sub_3"
    (by simp [changesTwice, joins, atDay, monthly]) 0).1
  exact absurd hrun.2 (Nat.not_lt.mpr honce)

end Billing

/-!
## Cancelled subscriptions

Nothing brings a cancelled subscription back. Plan changes, usage and promo codes are refused for
it; a direct invoice and the end of a period are not.
-/
namespace Billing

open Transaction

/-- The subscription is there, and cancelled. -/
def Cancelled (record : Option Subscription) : Prop :=
  ∃ subscription ∈ record, subscription.status = .cancelled

instance (record : Option Subscription) : Decidable (Cancelled record) :=
  inferInstanceAs (Decidable (∃ subscription ∈ record, subscription.status = .cancelled))

/-- The call is to invoice the subscription. -/
def Invoices (id : SubscriptionId) (c : Call) : Prop :=
  c = .generateInvoice id ∨ c = .closeBillingPeriod id

variable {host : Host} {env : Env} {s : State} {id : SubscriptionId} {subscription : Subscription}
  {c : Call} {e : Effect}

theorem nextPeriod_cancelled {plan : BillingPlan} {invoice : Invoice}
    (h : subscription.status = .cancelled) :
    (nextPeriod subscription plan invoice).status = .cancelled := by
  have hnext : (nextPeriod subscription plan invoice).status =
      if subscription.cancelAtPeriodEnd = true then .cancelled
      else if subscription.status = .trialing ∧
        ∃ trialEndsAt ∈ subscription.trialEndsAt, trialEndsAt ≤ invoice.periodEnd then .active
      else subscription.status := rfl
  rw [hnext, h]
  simp

theorem Turned.cancelled (h : Turned host env s id c e) (hfresh : Fresh s env.uuid)
    (hc : Cancelled (s.subscriptions id)) :
    Cancelled e.record ∧ (e.raised = [] ∨ Invoices id c) := by
  obtain ⟨old, hold, hcancelled⟩ := hc
  -- what a call has found is the cancelled record
  have hfound : ∀ {subscription}, s.subscriptions id = some subscription →
      subscription.status = .cancelled := fun h => Option.some.inj (hold.symm.trans h) ▸ hcancelled
  have hnew : id ≠ "sub_" ++ env.uuid := by
    rintro rfl
    rw [Option.isNone_iff_eq_none.mp hfresh.1] at hold
    contradiction
  cases h with
  | kept => exact ⟨⟨old, hold, hcancelled⟩, .inl rfl⟩
  | restated found trial cancelled => exact ⟨⟨_, rfl, cancelled (hfound found)⟩, .inl rfl⟩
  | undiscounted found =>
    have hold := hfound found
    exact ⟨⟨_, rfl, hold⟩, .inl rfl⟩
  | subscribed new | subscribedWith new => exact absurd new hnew
  | discounted found notCancelled => exact absurd (hfound found) notCancelled
  | metered target found notCancelled => exact absurd (hfound found) notCancelled
  | switched resolved | settled resolved | rescheduled resolved =>
    have hresolved := resolvePlanChange_ok resolved
    exact absurd (hfound hresolved.found) hresolved.notCancelled
  | invoiced found raised => exact ⟨⟨_, rfl, hfound found⟩, .inr (.inl rfl)⟩
  | closed found raised => exact ⟨⟨_, rfl, nextPeriod_cancelled (hfound found)⟩, .inr (.inr rfl)⟩

/-- A call leaves a cancelled subscription cancelled, and only two calls raise an invoice for it. -/
theorem cancelled_commit (host : Host) (hi : Indexed s) (a : Env × Call)
    (hc : Cancelled (s.subscriptions id)) :
    Cancelled ((commit (service host) s a).subscriptions id) ∧
      (¬ Invoices id a.2 → bills (commit (service host) s a) id = bills s id) := by
  obtain ⟨-, he | ⟨hfresh, e, hturned, hl⟩⟩ := commit_leads host hi a id
  · rw [he]
    exact ⟨hc, fun _ => rfl⟩
  · obtain ⟨hrecord, hraised⟩ := hturned.cancelled hfresh hc
    refine ⟨hl.record ▸ hrecord, fun hinvoices => ?_⟩
    rw [hl.bills, hraised.resolve_right hinvoices, List.append_nil]

/-- A subscription that is cancelled after some calls stays so after all that follow, and it has no
further invoice after those that do not invoice it. -/
theorem stays_cancelled (host : Host) (id : SubscriptionId) (calls later : List (Env × Call))
    (hc : Cancelled ((run (service host) start calls).subscriptions id)) :
    Cancelled ((run (service host) start (calls ++ later)).subscriptions id) ∧
      ((∀ a ∈ later, ¬ Invoices id a.2) →
        bills (run (service host) start (calls ++ later)) id =
          bills (run (service host) start calls) id) := by
  have hindexed : Indexed (run (service host) start calls) :=
    run_preserves (I := Indexed) (fun s a hi => (commit_leads host hi a id).1) start_indexed calls
  rw [run_append]
  generalize run (service host) start calls = s at hc hindexed
  induction later generalizing s with
  | nil => exact ⟨hc, fun _ => rfl⟩
  | cons a later ih =>
    obtain ⟨hcancelled, hbills⟩ := cancelled_commit host hindexed a hc
    obtain ⟨hlast, hlater⟩ := ih _ hcancelled (commit_leads host hindexed a id).1
    refine ⟨hlast, fun hall => ?_⟩
    rw [run_cons, hlater fun b hb => hall b (List.mem_cons_of_mem a hb),
      hbills (hall a List.mem_cons_self)]

def cancels : List (Env × Call) := joins ++ [atDay 10 "4" (.cancelSubscription "sub_3" none)]

/-- Calls that are refused. -/
def goesOn : List (Env × Call) :=
  [atDay 11 "5" (.changePlan "sub_3" "pro" (some .alwaysInvoice)),
    atDay 12 "6" (.recordUsage ⟨"sub_3", "calls", 1, none⟩)]

theorem cancels_stays_cancelled :
    Cancelled ((run (service capitals) start (cancels ++ goesOn)).subscriptions "sub_3") ∧
      bills (run (service capitals) start (cancels ++ goesOn)) "sub_3" =
        bills (run (service capitals) start cancels) "sub_3" := by
  have hc : Cancelled ((run (service capitals) start cancels).subscriptions "sub_3") := by
    decide +kernel
  obtain ⟨hlast, hbills⟩ := stays_cancelled capitals "sub_3" cancels goesOn hc
  refine ⟨hlast, hbills ?_⟩
  simp [goesOn, atDay, Invoices]

/-- Two periods of a cancelled subscription are closed, and each is charged in full. -/
theorem cancelled_charged_twice :
    (bills (run (service capitals) start (cancels ++
        [atDay 30 "5" (.closeBillingPeriod "sub_3"),
          atDay 60 "6" (.closeBillingPeriod "sub_3")])) "sub_3").map (·.total) = [30, 30] ∧
      ¬ ∀ (host : Host) (id : SubscriptionId) (calls later : List (Env × Call)),
        Cancelled ((run (service host) start calls).subscriptions id) →
          bills (run (service host) start (calls ++ later)) id =
            bills (run (service host) start calls) id := by
  have hrun : Cancelled ((run (service capitals) start cancels).subscriptions "sub_3") ∧
      bills (run (service capitals) start cancels) "sub_3" = [] ∧
      (bills (run (service capitals) start (cancels ++
        [atDay 30 "5" (.closeBillingPeriod "sub_3"),
          atDay 60 "6" (.closeBillingPeriod "sub_3")])) "sub_3").map (·.total) = [30, 30] := by
    decide +kernel
  obtain ⟨hc, hnone, htwice⟩ := hrun
  refine ⟨htwice, fun hall => ?_⟩
  rw [hall capitals "sub_3" cancels _ hc, hnone] at htwice
  contradiction

end Billing
