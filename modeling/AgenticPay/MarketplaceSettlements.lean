import AgenticPay.BillingMoney
import AgenticPay.MarketplaceEscrow
import AgenticPay.Transaction

/-!
# What is paid out of an order

Every settlement and every resolution of a dispute pays out what the whole order holds. The payouts
of an order stay within its amount as long as a dispute is resolved only when nothing has been paid
out of the order, and leaves room for the milestones that are released.
-/
namespace MarketplaceEscrow

open Billing (IsCents epsilon roundMoney_isCents roundMoney_le roundMoney_le_iff roundMoney_nonneg)
open Dates Records Transaction

def releasedAmount (order : MarketplaceOrder) : ℚ :=
  amountOf ((order.milestones.getD []).filter (·.status = .released))

/-- What a call that returns the order has paid to the seller and to the buyer. -/
def paymentOf (operation : Operation) (order : MarketplaceOrder) : ℚ :=
  match operation with
  | .release | .autoRelease | .resolveDispute _ | .refund _ =>
    order.sellerPayout + order.refundedAmount
  | .releaseMilestone _ =>
    if order.status = .released then order.sellerPayout + order.refundedAmount else 0
  | .fundOrder _ | .markShipped _ | .markDelivered | .raiseDispute .. | .cancelOrder => 0

/-- What has been paid out of each order, with what a call pays. -/
def noted (s : Orders) (c : Call × Told) (paid : OrderId → ℚ) : OrderId → ℚ :=
  match c with
  | (.createOrder _, _) => paid
  | (.change id operation, told) =>
    match (change told.now id operation s).1 with
    | .error _ => paid
    | .ok order => Function.update paid id (paid id + paymentOf operation order)

abbrev watched : System (Call × Told) (Orders × (OrderId → ℚ)) Unit
    (Except Failure MarketplaceOrder) :=
  watching service fun s c _ paid => noted s c paid

/-! ## Conditions -/

/-- What a resolution gives the buyer is left of the amount by the released milestones. -/
def LeavesRoom (order : MarketplaceOrder) (input : ResolveDisputeInput) : Prop :=
  match input.resolution with
  | .buyer => releasedAmount order = 0
  | .seller => True
  | .split =>  -- up to the rounding to cents
    (order.amount - order.platformFee) * buyerPercentOf input / 100 + epsilon <
      order.amount - releasedAmount order + 1 / 200

instance (order : MarketplaceOrder) (input : ResolveDisputeInput) :
    Decidable (LeavesRoom order input) :=
  match h : input.resolution with
  | .buyer => decidable_of_iff (releasedAmount order = 0) (by rw [LeavesRoom, h])
  | .seller => isTrue (by rw [LeavesRoom, h]; trivial)
  | .split => decidable_of_iff ((order.amount - order.platformFee) * buyerPercentOf input / 100 +
      epsilon < order.amount - releasedAmount order + 1 / 200) (by rw [LeavesRoom, h])

/-- A dispute that is resolved finds an order out of which nothing has been paid, and leaves room
for its milestones. -/
def Settles (s : Orders) : Call × Told → Prop
  | (.change id (.resolveDispute input), told) => ∀ order ∈ s.get id,
    (resolveDispute told.now order input).toOption.isSome = true →
      (order.sellerPayout = 0 ∧ order.refundedAmount = 0) ∧ LeavesRoom order input
  | _ => True

instance (s : Orders) (c : Call × Told) : Decidable (Settles s c) :=
  match c with
  | (.change id (.resolveDispute input), told) => inferInstanceAs (Decidable (∀ order ∈ s.get id,
      (resolveDispute told.now order input).toOption.isSome = true →
        (order.sellerPayout = 0 ∧ order.refundedAmount = 0) ∧ LeavesRoom order input))
  | (.createOrder _, _) | (.change _ (.fundOrder _), _) | (.change _ (.markShipped _), _)
  | (.change _ .markDelivered, _) | (.change _ .release, _) | (.change _ (.releaseMilestone _), _)
  | (.change _ .autoRelease, _) | (.change _ (.raiseDispute ..), _) | (.change _ (.refund _), _)
  | (.change _ .cancelOrder, _) => isTrue trivial

/-! ## Invariants -/

def inEscrow : List MarketplaceOrderStatus := [.created, .funded, .shipped, .delivered]

def final : List MarketplaceOrderStatus := [.released, .refunded, .cancelled]

/-- What is paid out of an order stays within what it holds. -/
structure Holds (paid : ℚ) (order : MarketplaceOrder) : Prop where
  amount : IsCents order.amount
  fee : IsCents order.platformFee
  fee_nonneg : 0 ≤ order.platformFee
  fee_le : order.platformFee ≤ order.amount
  milestones : ∀ ms ∈ order.milestones, amountOf ms = order.amount ∧
    ∀ m ∈ ms, IsCents m.amount ∧ 0 ≤ m.amount
  settled : order.sellerPayout + order.platformFee + order.refundedAmount ≤ order.amount
  released : releasedAmount order + order.refundedAmount ≤ order.amount
  paid : paid = order.sellerPayout + order.refundedAmount

/-- Nothing is released of an order in escrow, and nothing is paid before a dispute or the end. -/
structure Sound (paid : ℚ) (order : MarketplaceOrder) : Prop extends Holds paid order where
  held : order.status ∈ inEscrow → releasedAmount order = 0 ∧ order.dispute = none
  unpaid : order.dispute = none → order.status ∉ final →
    order.sellerPayout = 0 ∧ order.refundedAmount = 0
  disputed : order.status = .disputed → order.dispute ≠ none

variable {now : Int} {told : Told} {order order' changed : MarketplaceOrder} {paid : ℚ}
  {milestones : List Milestone} {milestoneId : MilestoneId} {input : ResolveDisputeInput}
  {operation : Operation} {s : Orders} {c : Call × Told}

/-! ## Milestones -/

theorem round_isCents (a : ℚ) : IsCents (round a) := roundMoney_isCents a

theorem round_of_cents {a : ℚ} (h : IsCents a) : round a = a := h.round

theorem newMilestones_spec {uuid : Nat → String} {i : Nat} {inputs : List MilestoneInput}
    (h : newMilestones uuid i inputs = .ok milestones) :
    ∀ m ∈ milestones, (IsCents m.amount ∧ 0 ≤ m.amount) ∧ m.status = .pending := by
  induction inputs generalizing i milestones with
  | nil =>
    cases h
    exact fun _ hm => absurd hm List.not_mem_nil
  | cons input rest ih =>
    obtain ⟨first, hfirst, h⟩ := bind_returns h
    obtain ⟨others, hothers, h⟩ := bind_returns h
    cases h
    obtain ⟨_, hpos, hfirst⟩ := bind_returns hfirst
    cases hfirst
    intro m hm
    obtain rfl | hm := List.mem_cons.mp hm
    · have hnonneg := roundMoney_nonneg (Billing.validate_ok.mp hpos).le 2
      exact ⟨⟨roundMoney_isCents _, hnonneg⟩, rfl⟩
    · exact ih hothers m hm

theorem checkedMilestones_spec {uuid : Nat → String} {amount : ℚ}
    {inputs : Option (List MilestoneInput)} {found : Option (List Milestone)}
    (h : checkedMilestones uuid amount inputs = .ok found) :
    ∀ ms ∈ found, amountOf ms = amount ∧
      ∀ m ∈ ms, (IsCents m.amount ∧ 0 ≤ m.amount) ∧ m.status = .pending := by
  cases inputs with
  | none =>
    cases h
    exact fun _ hms => absurd hms (Option.not_mem_none _)
  | some inputs =>
    obtain ⟨milestones, hnew, h⟩ := bind_returns h
    obtain ⟨_, -, h⟩ := bind_returns h
    obtain ⟨_, hsum, h⟩ := bind_returns h
    cases h
    have hspec := newMilestones_spec hnew
    intro ms hms
    obtain rfl := Option.some.inj hms
    have hcents : IsCents (amountOf milestones) := .sum fun a ha => by
      obtain ⟨m, hm, rfl⟩ := List.mem_map.mp ha
      exact (hspec m hm).1.1
    have hrounded := Billing.validate_ok.mp hsum
    rw [round_of_cents hcents] at hrounded
    exact ⟨hrounded, hspec⟩

/-- What is released of the milestones is a part of them. -/
theorem amountOf_filter (f : Milestone → Bool)
    (h : ∀ m ∈ milestones, IsCents m.amount ∧ 0 ≤ m.amount) :
    IsCents (amountOf (milestones.filter f)) ∧
      amountOf (milestones.filter f) ≤ amountOf milestones := by
  induction milestones with
  | nil => exact ⟨.zero, le_rfl⟩
  | cons m rest ih =>
    obtain ⟨hcents, hle⟩ := ih fun m hm => h m (List.mem_cons_of_mem _ hm)
    obtain ⟨hm, hnonneg⟩ := h m List.mem_cons_self
    rw [List.filter_cons]
    split
    · simp only [amountOf, List.map_cons, List.sum_cons] at hcents hle ⊢
      exact ⟨hm.add hcents, by linarith⟩
    · simp only [amountOf, List.map_cons, List.sum_cons] at hcents hle ⊢
      exact ⟨hcents, by linarith⟩

theorem releaseFirst_amounts (now : Int) (milestoneId : MilestoneId)
    (milestones : List Milestone) :
    (releaseFirst now milestoneId milestones).map (·.amount) = milestones.map (·.amount) := by
  induction milestones with
  | nil => rfl
  | cons m rest ih =>
    rw [releaseFirst]
    split
    · rfl
    · rw [List.map_cons, ih, List.map_cons]

theorem releaseFirst_cents (now : Int) (milestoneId : MilestoneId)
    (h : ∀ m ∈ milestones, IsCents m.amount ∧ 0 ≤ m.amount) :
    ∀ m ∈ releaseFirst now milestoneId milestones, IsCents m.amount ∧ 0 ≤ m.amount := by
  intro m hm
  have hamount := List.mem_map_of_mem (f := (·.amount)) hm
  rw [releaseFirst_amounts] at hamount
  obtain ⟨old, hold, he⟩ := List.mem_map.mp hamount
  rw [← he]
  exact h old hold

theorem released_le {found : Option (List Milestone)} {amount : ℚ}
    (h : ∀ ms ∈ found, amountOf ms = amount ∧ ∀ m ∈ ms, IsCents m.amount ∧ 0 ≤ m.amount)
    (hamount : 0 ≤ amount) :
    IsCents (amountOf ((found.getD []).filter (·.status = .released))) ∧
      amountOf ((found.getD []).filter (·.status = .released)) ≤ amount := by
  cases found with
  | none => exact ⟨.zero, hamount⟩
  | some ms =>
    obtain ⟨hsum, hcents⟩ := h ms rfl
    obtain ⟨hpart, hle⟩ := amountOf_filter _ hcents
    exact ⟨hpart, hle.trans_eq hsum⟩

/-! ## What a call makes of an order -/

theorem assertStatus_ok {allowed : List MarketplaceOrderStatus} {action : String} {u : Unit}
    (h : assertStatus order allowed action = .ok u) : order.status ∈ allowed := by
  rw [assertStatus] at h
  split_ifs at h with hmem
  exact hmem

theorem newOrder_sound {input : CreateOrderInput} (h : newOrder told input = .ok order) :
    Sound 0 order ∧ order.id = orderId told input := by
  obtain ⟨_, -, h⟩ := bind_returns h
  obtain ⟨_, -, h⟩ := bind_returns h
  obtain ⟨_, -, h⟩ := bind_returns h
  obtain ⟨_, -, h⟩ := bind_returns h
  obtain ⟨_, hpos, h⟩ := bind_returns h
  obtain ⟨_, hpercent, h⟩ := bind_returns h
  obtain ⟨milestones, hmilestones, h⟩ := bind_returns h
  cases h
  have hspec := checkedMilestones_spec hmilestones
  have hamount : 0 ≤ round input.amount := roundMoney_nonneg (Billing.validate_ok.mp hpos).le 2
  obtain ⟨hlow, hhigh⟩ := Billing.validate_ok.mp hpercent
  have hfee : round (round input.amount * input.platformFeePercent.getD 10 / 100) ≤
      round input.amount := by
    refine roundMoney_le ?_ (roundMoney_isCents _)
    rw [div_le_iff₀ (by norm_num)]
    exact mul_le_mul_of_nonneg_left hhigh hamount
  have hnone : amountOf ((milestones.getD []).filter (·.status = .released)) = 0 := by
    rw [List.filter_eq_nil_iff.mpr]
    · rfl
    · intro m hm
      cases milestones with
      | none => exact absurd hm List.not_mem_nil
      | some ms =>
        rw [((hspec ms rfl).2 m hm).2]
        decide
  refine ⟨⟨⟨roundMoney_isCents _, roundMoney_isCents _, roundMoney_nonneg (by positivity) 2, hfee,
    fun ms hms => ⟨(hspec ms hms).1, fun m hm => ((hspec ms hms).2 m hm).1⟩, ?_, ?_, ?_⟩,
    fun _ => ⟨hnone, rfl⟩, fun _ _ => ⟨rfl, rfl⟩, nofun⟩, rfl⟩
  · rw [zero_add, add_zero]
    exact hfee
  · rw [add_zero]
    exact hnone.trans_le hamount
  · rw [add_zero]

/-- The amounts of an order, and what is paid out of it. -/
structure SameMoney (order order' : MarketplaceOrder) : Prop where
  amount : order'.amount = order.amount
  platformFee : order'.platformFee = order.platformFee
  sellerPayout : order'.sellerPayout = order.sellerPayout
  refundedAmount : order'.refundedAmount = order.refundedAmount
  milestones : order'.milestones = order.milestones

theorem Holds.same (h : Holds paid order) (hsame : SameMoney order order') :
    Holds paid order' := by
  obtain ⟨hamount, hfee, hpayout, hrefund, hmilestones⟩ := hsame
  have hreleased : releasedAmount order' = releasedAmount order := by
    rw [releasedAmount, hmilestones, releasedAmount]
  constructor
  · exact hamount ▸ h.amount
  · exact hfee ▸ h.fee
  · exact hfee ▸ h.fee_nonneg
  · exact hfee ▸ hamount ▸ h.fee_le
  · rw [hmilestones, hamount]
    exact h.milestones
  · rw [hpayout, hfee, hrefund, hamount]
    exact h.settled
  · rw [hreleased, hrefund, hamount]
    exact h.released
  · rw [hpayout, hrefund]
    exact h.paid

/-- An order that is no longer in escrow. -/
theorem Holds.leaves (h : Holds paid order) (status : MarketplaceOrderStatus)
    (hstatus : order.status = status) (hescrow : status ∉ inEscrow)
    (hunpaid : order.dispute = none → status ∉ final →
      order.sellerPayout = 0 ∧ order.refundedAmount = 0)
    (hdisputed : status = .disputed → order.dispute ≠ none) : Sound paid order := by
  subst hstatus
  exact ⟨h, fun hin => absurd hin hescrow, hunpaid, hdisputed⟩

/-- An order in escrow goes on. -/
theorem Sound.forward (h : Sound paid order) (hbefore : order.status ∈ inEscrow)
    (hsame : SameMoney order order') (hdispute : order'.dispute = order.dispute)
    (hafter : order'.status ≠ .disputed) : Sound paid order' := by
  obtain ⟨hheld, hnone⟩ := h.held hbefore
  have hunpaid := h.unpaid hnone fun hfinal => by
    revert hbefore hfinal
    cases order.status <;> decide
  refine ⟨h.toHolds.same hsame, fun _ => ⟨?_, hdispute.trans hnone⟩, fun _ _ => ?_,
    fun hstatus => absurd hstatus hafter⟩
  · rw [releasedAmount, hsame.milestones]
    exact hheld
  · rw [hsame.sellerPayout, hsame.refundedAmount]
    exact hunpaid

theorem paidOut_holds (h : Holds paid order) (hunpaid : order.sellerPayout = 0)
    (hrefund : order.refundedAmount = 0) :
    Holds (paid + ((paidOut now order).sellerPayout + (paidOut now order).refundedAmount))
      (paidOut now order) := by
  have hround : round (order.amount - order.platformFee) = order.amount - order.platformFee :=
    round_of_cents (h.amount.sub h.fee)
  refine ⟨h.amount, h.fee, h.fee_nonneg, h.fee_le, h.milestones, ?_, h.released, ?_⟩
  · show round (order.amount - order.platformFee) + order.platformFee + order.refundedAmount ≤
      order.amount
    rw [hround, hrefund]
    linarith
  · rw [h.paid, hunpaid, hrefund, add_zero, zero_add]

theorem paidOut_sound (h : Holds paid order) (hunpaid : order.sellerPayout = 0)
    (hrefund : order.refundedAmount = 0) :
    Sound (paid + ((paidOut now order).sellerPayout + (paidOut now order).refundedAmount))
      (paidOut now order) :=
  (paidOut_holds h hunpaid hrefund).leaves .released rfl (by decide)
    (fun _ hopen => absurd (by decide) hopen) nofun

theorem released_sound (h : Sound paid order)
    (hstatus : order.status ∈ [MarketplaceOrderStatus.funded, .shipped, .delivered]) :
    Sound (paid + ((paidOut now order).sellerPayout + (paidOut now order).refundedAmount))
      (paidOut now order) := by
  have hescrow : order.status ∈ inEscrow := List.mem_cons_of_mem _ hstatus
  obtain ⟨hunpaid, hrefund⟩ := h.unpaid (h.held hescrow).2 fun hfinal => by
    revert hstatus hfinal
    cases order.status <;> decide
  exact paidOut_sound h.toHolds hunpaid hrefund

/-- A milestone is released of an order without a dispute. -/
theorem withReleased_sound (now : Int) (milestoneId : MilestoneId) (h : Sound paid order)
    (hnone : order.dispute = none) (hopen : order.status ∉ final)
    (hmilestones : order.milestones = some milestones) :
    Sound (paid + paymentOf (.releaseMilestone milestoneId)
        (withReleased now order milestoneId milestones))
      (withReleased now order milestoneId milestones) := by
  obtain ⟨hunpaid, hrefund⟩ := h.unpaid hnone hopen
  obtain ⟨hsum, hcents⟩ := h.milestones milestones hmilestones
  have hms : ∀ ms ∈ some (releaseFirst now milestoneId milestones),
      amountOf ms = order.amount ∧ ∀ m ∈ ms, IsCents m.amount ∧ 0 ≤ m.amount := by
    intro ms hms
    obtain rfl := Option.some.inj hms
    refine ⟨?_, releaseFirst_cents now milestoneId hcents⟩
    rw [amountOf, releaseFirst_amounts]
    exact hsum
  have hpartly : Holds paid { order with
      milestones := some (releaseFirst now milestoneId milestones), updatedAt := now } := by
    refine ⟨h.amount, h.fee, h.fee_nonneg, h.fee_le, hms, h.settled, ?_, h.paid⟩
    have hle := (released_le hms (h.fee_nonneg.trans h.fee_le)).2
    show releasedAmount _ + order.refundedAmount ≤ order.amount
    rw [hrefund, add_zero]
    exact hle
  rw [withReleased]
  dsimp only
  split
  · rw [paymentOf]
    exact paidOut_sound hpartly hunpaid hrefund
  · show Sound (paid + 0) _
    rw [add_zero]
    refine Holds.leaves (hpartly.same ?_) .partiallyReleased rfl (by decide)
      (fun _ _ => ⟨hunpaid, hrefund⟩) nofun
    exact ⟨rfl, rfl, rfl, rfl, rfl⟩

theorem refund_sound (h : Sound paid order)
    (hstatus : order.status ∈ [MarketplaceOrderStatus.funded, .shipped, .delivered]) :
    Sound (paid + (0 + order.amount)) { order with
      status := .refunded, platformFee := 0, sellerPayout := 0, refundedAmount := order.amount
      refundedAt := some now, updatedAt := now } := by
  obtain ⟨hheld, hnone⟩ := h.held (List.mem_cons_of_mem _ hstatus)
  obtain ⟨hunpaid, hrefund⟩ := h.unpaid hnone fun hfinal => by
    revert hstatus hfinal
    cases order.status <;> decide
  have hamount := h.fee_nonneg.trans h.fee_le
  refine Holds.leaves ⟨h.amount, .zero, le_rfl, hamount, h.milestones, ?_, ?_, ?_⟩ .refunded rfl
    (by decide) (fun _ hopen => absurd (by decide) hopen) nofun
  · show (0 : ℚ) + 0 + order.amount ≤ order.amount
    linarith
  · show releasedAmount order + order.amount ≤ order.amount
    rw [hheld, zero_add]
  · rw [h.paid, hunpaid, hrefund, add_zero, zero_add]

theorem disputed_sound {dispute : EscrowDispute} (h : Sound paid order) :
    Sound paid { order with
      status := .disputed, dispute := some dispute, updatedAt := now } := by
  refine Holds.leaves (h.toHolds.same ?_) .disputed rfl (by decide) nofun fun _ => nofun
  exact ⟨rfl, rfl, rfl, rfl, rfl⟩

/-- A resolution shares the amount, and leaves room for the milestones that are released. -/
theorem shares_spec {shares : Shares} (h : Holds paid order)
    (hok : MarketplaceEscrow.shares order input = .ok shares) (hroom : LeavesRoom order input) :
    IsCents shares.platformFee ∧ 0 ≤ shares.platformFee ∧ shares.platformFee ≤ order.amount ∧
      shares.sellerPayout + shares.platformFee + shares.buyerRefund ≤ order.amount ∧
      releasedAmount order + shares.buyerRefund ≤ order.amount := by
  have hround : round (order.amount - order.platformFee) = order.amount - order.platformFee :=
    round_of_cents (h.amount.sub h.fee)
  have hamount := h.fee_nonneg.trans h.fee_le
  have hcents : IsCents (releasedAmount order) := (released_le h.milestones hamount).1
  have hle : releasedAmount order ≤ order.amount := (released_le h.milestones hamount).2
  rw [MarketplaceEscrow.shares] at hok
  rw [LeavesRoom] at hroom
  cases hresolution : input.resolution with
  | buyer =>
    rw [hresolution] at hok hroom
    cases hok
    refine ⟨.zero, le_rfl, hamount, ?_, ?_⟩
    · linarith
    · exact (congrArg (· + order.amount) hroom).le.trans_eq (zero_add _)
  | seller =>
    rw [hresolution] at hok
    cases hok
    refine ⟨h.fee, h.fee_nonneg, h.fee_le, ?_, ?_⟩
    · rw [hround]
      linarith
    · rw [add_zero]
      exact hle
  | split =>
    rw [hresolution] at hok hroom
    obtain ⟨_, hpercent, hok⟩ := bind_returns hok
    cases hok
    rw [hround]
    dsimp only
    refine ⟨h.fee, h.fee_nonneg, h.fee_le, ?_, ?_⟩
    · rw [round_of_cents ((h.amount.sub h.fee).sub (round_isCents _))]
      linarith
    · have hshare : round ((order.amount - order.platformFee) * buyerPercentOf input / 100) ≤
          order.amount - releasedAmount order := (roundMoney_le_iff (h.amount.sub hcents)).mpr hroom
      linarith

theorem resolved_sound {shares : Shares} (h : Sound paid order) (hstatus : order.status = .disputed)
    (hunpaid : order.sellerPayout = 0 ∧ order.refundedAmount = 0)
    (hok : MarketplaceEscrow.shares order input = .ok shares) (hroom : LeavesRoom order input) :
    Sound (paid + (shares.sellerPayout + shares.buyerRefund))
      (resolved now order input shares) := by
  obtain ⟨hfee, hnonneg, hle, hsettled, hreleased⟩ := shares_spec h.toHolds hok hroom
  have hdispute : (resolved now order input shares).dispute ≠ none := by
    rw [resolved, ne_eq, Option.map_eq_none_iff]
    exact h.disputed hstatus
  refine Holds.leaves ⟨h.amount, hfee, hnonneg, hle, h.milestones, hsettled, hreleased, ?_⟩
    input.resolution.status rfl ?_ (fun hnone => absurd hnone hdispute) fun _ => hdispute
  · rw [h.paid, hunpaid.1, hunpaid.2, add_zero, zero_add]
    rfl
  · cases input.resolution <;> decide

/-! ## Calls -/

/-- What is paid in a call on an order. -/
def paidIn (now : Int) (operation : Operation) (order : MarketplaceOrder) : ℚ :=
  match (perform now order operation).1 with
  | .error _ => 0
  | .ok changed => paymentOf operation changed

/-- What a call leaves of an order. -/
structure Leaves (paid : ℚ) (order : MarketplaceOrder) (payment : ℚ) (left : MarketplaceOrder) :
    Prop where
  id : left.id = order.id
  final : order.status ∈ final → left = order
  sound : Sound (paid + payment) left

theorem leaves_same (h : Sound paid order) : Leaves paid order 0 order :=
  ⟨rfl, fun _ => rfl, by rwa [add_zero]⟩

/-- A call that checks the status of the order before anything else. -/
theorem whole_leaves {result : Except Billing.Failure MarketplaceOrder} (h : Sound paid order)
    (hperform : perform now order operation = whole order result)
    (hok : ∀ changed, result = .ok changed → order.status ∉ final ∧ changed.id = order.id ∧
      Sound (paid + paymentOf operation changed) changed) :
    Leaves paid order (paidIn now operation order) (perform now order operation).2 := by
  rw [paidIn, hperform]
  cases result with
  | error failure => exact leaves_same h
  | ok changed =>
    obtain ⟨hopen, hid, hsound⟩ := hok changed rfl
    exact ⟨hid, fun hfinal => absurd hfinal hopen, hsound⟩

theorem not_final {allowed : List MarketplaceOrderStatus} {action : String} {u : Unit}
    (h : assertStatus order allowed action = .ok u)
    (hallowed : ∀ status ∈ allowed, status ∉ final) : order.status ∉ final :=
  hallowed _ (assertStatus_ok h)

theorem perform_leaves (h : Sound paid order)
    (hsettles : ∀ input, operation = .resolveDispute input →
      (resolveDispute now order input).toOption.isSome = true →
        (order.sellerPayout = 0 ∧ order.refundedAmount = 0) ∧ LeavesRoom order input) :
    Leaves paid order (paidIn now operation order) (perform now order operation).2 := by
  cases operation with
  | fundOrder txHash =>
    refine whole_leaves h rfl fun changed hok => ?_
    obtain ⟨_, hstatus, hok⟩ := bind_returns hok
    cases hok
    refine ⟨not_final hstatus (by decide), rfl, ?_⟩
    have hcreated := List.mem_singleton.mp (assertStatus_ok hstatus)
    rw [paymentOf, add_zero]
    exact h.forward (by rw [hcreated]; decide) ⟨rfl, rfl, rfl, rfl, rfl⟩ rfl nofun
  | markShipped trackingInfo =>
    refine whole_leaves h rfl fun changed hok => ?_
    obtain ⟨_, hstatus, hok⟩ := bind_returns hok
    cases hok
    refine ⟨not_final hstatus (by decide), rfl, ?_⟩
    have hfunded := List.mem_singleton.mp (assertStatus_ok hstatus)
    rw [paymentOf, add_zero]
    exact h.forward (by rw [hfunded]; decide) ⟨rfl, rfl, rfl, rfl, rfl⟩ rfl nofun
  | markDelivered =>
    rw [paidIn, perform, markDelivered]
    cases hstatus : assertStatus order [.shipped] "deliver" with
    | error failure => exact leaves_same h
    | ok u =>
      have hshipped := List.mem_singleton.mp (assertStatus_ok hstatus)
      have hescrow : order.status ∈ inEscrow := by rw [hshipped]; decide
      have hopen := not_final hstatus (by decide)
      dsimp only
      cases toIsoString (now + order.inspectionPeriodMs) with
      | error message =>
        refine ⟨rfl, fun hfinal => absurd hfinal hopen, ?_⟩
        rw [add_zero]
        exact h.forward hescrow ⟨rfl, rfl, rfl, rfl, rfl⟩ rfl nofun
      | ok autoReleaseAt =>
        refine ⟨rfl, fun hfinal => absurd hfinal hopen, ?_⟩
        show Sound (paid + 0) _
        rw [add_zero]
        exact h.forward hescrow ⟨rfl, rfl, rfl, rfl, rfl⟩ rfl nofun
  | release =>
    refine whole_leaves h rfl fun changed hok => ?_
    obtain ⟨_, hstatus, hok⟩ := bind_returns hok
    cases hok
    exact ⟨not_final hstatus (by decide), rfl, released_sound h (assertStatus_ok hstatus)⟩
  | releaseMilestone milestoneId =>
    refine whole_leaves h rfl fun changed hok => ?_
    obtain ⟨_, hstatus, hok⟩ := bind_returns hok
    obtain ⟨_, hmilestones, hok⟩ := bind_returns hok
    obtain ⟨_, hdispute, hok⟩ := bind_returns hok
    have hopen := not_final hstatus (by decide)
    cases hms : order.milestones with
    | none =>
      rw [hms] at hmilestones
      exact absurd rfl (Billing.validate_ok.mp hmilestones)
    | some milestones =>
      rw [hms, Option.getD_some] at hok
      split at hok
      · contradiction
      · split_ifs at hok
        cases hok
        have hnone := Billing.validate_ok.mp hdispute
        refine ⟨hopen, ?_, withReleased_sound now milestoneId h hnone hopen hms⟩
        rw [withReleased]
        dsimp only
        split <;> rfl
  | autoRelease =>
    refine whole_leaves h rfl fun changed hok => ?_
    obtain ⟨_, hstatus, hok⟩ := bind_returns hok
    have hdelivered := List.mem_singleton.mp (assertStatus_ok hstatus)
    split at hok
    · contradiction
    · obtain ⟨_, -, hok⟩ := bind_returns hok
      cases hok
      exact ⟨not_final hstatus (by decide), rfl, released_sound h (by rw [hdelivered]; decide)⟩
  | raiseDispute raisedBy reason =>
    refine whole_leaves h rfl fun changed hok => ?_
    obtain ⟨_, hstatus, hok⟩ := bind_returns hok
    split_ifs at hok
    cases hok
    refine ⟨not_final hstatus (by decide), rfl, ?_⟩
    rw [paymentOf, add_zero]
    exact disputed_sound h
  | resolveDispute input =>
    refine whole_leaves h rfl fun changed hok => ?_
    have hsome : (resolveDispute now order input).toOption.isSome = true := by rw [hok]; rfl
    obtain ⟨hunpaid, hroom⟩ := hsettles input rfl hsome
    obtain ⟨_, hstatus, hok⟩ := bind_returns hok
    obtain ⟨_, -, hok⟩ := bind_returns hok
    obtain ⟨shares, hshares, hok⟩ := bind_returns hok
    cases hok
    have hdisputed := List.mem_singleton.mp (assertStatus_ok hstatus)
    exact ⟨not_final hstatus (by decide), rfl, resolved_sound h hdisputed hunpaid hshares hroom⟩
  | refund reason =>
    refine whole_leaves h rfl fun changed hok => ?_
    obtain ⟨_, hstatus, hok⟩ := bind_returns hok
    cases hok
    exact ⟨not_final hstatus (by decide), rfl, refund_sound h (assertStatus_ok hstatus)⟩
  | cancelOrder =>
    refine whole_leaves h rfl fun changed hok => ?_
    obtain ⟨_, hstatus, hok⟩ := bind_returns hok
    cases hok
    refine ⟨not_final hstatus (by decide), rfl, ?_⟩
    have hcreated := List.mem_singleton.mp (assertStatus_ok hstatus)
    rw [paymentOf, add_zero]
    exact h.forward (by rw [hcreated]; decide) ⟨rfl, rfl, rfl, rfl, rfl⟩ rfl nofun

/-! ## Runs -/

/-- Every order is as it should be, and nothing has been paid out of what is none. -/
structure Accounted (s : Orders) (paid : OrderId → ℚ) : Prop where
  sound : ∀ order ∈ s, Sound (paid order.id) order
  unknown : ∀ id, s.get id = none → paid id = 0

/-- The two ways in which a call goes. -/
inductive Called (s : Orders) (paid : OrderId → ℚ) : Call × Told → Orders → (OrderId → ℚ) → Prop
  | none {c : Call × Told} : Called s paid c s paid
  | created {input : CreateOrderInput} {told : Told} {order : MarketplaceOrder}
      (fresh : s.get (orderId told input) = none) (ok : newOrder told input = .ok order) :
      Called s paid (.createOrder input, told) (s.set order) paid
  | changed {id : OrderId} {operation : Operation} {told : Told} {order : MarketplaceOrder}
      (found : s.get id = some order) :
      Called s paid (.change id operation, told) (s.set (perform told.now order operation).2)
        (Function.update paid id (paid id + paidIn told.now operation order))

theorem called (s : Orders) (paid : OrderId → ℚ) (c : Call × Told) :
    Called s paid c (commit service s c) (noted s c paid) := by
  obtain ⟨call, told⟩ := c
  cases call with
  | createOrder input =>
    rw [noted, commit, service]
    by_cases hfresh : s.get (orderId told input) = none
    · rw [if_pos hfresh, createOrder]
      cases hnew : newOrder told input with
      | error failure => exact .none
      | ok order => exact .created hfresh hnew
    · rw [if_neg hfresh]
      exact .none
  | change id operation =>
    rw [noted, commit, service, change]
    cases precheck operation with
    | error failure => exact .none
    | ok u =>
      cases hget : s.get id with
      | none => exact .none
      | some order =>
        have hchanged : Called s paid (.change id operation, told) _ _ := .changed hget
        rw [paidIn] at hchanged
        cases hperform : (perform told.now order operation).1 with
        | error failure =>
          rw [hperform, add_zero, Function.update_eq_self] at hchanged
          simpa only [hperform] using hchanged
        | ok changed =>
          rw [hperform] at hchanged
          simpa only [hperform] using hchanged

theorem settles_resolve {id : OrderId} (h : Settles s (.change id operation, told))
    (hget : s.get id = some order) (input : ResolveDisputeInput)
    (hoperation : operation = .resolveDispute input)
    (hok : (resolveDispute told.now order input).toOption.isSome = true) :
    (order.sellerPayout = 0 ∧ order.refundedAmount = 0) ∧ LeavesRoom order input := by
  subst hoperation
  exact h order hget hok

theorem called_accounted {s' : Orders} {before after : OrderId → ℚ} (h : Accounted s before)
    (hsettles : Settles s c) (hc : Called s before c s' after) :
    Accounted s' after ∧ ∀ order ∈ s, order.status ∈ final → order ∈ s' := by
  cases hc with
  | none => exact ⟨h, fun order horder _ => horder⟩
  | @created input told order fresh ok =>
    obtain ⟨hsound, hid⟩ := newOrder_sound ok
    have hnone : s.get order.id = none := hid ▸ fresh
    refine ⟨⟨fun other hother => ?_, fun id hget => ?_⟩, fun other hother _ =>
      Table.mem_set_fresh hnone hother⟩
    · obtain rfl | ⟨hmem, -⟩ := Table.mem_set.mp hother
      · rw [h.unknown other.id hnone]
        exact hsound
      · exact h.sound other hmem
    · refine h.unknown id ?_
      rw [Table.get_set] at hget
      split_ifs at hget
      exact hget
  | @changed id operation told order found =>
    obtain ⟨hmem, hid⟩ := Table.get_some found
    subst hid
    have hleaves := perform_leaves (h.sound order hmem) (settles_resolve hsettles found)
    refine ⟨⟨fun other hother => ?_, fun id hget => ?_⟩, fun other hother hfinal => ?_⟩
    · obtain rfl | ⟨hother, hne⟩ := Table.mem_set.mp hother
      · rw [hleaves.id, Function.update_self]
        exact hleaves.sound
      · rw [hleaves.id] at hne
        rw [Function.update_of_ne hne]
        exact h.sound other hother
    · rw [Table.get_set, hleaves.id] at hget
      split_ifs at hget with hid
      rw [Function.update_of_ne hid]
      exact h.unknown id hget
    · by_cases he : other.id = order.id
      · obtain rfl := Table.key_injective hother hmem he
        rw [hleaves.final hfinal]
        exact Table.mem_set.mpr (.inl rfl)
      · exact Table.mem_set.mpr (.inr ⟨hother, hleaves.id ▸ he⟩)

/-- An order that has been released, refunded or cancelled stays as it is. -/
def KeepsFinal (s : Orders) (c : Call × Told) : Prop :=
  ∀ order ∈ s, order.status ∈ final → order ∈ commit service s c

theorem start_accounted : Accounted ∅ fun _ => 0 :=
  ⟨fun _ h => absurd h (Table.not_mem_empty _), fun _ _ => rfl⟩

/-- In every run whose resolutions find an order out of which nothing has been paid and leave room
for its milestones, no order pays out more than its amount, and none leaves a final status. -/
theorem accounts_run {cs : List (Call × Told)} (h : Along service Settles ∅ cs) :
    (∀ order ∈ (run watched (∅, fun _ => 0) cs).1,
      releasedAmount order + order.refundedAmount ≤ order.amount ∧
        order.sellerPayout + order.platformFee + order.refundedAmount ≤ order.amount ∧
        (run watched (∅, fun _ => 0) cs).2 order.id + order.platformFee ≤ order.amount) ∧
      Along service KeepsFinal ∅ cs := by
  have hwatched : Along watched (fun p c => Settles p.1 c) (∅, fun _ => 0) cs :=
    along_watching.mpr h
  have hstep : ∀ p c, Accounted p.1 p.2 → Settles p.1 c →
      Accounted (commit watched p c).1 (commit watched p c).2 := by
    intro p c hp hsettles
    obtain hcommit | ⟨-, hcommit⟩ := commit_watching service (fun s c _ paid => noted s c paid) p c
    · rw [hcommit]
      exact (called_accounted hp hsettles (called p.1 p.2 c)).1
    · rwa [hcommit]
  constructor
  · intro order horder
    have haccounted := run_invariant (I := fun p : Orders × (OrderId → ℚ) => Accounted p.1 p.2)
      hstep start_accounted hwatched
    have hsound := haccounted.sound order horder
    refine ⟨hsound.released, hsound.settled, ?_⟩
    have hpaid := hsound.paid
    have hsettled := hsound.settled
    linarith
  · refine along_watching.mp (along_of_invariant
      (I := fun p : Orders × (OrderId → ℚ) => Accounted p.1 p.2) hstep start_accounted hwatched
      fun p c hp hsettles => ?_)
    exact (called_accounted hp hsettles (called p.1 p.2 c)).2

def toldAt (now : Int) : Told := ⟨now, fun _ => "1"⟩

/-- An order of 100 with a fee of 10 and milestones of 60 and 40, which is funded and goes on. -/
def twoMilestones (operations : List Operation) : List (Call × Told) :=
  (.createOrder ⟨"market", "order", "buyer", "seller", 100, none, none,
      some [⟨some "first", "Design", 60⟩, ⟨some "second", "Build", 40⟩]⟩, toldAt 0) ::
    (.fundOrder "0xabc" :: operations).map fun operation => (.change "mko_1" operation, toldAt 1)

/-- The design is paid for, and two fifths of what the order is worth to the seller go back. -/
def designPaid : List Operation :=
  [.releaseMilestone "first", .raiseDispute "buyer" "late",
    .resolveDispute ⟨.split, some 40, "support"⟩]

theorem designPaid_run :
    (∀ order ∈ (run watched (∅, fun _ => 0) (twoMilestones designPaid)).1,
      releasedAmount order + order.refundedAmount ≤ order.amount ∧
        order.sellerPayout + order.platformFee + order.refundedAmount ≤ order.amount ∧
        (run watched (∅, fun _ => 0) (twoMilestones designPaid)).2 order.id + order.platformFee ≤
          order.amount) ∧
      Along service KeepsFinal ∅ (twoMilestones designPaid) :=
  accounts_run (by decide +kernel)

/-- A dispute that is resolved for the buyer refunds what the first milestone has released, and an
order that has been split is paid out to the seller a second time. -/
theorem resolutions_go_wrong :
    (∃ order ∈ (run watched (∅, fun _ => 0) (twoMilestones [.releaseMilestone "first",
        .raiseDispute "buyer" "late", .resolveDispute ⟨.buyer, none, "support"⟩])).1.get "mko_1",
      order.amount < releasedAmount order + order.refundedAmount) ∧
    ∃ order ∈ (run watched (∅, fun _ => 0) (twoMilestones [.raiseDispute "buyer" "late",
        .resolveDispute ⟨.split, none, "support"⟩, .raiseDispute "seller" "unpaid",
        .resolveDispute ⟨.seller, none, "support"⟩])).1.get "mko_1",
      order.amount < (run watched (∅, fun _ => 0) (twoMilestones [.raiseDispute "buyer" "late",
        .resolveDispute ⟨.split, none, "support"⟩, .raiseDispute "seller" "unpaid",
        .resolveDispute ⟨.seller, none, "support"⟩])).2 "mko_1" + order.platformFee := by
  decide +kernel

end MarketplaceEscrow
