import AgenticPay.BillingTypes
import AgenticPay.Calendar
import AgenticPay.Records
import AgenticPay.Transaction

/-!
# The escrow of the marketplace

An order holds the funds of its buyer until they are released to the seller, as a whole or by
milestones, or refunded. Amounts are exact numbers and times are milliseconds. Left out are the
currency, who approves, and the events of an order, which no call reads.
-/
namespace MarketplaceEscrow

open Billing (roundMoney)
open Dates Records Transaction

abbrev OrderId := String
abbrev MilestoneId := String

inductive MarketplaceOrderStatus where
  | created
  | funded
  | shipped
  | delivered
  | released
  | partiallyReleased
  | refunded
  | disputed
  | cancelled
  deriving DecidableEq

def MarketplaceOrderStatus.text : MarketplaceOrderStatus → String
  | .created => "created"
  | .funded => "funded"
  | .shipped => "shipped"
  | .delivered => "delivered"
  | .released => "released"
  | .partiallyReleased => "partially_released"
  | .refunded => "refunded"
  | .disputed => "disputed"
  | .cancelled => "cancelled"

inductive MilestoneStatus where
  | pending
  | released
  deriving DecidableEq

structure Milestone where
  id : MilestoneId
  name : String
  amount : ℚ
  status : MilestoneStatus
  releasedAt : Option Int
  deriving DecidableEq

inductive Resolution where
  | buyer
  | seller
  | split
  deriving DecidableEq

structure EscrowDispute where
  raisedBy : String
  reason : String
  raisedAt : Int
  resolution : Option Resolution
  buyerPercent : Option ℚ
  resolvedAt : Option Int
  deriving DecidableEq

structure MarketplaceOrder where
  id : OrderId
  marketplaceId : String
  externalOrderId : String
  buyerId : String
  sellerId : String
  amount : ℚ
  platformFeePercent : ℚ
  platformFee : ℚ
  sellerPayout : ℚ
  refundedAmount : ℚ
  status : MarketplaceOrderStatus
  milestones : Option (List Milestone)
  inspectionPeriodMs : Int
  fundingTxHash : Option String
  trackingInfo : Option String
  deliveredAt : Option Int
  autoReleaseAt : Option Int
  releasedAt : Option Int
  refundedAt : Option Int
  cancelledAt : Option Int
  dispute : Option EscrowDispute
  createdAt : Int
  updatedAt : Int
  deriving DecidableEq

structure MilestoneInput where
  id : Option MilestoneId
  name : String
  amount : ℚ

structure CreateOrderInput where
  marketplaceId : String
  externalOrderId : String
  buyerId : String
  sellerId : String
  amount : ℚ
  platformFeePercent : Option ℚ
  inspectionPeriodMs : Option Int
  milestones : Option (List MilestoneInput)

structure ResolveDisputeInput where
  resolution : Resolution
  buyerPercent : Option ℚ
  approvedBy : String

/-- An error of the service, or a date that is none. -/
inductive Failure where
  | service (failure : Billing.Failure)
  | thrown (message : String)
  deriving DecidableEq

/-- The calls that change one order. -/
inductive Operation where
  | fundOrder (txHash : String)
  | markShipped (trackingInfo : Option String)
  | markDelivered
  | release
  | releaseMilestone (milestoneId : MilestoneId)
  | autoRelease
  | raiseDispute (raisedBy reason : String)
  | resolveDispute (input : ResolveDisputeInput)
  | refund (reason : String)
  | cancelOrder

inductive Call where
  | createOrder (input : CreateOrderInput)
  | change (id : OrderId) (operation : Operation)

/-- What a call is told: the time and the random identifiers, of the milestones and of the order. -/
structure Told where
  now : Int
  uuid : Nat → String

abbrev Orders := Table MarketplaceOrder.id

def round (value : ℚ) : ℚ := roundMoney value 2

def dayMs : Int := 24 * 60 * 60 * 1000

/-! ## Creation -/

def newMilestone (uuid : String) (input : MilestoneInput) : Except Billing.Failure Milestone := do
  Billing.validate (0 < input.amount) "Milestone amount must be greater than 0"
  return ⟨input.id.getD ("ms_" ++ uuid), input.name, round input.amount, .pending, none⟩

/-- The milestones of an order, with the first of the identifiers that they are given. -/
def newMilestones (uuid : Nat → String) : Nat → List MilestoneInput →
    Except Billing.Failure (List Milestone)
  | _, [] => return []
  | i, input :: rest => do
    let milestone ← newMilestone (uuid i) input
    let milestones ← newMilestones uuid (i + 1) rest
    return milestone :: milestones

def amountOf (milestones : List Milestone) : ℚ := (milestones.map (·.amount)).sum

def checkedMilestones (uuid : Nat → String) (amount : ℚ) :
    Option (List MilestoneInput) → Except Billing.Failure (Option (List Milestone))
  | none => return none
  | some inputs => do
    let milestones ← newMilestones uuid 0 inputs
    Billing.validate (milestones ≠ []) "milestones cannot be empty"
    Billing.validate (round (amountOf milestones) = amount)
      "Milestone amounts must sum to the order amount"
    return some milestones

def orderId (told : Told) (input : CreateOrderInput) : OrderId :=
  "mko_" ++ told.uuid (input.milestones.getD []).length

def newOrder (told : Told) (input : CreateOrderInput) :
    Except Billing.Failure MarketplaceOrder := do
  Billing.validate (input.marketplaceId ≠ "") "marketplaceId is required"
  Billing.validate (input.externalOrderId ≠ "") "externalOrderId is required"
  Billing.validate (input.buyerId ≠ "" ∧ input.sellerId ≠ "") "buyerId and sellerId are required"
  Billing.validate (input.buyerId ≠ input.sellerId) "Buyer and seller must be different"
  Billing.validate (0 < input.amount) "Amount must be greater than 0"
  let platformFeePercent := input.platformFeePercent.getD 10
  Billing.validate (0 ≤ platformFeePercent ∧ platformFeePercent ≤ 100)
    "platformFeePercent must be between 0 and 100"
  let amount := round input.amount
  let milestones ← checkedMilestones told.uuid amount input.milestones
  return {
    id := orderId told input
    marketplaceId := input.marketplaceId
    externalOrderId := input.externalOrderId
    buyerId := input.buyerId
    sellerId := input.sellerId
    amount
    platformFeePercent
    platformFee := round (amount * platformFeePercent / 100)
    sellerPayout := 0
    refundedAmount := 0
    status := .created
    milestones
    inspectionPeriodMs := input.inspectionPeriodMs.getD (7 * dayMs)
    fundingTxHash := none
    trackingInfo := none
    deliveredAt := none
    autoReleaseAt := none
    releasedAt := none
    refundedAt := none
    cancelledAt := none
    dispute := none
    createdAt := told.now
    updatedAt := told.now }

/-! ## The calls on an order -/

variable (now : Int) (order : MarketplaceOrder)

def assertStatus (allowed : List MarketplaceOrderStatus) (action : String) :
    Except Billing.Failure Unit :=
  if order.status ∈ allowed then .ok ()
  else .error (Billing.conflict
    ("Cannot " ++ action ++ " an order in status " ++ order.status.text))

def fundOrder (txHash : String) : Except Billing.Failure MarketplaceOrder := do
  assertStatus order [.created] "fund"
  return { order with status := .funded, fundingTxHash := some txHash, updatedAt := now }

def markShipped (trackingInfo : Option String) : Except Billing.Failure MarketplaceOrder := do
  assertStatus order [.funded] "ship"
  return { order with status := .shipped, trackingInfo, updatedAt := now }

/-- The order, all of which is paid to the seller but the fee. -/
def paidOut : MarketplaceOrder :=
  { order with
    status := .released, sellerPayout := round (order.amount - order.platformFee)
    releasedAt := some now, updatedAt := now }

def release : Except Billing.Failure MarketplaceOrder := do
  assertStatus order [.funded, .shipped, .delivered] "release"
  return paidOut now order

/-- The first milestone with the identifier is released. -/
def releaseFirst (milestoneId : MilestoneId) : List Milestone → List Milestone
  | [] => []
  | milestone :: rest =>
    if milestone.id = milestoneId then
      { milestone with status := .released, releasedAt := some now } :: rest
    else milestone :: releaseFirst milestoneId rest

def withReleased (milestoneId : MilestoneId) (milestones : List Milestone) : MarketplaceOrder :=
  let milestones := releaseFirst now milestoneId milestones
  let order := { order with milestones := some milestones, updatedAt := now }
  if milestones.all (·.status = .released) then paidOut now order
  else { order with status := .partiallyReleased }

def releaseMilestone (milestoneId : MilestoneId) : Except Billing.Failure MarketplaceOrder := do
  assertStatus order [.funded, .shipped, .delivered, .partiallyReleased] "release milestones for"
  let milestones := order.milestones.getD []
  Billing.validate (milestones ≠ []) "Order has no milestones"
  Billing.validate (order.dispute = none) "Cannot release milestones while a dispute is open"
  match milestones.find? (·.id = milestoneId) with
  | none => .error (Billing.notFound "Milestone" milestoneId)
  | some milestone =>
    if milestone.status = .released then
      .error (Billing.conflict "Milestone has already been released")
    else .ok (withReleased now order milestoneId milestones)

def autoRelease : Except Billing.Failure MarketplaceOrder := do
  assertStatus order [.delivered] "auto-release"
  match order.autoReleaseAt with
  | none => .error (Billing.conflict "Order has no auto-release schedule")
  | some autoReleaseAt =>
    Billing.validate (autoReleaseAt ≤ now) "Inspection window has not elapsed yet"
    return paidOut now order

def raiseDispute (raisedBy reason : String) : Except Billing.Failure MarketplaceOrder := do
  assertStatus order [.funded, .shipped, .delivered, .partiallyReleased] "dispute"
  if raisedBy ∉ [order.buyerId, order.sellerId] then
    .error (Billing.forbidden "Only the buyer or seller can raise a dispute")
  else
    return { order with
      status := .disputed, dispute := some ⟨raisedBy, reason, now, none, none, none⟩
      updatedAt := now }

/-- What a resolution leaves to the platform, to the buyer and to the seller. -/
structure Shares where
  platformFee : ℚ
  buyerRefund : ℚ
  sellerPayout : ℚ

def buyerPercentOf (input : ResolveDisputeInput) : ℚ := input.buyerPercent.getD 50

def shares (input : ResolveDisputeInput) : Except Billing.Failure Shares :=
  match input.resolution with
  | .buyer => return ⟨0, order.amount, 0⟩
  | .seller => return ⟨order.platformFee, 0, round (order.amount - order.platformFee)⟩
  | .split => do
    let buyerPercent := buyerPercentOf input
    Billing.validate (0 ≤ buyerPercent ∧ buyerPercent ≤ 100)
      "buyerPercent must be between 0 and 100"
    let distributable := round (order.amount - order.platformFee)
    let buyerRefund := round (distributable * buyerPercent / 100)
    return ⟨order.platformFee, buyerRefund, round (distributable - buyerRefund)⟩

def Resolution.status : Resolution → MarketplaceOrderStatus
  | .buyer => .refunded
  | .seller => .released
  | .split => .partiallyReleased

def resolved (input : ResolveDisputeInput) (shares : Shares) : MarketplaceOrder :=
  { order with
    platformFee := shares.platformFee
    refundedAmount := shares.buyerRefund
    sellerPayout := shares.sellerPayout
    dispute := order.dispute.map fun dispute => { dispute with
      resolution := some input.resolution
      buyerPercent := if input.resolution = .split then some (buyerPercentOf input) else none
      resolvedAt := some now }
    status := input.resolution.status
    refundedAt := if input.resolution = .buyer then some now else order.refundedAt
    releasedAt := some now
    updatedAt := now }

def resolveDispute (input : ResolveDisputeInput) : Except Billing.Failure MarketplaceOrder := do
  assertStatus order [.disputed] "resolve"
  Billing.validate (input.approvedBy ≠ "") "approvedBy is required"
  let shares ← shares order input
  return resolved now order input shares

def refund : Except Billing.Failure MarketplaceOrder := do
  assertStatus order [.funded, .shipped, .delivered] "refund"
  return { order with
    status := .refunded, platformFee := 0, sellerPayout := 0, refundedAmount := order.amount
    refundedAt := some now, updatedAt := now }

def cancelOrder : Except Billing.Failure MarketplaceOrder := do
  assertStatus order [.created] "cancel"
  return { order with status := .cancelled, cancelledAt := some now, updatedAt := now }

/-! ## The service -/

/-- What a call on an order returns, and what it leaves of the order. -/
abbrev Left := Except Failure MarketplaceOrder × MarketplaceOrder

/-- A call that writes nothing before it throws. -/
def whole : Except Billing.Failure MarketplaceOrder → Left
  | .error failure => (.error (.service failure), order)
  | .ok changed => (.ok changed, changed)

/-- The order is delivered before the end of the inspection is known to be a date. -/
def markDelivered : Left :=
  match assertStatus order [.shipped] "deliver" with
  | .error failure => (.error (.service failure), order)
  | .ok () =>
    let delivered := { order with status := .delivered, deliveredAt := some now }
    match toIsoString (now + order.inspectionPeriodMs) with
    | .error message => (.error (.thrown message), delivered)
    | .ok autoReleaseAt =>
      let delivered := { delivered with autoReleaseAt := some autoReleaseAt, updatedAt := now }
      (.ok delivered, delivered)

def perform : Operation → Left
  | .fundOrder txHash => whole order (fundOrder now order txHash)
  | .markShipped trackingInfo => whole order (markShipped now order trackingInfo)
  | .markDelivered => markDelivered now order
  | .release => whole order (release now order)
  | .releaseMilestone milestoneId => whole order (releaseMilestone now order milestoneId)
  | .autoRelease => whole order (autoRelease now order)
  | .raiseDispute raisedBy reason => whole order (raiseDispute now order raisedBy reason)
  | .resolveDispute input => whole order (resolveDispute now order input)
  | .refund _ => whole order (refund now order)
  | .cancelOrder => whole order (cancelOrder now order)

/-- What a call checks before it looks for the order. -/
def precheck : Operation → Except Billing.Failure Unit
  | .fundOrder txHash => Billing.validate (txHash ≠ "") "txHash is required"
  | .raiseDispute raisedBy reason => do
    Billing.validate (raisedBy ≠ "") "raisedBy is required"
    Billing.validate (reason ≠ "") "reason is required"
  | .refund reason => Billing.validate (reason ≠ "") "Refund reason is required"
  | .markShipped _ | .markDelivered | .release | .releaseMilestone _ | .autoRelease
  | .resolveDispute _ | .cancelOrder => return ()

def createOrder (told : Told) (input : CreateOrderInput) (s : Orders) :
    Except Failure MarketplaceOrder × Orders :=
  match newOrder told input with
  | .error failure => (.error (.service failure), s)
  | .ok order => (.ok order, s.set order)

def change (id : OrderId) (operation : Operation) (s : Orders) :
    Except Failure MarketplaceOrder × Orders :=
  match precheck operation with
  | .error failure => (.error (.service failure), s)
  | .ok () =>
    match s.get id with
    | none => (.error (.service (Billing.notFound "Marketplace order" id)), s)
    | some order => ((perform now order operation).1, s.set (perform now order operation).2)

/-- One call. An identifier that is not new is no call. -/
def service : System (Call × Told) Orders Unit (Except Failure MarketplaceOrder)
  | (.createOrder input, told), s =>
    if s.get (orderId told input) = none then .ok (createOrder told input s) else .error ()
  | (.change id operation, told), s => .ok (change told.now id operation s)

end MarketplaceEscrow
