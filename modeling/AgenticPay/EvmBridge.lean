import AgenticPay.Evm
import AgenticPay.ExternalCalls

/-!
# The hash-locked bridge on the EVM

Locks that are claimed with the preimage of their hash or refunded after their time, and the
transfers that a claim and a refund wait for. The ether of the contract and the settlements
are kept beside the storage. The hash is a parameter.
-/
namespace EvmBridge

open Evm Body ExternalCalls

abbrev Bytes32 := BitVec 256

structure Lock where
  sender : Address
  recipient : Address
  amount : Nat
  hashlock : Bytes32
  timelock : Nat
  claimed : Bool
  refunded : Bool
  disputeDeadline : Nat
  deriving DecidableEq

/-- What the mapping holds where nothing has been stored. -/
def Lock.blank : Lock := ⟨.zero, .zero, 0, 0, 0, false, false, 0⟩

inductive Event where
  | locked (lockId : Bytes32) (sender recipient : Address) (amount : Nat)
  | claimed (lockId secretHash : Bytes32)
  | refunded (lockId : Bytes32)
  | feeConfigUpdated (feeBps : UInt16) (feeCollector : Address)
  | disputed (lockId : Bytes32) (disputer : Address)
  | paused (account : Address)
  | unpaused (account : Address)
  | ownershipTransferred (previousOwner newOwner : Address)
  deriving DecidableEq

inductive Error where
  | invalidFee
  | invalidLock
  | alreadySettled
  | invalidSecret
  | timelockNotExpired
  | disputeWindowOpen
  | enforcedPause
  | expectedPause
  | ownableInvalidOwner (owner : Address)
  | ownableUnauthorizedAccount (account : Address)
  | reentrancyGuardReentrantCall
  deriving DecidableEq, Repr

/-- A claim, with its secret, or a refund. -/
structure Settlement where
  lockId : Bytes32
  secret : Option Bytes32
  time : Nat
  deriving DecidableEq

structure State where
  owner : Address
  paused : Bool
  entered : Bool
  locks : Bytes32 → Lock
  feeBps : UInt16
  feeCollector : Address
  balance : Nat
  settlements : List Settlement
  events : List Event

/-- What a call has left to do: `claim` after the payment of the recipient, with the fee, and
after the payment of the fee, and `refund` after its payment. -/
inductive Rest where
  | claim (lockId secret : Bytes32) (fee : Nat)
  | fee (lockId secret : Bytes32)
  | refund (lockId : Bytes32)
  deriving DecidableEq

abbrev Fn (α : Type) := Body State Error α

variable (keccak : Bytes32 → Bytes32) (address : Address)

/-- The constructor. -/
def deploy (owner feeCollector : Address) : Except (Revert Error) State :=
  if owner = .zero then .error (.error (.ownableInvalidOwner .zero))
  else .ok
    { owner, paused := false, entered := false, locks := fun _ => .blank, feeBps := 30,
      feeCollector, balance := 0, settlements := [],
      events := [.ownershipTransferred .zero owner] }

def emit (e : Event) : Fn Unit := write fun s => { s with events := s.events ++ [e] }

def onlyOwner : Fn Unit := do
  let msg ← message
  let owner ← read (·.owner)
  revertIf (owner ≠ msg.sender) (.ownableUnauthorizedAccount msg.sender)

def whenNotPaused : Fn Unit := do
  let paused ← read (·.paused)
  revertIf (paused = true) .enforcedPause

/-- `nonReentrant`, before the body. -/
def enterGuard : Fn Unit := do
  let entered ← read (·.entered)
  revertIf (entered = true) .reentrancyGuardReentrantCall
  write ({ · with entered := true })

/-- `nonReentrant`, after the body. -/
def leaveGuard : Fn Unit := write ({ · with entered := false })

def store (lockId : Bytes32) (l : Lock) : Fn Unit :=
  write fun s => { s with locks := Function.update s.locks lockId l }

/-- Ether that is sent with a call of another account. The contract has no `receive`, so it
cannot pay itself. -/
def pay (receiver : Address) (amount : Nat) (text : String) : Fn Unit := do
  let balance ← read (·.balance)
  require (amount ≤ balance ∧ receiver ≠ address) text
  write ({ · with balance := balance - amount })

def setFeeConfig (nextFeeBps : UInt16) (nextCollector : Address) : Fn (Option Rest) := do
  nonPayable
  onlyOwner
  revertIf (nextFeeBps > 1000) .invalidFee
  write ({ · with feeBps := nextFeeBps, feeCollector := nextCollector })
  emit (.feeConfigUpdated nextFeeBps nextCollector)
  return none

def lock (lockId : Bytes32) (recipient : Address) (hashlock : Bytes32)
    (timelock disputeWindowSeconds : Nat) : Fn (Option Rest) := do
  let msg ← message
  let balance ← read (·.balance)
  let balance ← creditWord balance msg.value
  write ({ · with balance })
  whenNotPaused
  enterGuard
  revertIf (msg.value = 0 ∨ recipient = .zero ∨ hashlock = 0 ∨ timelock ≤ msg.timestamp)
    .invalidLock
  let existing ← read (·.locks lockId)
  revertIf (existing.sender ≠ .zero) .invalidLock
  let disputeDeadline ← addWord msg.timestamp disputeWindowSeconds
  store lockId
    { sender := msg.sender, recipient, amount := msg.value, hashlock, timelock, claimed := false,
      refunded := false, disputeDeadline }
  emit (.locked lockId msg.sender recipient msg.value)
  leaveGuard
  return none

/-- The checks that `claim`, `refund` and `dispute` start with. -/
def getOpen (lockId : Bytes32) : Fn Lock := do
  let userLock ← read (·.locks lockId)
  revertIf (userLock.sender = .zero) .invalidLock
  revertIf (userLock.claimed = true ∨ userLock.refunded = true) .alreadySettled
  return userLock

/-- `claim`, up to the payment of the recipient. -/
def claim (lockId secret : Bytes32) : Fn (Option Rest) := do
  nonPayable
  whenNotPaused
  enterGuard
  let userLock ← getOpen lockId
  revertIf (keccak secret ≠ userLock.hashlock) .invalidSecret
  store lockId { userLock with claimed := true }
  let msg ← message
  write fun s =>
    { s with settlements := s.settlements ++ [⟨lockId, some secret, msg.timestamp⟩] }
  let feeBps ← read (·.feeBps)
  let product ← mulWord userLock.amount feeBps.toNat
  let fee := product / 10000
  let payout ← subWord userLock.amount fee
  pay address userLock.recipient payout "recipient transfer failed"
  return some (.claim lockId secret fee)

/-- `refund`, up to the payment of the sender. -/
def refund (lockId : Bytes32) : Fn (Option Rest) := do
  nonPayable
  whenNotPaused
  enterGuard
  let userLock ← getOpen lockId
  let msg ← message
  revertIf (msg.timestamp < userLock.timelock) .timelockNotExpired
  revertIf (msg.timestamp < userLock.disputeDeadline) .disputeWindowOpen
  store lockId { userLock with refunded := true }
  write fun s => { s with settlements := s.settlements ++ [⟨lockId, none, msg.timestamp⟩] }
  pay address userLock.sender userLock.amount "refund transfer failed"
  return some (.refund lockId)

def dispute (lockId : Bytes32) : Fn (Option Rest) := do
  nonPayable
  whenNotPaused
  let userLock ← getOpen lockId
  let msg ← message
  let disputeDeadline ← addWord msg.timestamp 86400
  store lockId { userLock with disputeDeadline }
  emit (.disputed lockId msg.sender)
  return none

def pause : Fn (Option Rest) := do
  nonPayable
  onlyOwner
  whenNotPaused
  write ({ · with paused := true })
  let msg ← message
  emit (.paused msg.sender)
  return none

def unpause : Fn (Option Rest) := do
  nonPayable
  onlyOwner
  let paused ← read (·.paused)
  revertIf (paused = false) .expectedPause
  write ({ · with paused := false })
  let msg ← message
  emit (.unpaused msg.sender)
  return none

def setOwner (newOwner : Address) : Fn (Option Rest) := do
  let owner ← read (·.owner)
  write ({ · with owner := newOwner })
  emit (.ownershipTransferred owner newOwner)
  return none

def transferOwnership (newOwner : Address) : Fn (Option Rest) := do
  nonPayable
  onlyOwner
  revertIf (newOwner = .zero) (.ownableInvalidOwner .zero)
  setOwner newOwner

def renounceOwnership : Fn (Option Rest) := do
  nonPayable
  onlyOwner
  setOwner .zero

/-- Ether that arrives without a call of the contract. -/
def force : Fn (Option Rest) := do
  let msg ← message
  let balance ← read (·.balance)
  let balance ← creditWord balance msg.value
  write ({ · with balance })
  return none

/-- The end of `claim`. -/
def finishClaim (lockId secret : Bytes32) : Fn (Option Rest) := do
  emit (.claimed lockId (keccak secret))
  leaveGuard
  return none

/-- What a call does when the payment that it waits for has been answered. -/
def finish (rest : Rest) (ok : Bool) : Fn (Option Rest) :=
  match rest with
  | .claim lockId secret fee => do
    require (ok = true) "recipient transfer failed"
    let feeCollector ← read (·.feeCollector)
    if fee > 0 ∧ feeCollector ≠ .zero then do
      pay address feeCollector fee "fee transfer failed"
      return some (.fee lockId secret)
    else finishClaim keccak lockId secret
  | .fee lockId secret => do
    require (ok = true) "fee transfer failed"
    finishClaim keccak lockId secret
  | .refund lockId => do
    require (ok = true) "refund transfer failed"
    emit (.refunded lockId)
    leaveGuard
    return none

inductive Function where
  | setFeeConfig (nextFeeBps : UInt16) (nextCollector : Address)
  | lock (lockId : Bytes32) (recipient : Address) (hashlock : Bytes32)
      (timelock disputeWindowSeconds : Nat)
  | claim (lockId secret : Bytes32)
  | refund (lockId : Bytes32)
  | dispute (lockId : Bytes32)
  | pause
  | unpause
  | transferOwnership (newOwner : Address)
  | renounceOwnership
  | force
  deriving DecidableEq

def body : Function → Fn (Option Rest)
  | .setFeeConfig nextFeeBps nextCollector => setFeeConfig nextFeeBps nextCollector
  | .lock lockId recipient hashlock timelock disputeWindowSeconds =>
    lock lockId recipient hashlock timelock disputeWindowSeconds
  | .claim lockId secret => claim keccak address lockId secret
  | .refund lockId => refund address lockId
  | .dispute lockId => dispute lockId
  | .pause => pause
  | .unpause => unpause
  | .transferOwnership newOwner => transferOwnership newOwner
  | .renounceOwnership => renounceOwnership
  | .force => force

structure Call where
  msg : Message
  function : Function
  deriving DecidableEq

/-- The bridge at the address `address`. The answer to a payment says whether it went through. -/
def contract : ExternalCalls.Contract Call State Rest (Revert Error) Bool where
  enter := fun c s => body keccak address c.function c.msg s
  resume := fun rest ok s => finish keccak address rest ok ⟨address, 0, 0⟩ s
  undone := fun ok => !ok

end EvmBridge
