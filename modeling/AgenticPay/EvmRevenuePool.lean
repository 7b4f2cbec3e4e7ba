import AgenticPay.Evm
import AgenticPay.IndexedArray
import AgenticPay.Reentrancy

/-!
# The revenue pool on the EVM

The recipients with their index, the functions, and what a call that pays has
left to do when the payment returns. The balance of the contract and the payments
it has made are kept beside the storage. A payment to the contract itself runs
its `receive`, and is credited when it returns.
-/
namespace EvmRevenuePool

open Evm Body Reentrancy IndexedArray

structure Recipient where
  wallet : Address
  ratioBps : Nat
  accumulated : Nat
  deriving DecidableEq, Repr

inductive Error where
  | notOwner | zeroAddress | invalidRatio | totalExceedsMax | belowThreshold | transferFailed
  deriving DecidableEq, Repr

inductive Event where
  | recipientAdded (recipient : Address) (ratioBps : Nat)
  | recipientRemoved (recipient : Address) (ratioBps accumulatedClaimed : Nat)
  | recipientRatioUpdated (recipient : Address) (oldRatioBps newRatioBps : Nat)
  | distributed (totalAmount : Nat)
  | claimed (recipient : Address) (amount : Nat)
  | thresholdUpdated (oldThreshold newThreshold : Nat)
  deriving DecidableEq, Repr

structure State where
  owner : Address
  recipients : List Recipient
  indexOf : Address → Nat
  totalShares : Nat
  minDistributionThreshold : Nat
  balance : Nat
  payments : List (Address × Nat)
  events : List Event

/-- What a call that pays does after its payment. -/
inductive Rest where
  | claimed (recipient : Address) (amount : Nat)
  | removed (recipient : Address) (ratio accrued : Nat)
  deriving DecidableEq, Repr

abbrev Fn (α : Type) := Body State Error α

/-- The constructor. -/
def deploy (owner : Address) : Except (Revert Error) State :=
  if owner = .zero then .error (.error .zeroAddress)
  else .ok
    { owner, recipients := [], indexOf := fun _ => 0, totalShares := 0,
      minDistributionThreshold := 0, balance := 0, payments := [], events := [] }

def emit (e : Event) : Fn Unit := write fun s => { s with events := s.events ++ [e] }

def onlyOwner : Fn Unit := do
  let msg ← message
  let owner ← read (·.owner)
  revertIf (msg.sender ≠ owner) .notOwner

/-- Ether that comes in with a call. -/
def credit (value : Nat) : Fn Unit := do
  let balance ← read (·.balance)
  let sum ← creditWord balance value
  write ({ · with balance := sum })

/-- `recipient.call{value: amount}("")`, up to the point where the recipient takes over. -/
def pay (recipient : Address) (amount : Nat) : Fn Unit := do
  let balance ← read (·.balance)
  revertIf (¬ amount ≤ balance) .transferFailed
  write fun s =>
    { s with balance := balance - amount, payments := s.payments ++ [(recipient, amount)] }

/-- `recipients[index]`. -/
def recipientAt (index : Nat) : Fn Recipient := do
  let recipients ← read (·.recipients)
  match recipients[index]? with
  | some r => return r
  | none => revert .panic

def addRecipient (recipient : Address) (ratioBps : Nat) : Fn (Option Rest) := do
  nonPayable
  onlyOwner
  revertIf (recipient = .zero) .zeroAddress
  revertIf (ratioBps = 0 ∨ ratioBps > 10000) .invalidRatio
  let indexOf ← read (·.indexOf)
  revertIf (indexOf recipient ≠ 0) .invalidRatio
  let totalShares ← read (·.totalShares)
  let newTotal := uncheckedAdd totalShares ratioBps
  revertIf (newTotal > 10000) .totalExceedsMax
  write fun s => { s with recipients := s.recipients ++ [⟨recipient, ratioBps, 0⟩] }
  write fun s => { s with indexOf := Function.update s.indexOf recipient s.recipients.length }
  write ({ · with totalShares := newTotal })
  emit (.recipientAdded recipient ratioBps)
  return none

/-- The swap with the last entry, unless it is the last one itself. -/
def swapLast (index idx lastIndex : Nat) : Fn Unit :=
  if index ≠ lastIndex then do
    let last ← recipientAt lastIndex
    write fun s => { s with recipients := s.recipients.set index last }
    write fun s => { s with indexOf := Function.update s.indexOf last.wallet idx }
  else pure ()

def removeRecipient (recipient : Address) : Fn (Option Rest) := do
  nonPayable
  onlyOwner
  let indexOf ← read (·.indexOf)
  let idx := indexOf recipient
  revertIf (idx = 0) .invalidRatio
  let length ← read (·.recipients.length)
  let index := uncheckedSub idx 1
  let lastIndex := uncheckedSub length 1
  let r ← recipientAt index
  swapLast index idx lastIndex
  write fun s => { s with recipients := s.recipients.dropLast }
  write fun s => { s with indexOf := Function.update s.indexOf recipient 0 }
  let totalShares ← read (·.totalShares)
  write ({ · with totalShares := uncheckedSub totalShares r.ratioBps })
  if r.accumulated > 0 then do
    -- the reference still points at this place of the array, whoever is there now
    write fun s =>
      { s with recipients := s.recipients.modify index ({ · with accumulated := 0 }) }
    pay recipient r.accumulated
    return some (.removed recipient r.ratioBps r.accumulated)
  else do
    emit (.recipientRemoved recipient r.ratioBps r.accumulated)
    return none

def updateRatio (recipient : Address) (newRatioBps : Nat) : Fn (Option Rest) := do
  nonPayable
  onlyOwner
  revertIf (newRatioBps = 0 ∨ newRatioBps > 10000) .invalidRatio
  let indexOf ← read (·.indexOf)
  let idx := indexOf recipient
  revertIf (idx = 0) .invalidRatio
  let r ← recipientAt (idx - 1)
  let totalShares ← read (·.totalShares)
  let newTotal :=
    if newRatioBps > r.ratioBps then uncheckedSub (uncheckedAdd totalShares newRatioBps) r.ratioBps
    else uncheckedSub totalShares (r.ratioBps - newRatioBps)
  revertIf (newTotal > 10000) .totalExceedsMax
  write fun s =>
    { s with recipients := s.recipients.modify (idx - 1) ({ · with ratioBps := newRatioBps }) }
  write ({ · with totalShares := newTotal })
  emit (.recipientRatioUpdated recipient r.ratioBps newRatioBps)
  return none

/-- One round of the loop of `_distribute`. -/
def accrue (amount : Nat) (r : Recipient) : Recipient :=
  let share := uncheckedMul amount r.ratioBps / 10000
  if share > 0 then { r with accumulated := uncheckedAdd r.accumulated share } else r

/-- `_distribute`, where `msg.value` is `amount`. -/
def distributeValue (amount : Nat) : Fn Unit := do
  revertIf (amount = 0) .belowThreshold
  let recipients ← read (·.recipients)
  revertIf (recipients.length = 0) .invalidRatio
  write ({ · with recipients := recipients.map (accrue amount) })
  emit (.distributed amount)

/-- `distribute` and `receive`. -/
def distribute : Fn (Option Rest) := do
  let msg ← message
  credit msg.value
  distributeValue msg.value
  return none

def claim : Fn (Option Rest) := do
  nonPayable
  let msg ← message
  let recipient := msg.sender
  let indexOf ← read (·.indexOf)
  let idx := indexOf recipient
  revertIf (idx = 0) .invalidRatio
  let r ← recipientAt (idx - 1)
  let threshold ← read (·.minDistributionThreshold)
  revertIf (r.accumulated < threshold) .belowThreshold
  write fun s =>
    { s with recipients := s.recipients.modify (idx - 1) ({ · with accumulated := 0 }) }
  pay recipient r.accumulated
  return some (.claimed recipient r.accumulated)

def setMinDistributionThreshold (threshold : Nat) : Fn (Option Rest) := do
  nonPayable
  onlyOwner
  let old ← read (·.minDistributionThreshold)
  write ({ · with minDistributionThreshold := threshold })
  emit (.thresholdUpdated old threshold)
  return none

def transferOwnership (newOwner : Address) : Fn (Option Rest) := do
  nonPayable
  onlyOwner
  revertIf (newOwner = .zero) .zeroAddress
  write ({ · with owner := newOwner })
  return none

/-- Ether that is forced on the contract, without a call. -/
def force : Fn (Option Rest) := do
  let msg ← message
  credit msg.value
  return none

/-- The payment has returned. If it went to the contract itself, `receive` has run. -/
def received (self recipient : Address) (amount : Nat) : Fn Unit :=
  if recipient = self then do
    credit amount
    distributeValue amount
  else pure ()

def finish (self : Address) : Rest → Fn Unit
  | .claimed recipient amount => do
    received self recipient amount
    emit (.claimed recipient amount)
  | .removed recipient ratio accrued => do
    received self recipient accrued
    emit (.claimed recipient accrued)
    emit (.recipientRemoved recipient ratio accrued)

inductive Function where
  | addRecipient (recipient : Address) (ratioBps : Nat)
  | removeRecipient (recipient : Address)
  | updateRatio (recipient : Address) (newRatioBps : Nat)
  | distribute
  | claim
  | setMinDistributionThreshold (threshold : Nat)
  | transferOwnership (newOwner : Address)
  | receive
  | force
  deriving DecidableEq, Repr

def body : Function → Fn (Option Rest)
  | .addRecipient recipient ratioBps => addRecipient recipient ratioBps
  | .removeRecipient recipient => removeRecipient recipient
  | .updateRatio recipient newRatioBps => updateRatio recipient newRatioBps
  | .distribute | .receive => distribute
  | .claim => claim
  | .setMinDistributionThreshold threshold => setMinDistributionThreshold threshold
  | .transferOwnership newOwner => transferOwnership newOwner
  | .force => force

structure Call where
  msg : Message
  function : Function
  deriving DecidableEq, Repr

/-- The contract at the address `self`. -/
def contract (self : Address) : Reentrancy.Contract Call State Rest (Revert Error) where
  enter := fun c s => body c.function c.msg s
  resume := fun rest s =>
    match finish self rest ⟨self, 0, 0⟩ s with
    | .ok (_, s') => .ok s'
    | .error r => .error r

/-- `getAccumulated`. -/
def getAccumulated (s : State) (recipient : Address) : Nat :=
  if s.indexOf recipient = 0 then 0
  else ((s.recipients[s.indexOf recipient - 1]?).map (·.accumulated)).getD 0

end EvmRevenuePool
