import AgenticPay.Apportion
import AgenticPay.Evm
import AgenticPay.Transaction

/-!
# The splitter on the EVM

The settings, the split of a payment over the recipients, and the withdrawals. A
wallet that is paid either fails, or it accepts and may call back: the guard
keeps it out of the functions that pay, and the settings and `receive` are open to
it. What it has called comes with its answer. The balance of the contract and the
payments it has made are kept beside the storage. An upgrade is another contract.
-/
namespace EvmSplitter

open Evm Body

structure Recipient where
  wallet : Address
  bps : Nat
  minThreshold : Nat
  active : Bool
  deriving DecidableEq, Repr

inductive Event where
  | recipientConfigured (index : Nat) (wallet : Address) (bps minThreshold : Nat) (active : Bool)
  | platformFeeUpdated (feeBps : Nat)
  | paymentSplit (totalAmount platformFee distributedAmount : Nat)
  deriving DecidableEq, Repr

inductive Error where
  | invalidFee (bps : Nat)
  | invalidRecipient
  | invalidIndex (index : Nat)
  | noPayment
  | insufficientBalance (requested available : Nat)
  | transferFailed (dest : Address) (amount : Nat)
  | invalidInitialization
  | ownableUnauthorizedAccount (account : Address)
  | ownableInvalidOwner (owner : Address)
  | reentrantCall
  deriving DecidableEq, Repr

structure Store where
  initialized : Bool
  owner : Address
  platformFeeBps : Nat
  recipients : List Recipient
  events : List Event
  deriving DecidableEq, Repr

structure State extends Store where
  entered : Bool
  balance : Nat
  payments : List (Address × Nat)
  deriving DecidableEq, Repr

/-- The proxy before its initialisation. -/
def deployed : State :=
  { initialized := false, owner := .zero, platformFeeBps := 0, recipients := [], events := [],
    entered := false, balance := 0, payments := [] }

/-! ## The settings -/

abbrev StoreFn (α : Type) := Body Store Error α

def emit (e : Event) : StoreFn Unit := write fun t => { t with events := t.events ++ [e] }

def onlyOwner : StoreFn Unit := do
  let msg ← message
  let owner ← read (·.owner)
  revertIf (msg.sender ≠ owner) (.ownableUnauthorizedAccount msg.sender)

/-- The entry point `initialize`, whose name is reserved here. -/
def initializeContract (owner : Address) (initialFeeBps : Nat) : StoreFn Unit := do
  nonPayable
  let initialized ← read (·.initialized)
  revertIf (initialized = true) .invalidInitialization
  revertIf (initialFeeBps > 10000) (.invalidFee initialFeeBps)
  revertIf (owner = .zero) .invalidRecipient
  write fun t => { t with initialized := true, owner, platformFeeBps := initialFeeBps }
  emit (.platformFeeUpdated initialFeeBps)

def setPlatformFeeBps (feeBps : Nat) : StoreFn Unit := do
  nonPayable
  onlyOwner
  revertIf (feeBps > 10000) (.invalidFee feeBps)
  write ({ · with platformFeeBps := feeBps })
  emit (.platformFeeUpdated feeBps)

/-- The entry at `index` is replaced, or a new one is pushed. -/
def placeRecipient (index : Nat) (next : Recipient) : StoreFn Unit := do
  let length ← read (·.recipients.length)
  if index < length then write fun t => { t with recipients := t.recipients.set index next }
  else if index = length then write fun t => { t with recipients := t.recipients ++ [next] }
  else revert (.error (.invalidIndex index))

def setRecipient (index : Nat) (wallet : Address) (bps minThreshold : Nat) (active : Bool) :
    StoreFn Unit := do
  nonPayable
  onlyOwner
  revertIf (wallet = .zero) .invalidRecipient
  revertIf (bps > 10000) (.invalidFee bps)
  placeRecipient index ⟨wallet, bps, minThreshold, active⟩
  emit (.recipientConfigured index wallet bps minThreshold active)

def transferOwnership (newOwner : Address) : StoreFn Unit := do
  nonPayable
  onlyOwner
  revertIf (newOwner = .zero) (.ownableInvalidOwner newOwner)
  write ({ · with owner := newOwner })

def renounceOwnership : StoreFn Unit := do
  nonPayable
  onlyOwner
  write ({ · with owner := .zero })

inductive Setting where
  | initializeContract (owner : Address) (initialFeeBps : Nat)
  | setPlatformFeeBps (feeBps : Nat)
  | setRecipient (index : Nat) (wallet : Address) (bps minThreshold : Nat) (active : Bool)
  | transferOwnership (newOwner : Address)
  | renounceOwnership
  deriving DecidableEq, Repr

def Setting.body : Setting → StoreFn Unit
  | .initializeContract owner initialFeeBps => EvmSplitter.initializeContract owner initialFeeBps
  | .setPlatformFeeBps feeBps => EvmSplitter.setPlatformFeeBps feeBps
  | .setRecipient index wallet bps minThreshold active =>
    EvmSplitter.setRecipient index wallet bps minThreshold active
  | .transferOwnership newOwner => EvmSplitter.transferOwnership newOwner
  | .renounceOwnership => EvmSplitter.renounceOwnership

/-! ## What a wallet does while it is paid -/

inductive Reentry where
  | setting (msg : Message) (c : Setting)
  | receive (value : Nat)
  deriving DecidableEq, Repr

def Reentry.store : Reentry → Store → Store
  | .setting msg c, t =>
    match c.body msg t with
    | .ok (_, t') => t'
    | .error _ => t
  | .receive _, t => t

def Reentry.balance : Reentry → Nat → Nat
  | .setting _ _, b => b
  | .receive value, b => if b + value < wordBound then b + value else b

inductive Answer where
  | failed
  | accepted (calls : List Reentry)
  deriving DecidableEq, Repr

def Answer.store : Answer → Store → Store
  | .failed, t => t
  | .accepted calls, t => calls.foldl (fun t c => c.store t) t

def Answer.balance : Answer → Nat → Nat
  | .failed, b => b
  | .accepted calls, b => calls.foldl (fun b c => c.balance b) b

/-- The contract itself answers with its `receive`, which calls nobody. -/
def heard (self dest : Address) (a : Answer) : Answer := if dest = self then .accepted [] else a

/-! ## The functions that move ether -/

abbrev Fn (α : Type) := Body State Error α

/-- A function that leaves the balance alone. -/
def onStore (m : StoreFn Unit) : Fn Unit := fun msg s =>
  match m msg s.toStore with
  | .ok (u, t) => .ok (u, { s with toStore := t })
  | .error r => .error r

def enterGuard : Fn Unit := do
  let entered ← read (·.entered)
  revertIf (entered = true) .reentrantCall
  write ({ · with entered := true })

def leaveGuard : Fn Unit := write ({ · with entered := false })

def credit (value : Nat) : Fn Unit := do
  let balance ← read (·.balance)
  let sum ← creditWord balance value
  write ({ · with balance := sum })

/-- The balance once an amount has left for `dest`. -/
def debited (self dest : Address) (amount balance : Nat) : Nat :=
  if dest = self then balance else balance - amount

/-- `to.call{value: amount}("")`. -/
def pay (self dest : Address) (amount : Nat) (a : Answer) : Fn Unit := do
  let balance ← read (·.balance)
  revertIf (¬ amount ≤ balance ∨ heard self dest a = .failed) (.transferFailed dest amount)
  write fun s =>
    { s with
      balance := (heard self dest a).balance (debited self dest amount balance)
      payments := s.payments ++ [(dest, amount)] }
  write fun s => { s with toStore := (heard self dest a).store s.toStore }

/-- `recipients[i]`. -/
def recipientAt (i : Nat) : Fn Recipient := do
  let recipients ← read (·.recipients)
  match recipients[i]? with
  | some r => return r
  | none => revert .panic

/-- One round of the loop: what has been distributed after it. -/
def splitRound (self : Address) (distributable : Nat) (a : Answer) (i distributed : Nat) :
    Fn Nat := do
  let recipient ← recipientAt i
  if recipient.active = false ∨ recipient.bps = 0 then return distributed else do
  let product ← mulWord distributable recipient.bps
  let amount := product / 10000
  if amount < recipient.minThreshold then return distributed else do
  let distributed ← addWord distributed amount
  pay self recipient.wallet amount a
  return distributed

def splitRounds (self : Address) (distributable : Nat) (answers : Nat → Answer) :
    List Nat → Nat → Fn Nat
  | [], distributed => pure distributed
  | i :: rest, distributed => do
    let distributed ← splitRound self distributable (answers i) i distributed
    splitRounds self distributable answers rest distributed

/-- `_splitPayment`. -/
def splitValue (self : Address) (answers : Nat → Answer) : Fn Unit := do
  let msg ← message
  revertIf (msg.value = 0) .noPayment
  let platformFeeBps ← read (·.platformFeeBps)
  let product ← mulWord msg.value platformFeeBps
  let platformFee := product / 10000
  let distributable ← subWord msg.value platformFee
  let len ← read (·.recipients.length)
  let distributed ← splitRounds self distributable answers (List.range len) 0
  onStore (emit (.paymentSplit msg.value platformFee distributed))

/-- `splitPayment`, where `answers i` is the answer of the wallet in place `i`. -/
def splitPayment (self : Address) (answers : Nat → Answer) : Fn Unit := do
  let msg ← message
  credit msg.value
  enterGuard
  splitValue self answers
  leaveGuard

def withdraw (self dest : Address) (amount : Nat) (a : Answer) : Fn Unit := do
  nonPayable
  onStore onlyOwner
  enterGuard
  revertIf (dest = .zero) .invalidRecipient
  let available ← read (·.balance)
  revertIf (amount > available) (.insufficientBalance amount available)
  pay self dest amount a
  leaveGuard

def receive : Fn Unit := do
  let msg ← message
  credit msg.value

inductive Function where
  | setting (c : Setting)
  | splitPayment (answers : Nat → Answer)
  | withdraw (dest : Address) (amount : Nat) (a : Answer)
  | receive

def Function.body (self : Address) : Function → Fn Unit
  | .setting c => onStore c.body
  | .splitPayment answers => EvmSplitter.splitPayment self answers
  | .withdraw dest amount a => EvmSplitter.withdraw self dest amount a
  | .receive => EvmSplitter.receive

/-- The calls that come in while no other one is running. -/
def system (self : Address) : Transaction.System (Message × Function) State (Revert Error) Unit :=
  fun c s => c.2.body self c.1 s

end EvmSplitter
