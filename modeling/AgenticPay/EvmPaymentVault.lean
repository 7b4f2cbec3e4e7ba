import AgenticPay.Evm
import AgenticPay.Reentrancy

/-!
# The payment vault on the EVM

Vaults with milestones, the calls that pay out of them, and what such a call has
left to do when the payment returns. What the contract holds of each token and the
payments it has made out of each vault are kept beside the storage. Ether is the
token at the address zero.
-/
namespace EvmPaymentVault

open Evm Body Reentrancy

inductive VaultStatus where
  | pending | active | disputed | completed | refunded
  deriving DecidableEq, Repr

inductive MilestoneStatus where
  | pending | approved | released | expired | disputed
  deriving DecidableEq, Repr

structure Milestone where
  name : String
  amountBps : UInt16
  deadline : Nat
  approver : Address
  status : MilestoneStatus
  deriving DecidableEq

structure Vault where
  depositor : Address
  recipient : Address
  totalAmount : Nat
  token : Address
  status : VaultStatus
  milestoneCount : Nat
  releasedAmount : Nat
  deriving DecidableEq, Repr

/-- What a mapping holds where nothing has been stored. -/
def Milestone.blank : Milestone := ⟨"", 0, 0, .zero, .pending⟩

def Vault.blank : Vault := ⟨.zero, .zero, 0, .zero, .pending, 0, 0⟩

inductive Event where
  | vaultCreated (vaultId : Nat) (depositor recipient : Address) (totalAmount : Nat)
      (token : Address)
  | milestoneApproved (vaultId milestoneIndex : Nat) (approver : Address)
  | milestoneReleased (vaultId milestoneIndex amount : Nat) (recipient : Address)
  | milestoneExpired (vaultId milestoneIndex : Nat)
  | vaultRefunded (vaultId amount : Nat) (depositor : Address)
  | disputeRaised (vaultId : Nat) (raisedBy : Address)
  | disputeResolved (vaultId : Nat) (releasedToRecipient : Bool)
  deriving DecidableEq, Repr

inductive Error where
  | vaultNotFound | milestoneNotFound | invalidBpsSum | emptyMilestones | unauthorized
  | invalidStatus | deadlineNotPassed | deadlinePassed | alreadyReleased | insufficientValue
  | transferFailed | zeroAddress
  deriving DecidableEq, Repr

structure Payment where
  vaultId : Nat
  token : Address
  recipient : Address
  amount : Nat
  deriving DecidableEq, Repr

/-- The vaults, and what the contract holds and has paid. -/
structure Books where
  vaultCount : Nat
  vaults : Nat → Vault
  milestones : Nat → Nat → Milestone
  balance : Address → Nat
  payments : List Payment

structure State extends Books where
  entered : Bool
  events : List Event

/-- The arguments of `createVault`. -/
structure VaultArgs where
  recipient : Address
  token : Address
  names : List String
  milestoneBps : List UInt16
  deadlines : List Nat
  approvers : List Address
  deriving DecidableEq

/-- What a call that hands control to a token or to a payee does afterwards. -/
inductive Rest where
  | create (args : VaultArgs) (depositor : Address) (totalAmount : Nat)
  | release (vaultId idx releaseAmount : Nat)
  | refund (vaultId remaining : Nat)
  | resolve (vaultId : Nat) (releaseToRecipient : Bool)
  deriving DecidableEq

abbrev Fn (α : Type) := Body State Error α

/-- The contract after its deployment. -/
def deployed : State :=
  { vaultCount := 0, vaults := fun _ => .blank, milestones := fun _ _ => .blank,
    balance := fun _ => 0, payments := [], entered := false, events := [] }

def emit (e : Event) : Fn Unit := write fun s => { s with events := s.events ++ [e] }

/-- `nonReentrant`, before the body. -/
def enterGuard : Fn Unit := do
  let entered ← read (·.entered)
  require (¬ entered) "ReentrancyGuard: reentrant call"
  write ({ · with entered := true })

/-- `nonReentrant`, after the body. -/
def leaveGuard : Fn Unit := write ({ · with entered := false })

def vaultExists (vaultId : Nat) : Fn Unit := do
  let vaultCount ← read (·.vaultCount)
  revertIf (vaultId ≥ vaultCount) .vaultNotFound

def onlyDepositor (vaultId : Nat) : Fn Unit := do
  let msg ← message
  let v ← read (·.vaults vaultId)
  revertIf (msg.sender ≠ v.depositor) .unauthorized

/-- An amount that the contract receives. -/
def credit (token : Address) (amount : Nat) : Fn Unit := do
  let balance ← read (·.balance token)
  let sum ← creditWord balance amount
  write fun s => { s with balance := Function.update s.balance token sum }

def modifyVault (vaultId : Nat) (f : Vault → Vault) : Fn Unit :=
  write fun s => { s with vaults := Function.update s.vaults vaultId (f (s.vaults vaultId)) }

def setMilestoneStatus (vaultId idx : Nat) (status : MilestoneStatus) : Fn Unit :=
  write fun s =>
    { s with
      milestones := Function.update s.milestones vaultId
        (Function.update (s.milestones vaultId) idx { s.milestones vaultId idx with status }) }

/-- The milestone at one place of the arguments. -/
def newMilestone (args : VaultArgs) (depositor : Address) (i : Nat) : Milestone :=
  let approver := args.approvers[i]?.getD .zero
  { name := args.names[i]?.getD ""
    amountBps := args.milestoneBps[i]?.getD 0
    deadline := args.deadlines[i]?.getD 0
    approver := if approver = .zero then depositor else approver
    status := .pending }

/-- The part of `createVault` after the deposit. No chain makes enough calls for the counter
to wrap around. -/
def addVault (args : VaultArgs) (depositor : Address) (totalAmount : Nat) : Fn Unit := do
  let vaultId ← read (·.vaultCount)
  write ({ · with vaultCount := vaultId + 1 })
  let n := args.milestoneBps.length
  modifyVault vaultId
    ({ · with
      depositor := depositor, recipient := args.recipient, totalAmount := totalAmount,
      token := args.token, status := .active, milestoneCount := n })
  write fun s =>
    { s with
      milestones := Function.update s.milestones vaultId fun i =>
        if i < n then newMilestone args depositor i else s.milestones vaultId i }
  emit (.vaultCreated vaultId depositor args.recipient totalAmount args.token)

/-- The last lines of `_releaseMilestone`. -/
def complete (vaultId : Nat) : Fn Unit := do
  let v ← read (·.vaults vaultId)
  if v.releasedAmount ≥ v.totalAmount then modifyVault vaultId ({ · with status := .completed })
  else pure ()

/-- What is done after control has come back. -/
def finish : Rest → Fn Unit
  | .create args depositor totalAmount => do
    credit args.token totalAmount
    addVault args depositor totalAmount
    leaveGuard
  | .release vaultId idx releaseAmount => do
    let v ← read (·.vaults vaultId)
    emit (.milestoneReleased vaultId idx releaseAmount v.recipient)
    complete vaultId
    leaveGuard
  | .refund vaultId remaining => do
    let v ← read (·.vaults vaultId)
    emit (.vaultRefunded vaultId remaining v.depositor)
    leaveGuard
  | .resolve vaultId releaseToRecipient => emit (.disputeResolved vaultId releaseToRecipient)

/-- A token reverts where the balance falls short. -/
def spend (balance amount : Nat) : Fn Unit := if amount ≤ balance then pure () else revert .funds

/-- The payment of `_transfer`, up to the point where the token or the payee takes over. Ether
that the contract sends to itself finds no `receive`; of another token it keeps what it sends
to itself. -/
def pay (self : Address) (vaultId : Nat) (token recipient : Address) (amount : Nat) : Fn Unit := do
  let balance ← read (·.balance token)
  revertIf (token = .zero ∧ (recipient = self ∨ ¬ amount ≤ balance)) .transferFailed
  spend balance amount
  write fun s =>
    { s with
      balance := if recipient = self then s.balance
        else Function.update s.balance token (balance - amount)
      payments := s.payments ++ [⟨vaultId, token, recipient, amount⟩] }

/-- `_transfer`, and what its caller does after it. -/
def transfer (self : Address) (vaultId : Nat) (token recipient : Address) (amount : Nat)
    (rest : Rest) : Fn (Option Rest) :=
  if amount = 0 then do
    finish rest
    return none
  else do
    pay self vaultId token recipient amount
    return some rest

/-- `createVault`, where the token answers the call of `allowance` with the given amount. -/
def createVault (args : VaultArgs) (allowance : Nat) : Fn (Option Rest) := do
  let msg ← message
  credit .zero msg.value
  decodeLength args.names.length
  decodeLength args.milestoneBps.length
  decodeLength args.deadlines.length
  decodeLength args.approvers.length
  enterGuard
  revertIf (args.recipient = .zero) .zeroAddress
  let n := args.milestoneBps.length
  revertIf (n = 0) .emptyMilestones
  revertIf (n ≠ args.deadlines.length ∨ n ≠ args.approvers.length ∨ n ≠ args.names.length)
    .invalidBpsSum
  let bpsSum := args.milestoneBps.foldl (fun sum bps => uncheckedAdd sum bps.toNat) 0
  revertIf (bpsSum ≠ 10000) .invalidBpsSum
  if args.token = .zero then do
    revertIf (msg.value = 0) .insufficientValue
    addVault args msg.sender msg.value
    leaveGuard
    return none
  else do
    revertIf (allowance = 0) .insufficientValue
    return some (.create args msg.sender allowance)

def releaseMilestone (self : Address) (vaultId idx : Nat) : Fn (Option Rest) := do
  let v ← read (·.vaults vaultId)
  let m ← read (·.milestones vaultId idx)
  let product ← mulWord v.totalAmount m.amountBps.toNat
  let releaseAmount := product / 10000
  modifyVault vaultId
    fun v => { v with releasedAmount := uncheckedAdd v.releasedAmount releaseAmount }
  setMilestoneStatus vaultId idx .released
  transfer self vaultId v.token v.recipient releaseAmount (.release vaultId idx releaseAmount)

def approveMilestone (self : Address) (vaultId idx : Nat) : Fn (Option Rest) := do
  nonPayable
  vaultExists vaultId
  enterGuard
  let v ← read (·.vaults vaultId)
  revertIf (v.status ≠ .active) .invalidStatus
  let m ← read (·.milestones vaultId idx)
  revertIf (idx ≥ v.milestoneCount) .milestoneNotFound
  revertIf (m.status ≠ .pending) .invalidStatus
  let msg ← message
  revertIf (msg.sender ≠ m.approver ∧ msg.sender ≠ v.depositor) .unauthorized
  revertIf (m.deadline ≠ 0 ∧ msg.timestamp > m.deadline) .deadlinePassed
  setMilestoneStatus vaultId idx .approved
  emit (.milestoneApproved vaultId idx msg.sender)
  releaseMilestone self vaultId idx

def releaseExpiredMilestone (self : Address) (vaultId idx : Nat) : Fn (Option Rest) := do
  nonPayable
  vaultExists vaultId
  enterGuard
  let v ← read (·.vaults vaultId)
  revertIf (v.status ≠ .active) .invalidStatus
  let m ← read (·.milestones vaultId idx)
  revertIf (idx ≥ v.milestoneCount) .milestoneNotFound
  revertIf (m.status ≠ .pending) .invalidStatus
  let msg ← message
  revertIf (m.deadline = 0 ∨ msg.timestamp ≤ m.deadline) .deadlineNotPassed
  setMilestoneStatus vaultId idx .expired
  emit (.milestoneExpired vaultId idx)
  releaseMilestone self vaultId idx

def refund (self : Address) (vaultId : Nat) : Fn (Option Rest) := do
  nonPayable
  vaultExists vaultId
  onlyDepositor vaultId
  enterGuard
  let v ← read (·.vaults vaultId)
  revertIf (v.status ≠ .active) .invalidStatus
  let milestones ← read (·.milestones vaultId)
  revertIf (∃ i < v.milestoneCount, (milestones i).status = .approved) .invalidStatus
  let remaining ← subWord v.totalAmount v.releasedAmount
  modifyVault vaultId ({ · with status := .refunded })
  transfer self vaultId v.token v.depositor remaining (.refund vaultId remaining)

def raiseDispute (vaultId : Nat) : Fn (Option Rest) := do
  nonPayable
  vaultExists vaultId
  let v ← read (·.vaults vaultId)
  revertIf (v.status ≠ .active) .invalidStatus
  let msg ← message
  revertIf (msg.sender ≠ v.depositor ∧ msg.sender ≠ v.recipient) .unauthorized
  modifyVault vaultId ({ · with status := .disputed })
  emit (.disputeRaised vaultId msg.sender)
  return none

def resolveDispute (self : Address) (vaultId : Nat) (releaseToRecipient : Bool) :
    Fn (Option Rest) := do
  nonPayable
  vaultExists vaultId
  let v ← read (·.vaults vaultId)
  revertIf (v.status ≠ .disputed) .invalidStatus
  let remaining ← subWord v.totalAmount v.releasedAmount
  if releaseToRecipient then do
    modifyVault vaultId ({ · with status := .completed })
    transfer self vaultId v.token v.recipient remaining (.resolve vaultId releaseToRecipient)
  else do
    modifyVault vaultId ({ · with status := .refunded })
    transfer self vaultId v.token v.depositor remaining (.resolve vaultId releaseToRecipient)

/-- An amount that is sent to the contract without a call of it. -/
def force (token : Address) (amount : Nat) : Fn (Option Rest) := do
  credit token amount
  return none

inductive Function where
  | createVault (args : VaultArgs) (allowance : Nat)
  | approveMilestone (vaultId idx : Nat)
  | releaseExpiredMilestone (vaultId idx : Nat)
  | refund (vaultId : Nat)
  | raiseDispute (vaultId : Nat)
  | resolveDispute (vaultId : Nat) (releaseToRecipient : Bool)
  | force (token : Address) (amount : Nat)
  deriving DecidableEq

def body (self : Address) : Function → Fn (Option Rest)
  | .createVault args allowance => createVault args allowance
  | .approveMilestone vaultId idx => approveMilestone self vaultId idx
  | .releaseExpiredMilestone vaultId idx => releaseExpiredMilestone self vaultId idx
  | .refund vaultId => refund self vaultId
  | .raiseDispute vaultId => raiseDispute vaultId
  | .resolveDispute vaultId releaseToRecipient => resolveDispute self vaultId releaseToRecipient
  | .force token amount => force token amount

structure Call where
  msg : Message
  function : Function
  deriving DecidableEq

/-- The contract at the address `self`. -/
def contract (self : Address) : Reentrancy.Contract Call State Rest (Revert Error) where
  enter := fun c s => body self c.function c.msg s
  resume := fun rest s =>
    match finish rest ⟨self, 0, 0⟩ s with
    | .ok (_, s') => .ok s'
    | .error r => .error r

end EvmPaymentVault
