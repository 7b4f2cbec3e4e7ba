import AgenticPay.Evm
import AgenticPay.ExternalCalls

/-!
# The treasury on the EVM

Proposals that the signers vote on, and that are executed after their timelock. The
executions and the ether of the contract are kept beside the storage. The target of a
proposal is any other code, and may call the treasury back.
-/
namespace EvmTreasury

open Evm Body ExternalCalls

structure TreasuryConfig where
  signers : List Address
  threshold : Nat
  regularTimelock : Nat
  highValueTimelock : Nat
  highValueThreshold : Nat
  emergencyCancelThreshold : Nat
  deriving DecidableEq

inductive ProposalStatus where
  | pending | approved | executed | rejected | cancelled | expired
  deriving DecidableEq, Repr

structure Proposal where
  id : Nat
  proposer : Address
  description : String
  target : Address
  amount : Nat
  token : Address
  data : List UInt8
  status : ProposalStatus
  approvalCount : Nat
  rejectionCount : Nat
  createdAt : Nat
  timelockDelay : Nat
  executeAfter : Nat
  deriving DecidableEq

/-- What the mapping holds where nothing has been stored. -/
def Proposal.blank : Proposal :=
  ⟨0, .zero, "", .zero, 0, .zero, [], .pending, 0, 0, 0, 0, 0⟩

inductive Event where
  | proposed (id : Nat) (proposer : Address) (amount executeAfter : Nat)
  | approved (id : Nat) (signer : Address) (approvalCount : Nat)
  | rejected (id : Nat) (signer : Address)
  | executed (id : Nat) (target : Address)
  | cancelled (id : Nat) (caller : Address)
  | emergencyCancelled (id : Nat) (signer : Address) (rejectionCount : Nat)
  deriving DecidableEq

inductive Error where
  | invalidSignerSet
  | duplicateSigner
  | invalidThreshold
  | invalidTimelock
  | notSigner
  | alreadyVoted
  | proposalNotPending
  | proposalNotApproved
  | timelockNotElapsed
  | alreadyExecuted
  | alreadyCancelled
  | notProposer
  | transferFailed
  | zeroAddress
  | reentrancyGuardReentrantCall
  deriving DecidableEq, Repr

structure Execution where
  id : Nat
  time : Nat
  deriving DecidableEq, Repr

structure State where
  config : TreasuryConfig
  proposalCount : Nat
  proposals : Nat → Proposal
  hasApproved : Nat → Address → Bool
  hasRejected : Nat → Address → Bool
  entered : Bool
  balance : Nat
  executions : List Execution
  events : List Event

/-- What `execute` does after the transfer. -/
inductive Rest where
  | execute (id : Nat) (target : Address)
  deriving DecidableEq, Repr

abbrev Fn (α : Type) := Body State Error α

/-- The loops of the constructor over the signers. -/
def checkSigners : List Address → Except (Revert Error) Unit
  | [] => .ok ()
  | signer :: rest =>
    if signer ∈ rest then .error (.error .duplicateSigner)
    else if signer = .zero then .error (.error .zeroAddress)
    else checkSigners rest

/-- The constructor. -/
def deploy (config : TreasuryConfig) : Except (Revert Error) State :=
  let n := config.signers.length
  if n = 0 ∨ n > 20 then .error (.error .invalidSignerSet)
  else if config.threshold = 0 ∨ config.threshold > n then .error (.error .invalidThreshold)
  else if config.emergencyCancelThreshold < config.threshold ∨
      config.emergencyCancelThreshold > n then
    .error (.error .invalidThreshold)
  else if config.regularTimelock < 60 ∨ config.regularTimelock > 7 * 86400 then
    .error (.error .invalidTimelock)
  else if config.highValueTimelock < 60 ∨ config.highValueTimelock > 7 * 86400 then
    .error (.error .invalidTimelock)
  else if config.highValueTimelock < config.regularTimelock then .error (.error .invalidTimelock)
  else do
    checkSigners config.signers
    return {
      config, proposalCount := 0, proposals := fun _ => .blank,
      hasApproved := fun _ _ => false, hasRejected := fun _ _ => false,
      entered := false, balance := 0, executions := [], events := [] }

def emit (e : Event) : Fn Unit := write fun s => { s with events := s.events ++ [e] }

/-- `nonReentrant`, before the body. -/
def enterGuard : Fn Unit := do
  let entered ← read (·.entered)
  revertIf (entered = true) .reentrancyGuardReentrantCall
  write ({ · with entered := true })

/-- `nonReentrant`, after the body. -/
def leaveGuard : Fn Unit := write ({ · with entered := false })

def store (id : Nat) (p : Proposal) : Fn Unit :=
  write fun s => { s with proposals := Function.update s.proposals id p }

/-- A mapping of mappings with one more account set under an id. -/
def record (votes : Nat → Address → Bool) (id : Nat) (account : Address) : Nat → Address → Bool :=
  Function.update votes id (Function.update (votes id) account true)

/-- `_isSigner`, as the check that the functions make of it. -/
def onlySigner : Fn Unit := do
  let msg ← message
  let signers ← read (·.config.signers)
  revertIf (msg.sender ∉ signers) .notSigner

def propose (description : String) (target : Address) (amount : Nat) (token : Address)
    (data : List UInt8) : Fn (Option Rest) := do
  nonPayable
  onlySigner
  let msg ← message
  let last ← read (·.proposalCount)
  let id ← addWord last 1
  write ({ · with proposalCount := id })
  let config ← read (·.config)
  let timelock :=
    if amount ≥ config.highValueThreshold then config.highValueTimelock else config.regularTimelock
  let executeAfter ← addWord msg.timestamp timelock
  store id
    { id, proposer := msg.sender, description, target, amount, token, data, status := .pending,
      approvalCount := 0, rejectionCount := 0, createdAt := msg.timestamp,
      timelockDelay := timelock, executeAfter }
  emit (.proposed id msg.sender amount executeAfter)
  return none

def approve (id : Nat) : Fn (Option Rest) := do
  nonPayable
  onlySigner
  let p ← read (·.proposals id)
  revertIf (p.id = 0) .proposalNotPending
  revertIf (p.status ≠ .pending) .proposalNotPending
  let msg ← message
  let approved ← read (·.hasApproved id msg.sender)
  let rejected ← read (·.hasRejected id msg.sender)
  revertIf (approved = true ∨ rejected = true) .alreadyVoted
  write fun s => { s with hasApproved := record s.hasApproved id msg.sender }
  let count ← addWord p.approvalCount 1
  let threshold ← read (·.config.threshold)
  store id
    { p with
      approvalCount := count
      status := if count ≥ threshold then .approved else p.status }
  emit (.approved id msg.sender count)
  return none

def reject (id : Nat) : Fn (Option Rest) := do
  nonPayable
  onlySigner
  let p ← read (·.proposals id)
  revertIf (p.id = 0) .proposalNotPending
  revertIf (p.status ≠ .pending ∧ p.status ≠ .approved) .proposalNotPending
  let msg ← message
  let approved ← read (·.hasApproved id msg.sender)
  let rejected ← read (·.hasRejected id msg.sender)
  revertIf (approved = true ∨ rejected = true) .alreadyVoted
  write fun s => { s with hasRejected := record s.hasRejected id msg.sender }
  let count ← addWord p.rejectionCount 1
  let config ← read (·.config)
  let remainingSigners ← subWord config.signers.length count
  store id
    { p with
      rejectionCount := count
      status := if remainingSigners < config.threshold then .rejected else p.status }
  emit (.rejected id msg.sender)
  return none

/-- `execute`, up to the point where the target or the token takes over. -/
def execute (id : Nat) : Fn (Option Rest) := do
  nonPayable
  enterGuard
  let p ← read (·.proposals id)
  revertIf (p.id = 0) .proposalNotApproved
  revertIf (p.status ≠ .approved) .proposalNotApproved
  let msg ← message
  revertIf (msg.timestamp < p.executeAfter) .timelockNotElapsed
  store id { p with status := .executed }
  write fun s => { s with executions := s.executions ++ [⟨id, msg.timestamp⟩] }
  if p.token = .zero then do
    let balance ← read (·.balance)
    revertIf (balance < p.amount) .transferFailed
    write ({ · with balance := balance - p.amount })
    return some (.execute id p.target)
  else return some (.execute id p.target)

def cancel (id : Nat) : Fn (Option Rest) := do
  nonPayable
  let p ← read (·.proposals id)
  revertIf (p.id = 0) .proposalNotPending
  revertIf (p.status = .executed) .alreadyExecuted
  revertIf (p.status = .cancelled) .alreadyCancelled
  let msg ← message
  let signers ← read (·.config.signers)
  revertIf
    (¬ (msg.sender = p.proposer ∨ msg.sender ∈ signers ∧ p.status = .pending)) .notProposer
  store id { p with status := .cancelled }
  emit (.cancelled id msg.sender)
  return none

def emergencyCancel (id : Nat) : Fn (Option Rest) := do
  nonPayable
  onlySigner
  let p ← read (·.proposals id)
  revertIf (p.id = 0) .proposalNotPending
  revertIf (p.status = .executed) .alreadyExecuted
  let msg ← message
  let rejected ← read (·.hasRejected id msg.sender)
  revertIf (rejected = true) .alreadyVoted
  write fun s => { s with hasRejected := record s.hasRejected id msg.sender }
  let count ← addWord p.rejectionCount 1
  let config ← read (·.config)
  store id
    { p with
      rejectionCount := count
      status := if count ≥ config.emergencyCancelThreshold then .cancelled else p.status }
  emit (.emergencyCancelled id msg.sender count)
  return none

def receive : Fn (Option Rest) := do
  let msg ← message
  let balance ← read (·.balance)
  let balance ← creditWord balance msg.value
  write ({ · with balance })
  return none

/-- What `execute` does after the transfer. -/
def finish : Rest → Fn (Option Rest)
  | .execute id target => do
    emit (.executed id target)
    leaveGuard
    return none

inductive Function where
  | propose (description : String) (target : Address) (amount : Nat) (token : Address)
      (data : List UInt8)
  | approve (id : Nat)
  | reject (id : Nat)
  | execute (id : Nat)
  | cancel (id : Nat)
  | emergencyCancel (id : Nat)
  | receive
  deriving DecidableEq

def body : Function → Fn (Option Rest)
  | .propose description target amount token data => propose description target amount token data
  | .approve id => approve id
  | .reject id => reject id
  | .execute id => execute id
  | .cancel id => cancel id
  | .emergencyCancel id => emergencyCancel id
  | .receive => receive

structure Call where
  msg : Message
  function : Function
  deriving DecidableEq

/-- The treasury. The answer to a transfer says whether it went through. -/
def contract : ExternalCalls.Contract Call State Rest (Revert Error) Bool where
  enter := fun c s => body c.function c.msg s
  resume := fun rest ok s =>
    if ok then finish rest ⟨.zero, 0, 0⟩ s else .error (.error .transferFailed)
  undone := fun ok => !ok

end EvmTreasury
