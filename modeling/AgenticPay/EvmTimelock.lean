import AgenticPay.Evm
import AgenticPay.ExternalCalls

/-!
# The timelock controller on the EVM

Upgrades that are scheduled, approved and executed after a delay. Kept beside the storage: the
executions, the approvals that a proposal has been given since it was scheduled, and the
threshold that it has met. Approvals are recorded under the hash of the id and the approver;
the hash of two such pairs is the same only if they are.
-/
namespace EvmTimelock

open Evm Body ExternalCalls

inductive ProposalStatus where
  | pending | approved | executed | cancelled
  deriving DecidableEq, Repr

structure Proposal where
  target : Address
  newImplementation : Address
  data : List UInt8
  eta : Nat
  scheduledAt : Nat
  executedAt : Nat
  approvalCount : Nat
  status : ProposalStatus
  deriving DecidableEq

/-- What the mapping holds where nothing has been stored. -/
def Proposal.blank : Proposal := ⟨.zero, .zero, [], 0, 0, 0, 0, .pending⟩

/-- `keccak256(abi.encode(proposalId, approver))`. -/
structure ApprovalKey where
  proposalId : Nat
  approver : Address
  deriving DecidableEq

inductive Event where
  | proposalScheduled (proposalId : Nat) (target newImplementation : Address) (eta : Nat)
  | proposalApproved (proposalId : Nat) (approver : Address)
  | proposalExecuted (proposalId : Nat) (target : Address)
  | proposalCancelled (proposalId : Nat)
  | delayUpdated (oldDelay newDelay : Nat)
  | thresholdUpdated (oldThreshold newThreshold : Nat)
  | proposerUpdated (proposer : Address) (active : Bool)
  | approverUpdated (approver : Address) (active : Bool)
  deriving DecidableEq

inductive Error where
  | notAdmin
  | notProposer
  | notApprover
  | delayTooShort
  | zeroAddress
  | notReady
  | alreadyApproved
  | insufficientApprovals
  | invalidStatus
  | alreadyExecuted
  deriving DecidableEq, Repr

/-- An execution, with the threshold that was in force when the proposal was approved. -/
structure Execution where
  proposalId : Nat
  threshold : Nat
  time : Nat
  deriving DecidableEq, Repr

structure State where
  delay : Nat
  approvalThreshold : Nat
  admin : Address
  proposers : Address → Bool
  approvers : Address → Bool
  hasApproved : ApprovalKey → Bool
  proposalCount : Nat
  proposals : Nat → Proposal
  /-- The approvals of a proposal since it was scheduled. -/
  given : Nat → List Address
  /-- The threshold in force when a proposal was approved. -/
  metThreshold : Nat → Nat
  executions : List Execution
  events : List Event

/-- What `execute` does after the upgrade, and after the call with the data. -/
inductive Rest where
  | upgrade (proposalId : Nat) (hasData : Bool)
  | data (proposalId : Nat)
  deriving DecidableEq, Repr

abbrev Fn (α : Type) := Body State Error α

def minDelay : Nat := 48 * 3600

/-- The loops of the constructor: the accounts of a list are set in a mapping. -/
def enroll (accounts : List Address) (a : Address) : Bool := decide (a ∈ accounts)

/-- The constructor. -/
def deploy (sender : Address) (delay approvalThreshold : Nat) (proposers approvers : List Address) :
    Except (Revert Error) State :=
  if delay < minDelay then .error (.error .delayTooShort)
  else .ok
    { delay, approvalThreshold, admin := sender, proposers := enroll proposers,
      approvers := enroll approvers, hasApproved := fun _ => false, proposalCount := 0,
      proposals := fun _ => .blank, given := fun _ => [], metThreshold := fun _ => 0,
      executions := [], events := [] }

def emit (e : Event) : Fn Unit := write fun s => { s with events := s.events ++ [e] }

def onlyAdmin : Fn Unit := do
  let msg ← message
  let admin ← read (·.admin)
  revertIf (msg.sender ≠ admin) .notAdmin

def onlyProposer : Fn Unit := do
  let msg ← message
  let s ← read id
  revertIf (¬ s.proposers msg.sender = true ∧ msg.sender ≠ s.admin) .notProposer

def onlyApprover : Fn Unit := do
  let msg ← message
  let approver ← read (·.approvers msg.sender)
  revertIf (¬ approver = true) .notApprover

def store (proposalId : Nat) (p : Proposal) : Fn Unit :=
  write fun s => { s with proposals := Function.update s.proposals proposalId p }

def schedule (target newImplementation : Address) (data : List UInt8) : Fn (Option Rest) := do
  nonPayable
  onlyProposer
  revertIf (target = .zero ∨ newImplementation = .zero) .zeroAddress
  let proposalId ← read (·.proposalCount)
  let proposalCount ← addWord proposalId 1
  write ({ · with proposalCount })
  let msg ← message
  let delay ← read (·.delay)
  let eta ← addWord msg.timestamp delay
  store proposalId
    { target, newImplementation, data, eta, scheduledAt := msg.timestamp, executedAt := 0,
      approvalCount := 0, status := .pending }
  write fun s => { s with given := Function.update s.given proposalId [] }
  emit (.proposalScheduled proposalId target newImplementation eta)
  return none

def approve (proposalId : Nat) : Fn (Option Rest) := do
  nonPayable
  onlyApprover
  let p ← read (·.proposals proposalId)
  revertIf (p.status ≠ .pending) .invalidStatus
  let msg ← message
  let approved ← read (·.hasApproved ⟨proposalId, msg.sender⟩)
  revertIf (approved = true) .alreadyApproved
  write fun s =>
    { s with
      hasApproved := Function.update s.hasApproved ⟨proposalId, msg.sender⟩ true
      given := Function.update s.given proposalId (s.given proposalId ++ [msg.sender]) }
  let approvalCount ← addWord p.approvalCount 1
  let approvalThreshold ← read (·.approvalThreshold)
  if approvalCount ≥ approvalThreshold then do
    store proposalId { p with approvalCount, status := .approved }
    write fun s =>
      { s with metThreshold := Function.update s.metThreshold proposalId approvalThreshold }
    emit (.proposalApproved proposalId msg.sender)
    return none
  else do
    store proposalId { p with approvalCount }
    emit (.proposalApproved proposalId msg.sender)
    return none

/-- `execute`, up to the call of `upgradeTo`. -/
def execute (proposalId : Nat) : Fn (Option Rest) := do
  nonPayable
  let p ← read (·.proposals proposalId)
  revertIf (p.status ≠ .approved) .insufficientApprovals
  let msg ← message
  revertIf (msg.timestamp < p.eta) .notReady
  revertIf (p.executedAt ≠ 0) .alreadyExecuted
  store proposalId { p with status := .executed, executedAt := msg.timestamp }
  write fun s =>
    { s with
      executions :=
        s.executions ++ [⟨proposalId, s.metThreshold proposalId, msg.timestamp⟩] }
  return some (.upgrade proposalId (decide (p.data.length > 0)))

def cancel (proposalId : Nat) : Fn (Option Rest) := do
  nonPayable
  let p ← read (·.proposals proposalId)
  revertIf (p.status = .executed) .alreadyExecuted
  revertIf (p.status = .cancelled) .invalidStatus
  let msg ← message
  let s ← read id
  revertIf (msg.sender ≠ s.admin ∧ ¬ s.proposers msg.sender = true) .notProposer
  store proposalId { p with status := .cancelled }
  emit (.proposalCancelled proposalId)
  return none

def setDelay (newDelay : Nat) : Fn (Option Rest) := do
  nonPayable
  onlyAdmin
  revertIf (newDelay < minDelay) .delayTooShort
  let oldDelay ← read (·.delay)
  write ({ · with delay := newDelay })
  emit (.delayUpdated oldDelay newDelay)
  return none

def setThreshold (newThreshold : Nat) : Fn (Option Rest) := do
  nonPayable
  onlyAdmin
  let oldThreshold ← read (·.approvalThreshold)
  write ({ · with approvalThreshold := newThreshold })
  emit (.thresholdUpdated oldThreshold newThreshold)
  return none

def setProposer (proposer : Address) (active : Bool) : Fn (Option Rest) := do
  nonPayable
  onlyAdmin
  revertIf (proposer = .zero) .zeroAddress
  write fun s => { s with proposers := Function.update s.proposers proposer active }
  emit (.proposerUpdated proposer active)
  return none

def setApprover (approver : Address) (active : Bool) : Fn (Option Rest) := do
  nonPayable
  onlyAdmin
  revertIf (approver = .zero) .zeroAddress
  write fun s => { s with approvers := Function.update s.approvers approver active }
  emit (.approverUpdated approver active)
  return none

/-- The end of `execute`. -/
def finishExecute (proposalId : Nat) : Fn (Option Rest) := do
  let p ← read (·.proposals proposalId)
  emit (.proposalExecuted proposalId p.target)
  return none

/-- What `execute` does when the call that it waits for has been answered. -/
def finish (rest : Rest) (ok : Bool) : Fn (Option Rest) :=
  match rest with
  | .upgrade proposalId hasData => do
    require (ok = true) "Upgrade call failed"
    if hasData = true then return some (.data proposalId)
    else finishExecute proposalId
  | .data proposalId => do
    require (ok = true) "Data call failed"
    finishExecute proposalId

inductive Function where
  | schedule (target newImplementation : Address) (data : List UInt8)
  | approve (proposalId : Nat)
  | execute (proposalId : Nat)
  | cancel (proposalId : Nat)
  | setDelay (newDelay : Nat)
  | setThreshold (newThreshold : Nat)
  | setProposer (proposer : Address) (active : Bool)
  | setApprover (approver : Address) (active : Bool)
  deriving DecidableEq

def body : Function → Fn (Option Rest)
  | .schedule target newImplementation data => schedule target newImplementation data
  | .approve proposalId => approve proposalId
  | .execute proposalId => execute proposalId
  | .cancel proposalId => cancel proposalId
  | .setDelay newDelay => setDelay newDelay
  | .setThreshold newThreshold => setThreshold newThreshold
  | .setProposer proposer active => setProposer proposer active
  | .setApprover approver active => setApprover approver active

structure Call where
  msg : Message
  function : Function
  deriving DecidableEq

/-- The controller. The answer to a call says whether it went through. -/
def contract : ExternalCalls.Contract Call State Rest (Revert Error) Bool where
  enter := fun c s => body c.function c.msg s
  resume := fun rest ok s => finish rest ok ⟨.zero, 0, 0⟩ s
  undone := fun ok => !ok

end EvmTimelock
