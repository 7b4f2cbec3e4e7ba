import AgenticPay.Calendar
import AgenticPay.Records
import AgenticPay.Transaction
import Mathlib.Algebra.Order.Ring.Rat
import Mathlib.Data.Finset.Card
import Mathlib.Data.Finset.Dedup

/-!
# Groups of signers and their proposals

The signers of a group vote on payments, and on changes of the group itself: who its signers are and
how many of them it takes. Left out are names, modes, amounts and metadata, which no call reads.
-/
namespace MultisigService

open Dates Records Transaction

abbrev GroupId := String
abbrev ProposalId := String

inductive MultisigGroupStatus where
  | active
  | inactive
  deriving DecidableEq

inductive MultisigProposalStatus where
  | pending
  | approved
  | executed
  | rejected
  | cancelled
  | expired
  deriving DecidableEq

inductive SignerChangeType where
  | addSigner
  | removeSigner
  | changeThreshold
  deriving DecidableEq

structure MultisigGroup where
  id : GroupId
  walletAddresses : List String
  threshold : ℚ
  createdAt : Int
  updatedAt : Int
  status : MultisigGroupStatus
  timeoutSeconds : Int  -- 0 means no timeout
  deriving DecidableEq

inductive ApprovalAction where
  | approved
  | rejected
  deriving DecidableEq

structure MultisigApproval where
  id : String
  proposalId : ProposalId
  signer : String
  signature : String
  action : ApprovalAction
  reason : Option String
  timestamp : Int
  deriving DecidableEq

structure MultisigProposal where
  id : ProposalId
  groupId : GroupId
  status : MultisigProposalStatus
  approvals : List MultisigApproval
  createdAt : Int
  updatedAt : Int
  executedAt : Option Int
  expiresAt : Option Int
  deriving DecidableEq

structure SignerChangeProposal where
  id : ProposalId
  groupId : GroupId
  type : SignerChangeType
  targetSigner : Option String
  newThreshold : Option ℚ
  proposerSigner : String
  approvals : List MultisigApproval
  status : MultisigProposalStatus
  createdAt : Int
  updatedAt : Int
  expiresAt : Option Int
  deriving DecidableEq

/-- What the host does with texts. -/
structure Host where
  trim : String → String
  toLowerCase : String → String

def Host.normalize (host : Host) (address : String) : String := host.toLowerCase (host.trim address)

structure State where
  groups : Table MultisigGroup.id
  proposals : Table MultisigProposal.id
  signerChangeProposals : Table SignerChangeProposal.id

def start : State := ⟨∅, ∅, ∅⟩

/-- The time, and the identifiers of a new record and of a new approval. -/
structure Told where
  now : Int
  uuid : String
  approvalUuid : String

structure CreateGroupInput where
  walletAddresses : List String
  threshold : ℚ
  timeoutSeconds : Option Int

structure ProposeSignerInput where
  groupId : GroupId
  type : SignerChangeType
  proposerSigner : String
  proposerSignature : String
  targetSigner : Option String
  newThreshold : Option ℚ
  timeoutSeconds : Option Int

inductive Call where
  | createGroup (input : CreateGroupInput)
  | updateGroup (groupId : GroupId) (timeoutSeconds : Option Int)
  | proposeSigner (input : ProposeSignerInput)
  | approveSignerProposal (proposalId : ProposalId) (signer signature : String)
  | createProposal (groupId : GroupId) (timeoutSeconds : Option Int)
  | getProposal (proposalId : ProposalId)
  | approveProposal (proposalId : ProposalId) (signer signature : String)
  | rejectProposal (proposalId : ProposalId) (signer signature : String) (reason : Option String)
  | cancelProposal (proposalId : ProposalId)
  | sweepExpiredProposals

inductive Response where
  | undefined
  | group (group : MultisigGroup)
  | proposal (proposal : MultisigProposal)
  | signerProposal (proposal : SignerChangeProposal)
  | error (text : String)
  | count (count : Nat)
  | threw (text : String)

abbrev Returned := Response × State

/-! ## Times and votes -/

def expiresAt (now timeoutSeconds : Int) : Except String (Option Int) :=
  if timeoutSeconds = 0 then .ok none
  else (toIsoString (now + timeoutSeconds * 1000)).map some

def isExpired (now : Int) (expiresAt : Option Int) : Bool := expiresAt.any (· < now)

def signers (approvals : List MultisigApproval) : List String := approvals.map (·.signer)

/-- Who has approved, in the order of the votes. -/
def approvers (approvals : List MultisigApproval) : List String :=
  signers (approvals.filter (·.action = .approved))

def newApproval (told : Told) (proposalId : ProposalId) (signer signature : String)
    (action : ApprovalAction) (reason : Option String) : MultisigApproval :=
  ⟨told.approvalUuid, proposalId, signer, signature, action, reason, told.now⟩

def findActive (groupId : GroupId) (s : State) : Option MultisigGroup :=
  (s.groups.get groupId).filter (·.status = .active)

variable (host : Host)

/-! ## Groups -/

def newGroup (told : Told) (input : CreateGroupInput) : MultisigGroup :=
  let normalized := (input.walletAddresses.map host.normalize).eraseDups
  { id := told.uuid
    walletAddresses := normalized
    threshold := min input.threshold normalized.length
    createdAt := told.now
    updatedAt := told.now
    status := .active
    timeoutSeconds := input.timeoutSeconds.getD 0 }

def createGroup (told : Told) (input : CreateGroupInput) (s : State) : Returned :=
  let group := newGroup host told input
  (.group group, { s with groups := s.groups.set group })

def updateGroup (now : Int) (groupId : GroupId) (timeoutSeconds : Option Int) (s : State) :
    Returned :=
  match s.groups.get groupId with
  | none => (.undefined, s)
  | some group =>
    let group :=
      { group with timeoutSeconds := timeoutSeconds.getD group.timeoutSeconds, updatedAt := now }
    (.group group, { s with groups := s.groups.set group })

/-! ## Changes of a group -/

/-- An address that is given and not the empty text. -/
def given (address : Option String) : Option String := address.filter (· ≠ "")

/-- What is refused of a change before it is proposed. -/
def refusal (input : ProposeSignerInput) (group : MultisigGroup) : Option String :=
  let target := (given input.targetSigner).map host.normalize
  match input.type with
  | .addSigner =>
    if target.any (· ∈ group.walletAddresses) then some "Address is already a signer" else none
  | .removeSigner =>
    if target.any (· ∉ group.walletAddresses) then some "Address is not a signer"
    else if target.isSome && (group.walletAddresses.length - 1 : ℚ) <
        input.newThreshold.getD group.threshold then
      some "Removing signer would make threshold unreachable"
    else none
  | .changeThreshold =>
    if input.newThreshold.any ((group.walletAddresses.length : ℚ) < ·) then
      some "New threshold exceeds number of signers"
    else none

/-- The group after a change of it is executed. -/
def changed (proposal : SignerChangeProposal) (group : MultisigGroup) : MultisigGroup :=
  match proposal.type, given proposal.targetSigner, proposal.newThreshold with
  | .addSigner, some target, _ =>
    if target ∈ group.walletAddresses then group
    else { group with walletAddresses := group.walletAddresses ++ [target] }
  | .removeSigner, some target, newThreshold =>
    let walletAddresses := group.walletAddresses.filter (· ≠ target)
    { group with
      walletAddresses
      threshold := min (newThreshold.getD group.threshold) walletAddresses.length }
  | .changeThreshold, _, some newThreshold =>
    { group with threshold := min newThreshold group.walletAddresses.length }
  | _, _, _ => group

/-- The pending payments of a group are marked as updated, and stay pending. -/
def invalidatePendingProposalsForGroup (now : Int) (groupId : GroupId) (s : State) : State :=
  { s with
    proposals := s.proposals.map
      (fun p =>
        if p.groupId ≠ groupId ∨ p.status ≠ .pending then p else { p with updatedAt := now })
      fun p => by split <;> rfl }

/-- A change is executed once it has as many approvals as the group asks for, and is stored. -/
def evaluateSignerProposal (now : Int) (proposal : SignerChangeProposal) (group : MultisigGroup)
    (s : State) : Returned :=
  if (approvers proposal.approvals).length < group.threshold then
    (.signerProposal proposal,
      { s with signerChangeProposals := s.signerChangeProposals.set proposal })
  else
    let proposal := { proposal with status := .executed, updatedAt := now }
    let s := if proposal.type = .removeSigner ∧ (given proposal.targetSigner).isSome then
      invalidatePendingProposalsForGroup now group.id s else s
    (.signerProposal proposal,
      { s with
        groups := s.groups.set { changed proposal group with updatedAt := now }
        signerChangeProposals := s.signerChangeProposals.set proposal })

def newSignerProposal (told : Told) (input : ProposeSignerInput) (expiresAt : Option Int) :
    SignerChangeProposal :=
  let proposer := host.normalize input.proposerSigner
  { id := told.uuid
    groupId := input.groupId
    type := input.type
    targetSigner := input.targetSigner.map host.normalize
    newThreshold := input.newThreshold
    proposerSigner := proposer
    approvals := [newApproval told told.uuid proposer input.proposerSignature .approved none]
    status := .pending
    createdAt := told.now
    updatedAt := told.now
    expiresAt }

def proposeSigner (told : Told) (input : ProposeSignerInput) (s : State) : Returned :=
  match findActive input.groupId s with
  | none => (.error "Group not found or inactive", s)
  | some group =>
    if host.normalize input.proposerSigner ∉ group.walletAddresses then
      (.error "Proposer is not a signer of this group", s)
    else
      match refusal host input group with
      | some text => (.error text, s)
      | none =>
        match expiresAt told.now (input.timeoutSeconds.getD group.timeoutSeconds) with
        | .error text => (.threw text, s)
        | .ok expiresAt =>
          evaluateSignerProposal told.now (newSignerProposal host told input expiresAt) group s

def expiresSigner (now : Int) (p : SignerChangeProposal) : Bool :=
  p.status = .pending && isExpired now p.expiresAt

def expiredSigner (now : Int) (p : SignerChangeProposal) : SignerChangeProposal :=
  { p with status := .expired, updatedAt := now }

def approveSignerProposal (told : Told) (proposalId : ProposalId) (signer signature : String)
    (s : State) : Returned :=
  match s.signerChangeProposals.get proposalId with
  | none => (.error "Proposal not found", s)
  | some proposal =>
    if proposal.status ≠ .pending then (.error "Proposal is no longer pending", s)
    else
      match findActive proposal.groupId s with
      | none => (.error "Group not found or inactive", s)
      | some group =>
        let normalized := host.normalize signer
        if isExpired told.now proposal.expiresAt then
          (.error "Proposal has expired",
            { s with
              signerChangeProposals :=
                s.signerChangeProposals.set (expiredSigner told.now proposal) })
        else if normalized ∉ group.walletAddresses then (.error "Not a signer of this group", s)
        else if normalized ∈ signers proposal.approvals then (.error "Already voted", s)
        else
          let approval := newApproval told proposalId normalized signature .approved none
          evaluateSignerProposal told.now
            { proposal with
              approvals := proposal.approvals ++ [approval], updatedAt := told.now } group s

/-! ## Payments -/

def createProposal (told : Told) (groupId : GroupId) (timeoutSeconds : Option Int) (s : State) :
    Returned :=
  match s.groups.get groupId with
  | none => (.undefined, s)
  | some group =>
    match expiresAt told.now (timeoutSeconds.getD group.timeoutSeconds) with
    | .error text => (.threw text, s)
    | .ok expiresAt =>
      let proposal : MultisigProposal := {
        id := told.uuid
        groupId
        status := .pending
        approvals := []
        createdAt := told.now
        updatedAt := told.now
        executedAt := none
        expiresAt }
      (.proposal proposal, { s with proposals := s.proposals.set proposal })

def expires (now : Int) (p : MultisigProposal) : Bool :=
  p.status = .pending && isExpired now p.expiresAt

def expired (now : Int) (p : MultisigProposal) : MultisigProposal :=
  { p with status := .expired, updatedAt := now }

def getProposal (now : Int) (proposalId : ProposalId) (s : State) : Returned :=
  match s.proposals.get proposalId with
  | none => (.undefined, s)
  | some p =>
    if expires now p then
      (.proposal (expired now p), { s with proposals := s.proposals.set (expired now p) })
    else (.proposal p, s)

/-- The group in which an address may vote on a payment that is pending. -/
def voting (signer : String) (p : MultisigProposal) (s : State) : Option MultisigGroup :=
  if p.status ≠ .pending then none
  else (findActive p.groupId s).filter (signer ∈ ·.walletAddresses)

def approved (told : Told) (signer signature : String) (group : MultisigGroup)
    (p : MultisigProposal) : MultisigProposal :=
  let approvals :=
    p.approvals ++ [newApproval told p.id signer signature .approved none]
  if group.threshold ≤ (approvers approvals).toFinset.card then
    { p with approvals, updatedAt := told.now, status := .executed, executedAt := some told.now }
  else { p with approvals, updatedAt := told.now }

def approveProposal (told : Told) (proposalId : ProposalId) (signer signature : String)
    (s : State) : Returned :=
  match s.proposals.get proposalId with
  | none => (.undefined, s)
  | some p =>
    if expires told.now p then
      (.undefined, { s with proposals := s.proposals.set (expired told.now p) })
    else
      let normalizedSigner := host.normalize signer
      match voting normalizedSigner p s with
      | none => (.undefined, s)
      | some group =>
        if normalizedSigner ∈ signers p.approvals then (.proposal p, s)
        else
          let p := approved told normalizedSigner signature group p
          (.proposal p, { s with proposals := s.proposals.set p })

def rejected (told : Told) (signer signature : String) (reason : Option String)
    (group : MultisigGroup) (p : MultisigProposal) : MultisigProposal :=
  let approvals :=
    p.approvals ++ [newApproval told p.id signer signature .rejected reason]
  let rejectedCount := (approvals.filter (·.action = .rejected)).length
  let blockingThreshold : ℚ := group.walletAddresses.length - group.threshold + 1
  { p with
    approvals, updatedAt := told.now
    status := if blockingThreshold ≤ rejectedCount then .rejected else p.status }

def rejectProposal (told : Told) (proposalId : ProposalId) (signer signature : String)
    (reason : Option String) (s : State) : Returned :=
  match s.proposals.get proposalId with
  | none => (.undefined, s)
  | some p =>
    let normalizedSigner := host.normalize signer
    match voting normalizedSigner p s with
    | none => (.undefined, s)
    | some group =>
      if normalizedSigner ∈ signers p.approvals then (.proposal p, s)
      else
        let p := rejected told normalizedSigner signature reason group p
        (.proposal p, { s with proposals := s.proposals.set p })

def cancelProposal (now : Int) (proposalId : ProposalId) (s : State) : Returned :=
  match (s.proposals.get proposalId).filter (·.status = .pending) with
  | none => (.undefined, s)
  | some p =>
    let p := { p with status := .cancelled, updatedAt := now }
    (.proposal p, { s with proposals := s.proposals.set p })

/-- Mark all that has expired. -/
def sweepExpiredProposals (now : Int) (s : State) : Returned :=
  (.count ((s.proposals.records.filter (expires now)).length +
      (s.signerChangeProposals.records.filter (expiresSigner now)).length),
    { s with
      proposals := s.proposals.map
        (fun p => if expires now p then expired now p else p) fun p => by split <;> rfl
      signerChangeProposals := s.signerChangeProposals.map
        (fun p => if expiresSigner now p then expiredSigner now p else p) fun p => by
          split <;> rfl })

/-- One call. An identifier that is not new is no call. -/
def service : System (Call × Told) State Unit Response
  | (.createGroup input, told), s =>
    if s.groups.get told.uuid = none then .ok (createGroup host told input s) else .error ()
  | (.updateGroup groupId timeoutSeconds, told), s =>
    .ok (updateGroup told.now groupId timeoutSeconds s)
  | (.proposeSigner input, told), s =>
    if s.signerChangeProposals.get told.uuid = none then .ok (proposeSigner host told input s)
    else .error ()
  | (.approveSignerProposal proposalId signer signature, told), s =>
    .ok (approveSignerProposal host told proposalId signer signature s)
  | (.createProposal groupId timeoutSeconds, told), s =>
    if s.proposals.get told.uuid = none then .ok (createProposal told groupId timeoutSeconds s)
    else .error ()
  | (.getProposal proposalId, told), s => .ok (getProposal told.now proposalId s)
  | (.approveProposal proposalId signer signature, told), s =>
    .ok (approveProposal host told proposalId signer signature s)
  | (.rejectProposal proposalId signer signature reason, told), s =>
    .ok (rejectProposal host told proposalId signer signature reason s)
  | (.cancelProposal proposalId, told), s => .ok (cancelProposal told.now proposalId s)
  | (.sweepExpiredProposals, told), s => .ok (sweepExpiredProposals told.now s)

end MultisigService
