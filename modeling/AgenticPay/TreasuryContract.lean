import AgenticPay.Records
import AgenticPay.Registry
import AgenticPay.Soroban

/-!
# The treasury contract

The configuration, the proposals with their vote maps, and the entry points. The
two vote maps of a proposal are maps of the host; their counters are fields of
their own.
-/
namespace TreasuryContract

open Soroban Contract Transaction KeyedMap

def maxSigners : Nat := 20
def minThreshold : Nat := 1
def maxTimelockSeconds : Nat := 604800
def minTimelockSeconds : Nat := 60
def highValueThreshold : Int := 100000000000

structure TreasuryConfig where
  signers : List Address
  threshold : Nat
  regularTimelock : Nat
  highValueTimelock : Nat
  highValueThreshold : Int
  emergencyCancelThreshold : Nat
  deriving DecidableEq, Repr

inductive ProposalStatus where
  | pending | approved | executed | rejected | cancelled | expired
  deriving DecidableEq, Repr

structure Proposal where
  id : Nat
  proposer : Address
  description : String
  target : Address
  amount : Int
  token : Option Address
  calldata : List UInt8
  status : ProposalStatus
  approvals : Map Address Bool
  rejections : Map Address Bool
  approvalCount : Nat
  rejectionCount : Nat
  createdAt : Nat
  timelockDelay : Nat
  executeAfter : Nat
  deriving DecidableEq

inductive TreasuryError where
  | alreadyInitialized | notInitialized | unauthorized | notSigner | proposalNotFound
  | invalidThreshold | invalidTimelock | tooManySigners | duplicateSigner
  | insufficientSigners | alreadyVoted | proposalNotPending | proposalNotApproved
  | timelockNotElapsed | alreadyExecuted | alreadyCancelled | notProposer
  | insufficientEmergencyApprovals | cannotExecutePending | minTimelockNotMet | feeTooHigh
  deriving DecidableEq, Repr

def TreasuryError.code : TreasuryError → Nat
  | .alreadyInitialized => 1
  | .notInitialized => 2
  | .unauthorized => 3
  | .notSigner => 4
  | .proposalNotFound => 5
  | .invalidThreshold => 6
  | .invalidTimelock => 7
  | .tooManySigners => 8
  | .duplicateSigner => 9
  | .insufficientSigners => 10
  | .alreadyVoted => 11
  | .proposalNotPending => 12
  | .proposalNotApproved => 13
  | .timelockNotElapsed => 14
  | .alreadyExecuted => 15
  | .alreadyCancelled => 16
  | .notProposer => 17
  | .insufficientEmergencyApprovals => 18
  | .cannotExecutePending => 19
  | .minTimelockNotMet => 20
  | .feeTooHigh => 21

structure Storage where
  admin : Option Address
  init : Option Bool
  config : Option TreasuryConfig
  proposalCount : Option Nat
  proposal : Nat → Option Proposal

inductive Event where
  | proposed (id : Nat) (proposer : Address) (amount : Int) (executeAfter : Nat)
  | approved (id : Nat) (signer : Address) (approvalCount : Nat)
  | rejected (id : Nat) (signer : Address)
  | executed (id : Nat) (target : Address)
  | cancelled (id : Nat) (caller : Address)
  | emergencyCancel (id : Nat) (caller : Address) (rejectionCount : Nat)
  deriving DecidableEq, Repr

abbrev World := Soroban.World Storage Event

abbrev Entry (α : Type) := Contract Storage Event α

def deployed : World where
  storage :=
    { admin := none, init := none, config := none, proposalCount := none,
      proposal := fun _ => none }
  events := []

/-- `set(&DataKey::Proposal(id), &proposal)`. -/
def Storage.putProposal (s : Storage) (id : Nat) (proposal : Proposal) : Storage :=
  { s with proposal := Function.update s.proposal id (some proposal) }

/-- The loop of `initialize` over the signers, with the signers seen so far. -/
def checkDistinct : List Address → Map Address Bool → Entry Unit
  | [], _ => pure ()
  | signer :: rest, seen => do
    ensure (signer ∉ seen) TreasuryError.duplicateSigner.code
    checkDistinct rest (seen.insert signer true)

/-- The entry point `initialize`, whose name is reserved here. -/
def initializeContract (admin : Address) (signers : List Address)
    (threshold regularTimelock highValueTimelock emergencyCancelThreshold : Nat) :
    Entry Unit := do
  let init ← read (·.init)
  ensure (init = none) TreasuryError.alreadyInitialized.code
  requireAuth admin
  let signerCount := signers.length
  ensure (¬ (signerCount < minThreshold ∨ signerCount > maxSigners))
    TreasuryError.tooManySigners.code
  ensure (¬ (threshold < minThreshold ∨ threshold > signerCount))
    TreasuryError.invalidThreshold.code
  ensure (¬ (emergencyCancelThreshold < threshold ∨ emergencyCancelThreshold > signerCount))
    TreasuryError.invalidThreshold.code
  ensure (¬ (regularTimelock < minTimelockSeconds ∨ regularTimelock > maxTimelockSeconds))
    TreasuryError.invalidTimelock.code
  ensure (¬ (highValueTimelock < minTimelockSeconds ∨ highValueTimelock > maxTimelockSeconds))
    TreasuryError.invalidTimelock.code
  ensure (¬ highValueTimelock < regularTimelock) TreasuryError.invalidTimelock.code
  checkDistinct signers ∅
  let config : TreasuryConfig :=
    { signers, threshold, regularTimelock, highValueTimelock, highValueThreshold,
      emergencyCancelThreshold }
  write ({ · with admin := some admin })
  write ({ · with config := some config })
  write ({ · with init := some true })
  write ({ · with proposalCount := some 0 })

def requireInitialized : Entry Unit := do
  let init ← read (·.init)
  ensure (init ≠ none) TreasuryError.notInitialized.code

/-- The private `_get_config`, which unwraps. -/
def readConfig : Entry TreasuryConfig := do
  let stored ← read (·.config)
  expect stored "called `Option::unwrap()` on a `None` value"

def findProposal (proposalId : Nat) : Entry Proposal := do
  let stored ← read (·.proposal proposalId)
  okOr stored TreasuryError.proposalNotFound.code

def admin : Entry Address := do
  let stored ← read (·.admin)
  okOr stored TreasuryError.notInitialized.code

def getConfig : Entry TreasuryConfig := do
  requireInitialized
  readConfig

def propose (proposer : Address) (description : String) (target : Address) (amount : Int)
    (token : Option Address) (calldata : List UInt8) : Entry Nat := do
  requireInitialized
  requireAuth proposer
  let config ← readConfig
  ensure (proposer ∈ config.signers) TreasuryError.notSigner.code
  let timelock := if amount ≥ config.highValueThreshold then config.highValueTimelock
    else config.regularTimelock
  let stored ← read (·.proposalCount.getD 0)
  let count ← addU64 stored 1
  let ledgerTime ← timestamp
  let executeAfter ← addU64 ledgerTime timelock
  let proposal : Proposal :=
    { id := count, proposer, description, target, amount, token, calldata,
      status := .pending, approvals := ∅, rejections := ∅, approvalCount := 0,
      rejectionCount := 0, createdAt := ledgerTime, timelockDelay := timelock, executeAfter }
  write (·.putProposal count proposal)
  write ({ · with proposalCount := some count })
  publish (.proposed count proposer amount executeAfter)
  return count

def approve (signer : Address) (proposalId : Nat) : Entry Unit := do
  requireInitialized
  requireAuth signer
  let config ← readConfig
  ensure (signer ∈ config.signers) TreasuryError.notSigner.code
  let mut proposal ← findProposal proposalId
  ensure (proposal.status = .pending) TreasuryError.proposalNotPending.code
  ensure (¬ (signer ∈ proposal.approvals ∨ signer ∈ proposal.rejections))
    TreasuryError.alreadyVoted.code
  let approvalCount ← addU32 proposal.approvalCount 1
  proposal := { proposal with approvals := proposal.approvals.insert signer true, approvalCount }
  if proposal.approvalCount ≥ config.threshold then
    proposal := { proposal with status := .approved }
  write (·.putProposal proposalId proposal)
  publish (.approved proposalId signer proposal.approvalCount)

def reject (signer : Address) (proposalId : Nat) : Entry Unit := do
  requireInitialized
  requireAuth signer
  let config ← readConfig
  ensure (signer ∈ config.signers) TreasuryError.notSigner.code
  let mut proposal ← findProposal proposalId
  ensure (proposal.status = .pending ∨ proposal.status = .approved)
    TreasuryError.proposalNotPending.code
  ensure (¬ (signer ∈ proposal.approvals ∨ signer ∈ proposal.rejections))
    TreasuryError.alreadyVoted.code
  let rejectionCount ← addU32 proposal.rejectionCount 1
  proposal := { proposal with rejections := proposal.rejections.insert signer true, rejectionCount }
  let remaining ← subU32 config.signers.length proposal.rejectionCount
  if remaining < config.threshold then
    proposal := { proposal with status := .rejected }
  write (·.putProposal proposalId proposal)
  publish (.rejected proposalId signer)

def execute (proposalId : Nat) : Entry Unit := do
  requireInitialized
  let proposal ← findProposal proposalId
  ensure (proposal.status = .approved) TreasuryError.proposalNotApproved.code
  let ledgerTime ← timestamp
  ensure (¬ ledgerTime < proposal.executeAfter) TreasuryError.timelockNotElapsed.code
  write (·.putProposal proposalId { proposal with status := .executed })
  publish (.executed proposalId proposal.target)

def cancel (caller : Address) (proposalId : Nat) : Entry Unit := do
  requireInitialized
  requireAuth caller
  let mut proposal ← findProposal proposalId
  ensure (proposal.status ≠ .executed) TreasuryError.alreadyExecuted.code
  ensure (proposal.status ≠ .cancelled) TreasuryError.alreadyCancelled.code
  let config ← readConfig
  if proposal.proposer = caller then
    proposal := { proposal with status := .cancelled }
  else if caller ∈ config.signers ∧ proposal.status = .pending then
    proposal := { proposal with status := .cancelled }
  else
    fail TreasuryError.unauthorized.code
  write (·.putProposal proposalId proposal)
  publish (.cancelled proposalId caller)

def emergencyCancel (caller : Address) (proposalId : Nat) : Entry Unit := do
  requireInitialized
  requireAuth caller
  let config ← readConfig
  ensure (caller ∈ config.signers) TreasuryError.notSigner.code
  let mut proposal ← findProposal proposalId
  ensure (proposal.status ≠ .executed) TreasuryError.alreadyExecuted.code
  let rejectionCount ← addU32 proposal.rejectionCount 1
  proposal := { proposal with rejections := proposal.rejections.insert caller true, rejectionCount }
  if proposal.rejectionCount ≥ config.emergencyCancelThreshold then
    proposal := { proposal with status := .cancelled }
  write (·.putProposal proposalId proposal)
  publish (.emergencyCancel proposalId caller proposal.rejectionCount)

def getProposal (proposalId : Nat) : Entry Proposal := findProposal proposalId

def getProposalCount : Entry Nat := read (·.proposalCount.getD 0)

def version : Entry Nat := pure 1

inductive Call where
  | initializeContract (admin : Address) (signers : List Address)
      (threshold regularTimelock highValueTimelock emergencyCancelThreshold : Nat)
  | admin
  | getConfig
  | propose (proposer : Address) (description : String) (target : Address) (amount : Int)
      (token : Option Address) (calldata : List UInt8)
  | approve (signer : Address) (proposalId : Nat)
  | reject (signer : Address) (proposalId : Nat)
  | execute (proposalId : Nat)
  | cancel (caller : Address) (proposalId : Nat)
  | emergencyCancel (caller : Address) (proposalId : Nat)
  | getProposal (proposalId : Nat)
  | getProposalCount
  | version
  deriving DecidableEq, Repr

inductive Ret where
  | unit
  | address (a : Address)
  | u32 (n : Nat)
  | u64 (n : Nat)
  | config (c : TreasuryConfig)
  | proposal (p : Proposal)
  deriving DecidableEq

def invoke : Call → Entry Ret
  | .initializeContract a signers threshold regularTimelock highValueTimelock
      emergencyCancelThreshold =>
    returning (fun _ => .unit) (initializeContract a signers threshold regularTimelock
      highValueTimelock emergencyCancelThreshold)
  | .admin => returning .address admin
  | .getConfig => returning .config getConfig
  | .propose proposer description target amount token calldata =>
    returning .u64 (propose proposer description target amount token calldata)
  | .approve signer proposalId => returning (fun _ => .unit) (approve signer proposalId)
  | .reject signer proposalId => returning (fun _ => .unit) (reject signer proposalId)
  | .execute proposalId => returning (fun _ => .unit) (execute proposalId)
  | .cancel caller proposalId => returning (fun _ => .unit) (cancel caller proposalId)
  | .emergencyCancel caller proposalId =>
    returning (fun _ => .unit) (emergencyCancel caller proposalId)
  | .getProposal proposalId => returning .proposal (getProposal proposalId)
  | .getProposalCount => returning .u64 getProposalCount
  | .version => returning .u32 version

def contract : System (Submission Call) World Trap Ret := system invoke

/-! ## What a returned call has done -/

def Call.isView : Call → Bool
  | .admin | .getConfig | .getProposal _ | .getProposalCount | .version => true
  | _ => false

/-- The timelock `propose` picks for an amount. -/
def TreasuryConfig.timelock (config : TreasuryConfig) (amount : Int) : Nat :=
  if amount ≥ config.highValueThreshold then config.highValueTimelock else config.regularTimelock

/-- The proposal `propose` stores. -/
def newProposal (config : TreasuryConfig) (now id : Nat) (proposer : Address)
    (description : String) (target : Address) (amount : Int) (token : Option Address)
    (calldata : List UInt8) : Proposal :=
  { id, proposer, description, target, amount, token, calldata, status := .pending,
    approvals := ∅, rejections := ∅, approvalCount := 0, rejectionCount := 0, createdAt := now,
    timelockDelay := config.timelock amount, executeAfter := now + config.timelock amount }

/-- The proposal `approve` stores. -/
def Proposal.approve (p : Proposal) (config : TreasuryConfig) (signer : Address) : Proposal :=
  { p with
    approvals := p.approvals.insert signer true
    approvalCount := p.approvalCount + 1
    status := if config.threshold ≤ p.approvalCount + 1 then .approved else p.status }

/-- The proposal `reject` stores. -/
def Proposal.reject (p : Proposal) (config : TreasuryConfig) (signer : Address) : Proposal :=
  { p with
    rejections := p.rejections.insert signer true
    rejectionCount := p.rejectionCount + 1
    status := if config.signers.length - (p.rejectionCount + 1) < config.threshold then .rejected
      else p.status }

/-- The proposal `emergency_cancel` stores. -/
def Proposal.emergencyCancel (p : Proposal) (config : TreasuryConfig) (caller : Address) :
    Proposal :=
  { p with
    rejections := p.rejections.insert caller true
    rejectionCount := p.rejectionCount + 1
    status := if config.emergencyCancelThreshold ≤ p.rejectionCount + 1 then .cancelled
      else p.status }

/-- The configurations `initialize` accepts. -/
structure TreasuryConfig.Valid (config : TreasuryConfig) : Prop where
  signers : minThreshold ≤ config.signers.length ∧ config.signers.length ≤ maxSigners
  distinct : config.signers.Nodup
  threshold : minThreshold ≤ config.threshold ∧ config.threshold ≤ config.signers.length
  emergency : config.threshold ≤ config.emergencyCancelThreshold ∧
    config.emergencyCancelThreshold ≤ config.signers.length
  regular : minTimelockSeconds ≤ config.regularTimelock ∧
    config.regularTimelock ≤ maxTimelockSeconds
  highValue : config.regularTimelock ≤ config.highValueTimelock ∧
    config.highValueTimelock ≤ maxTimelockSeconds

/-- The checks of `initialize`, in its order. -/
theorem TreasuryConfig.valid_iff {config : TreasuryConfig} :
    config.Valid ↔
      minThreshold ≤ config.signers.length ∧ config.signers.length ≤ maxSigners ∧
        minThreshold ≤ config.threshold ∧ config.threshold ≤ config.signers.length ∧
        config.threshold ≤ config.emergencyCancelThreshold ∧
        config.emergencyCancelThreshold ≤ config.signers.length ∧
        minTimelockSeconds ≤ config.regularTimelock ∧
        config.regularTimelock ≤ maxTimelockSeconds ∧
        minTimelockSeconds ≤ config.highValueTimelock ∧
        config.highValueTimelock ≤ maxTimelockSeconds ∧
        config.regularTimelock ≤ config.highValueTimelock ∧ config.signers.Nodup := by
  constructor
  · intro h
    exact ⟨h.signers.1, h.signers.2, h.threshold.1, h.threshold.2, h.emergency.1, h.emergency.2,
      h.regular.1, h.regular.2, h.regular.1.trans h.highValue.1, h.highValue.2, h.highValue.1,
      h.distinct⟩
  · rintro ⟨h1, h2, h3, h4, h5, h6, h7, h8, _, h10, h11, h12⟩
    exact ⟨⟨h1, h2⟩, h12, ⟨h3, h4⟩, ⟨h5, h6⟩, ⟨h7, h8⟩, ⟨h11, h10⟩⟩

/-- What an accepted call has checked, and the world it leaves. -/
inductive Step (env : Env) (w : World) : Call → World → Prop
  | viewed {call} (isView : call.isView = true) : Step env w call w
  | initialized {admin} {config : TreasuryConfig} (first : w.storage.init = none)
      (signed : admin ∈ env.auths) (valid : config.Valid)
      (fixed : config.highValueThreshold = highValueThreshold) :
      Step env w
        (.initializeContract admin config.signers config.threshold config.regularTimelock
          config.highValueTimelock config.emergencyCancelThreshold)
        { w with storage :=
            { w.storage with admin := some admin, config := some config, init := some true,
                             proposalCount := some 0 } }
  | proposed {proposer description target amount token calldata config id}
      (ready : w.storage.init ≠ none) (signed : proposer ∈ env.auths)
      (stored : w.storage.config = some config) (member : proposer ∈ config.signers)
      (next : id = w.storage.proposalCount.getD 0 + 1) (fits : id < u64Bound)
      (ends : env.timestamp + config.timelock amount < u64Bound) :
      Step env w (.propose proposer description target amount token calldata)
        ⟨{ w.storage.putProposal id (newProposal config env.timestamp id proposer description
            target amount token calldata) with proposalCount := some id },
          w.events ++ [.proposed id proposer amount (env.timestamp + config.timelock amount)]⟩
  | approved {signer id config p} (ready : w.storage.init ≠ none) (signed : signer ∈ env.auths)
      (stored : w.storage.config = some config) (member : signer ∈ config.signers)
      (found : w.storage.proposal id = some p) (pending : p.status = .pending)
      (fresh : signer ∉ p.approvals ∧ signer ∉ p.rejections)
      (fits : p.approvalCount + 1 < u32Bound) :
      Step env w (.approve signer id)
        ⟨w.storage.putProposal id (p.approve config signer),
          w.events ++ [.approved id signer (p.approvalCount + 1)]⟩
  | rejected {signer id config p} (ready : w.storage.init ≠ none) (signed : signer ∈ env.auths)
      (stored : w.storage.config = some config) (member : signer ∈ config.signers)
      (found : w.storage.proposal id = some p)
      (undecided : p.status = .pending ∨ p.status = .approved)
      (fresh : signer ∉ p.approvals ∧ signer ∉ p.rejections)
      (fits : p.rejectionCount + 1 < u32Bound)
      (room : p.rejectionCount + 1 ≤ config.signers.length) :
      Step env w (.reject signer id)
        ⟨w.storage.putProposal id (p.reject config signer), w.events ++ [.rejected id signer]⟩
  | executed {id p} (ready : w.storage.init ≠ none) (found : w.storage.proposal id = some p)
      (approved : p.status = .approved) (late : p.executeAfter ≤ env.timestamp) :
      Step env w (.execute id)
        ⟨w.storage.putProposal id { p with status := .executed },
          w.events ++ [.executed id p.target]⟩
  | cancelled {caller id config p} (ready : w.storage.init ≠ none) (signed : caller ∈ env.auths)
      (stored : w.storage.config = some config) (found : w.storage.proposal id = some p)
      (live : p.status ≠ .executed ∧ p.status ≠ .cancelled)
      (entitled : p.proposer = caller ∨ caller ∈ config.signers ∧ p.status = .pending) :
      Step env w (.cancel caller id)
        ⟨w.storage.putProposal id { p with status := .cancelled },
          w.events ++ [.cancelled id caller]⟩
  | emergencyCancelled {caller id config p} (ready : w.storage.init ≠ none)
      (signed : caller ∈ env.auths) (stored : w.storage.config = some config)
      (member : caller ∈ config.signers) (found : w.storage.proposal id = some p)
      (live : p.status ≠ .executed) (fits : p.rejectionCount + 1 < u32Bound) :
      Step env w (.emergencyCancel caller id)
        ⟨w.storage.putProposal id (p.emergencyCancel config caller),
          w.events ++ [.emergencyCancel id caller (p.rejectionCount + 1)]⟩

section Returns

variable {env : Env} {w w' : World} {u : Unit}

@[simp] theorem requireInitialized_ok :
    requireInitialized env w = .ok (u, w') ↔ w.storage.init ≠ none ∧ w = w' := by
  simp [requireInitialized, and_comm]

@[simp] theorem readConfig_ok {config : TreasuryConfig} :
    readConfig env w = .ok (config, w') ↔ w.storage.config = some config ∧ w = w' := by
  simp [readConfig]

@[simp] theorem findProposal_ok {id : Nat} {p : Proposal} :
    findProposal id env w = .ok (p, w') ↔ w.storage.proposal id = some p ∧ w = w' := by
  simp [findProposal]

/-- The loop over the signers passes exactly when no signer is listed twice. -/
theorem checkDistinct_ok {signers : List Address} {seen : Map Address Bool} :
    checkDistinct signers seen env w = .ok (u, w') ↔
      (signers.Nodup ∧ ∀ a ∈ signers, a ∉ seen) ∧ w = w' := by
  induction signers generalizing seen with
  | nil => simp [checkDistinct]
  | cons signer rest ih =>
    simp [checkDistinct, ih]
    constructor
    · rintro ⟨hsigner, ⟨hnodup, hrest⟩, rfl⟩
      exact ⟨⟨⟨fun hmem => (hrest _ hmem).1 rfl, hnodup⟩, hsigner, fun a ha => (hrest a ha).2⟩, rfl⟩
    · rintro ⟨⟨⟨hmem, hnodup⟩, hsigner, hrest⟩, rfl⟩
      exact ⟨hsigner, ⟨hnodup, fun a ha => ⟨fun he => hmem (he ▸ ha), hrest a ha⟩⟩, rfl⟩

theorem initializeContract_ok {a : Address} {signers : List Address}
    {threshold regularTimelock highValueTimelock emergencyCancelThreshold : Nat} :
    initializeContract a signers threshold regularTimelock highValueTimelock
        emergencyCancelThreshold env w = .ok (u, w') ↔
      ∃ config : TreasuryConfig,
        (⟨signers, threshold, regularTimelock, highValueTimelock, highValueThreshold,
          emergencyCancelThreshold⟩ : TreasuryConfig) = config ∧
        w.storage.init = none ∧ a ∈ env.auths ∧ config.Valid ∧
        (⟨{ w.storage with admin := some a, config := some config, init := some true,
                           proposalCount := some 0 }, w.events⟩ : World) = w' := by
  simp [initializeContract, checkDistinct_ok, TreasuryConfig.valid_iff, and_assoc]

theorem propose_ok {proposer : Address} {description : String} {target : Address} {amount : Int}
    {token : Option Address} {calldata : List UInt8} {id : Nat} :
    propose proposer description target amount token calldata env w = .ok (id, w') ↔
      w.storage.init ≠ none ∧ proposer ∈ env.auths ∧
      ∃ config, w.storage.config = some config ∧ proposer ∈ config.signers ∧
        id = w.storage.proposalCount.getD 0 + 1 ∧ id < u64Bound ∧
        env.timestamp + config.timelock amount < u64Bound ∧
        (⟨{ w.storage.putProposal id (newProposal config env.timestamp id proposer description
            target amount token calldata) with proposalCount := some id },
          w.events ++ [.proposed id proposer amount (env.timestamp + config.timelock amount)]⟩ :
            World) = w' := by
  simp [propose, newProposal, Storage.putProposal, TreasuryConfig.timelock, and_assoc]
  refine fun _ _ => exists_congr fun config => and_congr_right fun _ => and_congr_right fun _ => ?_
  constructor
  · rintro ⟨hfits, hends, rfl, hw⟩
    exact ⟨rfl, hfits, hends, hw⟩
  · rintro ⟨rfl, hfits, hends, hw⟩
    exact ⟨hfits, hends, rfl, hw⟩

theorem approve_ok {signer : Address} {id : Nat} :
    approve signer id env w = .ok (u, w') ↔
      w.storage.init ≠ none ∧ signer ∈ env.auths ∧
      ∃ config, w.storage.config = some config ∧ signer ∈ config.signers ∧
      ∃ p, w.storage.proposal id = some p ∧ p.status = .pending ∧
        (signer ∉ p.approvals ∧ signer ∉ p.rejections) ∧ p.approvalCount + 1 < u32Bound ∧
        (⟨w.storage.putProposal id (p.approve config signer),
          w.events ++ [.approved id signer (p.approvalCount + 1)]⟩ : World) = w' := by
  simp [approve, Proposal.approve, Storage.putProposal, and_assoc]
  refine fun _ _ => exists_congr fun config => and_congr_right fun _ => and_congr_right fun _ =>
    exists_congr fun p => ?_
  by_cases h : config.threshold ≤ p.approvalCount + 1
  · simp [h, Nat.not_lt.mpr h]
  · simp [h, Nat.not_le.mp h]

theorem reject_ok {signer : Address} {id : Nat} :
    reject signer id env w = .ok (u, w') ↔
      w.storage.init ≠ none ∧ signer ∈ env.auths ∧
      ∃ config, w.storage.config = some config ∧ signer ∈ config.signers ∧
      ∃ p, w.storage.proposal id = some p ∧ (p.status = .pending ∨ p.status = .approved) ∧
        (signer ∉ p.approvals ∧ signer ∉ p.rejections) ∧ p.rejectionCount + 1 < u32Bound ∧
        p.rejectionCount + 1 ≤ config.signers.length ∧
        (⟨w.storage.putProposal id (p.reject config signer),
          w.events ++ [.rejected id signer]⟩ : World) = w' := by
  simp [reject, Proposal.reject, Storage.putProposal, and_assoc]
  refine fun _ _ => exists_congr fun config => and_congr_right fun _ => and_congr_right fun _ =>
    exists_congr fun p => ?_
  by_cases h : config.signers.length - (p.rejectionCount + 1) < config.threshold
  · simp [h, Nat.not_le.mpr h]
  · simp [h, Nat.not_lt.mp h]

theorem execute_ok {id : Nat} :
    execute id env w = .ok (u, w') ↔
      w.storage.init ≠ none ∧ ∃ p, w.storage.proposal id = some p ∧ p.status = .approved ∧
        p.executeAfter ≤ env.timestamp ∧
        (⟨w.storage.putProposal id { p with status := .executed },
          w.events ++ [.executed id p.target]⟩ : World) = w' := by
  simp [execute, and_assoc]

theorem cancel_ok {caller : Address} {id : Nat} :
    cancel caller id env w = .ok (u, w') ↔
      w.storage.init ≠ none ∧ caller ∈ env.auths ∧ ∃ p, w.storage.proposal id = some p ∧
        (p.status ≠ .executed ∧ p.status ≠ .cancelled) ∧
        ∃ config, w.storage.config = some config ∧
        (p.proposer = caller ∨ caller ∈ config.signers ∧ p.status = .pending) ∧
        (⟨w.storage.putProposal id { p with status := .cancelled },
          w.events ++ [.cancelled id caller]⟩ : World) = w' := by
  simp [cancel, and_assoc]
  refine fun _ _ => exists_congr fun p => and_congr_right fun _ => and_congr_right fun _ =>
    and_congr_right fun _ => exists_congr fun config => and_congr_right fun _ => ?_
  by_cases h : p.proposer = caller
  · simp [h]
  · simp [h, and_assoc]

theorem emergencyCancel_ok {caller : Address} {id : Nat} :
    emergencyCancel caller id env w = .ok (u, w') ↔
      w.storage.init ≠ none ∧ caller ∈ env.auths ∧
      ∃ config, w.storage.config = some config ∧ caller ∈ config.signers ∧
      ∃ p, w.storage.proposal id = some p ∧ p.status ≠ .executed ∧
        p.rejectionCount + 1 < u32Bound ∧
        (⟨w.storage.putProposal id (p.emergencyCancel config caller),
          w.events ++ [.emergencyCancel id caller (p.rejectionCount + 1)]⟩ : World) = w' := by
  simp [emergencyCancel, Proposal.emergencyCancel, Storage.putProposal, and_assoc]
  refine fun _ _ => exists_congr fun config => and_congr_right fun _ => and_congr_right fun _ =>
    exists_congr fun p => ?_
  by_cases h : config.emergencyCancelThreshold ≤ p.rejectionCount + 1
  · simp [h, Nat.not_lt.mpr h]
  · simp [h, Nat.not_le.mp h]

/-- The inversion of the dispatcher: what returned is one of the listed steps. -/
theorem step_of_ok {call : Call} {r : Ret} (h : invoke call env w = .ok (r, w')) :
    Step env w call w' := by
  cases call with
  | initializeContract a signers threshold regular highValue emergency =>
    obtain ⟨_, ha, rfl⟩ := returning_ok.mp h
    obtain ⟨config, hconfig, hfirst, hs, hvalid, rfl⟩ := initializeContract_ok.mp ha
    subst hconfig
    exact .initialized hfirst hs hvalid rfl
  | admin =>
    obtain ⟨_, ha, rfl⟩ := returning_ok.mp h
    obtain rfl : w = w' := by simp [admin] at ha; exact ha.2
    exact .viewed rfl
  | getConfig =>
    obtain ⟨_, ha, rfl⟩ := returning_ok.mp h
    obtain ⟨_, _, hi, hc⟩ := bind_ok.mp ha
    obtain ⟨_, rfl⟩ := requireInitialized_ok.mp hi
    obtain ⟨_, rfl⟩ := readConfig_ok.mp hc
    exact .viewed rfl
  | propose proposer description target amount token calldata =>
    obtain ⟨_, ha, rfl⟩ := returning_ok.mp h
    obtain ⟨hready, hs, config, hc, hm, hn, hf, he, rfl⟩ := propose_ok.mp ha
    exact .proposed hready hs hc hm hn hf he
  | approve signer id =>
    obtain ⟨_, ha, rfl⟩ := returning_ok.mp h
    obtain ⟨hready, hs, config, hc, hm, p, hp, hpend, hfresh, hf, rfl⟩ := approve_ok.mp ha
    exact .approved hready hs hc hm hp hpend hfresh hf
  | reject signer id =>
    obtain ⟨_, ha, rfl⟩ := returning_ok.mp h
    obtain ⟨hready, hs, config, hc, hm, p, hp, hun, hfresh, hf, hr, rfl⟩ := reject_ok.mp ha
    exact .rejected hready hs hc hm hp hun hfresh hf hr
  | execute id =>
    obtain ⟨_, ha, rfl⟩ := returning_ok.mp h
    obtain ⟨hready, p, hp, happ, hlate, rfl⟩ := execute_ok.mp ha
    exact .executed hready hp happ hlate
  | cancel caller id =>
    obtain ⟨_, ha, rfl⟩ := returning_ok.mp h
    obtain ⟨hready, hs, p, hp, hlive, config, hc, hent, rfl⟩ := cancel_ok.mp ha
    exact .cancelled hready hs hc hp hlive hent
  | emergencyCancel caller id =>
    obtain ⟨_, ha, rfl⟩ := returning_ok.mp h
    obtain ⟨hready, hs, config, hc, hm, p, hp, hlive, hf, rfl⟩ := emergencyCancel_ok.mp ha
    exact .emergencyCancelled hready hs hc hm hp hlive hf
  | getProposal id =>
    obtain ⟨_, ha, rfl⟩ := returning_ok.mp h
    obtain ⟨_, rfl⟩ := findProposal_ok.mp ha
    exact .viewed rfl
  | getProposalCount =>
    obtain ⟨_, ha, rfl⟩ := returning_ok.mp h
    obtain ⟨_, rfl⟩ := read_ok.mp ha
    exact .viewed rfl
  | version =>
    obtain ⟨_, ha, rfl⟩ := returning_ok.mp h
    obtain ⟨_, rfl⟩ := pure_ok.mp ha
    exact .viewed rfl

/-- Every committed submission is a listed step, or trapped and changed nothing. -/
theorem commit_step (w : World) (i : Submission Call) :
    Step i.env w i.call (commit contract w i) ∨ commit contract w i = w := by
  obtain ⟨r, hr⟩ | he := system_cases invoke w i
  · exact .inl (step_of_ok hr)
  · exact .inr he

end Returns

end TreasuryContract
