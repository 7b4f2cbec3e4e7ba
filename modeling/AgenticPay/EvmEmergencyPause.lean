import AgenticPay.Evm
import AgenticPay.ExternalCalls

/-!
# The emergency pause of proxies on the EVM

Requests that guardians approve until a proxy is put on its pause stub, and the two ways in
which a pause ends. The implementations of the proxies are kept beside the storage, with the
request that has put a proxy on its stub, the implementation a proxy had before a pause, and
the history of the pauses. A proxy that is told to upgrade sets its implementation and may
then call back.
-/
namespace EvmEmergencyPause

open Evm Body ExternalCalls

structure PauseRecord where
  proxy : Address
  previousImplementation : Address
  pauseImplementation : Address
  activatedAt : Nat
  expiresAt : Nat
  active : Bool
  approvalCount : Nat
  deriving DecidableEq

/-- What the mapping holds where nothing has been stored. -/
def PauseRecord.blank : PauseRecord := ⟨.zero, .zero, .zero, 0, 0, false, 0⟩

inductive Event where
  | pauseRequested (pauseId : Nat) (proxy requester : Address)
  | pauseApproved (pauseId : Nat) (guardian : Address)
  | pauseActivated (pauseId : Nat) (proxy : Address) (expiresAt : Nat)
  | pauseResumed (pauseId : Nat) (proxy : Address)
  | pauseExpired (pauseId : Nat) (proxy : Address)
  | guardianUpdated (guardian : Address) (active : Bool)
  deriving DecidableEq

inductive Error where
  | notAdmin
  | notGuardian
  | zeroAddress
  | pauseNotFound
  | alreadyApproved
  | pauseNotActive
  | pauseAlreadyExpired
  deriving DecidableEq, Repr

/-- A proxy is put on the stub of a request, it is put back when the pause is resumed, or the
pause is marked as expired; with the implementation that the proxy has then. -/
inductive Entry where
  | paused (pauseId time : Nat)
  | restored (pauseId : Nat) (implementation : Address)
  | expired (pauseId : Nat) (implementation : Address)
  deriving DecidableEq, Repr

structure State where
  threshold : Nat
  admin : Address
  guardians : Address → Bool
  pauseCount : Nat
  pauseRecords : Nat → PauseRecord
  hasGuardianApproved : Nat → Address → Bool
  implementation : Address → Address
  /-- The request that has put a proxy on the implementation that it has. -/
  placedBy : Address → Option Nat
  /-- The implementation that the proxy had when the pause was activated last. -/
  before : Nat → Address
  history : List Entry
  events : List Event

/-- What a call does after the upgrade. -/
inductive Rest where
  | activate (pauseId : Nat)
  | resume (pauseId : Nat)
  deriving DecidableEq, Repr

abbrev Fn (α : Type) := Body State Error α

def maxPauseDuration : Nat := 7 * 86400

/-- The constructor, with the implementations that the proxies start with. -/
def deploy (sender : Address) (threshold : Nat) (guardians : List Address)
    (implementation : Address → Address) : State :=
  { threshold, admin := sender, guardians := fun a => decide (a ∈ guardians), pauseCount := 0,
    pauseRecords := fun _ => .blank, hasGuardianApproved := fun _ _ => false, implementation,
    placedBy := fun _ => none, before := fun _ => .zero, history := [], events := [] }

def emit (e : Event) : Fn Unit := write fun s => { s with events := s.events ++ [e] }

def log (e : Entry) : Fn Unit := write fun s => { s with history := s.history ++ [e] }

def onlyAdmin : Fn Unit := do
  let msg ← message
  let admin ← read (·.admin)
  revertIf (msg.sender ≠ admin) .notAdmin

def onlyGuardian : Fn Unit := do
  let msg ← message
  let guardian ← read (·.guardians msg.sender)
  revertIf (¬ guardian = true) .notGuardian

def store (pauseId : Nat) (pr : PauseRecord) : Fn Unit :=
  write fun s => { s with pauseRecords := Function.update s.pauseRecords pauseId pr }

/-- `upgradeTo` of a proxy, for the pause of a request or for something else. -/
def upgradeTo (proxy newImplementation : Address) (pauser : Option Nat) : Fn Unit :=
  write fun s =>
    { s with
      implementation := Function.update s.implementation proxy newImplementation
      placedBy := Function.update s.placedBy proxy pauser }

/-- `_activatePause`, up to the call of the proxy. -/
def activatePause (pauseId : Nat) (previousImpl : Address) : Fn (Option Rest) := do
  let msg ← message
  let pr ← read (·.pauseRecords pauseId)
  let expiresAt ← addWord msg.timestamp maxPauseDuration
  store pauseId
    { pr with
      active := true
      activatedAt := msg.timestamp
      expiresAt
      previousImplementation :=
        if pr.previousImplementation = .zero then previousImpl else pr.previousImplementation }
  let implementation ← read (·.implementation pr.proxy)
  write fun s => { s with before := Function.update s.before pauseId implementation }
  log (.paused pauseId msg.timestamp)
  upgradeTo pr.proxy pr.pauseImplementation (some pauseId)
  return some (.activate pauseId)

def requestPause (proxy pauseImplementation : Address) : Fn (Option Rest) := do
  nonPayable
  onlyGuardian
  revertIf (proxy = .zero ∨ pauseImplementation = .zero) .zeroAddress
  let pauseId ← read (·.pauseCount)
  let pauseCount ← addWord pauseId 1
  write ({ · with pauseCount })
  store pauseId
    { proxy, previousImplementation := .zero, pauseImplementation, activatedAt := 0,
      expiresAt := 0, active := false, approvalCount := 1 }
  let msg ← message
  write fun s =>
    { s with
      hasGuardianApproved := Function.update s.hasGuardianApproved pauseId
        (Function.update (s.hasGuardianApproved pauseId) msg.sender true) }
  emit (.pauseRequested pauseId proxy msg.sender)
  let threshold ← read (·.threshold)
  if 1 ≥ threshold then activatePause pauseId .zero else return none

def approvePause (pauseId : Nat) (previousImplementation : Address) : Fn (Option Rest) := do
  nonPayable
  onlyGuardian
  let pr ← read (·.pauseRecords pauseId)
  revertIf (pr.proxy = .zero) .pauseNotFound
  let msg ← message
  let approved ← read (·.hasGuardianApproved pauseId msg.sender)
  revertIf (approved = true) .alreadyApproved
  write fun s =>
    { s with
      hasGuardianApproved := Function.update s.hasGuardianApproved pauseId
        (Function.update (s.hasGuardianApproved pauseId) msg.sender true) }
  let approvalCount ← addWord pr.approvalCount 1
  let previous :=
    if pr.previousImplementation = .zero ∧ previousImplementation ≠ .zero then
      previousImplementation
    else pr.previousImplementation
  store pauseId { pr with approvalCount, previousImplementation := previous }
  emit (.pauseApproved pauseId msg.sender)
  let threshold ← read (·.threshold)
  if approvalCount ≥ threshold ∧ pr.active = false then activatePause pauseId previous
  else return none

/-- The call of the proxy in `resume`. -/
def swapBack (pauseId : Nat) (pr : PauseRecord) : Fn (Option Rest) := do
  upgradeTo pr.proxy pr.previousImplementation none
  log (.restored pauseId pr.previousImplementation)
  return some (.resume pauseId)

/-- `resume`, up to the call of the proxy. -/
def resume (pauseId : Nat) : Fn (Option Rest) := do
  nonPayable
  onlyAdmin
  let pr ← read (·.pauseRecords pauseId)
  revertIf (pr.proxy = .zero) .pauseNotFound
  revertIf (pr.active = false) .pauseNotActive
  let msg ← message
  if msg.timestamp ≥ pr.expiresAt then do
    store pauseId { pr with active := false }
    emit (.pauseExpired pauseId pr.proxy)
    swapBack pauseId pr
  else swapBack pauseId pr

def checkExpired (pauseId : Nat) : Fn (Option Rest) := do
  nonPayable
  let pr ← read (·.pauseRecords pauseId)
  revertIf (pr.active = false) .pauseNotActive
  let msg ← message
  revertIf (msg.timestamp < pr.expiresAt) .pauseAlreadyExpired
  store pauseId { pr with active := false }
  let implementation ← read (·.implementation pr.proxy)
  log (.expired pauseId implementation)
  emit (.pauseExpired pauseId pr.proxy)
  return none

def setGuardian (guardian : Address) (active : Bool) : Fn (Option Rest) := do
  nonPayable
  onlyAdmin
  revertIf (guardian = .zero) .zeroAddress
  write fun s => { s with guardians := Function.update s.guardians guardian active }
  emit (.guardianUpdated guardian active)
  return none

/-- Somebody else upgrades a proxy. No proxy is upgraded to the address zero. -/
def upgrade (proxy newImplementation : Address) : Fn (Option Rest) := do
  revertIf (newImplementation = .zero) .zeroAddress
  upgradeTo proxy newImplementation none
  return none

/-- What a call does when the proxy has answered. -/
def finish (rest : Rest) (ok : Bool) : Fn (Option Rest) :=
  match rest with
  | .activate pauseId => do
    require (ok = true) "Pause upgrade failed"
    let pr ← read (·.pauseRecords pauseId)
    emit (.pauseActivated pauseId pr.proxy pr.expiresAt)
    return none
  | .resume pauseId => do
    require (ok = true) "Resume upgrade failed"
    let pr ← read (·.pauseRecords pauseId)
    store pauseId { pr with active := false }
    emit (.pauseResumed pauseId pr.proxy)
    return none

/-- `isPauseActive`, at a time. -/
def isPauseActive (s : State) (pauseId time : Nat) : Bool :=
  (s.pauseRecords pauseId).active && decide (time < (s.pauseRecords pauseId).expiresAt)

inductive Function where
  | requestPause (proxy pauseImplementation : Address)
  | approvePause (pauseId : Nat) (previousImplementation : Address)
  | resume (pauseId : Nat)
  | checkExpired (pauseId : Nat)
  | setGuardian (guardian : Address) (active : Bool)
  | upgrade (proxy newImplementation : Address)
  deriving DecidableEq

def body : Function → Fn (Option Rest)
  | .requestPause proxy pauseImplementation => requestPause proxy pauseImplementation
  | .approvePause pauseId previousImplementation => approvePause pauseId previousImplementation
  | .resume pauseId => resume pauseId
  | .checkExpired pauseId => checkExpired pauseId
  | .setGuardian guardian active => setGuardian guardian active
  | .upgrade proxy newImplementation => upgrade proxy newImplementation

structure Call where
  msg : Message
  function : Function
  deriving DecidableEq

/-- The contract. The answer of a proxy says whether it has done the upgrade. -/
def contract : ExternalCalls.Contract Call State Rest (Revert Error) Bool where
  enter := fun c s => body c.function c.msg s
  resume := fun rest ok s => finish rest ok ⟨.zero, 0, 0⟩ s
  undone := fun ok => !ok

end EvmEmergencyPause
