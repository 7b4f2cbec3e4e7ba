import AgenticPay.Soroban
import Mathlib.Logic.Function.Basic

/-!
# The pause security contract

The pause state, the approvals of an unpause, and the entry points. A call takes
the reentrancy latch and releases it before it returns; a trap rolls it back.
-/
namespace PauseSecurityContract

open Soroban Contract Transaction

/-- 72 hours. -/
def maxUnpauseTimeout : Nat := 259200

structure Storage where
  admin : Option Address
  paused : Option Bool
  pausedAt : Option Nat
  unpauseTimeout : Option Nat
  guardian : Option Address
  unpauseSigners : Option (List Address)
  unpauseThreshold : Option Nat
  unpauseApprovalCount : Option Nat
  signerApproved : Address → Option Bool
  reentrancyLock : Option Bool

inductive Event where
  | active (guardian : Address) (now : Nat)
  | approve (signer : Address) (count threshold : Nat)
  | resume (signer : Address) (now : Nat)
  | timeout (now : Nat)
  | guard (newGuardian : Address)
  deriving DecidableEq, Repr

abbrev World := Soroban.World Storage Event

abbrev Entry (α : Type) := Contract Storage Event α

def deployed : World where
  storage :=
    { admin := none, paused := none, pausedAt := none, unpauseTimeout := none, guardian := none,
      unpauseSigners := none, unpauseThreshold := none, unpauseApprovalCount := none,
      signerApproved := fun _ => none, reentrancyLock := none }
  events := []

/-- `set(&PauseDataKey::SignerApproved(signer), &approved)`. -/
def Storage.putApproved (s : Storage) (signer : Address) (approved : Bool) : Storage :=
  { s with signerApproved := Function.update s.signerApproved signer (some approved) }

def acquireLock : Entry Unit := do
  let locked ← read (·.reentrancyLock.getD false)
  assert (¬ locked = true) "reentrant call"
  write ({ · with reentrancyLock := some true })

def releaseLock : Entry Unit := write ({ · with reentrancyLock := some false })

/-- The entry point `initialize`, whose name is reserved here. -/
def initializeContract (admin guardian : Address) (unpauseSigners : List Address)
    (threshold timeout : Nat) : Entry Unit := do
  requireAuth admin
  assert (timeout ≤ maxUnpauseTimeout) "timeout exceeds 72 hours"
  assert (threshold ≤ unpauseSigners.length) "threshold exceeds signer count"
  write ({ · with admin := some admin })
  write ({ · with guardian := some guardian })
  write ({ · with paused := some false })
  write ({ · with pausedAt := some 0 })
  write ({ · with unpauseTimeout := some timeout })
  write ({ · with unpauseSigners := some unpauseSigners })
  write ({ · with unpauseThreshold := some threshold })
  write ({ · with unpauseApprovalCount := some 0 })
  write ({ · with reentrancyLock := some false })

def isPaused : Entry Bool := do
  let paused ← read (·.paused.getD false)
  if ¬ paused = true then return false
  else do
    let timeout ← read (·.unpauseTimeout.getD 0)
    if timeout = 0 then return true
    else do
      let pausedAt ← read (·.pausedAt.getD 0)
      let now ← timestamp
      let deadline ← addU64 pausedAt timeout
      return decide (now < deadline)

def getPauseState : Entry (Bool × Nat × Nat × Nat × Nat) := do
  let paused ← isPaused
  let pausedAt ← read (·.pausedAt.getD 0)
  let timeout ← read (·.unpauseTimeout.getD 0)
  let approvalCount ← read (·.unpauseApprovalCount.getD 0)
  let threshold ← read (·.unpauseThreshold.getD 0)
  return (paused, pausedAt, timeout, approvalCount, threshold)

/-- The loop of `emergency_pause` over the signers. -/
def resetApprovals : List Address → Entry Unit
  | [] => pure ()
  | signer :: rest => do
    write (·.putApproved signer false)
    resetApprovals rest

def emergencyPause (guardian : Address) : Entry Unit := do
  requireAuth guardian
  acquireLock
  let stored ← read (·.guardian)
  let storedGuardian ← expect stored "Not initialized"
  assert (guardian = storedGuardian) "Only guardian can pause"
  let now ← timestamp
  write ({ · with paused := some true })
  write ({ · with pausedAt := some now })
  write ({ · with unpauseApprovalCount := some 0 })
  let signers ← read (·.unpauseSigners.getD [])
  resetApprovals signers
  publish (.active guardian now)
  releaseLock

def approveUnpause (signer : Address) : Entry Unit := do
  requireAuth signer
  acquireLock
  let paused ← isPaused
  assert (paused = true) "Contract is not paused"
  let signers ← read (·.unpauseSigners.getD [])
  assert (signer ∈ signers) "Not an unpause signer"
  let alreadyApproved ← read fun s => (s.signerApproved signer).getD false
  assert (¬ alreadyApproved = true) "Already approved unpause"
  write (·.putApproved signer true)
  let stored ← read (·.unpauseApprovalCount.getD 0)
  let count ← addU32 stored 1
  write ({ · with unpauseApprovalCount := some count })
  let threshold ← read (·.unpauseThreshold.getD 0)
  publish (.approve signer count threshold)
  if count ≥ threshold then do
    write ({ · with paused := some false })
    let now ← timestamp
    publish (.resume signer now)
  else pure ()
  releaseLock

def finalizeAutoUnpause : Entry Unit := do
  acquireLock
  let paused ← read (·.paused.getD false)
  assert (paused = true) "Contract is not paused"
  let timeout ← read (·.unpauseTimeout.getD 0)
  assert (timeout > 0) "No auto-unpause timeout configured"
  let pausedAt ← read (·.pausedAt.getD 0)
  let now ← timestamp
  let deadline ← addU64 pausedAt timeout
  assert (now ≥ deadline) "Timeout has not expired"
  write ({ · with paused := some false })
  publish (.timeout now)
  releaseLock

def setGuardian (admin newGuardian : Address) : Entry Unit := do
  requireAuth admin
  let stored ← read (·.admin)
  let storedAdmin ← expect stored "Not initialized"
  assert (admin = storedAdmin) "Only admin"
  write ({ · with guardian := some newGuardian })
  publish (.guard newGuardian)

def setUnpauseTimeout (admin : Address) (timeout : Nat) : Entry Unit := do
  requireAuth admin
  let stored ← read (·.admin)
  let storedAdmin ← expect stored "Not initialized"
  assert (admin = storedAdmin) "Only admin"
  assert (timeout ≤ maxUnpauseTimeout) "timeout exceeds 72 hours"
  write ({ · with unpauseTimeout := some timeout })

inductive Call where
  | initializeContract (admin guardian : Address) (unpauseSigners : List Address)
      (threshold timeout : Nat)
  | isPaused
  | getPauseState
  | emergencyPause (guardian : Address)
  | approveUnpause (signer : Address)
  | finalizeAutoUnpause
  | setGuardian (admin newGuardian : Address)
  | setUnpauseTimeout (admin : Address) (timeout : Nat)
  deriving DecidableEq, Repr

inductive Ret where
  | unit
  | bool (b : Bool)
  | pauseState (s : Bool × Nat × Nat × Nat × Nat)
  deriving DecidableEq, Repr

def invoke : Call → Entry Ret
  | .initializeContract admin guardian unpauseSigners threshold timeout =>
    returning (fun _ => .unit)
      (initializeContract admin guardian unpauseSigners threshold timeout)
  | .isPaused => returning .bool isPaused
  | .getPauseState => returning .pauseState getPauseState
  | .emergencyPause guardian => returning (fun _ => .unit) (emergencyPause guardian)
  | .approveUnpause signer => returning (fun _ => .unit) (approveUnpause signer)
  | .finalizeAutoUnpause => returning (fun _ => .unit) finalizeAutoUnpause
  | .setGuardian admin newGuardian => returning (fun _ => .unit) (setGuardian admin newGuardian)
  | .setUnpauseTimeout admin timeout =>
    returning (fun _ => .unit) (setUnpauseTimeout admin timeout)

/-- The deployed contract. -/
def contract : System (Submission Call) World Trap Ret := system invoke

/-! ## What a returned call has done -/

def Call.isView : Call → Bool
  | .isPaused | .getPauseState => true
  | _ => false

/-- The stored flag, whatever the time is. -/
def Storage.flag (s : Storage) : Bool := s.paused.getD false

def Storage.unlocked (s : Storage) : Prop := s.reentrancyLock.getD false = false

/-- When the pause ends by itself, if there is a timeout. -/
def Storage.deadline (s : Storage) : Nat := s.pausedAt.getD 0 + s.unpauseTimeout.getD 0

/-- The time at which the pause ends by itself has come. -/
def Expired (env : Env) (s : Storage) : Prop :=
  0 < s.unpauseTimeout.getD 0 ∧ s.deadline ≤ env.timestamp

/-- `is_paused` returns true. -/
def Halted (env : Env) (s : Storage) : Prop :=
  s.flag = true ∧
    (s.unpauseTimeout.getD 0 = 0 ∨ s.deadline < u64Bound ∧ env.timestamp < s.deadline)

/-- The storage after a signer's approval. -/
def Storage.approved (s : Storage) (signer : Address) : Storage :=
  { s.putApproved signer true with
    unpauseApprovalCount := some (s.unpauseApprovalCount.getD 0 + 1),
    reentrancyLock := some false }

/-- The storage after the approvals of `signers` are reset. -/
def Storage.reset (s : Storage) (signers : List Address) : Storage :=
  { s with signerApproved := fun a => if a ∈ signers then some false else s.signerApproved a }

/-- The storage after a pause at the time `now`. -/
def Storage.haltAt (s : Storage) (now : Nat) : Storage :=
  { s.reset (s.unpauseSigners.getD []) with
    paused := some true, pausedAt := some now, unpauseApprovalCount := some 0,
    reentrancyLock := some false }

/-- What `initialize` leaves; the approvals of signers stay. -/
def Storage.configured (s : Storage) (admin guardian : Address) (unpauseSigners : List Address)
    (threshold timeout : Nat) : Storage :=
  { admin := some admin, paused := some false, pausedAt := some 0,
    unpauseTimeout := some timeout, guardian := some guardian,
    unpauseSigners := some unpauseSigners, unpauseThreshold := some threshold,
    unpauseApprovalCount := some 0, signerApproved := s.signerApproved,
    reentrancyLock := some false }

/-- What an accepted call has checked, and the world it leaves. -/
inductive Step (env : Env) (w : World) : Call → World → Prop
  | viewed {call} (isView : call.isView = true) : Step env w call w
  | initialized {admin guardian unpauseSigners threshold timeout} (signed : admin ∈ env.auths)
      (short : timeout ≤ maxUnpauseTimeout) (enough : threshold ≤ unpauseSigners.length) :
      Step env w (.initializeContract admin guardian unpauseSigners threshold timeout)
        { w with storage :=
            w.storage.configured admin guardian unpauseSigners threshold timeout }
  | paused {guardian} (signed : guardian ∈ env.auths) (unlocked : w.storage.unlocked)
      (guards : w.storage.guardian = some guardian) :
      Step env w (.emergencyPause guardian)
        ⟨w.storage.haltAt env.timestamp, w.events ++ [.active guardian env.timestamp]⟩
  | approved {signer} (signed : signer ∈ env.auths) (unlocked : w.storage.unlocked)
      (halted : Halted env w.storage) (member : signer ∈ w.storage.unpauseSigners.getD [])
      (fresh : (w.storage.signerApproved signer).getD false = false)
      (short : w.storage.unpauseApprovalCount.getD 0 + 1 < w.storage.unpauseThreshold.getD 0) :
      Step env w (.approveUnpause signer)
        ⟨w.storage.approved signer,
          w.events ++ [.approve signer (w.storage.unpauseApprovalCount.getD 0 + 1)
            (w.storage.unpauseThreshold.getD 0)]⟩
  | resumed {signer} (signed : signer ∈ env.auths) (unlocked : w.storage.unlocked)
      (halted : Halted env w.storage) (member : signer ∈ w.storage.unpauseSigners.getD [])
      (fresh : (w.storage.signerApproved signer).getD false = false)
      (enough : w.storage.unpauseThreshold.getD 0 ≤ w.storage.unpauseApprovalCount.getD 0 + 1) :
      Step env w (.approveUnpause signer)
        ⟨{ w.storage.approved signer with paused := some false },
          w.events ++ [.approve signer (w.storage.unpauseApprovalCount.getD 0 + 1)
            (w.storage.unpauseThreshold.getD 0), .resume signer env.timestamp]⟩
  | finalized (unlocked : w.storage.unlocked) (flag : w.storage.flag = true)
      (expired : Expired env w.storage) (fits : w.storage.deadline < u64Bound) :
      Step env w .finalizeAutoUnpause
        ⟨{ w.storage with paused := some false, reentrancyLock := some false },
          w.events ++ [.timeout env.timestamp]⟩
  | guardianSet {admin newGuardian} (signed : admin ∈ env.auths)
      (owner : w.storage.admin = some admin) :
      Step env w (.setGuardian admin newGuardian)
        ⟨{ w.storage with guardian := some newGuardian }, w.events ++ [.guard newGuardian]⟩
  | timeoutSet {admin timeout} (signed : admin ∈ env.auths)
      (owner : w.storage.admin = some admin) (short : timeout ≤ maxUnpauseTimeout) :
      Step env w (.setUnpauseTimeout admin timeout)
        { w with storage := { w.storage with unpauseTimeout := some timeout } }

section Returns

variable {env : Env} {w w' : World} {u : Unit}

@[simp] theorem acquireLock_ok :
    acquireLock env w = .ok (u, w') ↔ w.storage.unlocked ∧
      ({ w with storage := { w.storage with reentrancyLock := some true } } : World) = w' := by
  simp [acquireLock, Storage.unlocked]

theorem initializeContract_ok {admin guardian : Address} {unpauseSigners : List Address}
    {threshold timeout : Nat} :
    initializeContract admin guardian unpauseSigners threshold timeout env w = .ok (u, w') ↔
      admin ∈ env.auths ∧ timeout ≤ maxUnpauseTimeout ∧ threshold ≤ unpauseSigners.length ∧
        ({ w with storage :=
          w.storage.configured admin guardian unpauseSigners threshold timeout } : World) = w' := by
  simp [initializeContract, Storage.configured]

theorem isPaused_ok :
    isPaused env w = .ok (true, w') ↔ Halted env w.storage ∧ w = w' := by
  simp [isPaused, Halted, Storage.flag, Storage.deadline, and_assoc]
  intro _
  by_cases h : w.storage.unpauseTimeout.getD 0 = 0
  · simp [h]
  · simp [h, and_assoc]

/-- A view of the pause state leaves the world as it is. -/
theorem isPaused_same {b : Bool} (h : isPaused env w = .ok (b, w')) : w = w' := by
  simp [isPaused] at h
  obtain ⟨_, _, hw⟩ | ⟨_, ⟨_, _, hw⟩ | ⟨_, ⟨_, hw⟩, _⟩⟩ := h <;> exact hw

theorem resetApprovals_ok {signers : List Address} :
    resetApprovals signers env w = .ok (u, w') ↔
      ({ w with storage := w.storage.reset signers } : World) = w' := by
  induction signers generalizing w with
  | nil => simp [resetApprovals, Storage.reset]
  | cons signer rest ih =>
    have hreset : (w.storage.putApproved signer false).reset rest =
        w.storage.reset (signer :: rest) := by
      rw [Storage.reset, Storage.reset, Storage.putApproved]
      congr 1
      funext a
      by_cases ha : a = signer
      · subst ha
        simp
      · simp [ha]
    simp [resetApprovals, ih, hreset]

theorem emergencyPause_ok {guardian : Address} :
    emergencyPause guardian env w = .ok (u, w') ↔
      guardian ∈ env.auths ∧ w.storage.unlocked ∧ w.storage.guardian = some guardian ∧
        (⟨w.storage.haltAt env.timestamp, w.events ++ [.active guardian env.timestamp]⟩ :
          World) = w' := by
  simp [emergencyPause, resetApprovals_ok, Storage.haltAt, Storage.reset, releaseLock, and_assoc]

theorem approveUnpause_ok {signer : Address} :
    approveUnpause signer env w = .ok (u, w') ↔
      signer ∈ env.auths ∧ w.storage.unlocked ∧ Halted env w.storage ∧
      signer ∈ w.storage.unpauseSigners.getD [] ∧
      (w.storage.signerApproved signer).getD false = false ∧
      w.storage.unpauseApprovalCount.getD 0 + 1 < u32Bound ∧
      (w.storage.unpauseThreshold.getD 0 ≤ w.storage.unpauseApprovalCount.getD 0 + 1 ∧
        (⟨{ w.storage.approved signer with paused := some false },
          w.events ++ [.approve signer (w.storage.unpauseApprovalCount.getD 0 + 1)
            (w.storage.unpauseThreshold.getD 0), .resume signer env.timestamp]⟩ : World) = w' ∨
        w.storage.unpauseApprovalCount.getD 0 + 1 < w.storage.unpauseThreshold.getD 0 ∧
        (⟨w.storage.approved signer,
          w.events ++ [.approve signer (w.storage.unpauseApprovalCount.getD 0 + 1)
            (w.storage.unpauseThreshold.getD 0)]⟩ : World) = w') := by
  simp [approveUnpause, isPaused_ok, Storage.approved, Storage.putApproved, releaseLock, Halted,
    Storage.flag, Storage.deadline]

theorem finalizeAutoUnpause_ok :
    finalizeAutoUnpause env w = .ok (u, w') ↔
      w.storage.unlocked ∧ w.storage.flag = true ∧ 0 < w.storage.unpauseTimeout.getD 0 ∧
      w.storage.deadline < u64Bound ∧ w.storage.deadline ≤ env.timestamp ∧
        (⟨{ w.storage with paused := some false, reentrancyLock := some false },
          w.events ++ [.timeout env.timestamp]⟩ : World) = w' := by
  simp [finalizeAutoUnpause, Storage.flag, Storage.deadline, releaseLock, and_assoc]

/-- The inversion of the dispatcher: what returned is one of the listed steps. -/
theorem step_of_ok {call : Call} {r : Ret} (h : invoke call env w = .ok (r, w')) :
    Step env w call w' := by
  cases call with
  | initializeContract admin guardian unpauseSigners threshold timeout =>
    obtain ⟨_, ha, rfl⟩ := returning_ok.mp h
    obtain ⟨hsigned, hshort, henough, rfl⟩ := initializeContract_ok.mp ha
    exact .initialized hsigned hshort henough
  | isPaused =>
    obtain ⟨_, ha, rfl⟩ := returning_ok.mp h
    obtain rfl := isPaused_same ha
    exact .viewed rfl
  | getPauseState =>
    obtain ⟨_, ha, rfl⟩ := returning_ok.mp h
    obtain ⟨b, v, hb, ha⟩ := bind_ok.mp ha
    obtain rfl := isPaused_same hb
    obtain rfl : w = w' := by simp at ha; exact ha.1
    exact .viewed rfl
  | emergencyPause guardian =>
    obtain ⟨_, ha, rfl⟩ := returning_ok.mp h
    obtain ⟨hsigned, hunlocked, hguards, rfl⟩ := emergencyPause_ok.mp ha
    exact .paused hsigned hunlocked hguards
  | approveUnpause signer =>
    obtain ⟨_, ha, rfl⟩ := returning_ok.mp h
    obtain ⟨hsigned, hunlocked, hhalted, hmember, hfresh, _,
      ⟨henough, rfl⟩ | ⟨hshort, rfl⟩⟩ := approveUnpause_ok.mp ha
    · exact .resumed hsigned hunlocked hhalted hmember hfresh henough
    · exact .approved hsigned hunlocked hhalted hmember hfresh hshort
  | finalizeAutoUnpause =>
    obtain ⟨_, ha, rfl⟩ := returning_ok.mp h
    obtain ⟨hunlocked, hflag, htimeout, hfits, hlate, rfl⟩ := finalizeAutoUnpause_ok.mp ha
    exact .finalized hunlocked hflag ⟨htimeout, hlate⟩ hfits
  | setGuardian admin newGuardian =>
    obtain ⟨_, ha, rfl⟩ := returning_ok.mp h
    simp [setGuardian] at ha
    obtain ⟨hsigned, howner, rfl⟩ := ha
    exact .guardianSet hsigned howner
  | setUnpauseTimeout admin timeout =>
    obtain ⟨_, ha, rfl⟩ := returning_ok.mp h
    simp [setUnpauseTimeout] at ha
    obtain ⟨hsigned, howner, hshort, rfl⟩ := ha
    exact .timeoutSet hsigned howner hshort

/-- Every committed submission returned by a listed step, or trapped and changed nothing. -/
theorem commit_step (w : World) (i : Submission Call) :
    ((∃ r, contract i w = .ok (r, commit contract w i)) ∧
        Step i.env w i.call (commit contract w i)) ∨
      (∃ t, contract i w = .error t) ∧ commit contract w i = w := by
  rcases commit_cases contract w i with ⟨r, hr⟩ | htrap
  · exact .inl ⟨⟨r, hr⟩, step_of_ok hr⟩
  · exact .inr htrap

end Returns

end PauseSecurityContract
