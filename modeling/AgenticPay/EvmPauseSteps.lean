import AgenticPay.EvmEmergencyPause

/-!
# What a call of the emergency pause does

The part of the state that the pauses are about, and what an accepted call and the answer of a
proxy make of it.
-/
namespace EvmEmergencyPause

open Evm Body ExternalCalls

/-- The requests, the proxies and the history. -/
structure Core where
  pauseCount : Nat
  pauseRecords : Nat → PauseRecord
  implementation : Address → Address
  placedBy : Address → Option Nat
  before : Nat → Address
  history : List Entry

def State.core (s : State) : Core :=
  ⟨s.pauseCount, s.pauseRecords, s.implementation, s.placedBy, s.before, s.history⟩

namespace Core

def store (b : Core) (id : Nat) (pr : PauseRecord) : Core :=
  { b with pauseRecords := Function.update b.pauseRecords id pr }

def log (b : Core) (e : Entry) : Core := { b with history := b.history ++ [e] }

def upgraded (b : Core) (proxy newImplementation : Address) (pauser : Option Nat) : Core :=
  { b with
    implementation := Function.update b.implementation proxy newImplementation
    placedBy := Function.update b.placedBy proxy pauser }

/-- The record `pr` of a request is activated. -/
def activated (b : Core) (id time : Nat) (pr : PauseRecord) : Core :=
  let b' := b.store id
    { pr with active := true, activatedAt := time, expiresAt := time + maxPauseDuration }
  { b'.log (.paused id time) with
    before := Function.update b.before id (b.implementation pr.proxy) }
    |>.upgraded pr.proxy pr.pauseImplementation (some id)

/-- A new request. -/
def requested (b : Core) (proxy pauseImplementation : Address) : Core :=
  { b.store b.pauseCount ⟨proxy, .zero, pauseImplementation, 0, 0, false, 1⟩ with
    pauseCount := b.pauseCount + 1 }

end Core

/-- The record after one more approval. -/
def PauseRecord.approved (pr : PauseRecord) (previousImplementation : Address) : PauseRecord :=
  { pr with
    approvalCount := pr.approvalCount + 1
    previousImplementation :=
      if pr.previousImplementation = .zero ∧ previousImplementation ≠ .zero then
        previousImplementation
      else pr.previousImplementation }

/-- What an accepted call has checked, what it has left to do, and what it leaves. -/
inductive Step (msg : Message) (s : State) : Function → Option Rest → Core → Prop
  | requested {proxy pauseImplementation} (nonzero : pauseImplementation ≠ .zero)
      (waits : 1 < s.threshold) :
      Step msg s (.requestPause proxy pauseImplementation) none
        (s.core.requested proxy pauseImplementation)
  | activatedAtOnce {proxy pauseImplementation} (guardian : s.guardians msg.sender = true)
      (nonzero : pauseImplementation ≠ .zero) (now : s.threshold ≤ 1) :
      Step msg s (.requestPause proxy pauseImplementation) (some (.activate s.pauseCount))
        ((s.core.requested proxy pauseImplementation).activated s.pauseCount msg.timestamp
          ⟨proxy, .zero, pauseImplementation, 0, 0, false, 1⟩)
  | approved {id previous} (found : (s.pauseRecords id).proxy ≠ .zero) :
      Step msg s (.approvePause id previous) none
        (s.core.store id ((s.pauseRecords id).approved previous))
  | activated {id previous} (guardian : s.guardians msg.sender = true)
      (found : (s.pauseRecords id).proxy ≠ .zero)
      (fresh : s.hasGuardianApproved id msg.sender ≠ true)
      (enough : (s.pauseRecords id).approvalCount + 1 ≥ s.threshold)
      (inactive : (s.pauseRecords id).active = false) :
      Step msg s (.approvePause id previous) (some (.activate id))
        ((s.core.store id ((s.pauseRecords id).approved previous)).activated id msg.timestamp
          ((s.pauseRecords id).approved previous))
  | resumed {id} (stays : Bool) (active : (s.pauseRecords id).active = true) :
      Step msg s (.resume id) (some (.resume id))
        (((s.core.store id { s.pauseRecords id with active := stays }).upgraded
          (s.pauseRecords id).proxy (s.pauseRecords id).previousImplementation none).log
            (.restored id (s.pauseRecords id).previousImplementation))
  | expired {id} (active : (s.pauseRecords id).active = true)
      (late : (s.pauseRecords id).expiresAt ≤ msg.timestamp) :
      Step msg s (.checkExpired id) none
        ((s.core.store id { s.pauseRecords id with active := false }).log
          (.expired id (s.implementation (s.pauseRecords id).proxy)))
  | guardianSet {guardian active} : Step msg s (.setGuardian guardian active) none s.core
  | upgraded {proxy newImplementation} (nonzero : newImplementation ≠ .zero) :
      Step msg s (.upgrade proxy newImplementation) none
        (s.core.upgraded proxy newImplementation none)

/-- What the answer of a proxy makes of the requests. -/
def Core.answered (b : Core) : Rest → Core
  | .activate _ => b
  | .resume id => b.store id { b.pauseRecords id with active := false }

/-- The record that a request is activated with. -/
def PauseRecord.filled (pr : PauseRecord) (previousImpl : Address) : PauseRecord :=
  { pr with
    previousImplementation :=
      if pr.previousImplementation = .zero then previousImpl else pr.previousImplementation }

theorem PauseRecord.filled_self (pr : PauseRecord) : pr.filled pr.previousImplementation = pr := by
  rw [filled, ite_self]

variable {s s' : State} {msg : Message} {o : Option Rest} {id : Nat} {f : Function} {rest : Rest}

theorem onlyAdmin_ok {u : Unit} :
    onlyAdmin msg s = .ok (u, s') ↔ msg.sender = s.admin ∧ s = s' := by
  simp only [onlyAdmin, message_bind, read_bind, revertIf_ok, not_not, ne_eq]

theorem onlyGuardian_ok {u : Unit} :
    onlyGuardian msg s = .ok (u, s') ↔ s.guardians msg.sender = true ∧ s = s' := by
  simp only [onlyGuardian, message_bind, read_bind, revertIf_ok, not_not]

theorem of_addWord_bind {c d : Nat} {k : Nat → Fn (Option Rest)}
    (h : (addWord c d >>= k : Fn (Option Rest)) msg s = .ok (o, s')) :
    k (c + d) msg s = .ok (o, s') :=
  (addWord_bind_ok.mp h).2

theorem activatePause_core {previousImpl : Address} {pr : PauseRecord}
    (hrecord : s.pauseRecords id = pr)
    (h : activatePause id previousImpl msg s = .ok (o, s')) :
    o = some (.activate id) ∧ s'.threshold = s.threshold ∧
      s'.core = s.core.activated id msg.timestamp (pr.filled previousImpl) := by
  -- the sum goes before the rest is simplified: compared later, it would be counted up to
  rw [activatePause, message_bind, bind_ok] at h
  obtain ⟨record, t, hread, h⟩ := h
  have hafter := of_addWord_bind h
  clear h
  obtain ⟨hsame, rfl⟩ := read_ok.mp hread
  obtain rfl : pr = record := hrecord.symm.trans hsame
  simp only [store, read_bind, write_bind, log, upgradeTo, pure_ok] at hafter
  obtain ⟨rfl, rfl⟩ := hafter
  exact ⟨rfl, rfl, rfl⟩

/-! ## The functions -/

/-- A call of the function has passed its checks, and the threshold is as it was. -/
def Passes (msg : Message) (s : State) (f : Function) (o : Option Rest) (s' : State) : Prop :=
  s'.threshold = s.threshold ∧ Step msg s f o s'.core

theorem requestPause_step {proxy pauseImplementation : Address}
    (h : requestPause proxy pauseImplementation msg s = .ok (o, s')) :
    Passes msg s (.requestPause proxy pauseImplementation) o s' := by
  simp only [requestPause, nonPayable_bind_ok, guard_bind_ok onlyGuardian_ok, revertIf_bind_ok,
    read_bind, addWord_bind_ok, write_bind, store, message_bind, emit, not_or] at h
  obtain ⟨_, hguardian, hnonzero, _, h⟩ := h
  split at h
  · rename_i hnow
    obtain ⟨rfl, hthreshold, hcore⟩ := activatePause_core (Function.update_self ..) h
    refine ⟨hthreshold, ?_⟩
    rw [hcore]
    exact .activatedAtOnce hguardian hnonzero.2 hnow
  · rename_i hwaits
    obtain ⟨rfl, rfl⟩ := pure_ok.mp h
    exact ⟨rfl, .requested hnonzero.2 (Nat.lt_of_not_le hwaits)⟩

theorem approvePause_step {previous : Address} (h : approvePause id previous msg s = .ok (o, s')) :
    Passes msg s (.approvePause id previous) o s' := by
  simp only [approvePause, nonPayable_bind_ok, guard_bind_ok onlyGuardian_ok, revertIf_bind_ok,
    read_bind, addWord_bind_ok, write_bind, store, message_bind, emit] at h
  obtain ⟨_, hguardian, hfound, hfresh, _, h⟩ := h
  split at h
  · rename_i henough
    obtain ⟨rfl, hthreshold, hcore⟩ := activatePause_core (Function.update_self ..) h
    have hfilled := ((s.pauseRecords id).approved previous).filled_self
    simp only [PauseRecord.approved] at hfilled
    rw [hfilled] at hcore
    refine ⟨hthreshold, ?_⟩
    rw [hcore]
    exact .activated hguardian hfound hfresh henough.1 henough.2
  · obtain ⟨rfl, rfl⟩ := pure_ok.mp h
    exact ⟨rfl, .approved hfound⟩

theorem swapBack_step (stays : Bool) (es : List Event)
    (hactive : (s.pauseRecords id).active = true)
    (h : swapBack id (s.pauseRecords id) msg
      { s with
        pauseRecords := Function.update s.pauseRecords id
          { s.pauseRecords id with active := stays }
        events := es } = .ok (o, s')) :
    Passes msg s (.resume id) o s' := by
  simp only [swapBack, upgradeTo, write_bind, log, pure_ok] at h
  obtain ⟨rfl, rfl⟩ := h
  exact ⟨rfl, .resumed stays hactive⟩

theorem resume_step (h : resume id msg s = .ok (o, s')) : Passes msg s (.resume id) o s' := by
  simp only [resume, nonPayable_bind_ok, guard_bind_ok onlyAdmin_ok, read_bind, revertIf_bind_ok,
    message_bind] at h
  obtain ⟨_, _, _, hactive, h⟩ := h
  rw [Bool.not_eq_false] at hactive
  split at h
  · simp only [store, write_bind, emit] at h
    exact swapBack_step _ _ hactive h
  · have hsame : { s.pauseRecords id with active := true } = s.pauseRecords id := by
      rw [← hactive]
    have hstored : s = { s with
        pauseRecords := Function.update s.pauseRecords id
          { s.pauseRecords id with active := true }
        events := s.events } := by
      rw [hsame, Function.update_eq_self]
    apply swapBack_step true s.events hactive
    rw [← hstored]
    exact h

theorem checkExpired_step (h : checkExpired id msg s = .ok (o, s')) :
    Passes msg s (.checkExpired id) o s' := by
  simp only [checkExpired, nonPayable_bind_ok, read_bind, revertIf_bind_ok, message_bind, store,
    write_bind, log, emit, pure_ok] at h
  obtain ⟨_, hactive, hlate, rfl, rfl⟩ := h
  exact ⟨rfl, .expired (Bool.not_eq_false _ ▸ hactive) (Nat.le_of_not_lt hlate)⟩

/-- Every accepted call is one of the steps. -/
theorem step_of_ok (h : body f msg s = .ok (o, s')) : Passes msg s f o s' := by
  cases f with
  | requestPause proxy pauseImplementation => exact requestPause_step h
  | approvePause id previous => exact approvePause_step h
  | resume id => exact resume_step h
  | checkExpired id => exact checkExpired_step h
  | setGuardian guardian active =>
    simp only [body, setGuardian, nonPayable_bind_ok, guard_bind_ok onlyAdmin_ok, revertIf_bind_ok,
      write_bind, emit, pure_ok] at h
    obtain ⟨_, _, _, rfl, rfl⟩ := h
    exact ⟨rfl, .guardianSet⟩
  | upgrade proxy newImplementation =>
    simp only [body, upgrade, upgradeTo, revertIf_bind_ok, write_bind, pure_ok] at h
    obtain ⟨hnonzero, rfl, rfl⟩ := h
    exact ⟨rfl, .upgraded hnonzero⟩

/-- The answer of a proxy, when the call can go on. -/
theorem finish_core {ok : Bool} (h : finish rest ok msg s = .ok (o, s')) :
    o = none ∧ s'.threshold = s.threshold ∧ s'.core = s.core.answered rest := by
  cases rest with
  | activate id =>
    simp only [finish, require_bind_ok, read_bind, emit, write_bind, pure_ok] at h
    obtain ⟨_, rfl, rfl⟩ := h
    exact ⟨rfl, rfl, rfl⟩
  | resume id =>
    simp only [finish, require_bind_ok, read_bind, store, emit, write_bind, pure_ok] at h
    obtain ⟨_, rfl, rfl⟩ := h
    exact ⟨rfl, rfl, rfl⟩

end EvmEmergencyPause
