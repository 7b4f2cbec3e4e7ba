import AgenticPay.EvmBridgeSwaps

/-!
# Refunds of the EVM bridge

A lock that is not claimed can be refunded after its timelock and its dispute deadline. Any account
can dispute any open lock, as often as it likes and with no time limit, and each dispute sets the
deadline to a day from now. A refund is open a day after the deadlines of the lock only if the
disputes stop before them.
-/
namespace EvmBridge

open Evm Body ExternalCalls Transaction Holdings

variable {keccak : Bytes32 → Bytes32} {address : Address} {s s' : State} {msg : Message}
  {o : Option Rest} {f : Function} {rest : Rest} {lockId secret : Bytes32}
  {frames : List (Frame State Rest)}

/-! ## The guard -/

/-- What an accepted call does to the reentrancy guard. -/
def Guards (s : State) (o : Option Rest) (s' : State) : Prop :=
  match o with
  | none => s'.entered = s.entered
  | some _ => s.entered = false ∧ s'.entered = true

theorem setOwner_guards {newOwner : Address} (h : setOwner newOwner msg s = .ok (o, s')) :
    Guards s o s' := by
  simp only [setOwner, read_bind, write_bind, emit, pure_ok] at h
  obtain ⟨rfl, rfl⟩ := h
  rfl

/-- An accepted `lock`: nothing waits, and the record is the one that was asked for. -/
theorem lock_stores {recipient : Address} {hashlock : Bytes32} {timelock window : Nat}
    (h : lock lockId recipient hashlock timelock window msg s = .ok (o, s')) :
    o = none ∧ s.entered = false ∧ s'.entered = false ∧
      s'.locks lockId = ⟨msg.sender, recipient, msg.value, hashlock, timelock, false, false,
        msg.timestamp + window⟩ := by
  simp only [lock, message_bind, read_bind, creditWord_bind_ok, write_bind,
    guard_bind_ok whenNotPaused_ok, guard_bind_ok enterGuard_ok, revertIf_bind_ok, addWord_bind_ok,
    store, emit, leaveGuard, pure_ok] at h
  obtain ⟨_, _, houtside, _, _, _, rfl, rfl⟩ := h
  exact ⟨rfl, eq_false_of_ne_true houtside, rfl, Function.update_self ..⟩

theorem guards_of_ok (h : body keccak address f msg s = .ok (o, s')) : Guards s o s' := by
  cases f with
  | setFeeConfig nextFeeBps nextCollector =>
    simp only [body, setFeeConfig, nonPayable_bind_ok, guard_bind_ok onlyOwner_ok,
      revertIf_bind_ok, write_bind, emit, pure_ok] at h
    obtain ⟨_, _, _, rfl, rfl⟩ := h
    rfl
  | lock lockId recipient hashlock timelock window =>
    obtain ⟨rfl, houtside, hleft, _⟩ := lock_stores h
    exact hleft.trans houtside.symm
  | claim lockId secret =>
    obtain ⟨hclaimable, rfl, rfl⟩ := claim_ok.mp h
    exact ⟨eq_false_of_ne_true hclaimable.outside, rfl⟩
  | refund lockId =>
    obtain ⟨hrefundable, rfl, rfl⟩ := refund_ok.mp h
    exact ⟨eq_false_of_ne_true hrefundable.outside, rfl⟩
  | dispute lockId =>
    obtain ⟨_, rfl, _, _, rfl⟩ := dispute_ok.mp h
    rfl
  | pause =>
    simp only [body, pause, nonPayable_bind_ok, guard_bind_ok onlyOwner_ok,
      guard_bind_ok whenNotPaused_ok, write_bind, message_bind, emit, pure_ok] at h
    obtain ⟨_, _, _, rfl, rfl⟩ := h
    rfl
  | unpause =>
    simp only [body, unpause, nonPayable_bind_ok, guard_bind_ok onlyOwner_ok, read_bind,
      revertIf_bind_ok, write_bind, message_bind, emit, pure_ok] at h
    obtain ⟨_, _, _, rfl, rfl⟩ := h
    rfl
  | transferOwnership newOwner =>
    simp only [body, transferOwnership, nonPayable_bind_ok, guard_bind_ok onlyOwner_ok,
      revertIf_bind_ok] at h
    exact setOwner_guards h.2.2.2
  | renounceOwnership =>
    simp only [body, renounceOwnership, nonPayable_bind_ok, guard_bind_ok onlyOwner_ok] at h
    exact setOwner_guards h.2.2
  | force =>
    simp only [body, force, message_bind, read_bind, creditWord_bind_ok, write_bind, pure_ok] at h
    obtain ⟨_, rfl, rfl⟩ := h
    rfl

theorem finishClaim_leaves (h : finishClaim keccak lockId secret msg s = .ok (o, s')) :
    o = none ∧ s'.entered = false := by
  simp only [finishClaim, emit, leaveGuard, write_bind, pure_ok] at h
  obtain ⟨rfl, rfl⟩ := h
  exact ⟨rfl, rfl⟩

/-- After a payment, a call leaves the guard if it is done, and only then. -/
theorem finish_guards {ok : Bool} (h : finish keccak address rest ok msg s = .ok (o, s')) :
    s'.entered = (if o.isSome then s.entered else false) := by
  cases rest with
  | claim lockId secret fee =>
    simp only [finish, require_bind_ok, read_bind] at h
    obtain ⟨_, h⟩ := h
    split at h
    · simp only [guard_bind_ok pay_ok, pure_ok] at h
      obtain ⟨_, rfl, rfl⟩ := h
      rfl
    · obtain ⟨rfl, hleft⟩ := finishClaim_leaves h
      exact hleft
  | fee lockId secret =>
    simp only [finish, require_bind_ok] at h
    obtain ⟨rfl, hleft⟩ := finishClaim_leaves h.2
    exact hleft
  | refund lockId =>
    simp only [finish, require_bind_ok, emit, leaveGuard, write_bind, pure_ok] at h
    obtain ⟨_, rfl, rfl⟩ := h
    rfl

/-- At most one call waits, and the guard says whether one does. -/
def Guarded (s : State) : List (Frame State Rest) → Prop
  | [] => s.entered = false
  | [_] => s.entered = true
  | _ => False

theorem Guarded.entered {c : Call} {r : Option Rest × State} (hg : Guarded s frames)
    (h : (contract keccak address).enter c s = .ok r) : After Guarded (proceed s frames r) := by
  obtain ⟨o, s'⟩ := r
  have hguards := guards_of_ok h
  cases o with
  | none =>
    match frames, hg with
    | [], hg => exact hguards.trans hg
    | [_], hg => exact hguards.trans hg
  | some rest =>
    match frames, hg with
    | [], _ => exact hguards.2
    | [_], hg => exact absurd (hg.symm.trans hguards.1) Bool.true_eq_false_eq_False

theorem Guarded.resumed {frame : Frame State Rest} {ok : Bool} {r : Option Rest × State}
    (hg : Guarded s (frame :: frames))
    (h : (contract keccak address).resume frame.rest ok s = .ok r) :
    After Guarded (proceed frame.made frames r) := by
  obtain ⟨o, s'⟩ := r
  have hguards := finish_guards h
  match frames, hg with
  | [], hg =>
    cases o with
    | none => exact hguards
    | some rest => exact hguards.trans hg

/-! ## One lock -/

/-- The record of a lock whose dispute deadline is at most a day after the time `latest`. -/
structure Kept (sender : Address) (timelock latest : Nat) (l : Lock) : Prop where
  sender : l.sender = sender
  timelock : l.timelock = timelock
  deadline : l.disputeDeadline ≤ latest + 86400

/-- A dispute of the lock that passes the checks is made at the time `latest` or before. -/
def DisputedBy (lockId : Bytes32) (latest : Nat) (s : State) (c : Call) : Prop :=
  c.function = .dispute lockId → Disputable s c.msg lockId → c.msg.timestamp ≤ latest

variable {sender : Address} {timelock latest : Nat}

theorem Kept.settle (h : Kept sender timelock latest (s.locks lockId)) {id : Bytes32} {l : Lock}
    (hsender : l.sender = (s.locks id).sender) (htimelock : l.timelock = (s.locks id).timelock)
    (hdeadline : id = lockId → l.disputeDeadline ≤ latest + 86400) :
    Kept sender timelock latest ((stored s id l).locks lockId) := by
  by_cases he : id = lockId
  · subst he
    simp only [stored, Function.update_self]
    exact ⟨hsender.trans h.sender, htimelock.trans h.timelock, hdeadline rfl⟩
  · simp only [stored, Function.update_of_ne (Ne.symm he)]
    exact h

theorem Kept.entered (h : Kept sender timelock latest (s.locks lockId)) (hzero : sender ≠ .zero)
    (hc : DisputedBy lockId latest s ⟨msg, f⟩)
    (hok : body keccak address f msg s = .ok (o, s')) :
    Kept sender timelock latest (s'.locks lockId) := by
  have hstep := step_of_ok hok
  cases hstep with
  | managed hm =>
    rw [hm.locks]
    exact h
  | @locked id _ _ _ _ _ l _ _ hunused =>
    have hne : lockId ≠ id := by
      rintro rfl
      exact hzero (h.sender.symm.trans hunused)
    simp only [stored, Function.update_of_ne hne]
    exact h
  | claimed => exact h.settle rfl rfl fun he => he ▸ h.deadline
  | refunded => exact h.settle rfl rfl fun he => he ▸ h.deadline
  | @disputed id =>
    obtain ⟨hdisputable, -, deadline, hdeadline, hs⟩ := dispute_ok.mp hok
    rw [hs]
    refine h.settle rfl rfl ?_
    rintro rfl
    have hearly : msg.timestamp ≤ latest := hc rfl hdisputable
    rw [hdeadline]
    exact Nat.add_le_add_right hearly 86400
  | forced => exact h

/-! ## Runs -/

structure Waits (keccak : Bytes32 → Bytes32) (s : State) (frames : List (Frame State Rest)) :
    Prop extends Valid keccak s frames where
  guarded : Guarded s frames

/-- What holds from the call of `lock` on. -/
structure Locked (keccak : Bytes32 → Bytes32) (lockId : Bytes32) (sender : Address)
    (timelock latest : Nat) (s : State) (frames : List (Frame State Rest)) : Prop
    extends Waits keccak s frames where
  kept : Kept sender timelock latest (s.locks lockId)

theorem keeps_waits (keccak : Bytes32 → Bytes32) (address : Address) :
    Keeps (contract keccak address) (fun _ _ => True) (Waits keccak) where
  enter _ hw h := ⟨hw.toValid.entered h, hw.guarded.entered h⟩
  resume hw _ h := ⟨hw.toValid.resumed h, hw.guarded.resumed h⟩

theorem keeps_locked (keccak : Bytes32 → Bytes32) (address : Address) (hzero : sender ≠ .zero) :
    Keeps (contract keccak address) (DisputedBy lockId latest)
      (Locked keccak lockId sender timelock latest) where
  enter := by
    intro c s frames r hc hl h
    refine ⟨(keeps_waits keccak address).enter trivial hl.toWaits h, ?_⟩
    rw [state_proceed]
    exact hl.kept.entered hzero hc h
  resume := by
    intro frame s frames ok r hl hmade h
    refine ⟨(keeps_waits keccak address).resume hl.toWaits hmade.toWaits h, ?_⟩
    rw [state_proceed, (resumed_of_ok h).locks]
    exact hl.kept

theorem deploy_waits {owner feeCollector : Address} (h : deploy owner feeCollector = .ok s) :
    Waits keccak s [] where
  toValid := (deploy_valid h).1
  guarded := by
    rw [deploy] at h
    split at h
    · contradiction
    · cases h
      rfl

/-- A lock begins where no call waits. -/
theorem Waits.locked {recipient : Address} {hashlock : Bytes32} {window : Nat}
    {g : Config State Rest} {r : Option Rest × State} (hw : Waits keccak g.state g.frames)
    (h : (contract keccak address).enter ⟨msg, .lock lockId recipient hashlock timelock window⟩
      g.state = .ok r) :
    Holds (Locked keccak lockId msg.sender timelock (max timelock (msg.timestamp + window)))
      (proceed g.state g.frames r).state (proceed g.state g.frames r).frames := by
  have hafter := (keeps_waits keccak address).enter trivial hw h
  obtain ⟨o, s'⟩ := r
  obtain ⟨rfl, houtside, -, hl⟩ := lock_stores h
  obtain ⟨s, frames⟩ := g
  have hnone : frames = [] := by
    match frames, hw.guarded with
    | [], _ => rfl
    | [_], hentered => exact absurd (houtside.symm.trans hentered) Bool.false_ne_true
  subst hnone
  refine ⟨hafter, ?_⟩
  simp only [proceed, hl]
  refine ⟨rfl, rfl, ?_⟩
  simp only
  omega

/-! ## Refunds -/

/-- A refund that `caller` asks for at the time `now`, and whose payment goes through. -/
def refunding (lockId : Bytes32) (caller : Address) (now : Nat) : List (Act Call Bool) :=
  [.call ⟨⟨caller, 0, now⟩, .refund lockId⟩, .answer true]

/-- It pays the amount of the lock. -/
structure Refunds (keccak : Bytes32 → Bytes32) (address : Address) (s : State) (lockId : Bytes32)
    (caller : Address) (now : Nat) : Prop where
  refunded : ((run (machine (contract keccak address)) ⟨s, []⟩
    (refunding lockId caller now)).state.locks lockId).refunded = true
  paid : (run (machine (contract keccak address)) ⟨s, []⟩
    (refunding lockId caller now)).state.balance + (s.locks lockId).amount = s.balance

theorem refunds_of_refundable {caller : Address} {now : Nat}
    (h : Refundable address s ⟨caller, 0, now⟩ lockId) :
    Refunds keccak address s lockId caller now := by
  have henter : (contract keccak address).enter ⟨⟨caller, 0, now⟩, .refund lockId⟩ s =
      .ok (some (.refund lockId), refundedState s ⟨caller, 0, now⟩ lockId) :=
    refund_ok.mpr ⟨h, rfl, rfl⟩
  have hrun : run (machine (contract keccak address)) ⟨s, []⟩ (refunding lockId caller now) =
      commit (machine (contract keccak address))
        (commit (machine (contract keccak address)) ⟨s, []⟩
          (.call ⟨⟨caller, 0, now⟩, .refund lockId⟩)) (.answer true) := rfl
  rw [commit_enter henter] at hrun
  constructor
  · rw [hrun]
    show (Function.update s.locks lockId { s.locks lockId with refunded := true }
      lockId).refunded = true
    rw [Function.update_self]
  · rw [hrun]
    exact Nat.sub_add_cancel h.covered

/-- Until its dispute deadline a lock is not refunded. -/
theorem not_refunds_of_disputed {caller : Address} {now : Nat}
    (hopen : Open (s.locks lockId)) (h : now < (s.locks lockId).disputeDeadline) :
    ¬ Refunds keccak address s lockId caller now := by
  have hfails : ∀ r, (contract keccak address).enter ⟨⟨caller, 0, now⟩, .refund lockId⟩ s ≠
      .ok r := by
    rintro ⟨o, s'⟩ henter
    obtain ⟨hrefundable, -⟩ := refund_ok.mp henter
    exact absurd hrefundable.undisputed (Nat.not_le_of_lt h)
  have hstays : run (machine (contract keccak address)) ⟨s, []⟩ (refunding lockId caller now) =
      ⟨s, []⟩ := by
    simp only [run, commit, machine, refunding]
    cases henter : (contract keccak address).enter ⟨⟨caller, 0, now⟩, .refund lockId⟩ s with
    | error => rfl
    | ok r => exact absurd henter (hfails r)
  intro hrefunds
  have hrefunded := hrefunds.refunded
  rw [hstays] at hrefunded
  exact hopen.2 (.inr hrefunded)

/-- Where no call waits and the contract is not paused, the lock can be refunded at every time from
`start` on, unless it is settled. -/
def RefundsFrom (keccak : Bytes32 → Bytes32) (address : Address) (lockId : Bytes32)
    (sender : Address) (start : Nat) (g : Config State Rest) : Prop :=
  g.frames = [] → ¬ g.state.paused = true → Open (g.state.locks lockId) →
    ∀ now, start ≤ now → Refunds keccak address g.state lockId sender now

theorem Locked.refunds {g : Config State Rest} (hself : sender ≠ address)
    (htimelock : timelock ≤ latest)
    (h : Locked keccak lockId sender timelock latest g.state g.frames) :
    RefundsFrom keccak address lockId sender (latest + 86400) g := by
  intro hframes hrunning hopen now hnow
  apply refunds_of_refundable
  have hguarded := h.guarded
  rw [hframes] at hguarded
  obtain ⟨n, hsums, hle⟩ := h.funded
  have howed : (g.state.locks lockId).amount ≤ n := owed_of_open hopen ▸ hsums.le lockId
  exact
    { unpaid := rfl
      running := hrunning
      outside := Bool.not_eq_true _ ▸ hguarded
      isOpen := hopen
      expired := by
        rw [h.kept.timelock]
        exact htimelock.trans ((Nat.le_add_right ..).trans hnow)
      undisputed := h.kept.deadline.trans hnow
      covered := howed.trans ((Nat.le_add_right ..).trans hle)
      receives := h.kept.sender ▸ hself }

/-- From a day after both times of a lock on, its sender can refund it, if no account disputes it
after both. No call comes from the zero address, and none from the contract itself. -/
theorem refunds_from_last_deadline {owner feeCollector : Address}
    (h : deploy owner feeCollector = .ok s) (keccak : Bytes32 → Bytes32)
    (pre post : List (Act Call Bool)) {recipient : Address} {hashlock : Bytes32} {window : Nat}
    {r : Option Rest × State} (hzero : msg.sender ≠ .zero) (hself : msg.sender ≠ address)
    (hlocked : (contract keccak address).enter
      ⟨msg, .lock lockId recipient hashlock timelock window⟩
      (run (machine (contract keccak address)) ⟨s, []⟩ pre).state = .ok r)
    (hdisputes : Along (machine (contract keccak address))
      (Calls (DisputedBy lockId (max timelock (msg.timestamp + window))))
      (run (machine (contract keccak address)) ⟨s, []⟩
        (pre ++ [.call ⟨msg, .lock lockId recipient hashlock timelock window⟩])) post) :
    RefundsFrom keccak address lockId msg.sender
      (max timelock (msg.timestamp + window) + 86400)
      (run (machine (contract keccak address)) ⟨s, []⟩
        (pre ++ .call ⟨msg, .lock lockId recipient hashlock timelock window⟩ :: post)) := by
  have hbefore := holds_run_any (g := ⟨s, []⟩) (keeps_waits keccak address) (deploy_waits h) pre
  have hlock := hbefore.here.locked hlocked
  rw [run_snoc, commit_enter hlocked] at hdisputes
  have hafter := holds_run (keeps_locked keccak address hzero) hdisputes hlock
  rw [run_append, run_cons, commit_enter hlocked]
  exact hafter.here.refunds hself (Nat.le_max_left ..)

/-- The call of `lockUntil200`. -/
def lockCall : Call := ⟨⟨⟨2⟩, 10000, 100⟩, .lock 5 ⟨3⟩ (keccakOfZero 0) 200 0⟩

/-- A stranger disputes that lock a second before its time. -/
def disputedInTime : Act Call Bool := .call ⟨⟨⟨7⟩, 0, 199⟩, .dispute 5⟩

theorem refunds_after_dispute_in_time :
    RefundsFrom keccakOfZero ⟨9⟩ 5 ⟨2⟩ (max 200 (100 + 0) + 86400)
      (run (machine (contract keccakOfZero ⟨9⟩)) ⟨newBridge, []⟩
        [lockUntil200, disputedInTime]) := by
  have hok : ((contract keccakOfZero ⟨9⟩).enter lockCall newBridge).isOk = true := by
    decide +kernel
  have hdisputes : Along (machine (contract keccakOfZero ⟨9⟩)) (Calls (DisputedBy 5 200))
      (commit (machine (contract keccakOfZero ⟨9⟩)) ⟨newBridge, []⟩ lockUntil200)
      [disputedInTime] := by
    refine ⟨?_, trivial⟩
    rintro c hc - -
    cases hc
    decide
  cases hlocked : (contract keccakOfZero ⟨9⟩).enter lockCall newBridge with
  | error t =>
    rw [hlocked] at hok
    contradiction
  | ok r =>
    exact refunds_from_last_deadline deploy_newBridge keccakOfZero [] [disputedInTime]
      (by decide) (by decide) hlocked hdisputes

/-- A stranger disputes it a day after that. -/
def disputedLate : List (Act Call Bool) := [lockUntil200, .call ⟨⟨⟨7⟩, 0, 86600⟩, .dispute 5⟩]

theorem late_dispute_blocks_refund :
    ¬ RefundsFrom keccakOfZero ⟨9⟩ 5 ⟨2⟩ (max 200 (100 + 0) + 86400)
      (run (machine (contract keccakOfZero ⟨9⟩)) ⟨newBridge, []⟩ disputedLate) := by
  intro hrefunds
  have hopen : Open ((run (machine (contract keccakOfZero ⟨9⟩)) ⟨newBridge, []⟩
      disputedLate).state.locks 5) := by
    constructor <;> decide +kernel
  exact not_refunds_of_disputed hopen (by decide +kernel)
    (hrefunds (by decide +kernel) (by decide +kernel) hopen 86600 (by decide))

end EvmBridge
