import AgenticPay.Records
import AgenticPay.Transaction
import Mathlib.Algebra.BigOperators.Group.List.Basic
import Mathlib.Algebra.Order.Ring.Rat
import Mathlib.Tactic.Linarith

/-!
# Withdrawals under review

A withdrawal to an address on the list of its wallet may go ahead at once, others wait for their
approvers. How much and how often may be withdrawn is checked when a withdrawal is requested,
against those that have been executed by then. Amounts are exact numbers and times are milliseconds.
-/
namespace Withdrawals

open Records Transaction

/-- What the host does with texts and numbers. -/
structure Host where
  toLowerCase : String → String
  toText : ℚ → String

structure VelocityLimits where
  maxAmountPerDay : ℚ
  maxAmountPerHour : ℚ
  maxCountPerHour : ℚ
  deriving DecidableEq

def DEFAULT_VELOCITY_LIMITS : VelocityLimits := ⟨50000, 10000, 5⟩

structure WalletWithdrawalConfig where
  allowlist : List String
  approvalThreshold : Int
  approvers : List String
  velocityLimits : VelocityLimits
  deriving DecidableEq

inductive WithdrawalStatus where
  | pendingApproval
  | approved
  | executed
  | rejected
  | blockedVelocity
  deriving DecidableEq, Repr

def WithdrawalStatus.text : WithdrawalStatus → String
  | .pendingApproval => "pending_approval"
  | .approved => "approved"
  | .executed => "executed"
  | .rejected => "rejected"
  | .blockedVelocity => "blocked_velocity"

structure WithdrawalRequest where
  id : String
  walletId : String
  toAddress : String
  amount : ℚ
  status : WithdrawalStatus
  isAllowlisted : Bool
  approvals : List String
  rejections : List String
  createdAt : Int
  executedTxHash : Option String
  blockReason : Option String
  deriving DecidableEq

/-- A wallet that has not been configured has the default configuration. -/
structure State where
  walletConfigs : String → WalletWithdrawalConfig
  withdrawalRequests : Table WithdrawalRequest.id

variable (host : Host)

/-! ## Wallets -/

def State.setConfig (s : State) (walletId : String) (cfg : WalletWithdrawalConfig) : State :=
  { s with walletConfigs := Function.update s.walletConfigs walletId cfg }

structure VelocityUpdates where
  maxAmountPerDay : Option ℚ
  maxAmountPerHour : Option ℚ
  maxCountPerHour : Option ℚ

def VelocityLimits.updated (l : VelocityLimits) (updates : VelocityUpdates) : VelocityLimits where
  maxAmountPerDay := updates.maxAmountPerDay.getD l.maxAmountPerDay
  maxAmountPerHour := updates.maxAmountPerHour.getD l.maxAmountPerHour
  maxCountPerHour := updates.maxCountPerHour.getD l.maxCountPerHour

structure WalletParams where
  approvalThreshold : Option Int
  approvers : Option (List String)
  velocityLimits : Option VelocityUpdates

def configureWallet (walletId : String) (params : WalletParams) (s : State) : State :=
  let cfg := s.walletConfigs walletId
  s.setConfig walletId
    { cfg with
      approvalThreshold := params.approvalThreshold.getD cfg.approvalThreshold
      approvers := params.approvers.getD cfg.approvers
      velocityLimits := (params.velocityLimits.map cfg.velocityLimits.updated).getD
        cfg.velocityLimits }

def listed (cfg : WalletWithdrawalConfig) (address : String) : Bool :=
  cfg.allowlist.any fun e => host.toLowerCase e = host.toLowerCase address

def addToAllowlist (walletId address : String) (s : State) : State :=
  let cfg := s.walletConfigs walletId
  if listed host cfg address then s
  else s.setConfig walletId { cfg with allowlist := cfg.allowlist ++ [address] }

def removeFromAllowlist (walletId address : String) (s : State) : Bool × State :=
  let cfg := s.walletConfigs walletId
  let kept := cfg.allowlist.filter fun e => host.toLowerCase e ≠ host.toLowerCase address
  (kept.length < cfg.allowlist.length, s.setConfig walletId { cfg with allowlist := kept })

def isAllowlisted (walletId address : String) (s : State) : Bool :=
  listed host (s.walletConfigs walletId) address

/-! ## Velocity checks -/

def HOUR_MS : Int := 60 * 60 * 1000

def DAY_MS : Int := 24 * HOUR_MS

def executedWithdrawalsSince (walletId : String) (sinceMs : Int) (s : State) :
    List WithdrawalRequest :=
  s.withdrawalRequests.records.filter fun w =>
    w.walletId = walletId && w.status = .executed && w.createdAt ≥ sinceMs

/-- The reason why an amount is not allowed, unless it is. -/
def checkVelocity (walletId : String) (amount : ℚ) (now : Int) (s : State) : Option String :=
  let limits := (s.walletConfigs walletId).velocityLimits
  let lastHour := executedWithdrawalsSince walletId (now - HOUR_MS) s
  let lastDay := executedWithdrawalsSince walletId (now - DAY_MS) s
  let hourAmount := (lastHour.map (·.amount)).sum + amount
  let dayAmount := (lastDay.map (·.amount)).sum + amount
  if (lastHour.length : ℚ) + 1 > limits.maxCountPerHour then
    some ("Exceeds max " ++ host.toText limits.maxCountPerHour ++ " withdrawals per hour")
  else if hourAmount > limits.maxAmountPerHour then
    some ("Exceeds hourly withdrawal limit of " ++ host.toText limits.maxAmountPerHour)
  else if dayAmount > limits.maxAmountPerDay then
    some ("Exceeds daily withdrawal limit of " ++ host.toText limits.maxAmountPerDay)
  else none

/-! ## The life of a request -/

structure RequestParams where
  walletId : String
  toAddress : String
  amount : ℚ
  deriving DecidableEq

/-- The clock is read for the check, and again for the request. -/
def newRequest (params : RequestParams) (id : String) (checkedAt : Int) (elapsed : Nat)
    (s : State) : WithdrawalRequest :=
  let cfg := s.walletConfigs params.walletId
  let allowlisted := isAllowlisted host params.walletId params.toAddress s
  let request : WithdrawalRequest :=
    { id, walletId := params.walletId, toAddress := params.toAddress, amount := params.amount,
      status := .pendingApproval, isAllowlisted := allowlisted, approvals := [], rejections := [],
      createdAt := checkedAt + elapsed, executedTxHash := none, blockReason := none }
  match checkVelocity host params.walletId params.amount checkedAt s with
  | some reason => { request with status := .blockedVelocity, blockReason := some reason }
  | none =>
    -- An allowlisted destination skips the review where one approval would do.
    if allowlisted && cfg.approvalThreshold ≤ 1 then { request with status := .approved }
    else request

def State.put (s : State) (request : WithdrawalRequest) : State :=
  { s with withdrawalRequests := s.withdrawalRequests.set request }

/-- An id is drawn that no request has. -/
def createWithdrawalRequest (params : RequestParams) (id : String) (checkedAt : Int)
    (elapsed : Nat) (s : State) : Except String (WithdrawalRequest × State) :=
  match s.withdrawalRequests.get id with
  | some _ => .error "id drawn twice"
  | none =>
    let request := newRequest host params id checkedAt elapsed s
    .ok (request, s.put request)

def assertAuthorizedApprover (cfg : WalletWithdrawalConfig) (approver : String) :
    Except String Unit :=
  if cfg.approvers.length = 0 then .error "No approvers are configured for this wallet"
  else if approver ∈ cfg.approvers then .ok ()
  else .error ("'" ++ approver ++ "' is not an authorized approver for this wallet")

/-- The request under an id, which has to have a status. -/
def requestIn (status : WithdrawalStatus) (verb id : String) (s : State) :
    Except String WithdrawalRequest :=
  match s.withdrawalRequests.get id with
  | none => .error "Withdrawal request not found"
  | some request =>
    if request.status ≠ status then
      .error ("Cannot " ++ verb ++ " a request in status '" ++ request.status.text ++ "'")
    else .ok request

def WithdrawalRequest.approve (request : WithdrawalRequest) (approver : String) (threshold : Int) :
    WithdrawalRequest :=
  let approvals :=
    if approver ∈ request.approvals then request.approvals else request.approvals ++ [approver]
  { request with
    approvals
    status := if (approvals.length : Int) ≥ threshold then .approved else request.status }

def approveWithdrawal (id approver : String) (s : State) :
    Except String (WithdrawalRequest × State) := do
  let request ← requestIn .pendingApproval "approve" id s
  let cfg := s.walletConfigs request.walletId
  assertAuthorizedApprover cfg approver
  let request := request.approve approver cfg.approvalThreshold
  .ok (request, s.put request)

def WithdrawalRequest.reject (request : WithdrawalRequest) (approver : String) :
    WithdrawalRequest :=
  { request with rejections := request.rejections ++ [approver], status := .rejected }

def rejectWithdrawal (id approver : String) (s : State) :
    Except String (WithdrawalRequest × State) := do
  let request ← requestIn .pendingApproval "reject" id s
  assertAuthorizedApprover (s.walletConfigs request.walletId) approver
  let request := request.reject approver
  .ok (request, s.put request)

def WithdrawalRequest.execute (request : WithdrawalRequest) (txHash : String) :
    WithdrawalRequest :=
  { request with status := .executed, executedTxHash := some txHash }

def markExecuted (id txHash : String) (s : State) :
    Except String (WithdrawalRequest × State) := do
  let request ← requestIn .approved "execute" id s
  let request := request.execute txHash
  .ok (request, s.put request)

inductive Call where
  | configureWallet (walletId : String) (params : WalletParams)
  | addToAllowlist (walletId address : String)
  | removeFromAllowlist (walletId address : String)
  | createWithdrawalRequest (params : RequestParams) (id : String) (checkedAt : Int)
      (elapsed : Nat)
  | approveWithdrawal (id approver : String)
  | rejectWithdrawal (id approver : String)
  | markExecuted (id txHash : String)

inductive Response where
  | request (r : WithdrawalRequest)
  | removed (found : Bool)
  | done

def requested (r : Except String (WithdrawalRequest × State)) : Except String (Response × State) :=
  r.map fun p => (.request p.1, p.2)

def system : System Call State String Response
  | .configureWallet walletId params, s => .ok (.done, configureWallet walletId params s)
  | .addToAllowlist walletId address, s => .ok (.done, addToAllowlist host walletId address s)
  | .removeFromAllowlist walletId address, s =>
    let (found, s) := removeFromAllowlist host walletId address s
    .ok (.removed found, s)
  | .createWithdrawalRequest params id checkedAt elapsed, s =>
    requested (createWithdrawalRequest host params id checkedAt elapsed s)
  | .approveWithdrawal id approver, s => requested (approveWithdrawal id approver s)
  | .rejectWithdrawal id approver, s => requested (rejectWithdrawal id approver s)
  | .markExecuted id txHash, s => requested (markExecuted id txHash s)

def defaultConfig : WalletWithdrawalConfig := ⟨[], 1, [], DEFAULT_VELOCITY_LIMITS⟩

def empty : State := ⟨fun _ => defaultConfig, ∅⟩

/-! ## What a call does to the requests -/

inductive Moves (host : Host) (s s' : State) : Call → Prop
  | kept {c} (same : s'.withdrawalRequests = s.withdrawalRequests) : Moves host s s' c
  | created {params id checkedAt elapsed} (fresh : s.withdrawalRequests.get id = none)
      (stored : s' = s.put (newRequest host params id checkedAt elapsed s)) :
      Moves host s s' (.createWithdrawalRequest params id checkedAt elapsed)
  | approved {id approver r} (found : s.withdrawalRequests.get id = some r)
      (pending : r.status = .pendingApproval)
      (authorized : approver ∈ (s.walletConfigs r.walletId).approvers)
      (stored : s' = s.put (r.approve approver (s.walletConfigs r.walletId).approvalThreshold)) :
      Moves host s s' (.approveWithdrawal id approver)
  | rejected {id approver r} (found : s.withdrawalRequests.get id = some r)
      (pending : r.status = .pendingApproval) (stored : s' = s.put (r.reject approver)) :
      Moves host s s' (.rejectWithdrawal id approver)
  | executed {id txHash r} (found : s.withdrawalRequests.get id = some r)
      (approved : r.status = .approved) (stored : s' = s.put (r.execute txHash)) :
      Moves host s s' (.markExecuted id txHash)

variable {host : Host} {s s' : State} {c : Call} {id verb approver : String}
  {status : WithdrawalStatus} {r : WithdrawalRequest} {params : RequestParams} {checkedAt : Int}
  {elapsed : Nat}

theorem requestIn_ok (h : requestIn status verb id s = .ok r) :
    s.withdrawalRequests.get id = some r ∧ r.status = status := by
  rw [requestIn] at h
  cases hget : s.withdrawalRequests.get id with
  | none =>
    rw [hget] at h
    contradiction
  | some request =>
    rw [hget] at h
    dsimp only at h
    split_ifs at h with hstatus
    obtain rfl := Except.ok.inj h
    exact ⟨rfl, not_not.mp hstatus⟩

theorem authorized_of_ok {cfg : WalletWithdrawalConfig} {u : Unit}
    (h : assertAuthorizedApprover cfg approver = .ok u) : approver ∈ cfg.approvers := by
  rw [assertAuthorizedApprover] at h
  split_ifs at h with hnone hmem
  exact hmem

theorem commit_requested (host : Host) (s : State) (c : Call)
    {x : Except String (WithdrawalRequest × State)} (hcall : system host c s = requested x) :
    (∃ r, x = .ok (r, commit (system host) s c)) ∨ commit (system host) s c = s := by
  cases x with
  | error text =>
    refine .inr ?_
    rw [commit, hcall]
    rfl
  | ok p =>
    refine .inl ⟨p.1, ?_⟩
    rw [commit, hcall]
    rfl

theorem commit_moves (host : Host) (s : State) (c : Call) :
    Moves host s (commit (system host) s c) c := by
  cases c with
  | configureWallet walletId params => exact .kept rfl
  | addToAllowlist walletId address =>
    refine .kept ?_
    show (addToAllowlist host walletId address s).withdrawalRequests = _
    rw [addToAllowlist]
    split_ifs <;> rfl
  | removeFromAllowlist walletId address => exact .kept rfl
  | createWithdrawalRequest params id checkedAt elapsed =>
    obtain ⟨r, h⟩ | h :=
      commit_requested host s (.createWithdrawalRequest params id checkedAt elapsed) rfl
    · rw [createWithdrawalRequest] at h
      cases hget : s.withdrawalRequests.get id with
      | some old =>
        rw [hget] at h
        contradiction
      | none =>
        rw [hget] at h
        exact .created hget (Prod.mk.inj (Except.ok.inj h)).2.symm
    · exact .kept (by rw [h])
  | approveWithdrawal id approver =>
    obtain ⟨r, h⟩ | h := commit_requested host s (.approveWithdrawal id approver) rfl
    · obtain ⟨request, hrequest, h⟩ := bind_returns h
      obtain ⟨u, hauthorized, h⟩ := bind_returns h
      obtain ⟨hfound, hpending⟩ := requestIn_ok hrequest
      exact .approved hfound hpending (authorized_of_ok hauthorized)
        (Prod.mk.inj (Except.ok.inj h)).2.symm
    · exact .kept (by rw [h])
  | rejectWithdrawal id approver =>
    obtain ⟨r, h⟩ | h := commit_requested host s (.rejectWithdrawal id approver) rfl
    · obtain ⟨request, hrequest, h⟩ := bind_returns h
      obtain ⟨u, -, h⟩ := bind_returns h
      obtain ⟨hfound, hpending⟩ := requestIn_ok hrequest
      exact .rejected hfound hpending (Prod.mk.inj (Except.ok.inj h)).2.symm
    · exact .kept (by rw [h])
  | markExecuted id txHash =>
    obtain ⟨r, h⟩ | h := commit_requested host s (.markExecuted id txHash) rfl
    · obtain ⟨request, hrequest, h⟩ := bind_returns h
      obtain ⟨hfound, happroved⟩ := requestIn_ok hrequest
      exact .executed hfound happroved (Prod.mk.inj (Except.ok.inj h)).2.symm
    · exact .kept (by rw [h])

/-! ## Velocity -/

inductive Rule where
  | amountPerDay
  | amountPerHour
  | countPerHour
  deriving DecidableEq

def Rule.period : Rule → Int
  | .amountPerDay => DAY_MS
  | .amountPerHour => HOUR_MS
  | .countPerHour => HOUR_MS

def Rule.allowed : Rule → VelocityLimits → ℚ
  | .amountPerDay, limits => limits.maxAmountPerDay
  | .amountPerHour, limits => limits.maxAmountPerHour
  | .countPerHour, limits => limits.maxCountPerHour

/-- What a withdrawal counts for. -/
def Rule.measure : Rule → ℚ → ℚ
  | .amountPerDay, amount => amount
  | .amountPerHour, amount => amount
  | .countPerHour, _ => 1

variable {rule : Rule} {walletId : String} {amount most slack bound : ℚ} {now start : Int}

theorem Rule.measure_nonneg (rule : Rule) (h : 0 ≤ amount) : 0 ≤ rule.measure amount := by
  cases rule with
  | amountPerDay => exact h
  | amountPerHour => exact h
  | countPerHour => exact rfl

/-- The requests of a wallet that meet a condition, by what they count for. -/
def part (walletId : String) (rule : Rule) (P : WithdrawalRequest → Bool) (w : WithdrawalRequest) :
    ℚ :=
  if w.walletId = walletId && P w then rule.measure w.amount else 0

def executedSince (since : Int) (w : WithdrawalRequest) : Bool :=
  w.status = .executed && w.createdAt ≥ since

/-- A request that is still to be decided on or executed. -/
def isOpen (w : WithdrawalRequest) : Bool := w.status = .pendingApproval || w.status = .approved

def within (rule : Rule) (start : Int) (w : WithdrawalRequest) : Bool :=
  start ≤ w.createdAt && w.createdAt ≤ start + rule.period

theorem total_executedSince (s : State) (walletId : String) (rule : Rule) (since : Int) :
    Records.total (part walletId rule (executedSince since)) s.withdrawalRequests =
      ((executedWithdrawalsSince walletId since s).map fun w => rule.measure w.amount).sum := by
  rw [Records.total, executedWithdrawalsSince]
  generalize s.withdrawalRequests.records = records
  induction records with
  | nil => rfl
  | cons w rest ih =>
    rw [List.map_cons, List.sum_cons, ih, part, executedSince, List.filter_cons, Bool.and_assoc]
    split_ifs with h
    · rw [List.map_cons, List.sum_cons]
    · rw [zero_add]

/-- An amount that passes the check leaves room for it under each rule. -/
theorem room_of_checkVelocity (h : checkVelocity host walletId amount now s = none) (rule : Rule) :
    Records.total (part walletId rule (executedSince (now - rule.period))) s.withdrawalRequests +
      rule.measure amount ≤ rule.allowed (s.walletConfigs walletId).velocityLimits := by
  rw [checkVelocity] at h
  split_ifs at h with hcount hhour hday
  rw [total_executedSince]
  cases rule with
  | amountPerDay => exact not_lt.mp hday
  | amountPerHour => exact not_lt.mp hhour
  | countPerHour =>
    have hones : ((executedWithdrawalsSince walletId (now - HOUR_MS) s).map fun w =>
        Rule.countPerHour.measure w.amount).sum =
          ((executedWithdrawalsSince walletId (now - HOUR_MS) s).length : ℚ) := by
      show (List.map (fun _ => (1 : ℚ)) _).sum = _
      simp
    show List.sum (List.map _ (executedWithdrawalsSince walletId (now - HOUR_MS) s)) + 1 ≤ _
    rw [hones]
    exact not_lt.mp hcount

/-- A withdrawal is requested under a limit, while the open ones count for no more than a slack. -/
def Paced (walletId : String) (rule : Rule) (most slack : ℚ) (s : State) : Call → Prop
  | .createWithdrawalRequest params _ _ _ => params.walletId = walletId →
    0 ≤ params.amount ∧ rule.allowed (s.walletConfigs walletId).velocityLimits ≤ most ∧
      Records.total (part walletId rule isOpen) s.withdrawalRequests ≤ slack
  | _ => True

instance : Decidable (Paced walletId rule most slack s c) :=
  match c with
  | .createWithdrawalRequest params _ _ _ => inferInstanceAs (Decidable (params.walletId = _ → _))
  | .configureWallet .. | .addToAllowlist .. | .removeFromAllowlist .. => isTrue trivial
  | .approveWithdrawal .. | .rejectWithdrawal .. | .markExecuted .. => isTrue trivial

/-- The requests that are executed, or may still be. -/
def inWindow (rule : Rule) (start : Int) (w : WithdrawalRequest) : Bool :=
  within rule start w && (isOpen w || w.status = .executed)

structure Bounded (walletId : String) (rule : Rule) (bound : ℚ) (s : State) : Prop where
  amounts : ∀ w ∈ s.withdrawalRequests, w.walletId = walletId → 0 ≤ w.amount
  windows : ∀ start,
    Records.total (part walletId rule (inWindow rule start)) s.withdrawalRequests ≤ bound

theorem newRequest_fields (host : Host) (params : RequestParams) (id : String) (checkedAt : Int)
    (elapsed : Nat) (s : State) :
    (newRequest host params id checkedAt elapsed s).id = id ∧
      (newRequest host params id checkedAt elapsed s).walletId = params.walletId ∧
      (newRequest host params id checkedAt elapsed s).amount = params.amount ∧
      (newRequest host params id checkedAt elapsed s).createdAt = checkedAt + elapsed ∧
      (newRequest host params id checkedAt elapsed s).approvals = [] := by
  rw [newRequest]
  cases checkVelocity host params.walletId params.amount checkedAt s with
  | some reason => exact ⟨rfl, rfl, rfl, rfl, rfl⟩
  | none =>
    dsimp only
    split_ifs <;> exact ⟨rfl, rfl, rfl, rfl, rfl⟩

/-- What a request is created as. -/
theorem newRequest_status (host : Host) (params : RequestParams) (id : String) (checkedAt : Int)
    (elapsed : Nat) (s : State) :
    (newRequest host params id checkedAt elapsed s).status = .blockedVelocity ∨
      checkVelocity host params.walletId params.amount checkedAt s = none ∧
        ((newRequest host params id checkedAt elapsed s).status = .pendingApproval ∨
          (newRequest host params id checkedAt elapsed s).status = .approved ∧
            isAllowlisted host params.walletId params.toAddress s = true ∧
            (s.walletConfigs params.walletId).approvalThreshold ≤ 1) := by
  rw [newRequest]
  cases checkVelocity host params.walletId params.amount checkedAt s with
  | some reason => exact .inl rfl
  | none =>
    dsimp only
    split_ifs with hskip
    · rw [Bool.and_eq_true, decide_eq_true_iff] at hskip
      exact .inr ⟨rfl, .inr ⟨rfl, hskip⟩⟩
    · exact .inr ⟨rfl, .inl rfl⟩

theorem part_nonneg {P : WithdrawalRequest → Bool} {w : WithdrawalRequest}
    (h : w.walletId = walletId → 0 ≤ w.amount) : 0 ≤ part walletId rule P w := by
  rw [part]
  split_ifs with hpart
  · exact rule.measure_nonneg (h (by simpa using And.left (by simpa using hpart)))
  · exact le_rfl

/-- A request that changes no more than its status, and not to one in which it may be executed,
counts for no more. -/
theorem part_le {r' : WithdrawalRequest} (hr : r.walletId = walletId → 0 ≤ r.amount)
    (hwallet : r'.walletId = r.walletId) (hamount : r'.amount = r.amount)
    (htime : r'.createdAt = r.createdAt)
    (hlive : isOpen r || r.status = .executed) :
    part walletId rule (inWindow rule start) r' ≤ part walletId rule (inWindow rule start) r := by
  rw [part, part, hwallet, hamount]
  simp only [inWindow, within, htime, hlive, Bool.and_true]
  by_cases hw : r.walletId = walletId
  · have hnonneg := rule.measure_nonneg (hr hw)
    split_ifs with hnew hold hold
    · exact le_rfl
    · simp_all
    · exact hnonneg
    · exact le_rfl
  · simp [hw]

theorem Bounded.put {r' : WithdrawalRequest} (h : Bounded walletId rule bound s)
    (hfound : s.withdrawalRequests.get id = some r) (hid : r'.id = r.id)
    (hwallet : r'.walletId = r.walletId) (hamount : r'.amount = r.amount)
    (htime : r'.createdAt = r.createdAt) (hlive : isOpen r || r.status = .executed) :
    Bounded walletId rule bound (s.put r') := by
  have hmem := (Table.get_some hfound).1
  refine ⟨Table.forall_set ?_ h.amounts, fun start => ?_⟩
  · rw [hwallet, hamount]
    exact h.amounts r hmem
  · have hget : s.withdrawalRequests.get r'.id = some r := by
      rw [hid, Table.key_of_get hfound]
      exact hfound
    have hpart : part walletId rule (inWindow rule start) r' ≤ _ :=
      part_le (h.amounts r hmem) hwallet hamount htime hlive
    exact (total_set_le hget hpart fun _ _ _ => le_rfl).trans (h.windows start)

/-- What is counted in a window is open, or has been executed since any time before it. -/
theorem window_le (h : Bounded walletId rule bound s) {since : Int} (hsince : since ≤ start) :
    Records.total (part walletId rule (inWindow rule start)) s.withdrawalRequests ≤
      Records.total (part walletId rule (executedSince since)) s.withdrawalRequests +
        Records.total (part walletId rule isOpen) s.withdrawalRequests := by
  rw [Records.total, Records.total, Records.total, ← List.sum_map_add]
  refine List.sum_le_sum fun w hw => ?_
  have hexecuted : 0 ≤ part walletId rule (executedSince since) w := part_nonneg (h.amounts w hw)
  have hopen : 0 ≤ part walletId rule isOpen w := part_nonneg (h.amounts w hw)
  by_cases hcounted : (w.walletId = walletId && inWindow rule start w) = true
  · have hpart : part walletId rule (inWindow rule start) w = rule.measure w.amount :=
      if_pos hcounted
    rw [Bool.and_eq_true, decide_eq_true_iff, inWindow, Bool.and_eq_true, within, Bool.and_eq_true,
      decide_eq_true_iff, Bool.or_eq_true, decide_eq_true_iff] at hcounted
    obtain ⟨hwallet, ⟨hfrom, -⟩, hlive | hdone⟩ := hcounted
    · have hsame : part walletId rule isOpen w = rule.measure w.amount :=
        if_pos (by simp [hwallet, hlive])
      rw [hpart, hsame]
      exact le_add_of_nonneg_left hexecuted
    · have hsame : part walletId rule (executedSince since) w = rule.measure w.amount :=
        if_pos (by simp [hwallet, executedSince, hdone, hsince.trans hfrom])
      rw [hpart, hsame]
      exact le_add_of_nonneg_right hopen
  · rw [part, if_neg hcounted]
    exact add_nonneg hexecuted hopen

/-- Within a window there is room for a request that is let through. -/
theorem Bounded.create (h : Bounded walletId rule bound s)
    (hbound : most + slack ≤ bound) (hfresh : s.withdrawalRequests.get id = none)
    (hpaced : Paced walletId rule most slack s
      (.createWithdrawalRequest params id checkedAt elapsed)) :
    Bounded walletId rule bound (s.put (newRequest host params id checkedAt elapsed s)) := by
  obtain ⟨hid, hwallet, hamount, htime, -⟩ :=
    newRequest_fields host params id checkedAt elapsed s
  have hstatus := newRequest_status host params id checkedAt elapsed s
  generalize newRequest host params id checkedAt elapsed s = r at *
  refine ⟨Table.forall_set ?_ h.amounts, fun start => ?_⟩
  · rw [hwallet, hamount]
    exact fun hw => (hpaced hw).1
  · show Records.total _ (s.withdrawalRequests.set r) ≤ bound
    rw [total_set_fresh _ (hid ▸ hfresh)]
    rw [part]
    split_ifs with hpart
    · rw [Bool.and_eq_true, decide_eq_true_iff, hwallet] at hpart
      obtain ⟨rfl, hpart⟩ := hpart
      obtain ⟨-, hmost, hslack⟩ := hpaced rfl
      rw [inWindow, within, Bool.and_eq_true, Bool.and_eq_true, decide_eq_true_iff,
        decide_eq_true_iff, htime] at hpart
      obtain ⟨⟨-, hlast⟩, hlive⟩ := hpart
      obtain hblocked | ⟨hcheck, -⟩ := hstatus
      · simp [isOpen, hblocked] at hlive
      · have hroom := room_of_checkVelocity hcheck rule
        have hwindow := window_le h (show checkedAt - rule.period ≤ start by omega)
        rw [hamount]
        linarith
    · rw [add_zero]
      exact h.windows start

theorem Bounded.step (h : Bounded walletId rule bound s) (hbound : most + slack ≤ bound)
    (hpaced : Paced walletId rule most slack s c) :
    Bounded walletId rule bound (commit (system host) s c) := by
  have hmoves := commit_moves host s c
  generalize commit (system host) s c = s' at hmoves
  cases hmoves with
  | kept same => exact ⟨by rw [same]; exact h.amounts, by rw [same]; exact h.windows⟩
  | created fresh stored =>
    rw [stored]
    exact h.create hbound fresh hpaced
  | approved found pending authorized stored =>
    rw [stored]
    exact h.put found rfl rfl rfl rfl (by simp [isOpen, pending])
  | rejected found pending stored =>
    rw [stored]
    exact h.put found rfl rfl rfl rfl (by simp [isOpen, pending])
  | executed found approved stored =>
    rw [stored]
    exact h.put found rfl rfl rfl rfl (by simp [isOpen, approved])

def plainHost : Host := ⟨fun text => text, fun _ => ""⟩

/-- One withdrawal an hour is allowed; the second is requested before the first is executed. -/
def twoAtOnce : List Call :=
  [.configureWallet "wallet" ⟨some 2, some ["alice", "bob"], some ⟨none, none, some 1⟩⟩,
    .createWithdrawalRequest ⟨"wallet", "shop", 100⟩ "first" 0 1,
    .createWithdrawalRequest ⟨"wallet", "shop", 200⟩ "second" 2 1,
    .approveWithdrawal "first" "alice", .approveWithdrawal "second" "bob",
    .approveWithdrawal "first" "bob", .approveWithdrawal "second" "alice",
    .markExecuted "first" "0x1", .markExecuted "second" "0x2",
    .createWithdrawalRequest ⟨"wallet", "shop", 300⟩ "third" 4 1]

/-- A request that needs no review: its address is on the list, and one approval would do. -/
def SkipsReview (host : Host) (id : String) (s : State) : Call → Prop
  | .createWithdrawalRequest params id' _ _ =>
    id' = id ∧ isAllowlisted host params.walletId params.toAddress s = true ∧
      (s.walletConfigs params.walletId).approvalThreshold ≤ 1
  | _ => False

/-- An approval by one who is an approver of the wallet at that time. -/
def ApprovedBy (r : WithdrawalRequest) (approver : String) (s : State) (c : Call) : Prop :=
  c = .approveWithdrawal r.id approver ∧ approver ∈ (s.walletConfigs r.walletId).approvers

/-- An approval after which there are as many as the wallet asks for at that time. -/
def LastApproval (r : WithdrawalRequest) (s : State) (c : Call) : Prop :=
  (∃ approver ∈ r.approvals, c = .approveWithdrawal r.id approver) ∧
    (s.walletConfigs r.walletId).approvalThreshold ≤ r.approvals.length

/-- What has been done for a request to be where it is. -/
structure Backed (host : Host) (calls : List Call) (r : WithdrawalRequest) : Prop where
  distinct : r.approvals.Nodup
  authorized : ∀ a ∈ r.approvals, PastTime.Once (system host) (ApprovedBy r a) empty calls
  cleared : r.status = .approved ∨ r.status = .executed →
    PastTime.Once (system host) (SkipsReview host r.id) empty calls ∨
      PastTime.Once (system host) (LastApproval r) empty calls

variable {calls : List Call}

theorem Backed.later (h : Backed host calls r) (c : Call) : Backed host (calls ++ [c]) r where
  distinct := h.distinct
  authorized := fun a ha => PastTime.once_snoc.mpr (.inl (h.authorized a ha))
  cleared := fun hstatus => (h.cleared hstatus).imp
    (fun hskip => PastTime.once_snoc.mpr (.inl hskip))
    (fun hlast => PastTime.once_snoc.mpr (.inl hlast))

/-- A new approval is one more, or it is there already. -/
theorem mem_approve {a : String} {threshold : Int} :
    a ∈ (r.approve approver threshold).approvals ↔ a ∈ r.approvals ∨ a = approver := by
  show a ∈ (if approver ∈ r.approvals then r.approvals else r.approvals ++ [approver]) ↔ _
  split_ifs with hmem
  · exact ⟨.inl, fun h => h.elim (fun h => h) fun h => h ▸ hmem⟩
  · rw [List.mem_append, List.mem_singleton]

theorem Backed.approve (h : Backed host calls r) (hpending : r.status = .pendingApproval)
    (hauthorized : approver ∈
      ((run (system host) empty calls).walletConfigs r.walletId).approvers) :
    Backed host (calls ++ [.approveWithdrawal r.id approver])
      (r.approve approver
        ((run (system host) empty calls).walletConfigs r.walletId).approvalThreshold) := by
  refine ⟨?_, fun a ha => ?_, fun hstatus => .inr (PastTime.once_snoc.mpr (.inr ?_))⟩
  · show List.Nodup (if approver ∈ r.approvals then r.approvals else r.approvals ++ [approver])
    split_ifs with hmem
    · exact h.distinct
    · exact h.distinct.append (List.nodup_singleton _) (List.disjoint_singleton.mpr hmem)
  · obtain hold | rfl := mem_approve.mp ha
    · exact PastTime.once_snoc.mpr (.inl (h.authorized a hold))
    · exact PastTime.once_snoc.mpr (.inr ⟨rfl, hauthorized⟩)
  · refine ⟨⟨approver, mem_approve.mpr (.inr rfl), rfl⟩, ?_⟩
    rw [WithdrawalRequest.approve] at hstatus ⊢
    dsimp only at hstatus ⊢
    by_contra hfew
    rw [if_neg hfew, hpending] at hstatus
    exact hstatus.elim nofun nofun

theorem backed_run (host : Host) (calls : List Call) :
    ∀ r ∈ (run (system host) empty calls).withdrawalRequests, Backed host calls r := by
  induction calls using List.reverseRecOn with
  | nil => exact nofun
  | append_singleton calls c ih =>
    have hlater : ∀ r ∈ (run (system host) empty calls).withdrawalRequests,
        Backed host (calls ++ [c]) r := fun r hr => (ih r hr).later c
    have hmoves := commit_moves host (run (system host) empty calls) c
    rw [run_snoc]
    generalize commit (system host) (run (system host) empty calls) c = s' at hmoves
    cases hmoves with
    | kept same =>
      rw [same]
      exact hlater
    | @created params id checkedAt elapsed fresh stored =>
      rw [stored]
      refine Table.forall_set ⟨?_, ?_, fun hstatus => ?_⟩ hlater
      · rw [(newRequest_fields host params id checkedAt elapsed _).2.2.2.2]
        exact List.nodup_nil
      · rw [(newRequest_fields host params id checkedAt elapsed _).2.2.2.2]
        exact nofun
      · obtain hblocked | ⟨-, hpending | ⟨-, hskips⟩⟩ :=
          newRequest_status host params id checkedAt elapsed (run (system host) empty calls)
        · rw [hblocked] at hstatus
          exact absurd hstatus (by decide)
        · rw [hpending] at hstatus
          exact absurd hstatus (by decide)
        · refine .inl (PastTime.once_snoc.mpr (.inr ⟨?_, hskips⟩))
          exact (newRequest_fields host params id checkedAt elapsed _).1.symm
    | approved found pending authorized stored =>
      rw [stored]
      obtain ⟨hmem, rfl⟩ := Table.get_some found
      exact Table.forall_set ((ih _ hmem).approve pending authorized) hlater
    | rejected found pending stored =>
      rw [stored]
      have hold := hlater _ (Table.get_some found).1
      exact Table.forall_set ⟨hold.distinct, hold.authorized, fun h => h.elim nofun nofun⟩ hlater
    | executed found approved stored =>
      rw [stored]
      have hold := hlater _ (Table.get_some found).1
      exact Table.forall_set
        ⟨hold.distinct, hold.authorized, fun _ => hold.cleared (.inl approved)⟩ hlater

/-- A withdrawal that is executed needed no review when it was requested, or its approvals had come
to as many as its wallet asked for: by different people, each an approver of the wallet then. -/
theorem executed_backed (host : Host) (calls : List Call) :
    ∀ r ∈ (run (system host) empty calls).withdrawalRequests, r.status = .executed →
      r.approvals.Nodup ∧
      (∀ a ∈ r.approvals, PastTime.Once (system host) (ApprovedBy r a) empty calls) ∧
      (PastTime.Once (system host) (SkipsReview host r.id) empty calls ∨
        PastTime.Once (system host) (LastApproval r) empty calls) := by
  intro r hr hstatus
  have hbacked := backed_run host calls r hr
  exact ⟨hbacked.distinct, hbacked.authorized, hbacked.cleared (.inr hstatus)⟩

def firstOfTwo : WithdrawalRequest :=
  { id := "first", walletId := "wallet", toAddress := "shop", amount := 100, status := .executed,
    isAllowlisted := false, approvals := ["alice", "bob"], rejections := [], createdAt := 1,
    executedTxHash := some "0x1", blockReason := none }

theorem executed_backed_firstOfTwo :
    firstOfTwo.approvals.Nodup ∧
      (∀ a ∈ firstOfTwo.approvals,
        PastTime.Once (system plainHost) (ApprovedBy firstOfTwo a) empty twoAtOnce) ∧
      (PastTime.Once (system plainHost) (SkipsReview plainHost "first") empty twoAtOnce ∨
        PastTime.Once (system plainHost) (LastApproval firstOfTwo) empty twoAtOnce) :=
  have hmem : firstOfTwo ∈ (run (system plainHost) empty twoAtOnce).withdrawalRequests.records := by
    decide +kernel
  executed_backed plainHost twoAtOnce firstOfTwo hmem rfl

end Withdrawals
