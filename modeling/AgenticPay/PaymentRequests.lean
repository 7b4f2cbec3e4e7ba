import AgenticPay.Soroban
import Mathlib.Logic.Function.Basic

/-!
# The payment request contract

Requests to be paid until they expire, the entry points and, for each of them,
what a returned call has checked and what it leaves. Whether the token contract
goes along with a transfer is up to it: the answer comes with the call, and a
transfer that went through is kept beside the storage.
-/
namespace PaymentRequestContract

open Soroban Contract Transaction

def minTtlSecs : Nat := 60
def maxTtlSecs : Nat := 90 * 24 * 3600
def defaultGracePeriodSecs : Nat := 60

inductive RequestStatus where
  | pending | paid | expired | cancelled
  deriving DecidableEq, Repr

structure PaymentRequest where
  id : Nat
  requester : Address
  payer : Option Address
  token : Address
  amount : Int
  status : RequestStatus
  createdAt : Nat
  expiresAt : Nat
  gracePeriod : Nat
  expiredAt : Nat
  paidAt : Nat
  memo : String
  deriving DecidableEq, Repr

inductive RequestError where
  | alreadyInitialized | unauthorized | notFound | alreadyPaid | alreadyExpired
  | alreadyCancelled | requestIsExpired | notExpiredYet | unauthorizedPayer | invalidAmount
  | invalidTtl | cannotRenewActive | notInitialized
  deriving DecidableEq, Repr

def RequestError.code : RequestError → Nat
  | .alreadyInitialized => 1
  | .unauthorized => 2
  | .notFound => 3
  | .alreadyPaid => 4
  | .alreadyExpired => 5
  | .alreadyCancelled => 6
  | .requestIsExpired => 7
  | .notExpiredYet => 8
  | .unauthorizedPayer => 9
  | .invalidAmount => 10
  | .invalidTtl => 11
  | .cannotRenewActive => 12
  | .notInitialized => 13

/-- A transfer of the token of a request, made to pay it. -/
structure Transfer where
  request : Nat
  token : Address
  payer : Address
  requester : Address
  amount : Int
  deriving DecidableEq, Repr

/-- The instance storage, the persistent requests, and the transfers made so far. -/
structure Storage where
  init : Option Bool
  admin : Option Address
  grace : Option Nat
  nextId : Option Nat
  request : Nat → Option PaymentRequest
  transfers : List Transfer

inductive Event where
  | created (id : Nat) (requester : Address) (payer : Option Address) (token : Address)
      (amount : Int) (expiresAt : Nat) (memo : String)
  | paid (id : Nat) (requester payer : Address) (amount : Int) (paidAt : Nat)
  | expired (id : Nat) (requester : Address) (expiredAt : Nat)
  | cancelled (id : Nat) (requester : Address)
  | renewed (oldId newId : Nat) (newAmount : Int) (newExpiresAt : Nat)
  deriving DecidableEq, Repr

abbrev World := Soroban.World Storage Event

abbrev Entry (α : Type) := Contract Storage Event α

def deployed : World where
  storage :=
    { init := none, admin := none, grace := none, nextId := none, request := fun _ => none,
      transfers := [] }
  events := []

/-- `persistent().set(&id, req)`. -/
def Storage.putRequest (s : Storage) (id : Nat) (req : PaymentRequest) : Storage :=
  { s with request := Function.update s.request id (some req) }

/-- `get_next_id`. -/
def Storage.next (s : Storage) : Nat := s.nextId.getD 1

/-- `get_grace_period`. -/
def Storage.gracePeriod (s : Storage) : Nat := s.grace.getD 60

def findRequest (id : Nat) : Entry PaymentRequest := do
  let stored ← read (·.request id)
  okOr stored RequestError.notFound.code

def admin : Entry Address := do
  let stored ← read (·.admin)
  okOr stored RequestError.notInitialized.code

def requireAdmin : Entry Unit := do
  let admin ← admin
  requireAuth admin

/-- `inc_next_id`. -/
def incNextId : Entry Unit := do
  let id ← read (·.next)
  let following ← addU64 id 1
  write ({ · with nextId := some following })

/-- `token_client.transfer(payer, requester, amount)`, where the token contract traps
with `refusal` or goes along. -/
def tokenTransfer (refusal : Option Trap) (transfer : Transfer) : Entry Unit :=
  match refusal with
  | some t => trap t
  | none => write fun s => { s with transfers := s.transfers ++ [transfer] }

/-- The entry point `initialize`, whose name is reserved here. -/
def initializeContract (admin : Address) : Entry Unit := do
  let init ← read (·.init)
  ensure (init = none) RequestError.alreadyInitialized.code
  requireAuth admin
  write ({ · with admin := some admin })
  write ({ · with grace := some defaultGracePeriodSecs })
  write ({ · with init := some true })

def setGracePeriod (graceSecs : Nat) : Entry Unit := do
  requireAdmin
  write ({ · with grace := some graceSecs })

def createRequest (requester : Address) (payer : Option Address) (token : Address)
    (amount : Int) (ttlSecs : Nat) (memo : String) : Entry Nat := do
  requireAuth requester
  ensure (¬ amount ≤ 0) RequestError.invalidAmount.code
  ensure (¬ (ttlSecs < minTtlSecs ∨ ttlSecs > maxTtlSecs)) RequestError.invalidTtl.code
  let id ← read (·.next)
  incNextId
  let now ← timestamp
  let expiresAt ← addU64 now ttlSecs
  let gracePeriod ← read (·.gracePeriod)
  let req : PaymentRequest :=
    { id, requester, payer, token, amount, status := .pending, createdAt := now, expiresAt,
      gracePeriod, expiredAt := 0, paidAt := 0, memo }
  write (·.putRequest id req)
  publish (.created id requester payer token amount expiresAt memo)
  return id

def pay (refusal : Option Trap) (payer : Address) (id : Nat) : Entry Unit := do
  requireAuth payer
  let req ← findRequest id
  let now ← timestamp
  let deadline ← addU64 req.expiresAt req.gracePeriod
  if now > deadline then do
    write (·.putRequest id { req with status := .expired, expiredAt := now })
    publish (.expired id req.requester now)
    fail RequestError.requestIsExpired.code
  else do
    ensure (req.payer = none ∨ req.payer = some payer) RequestError.unauthorizedPayer.code
    write (·.putRequest id { req with status := .paid, paidAt := now })
    tokenTransfer refusal
      { request := id, token := req.token, payer, requester := req.requester,
        amount := req.amount }
    publish (.paid id req.requester payer req.amount now)

def expireRequest (id : Nat) : Entry Unit := do
  let req ← findRequest id
  let now ← timestamp
  let deadline ← addU64 req.expiresAt req.gracePeriod
  ensure (¬ now ≤ deadline) RequestError.notExpiredYet.code
  write (·.putRequest id { req with status := .expired, expiredAt := now })
  publish (.expired id req.requester now)

def cancelRequest (requester : Address) (id : Nat) : Entry Unit := do
  requireAuth requester
  let req ← findRequest id
  ensure (req.requester = requester) RequestError.unauthorized.code
  write (·.putRequest id { req with status := .cancelled })
  publish (.cancelled id requester)

def renewRequest (requester : Address) (oldId : Nat) (newAmount : Int) (newTtlSecs : Nat) :
    Entry Nat := do
  requireAuth requester
  let oldReq ← findRequest oldId
  ensure (oldReq.requester = requester) RequestError.unauthorized.code
  ensure (oldReq.status = .expired ∨ oldReq.status = .cancelled)
    RequestError.cannotRenewActive.code
  ensure (¬ newAmount ≤ 0) RequestError.invalidAmount.code
  ensure (¬ (newTtlSecs < minTtlSecs ∨ newTtlSecs > maxTtlSecs)) RequestError.invalidTtl.code
  let newId ← read (·.next)
  incNextId
  let now ← timestamp
  let newExpiresAt ← addU64 now newTtlSecs
  let gracePeriod ← read (·.gracePeriod)
  let newReq : PaymentRequest :=
    { id := newId, requester := oldReq.requester, payer := oldReq.payer, token := oldReq.token,
      amount := newAmount, status := .pending, createdAt := now, expiresAt := newExpiresAt,
      gracePeriod, expiredAt := 0, paidAt := 0, memo := oldReq.memo }
  write (·.putRequest newId newReq)
  publish (.renewed oldId newId newAmount newExpiresAt)
  return newId

def getRequest (id : Nat) : Entry PaymentRequest := findRequest id

def isExpired (id : Nat) : Entry Bool := do
  let stored ← read (·.request id)
  match stored with
  | none => return false
  | some req =>
    if req.status = .expired then return true
    else do
      let now ← timestamp
      let deadline ← addU64 req.expiresAt req.gracePeriod
      return now > deadline

def gracePeriod : Entry Nat := read (·.gracePeriod)

inductive Call where
  | initializeContract (admin : Address)
  | setGracePeriod (graceSecs : Nat)
  | createRequest (requester : Address) (payer : Option Address) (token : Address)
      (amount : Int) (ttlSecs : Nat) (memo : String)
  | pay (refusal : Option Trap) (payer : Address) (id : Nat)
  | expireRequest (id : Nat)
  | cancelRequest (requester : Address) (id : Nat)
  | renewRequest (requester : Address) (oldId : Nat) (newAmount : Int) (newTtlSecs : Nat)
  | getRequest (id : Nat)
  | isExpired (id : Nat)
  | admin
  | gracePeriod
  deriving DecidableEq, Repr

inductive Ret where
  | unit
  | id (n : Nat)
  | seconds (n : Nat)
  | flag (b : Bool)
  | address (a : Address)
  | request (req : PaymentRequest)
  deriving DecidableEq, Repr

def invoke : Call → Entry Ret
  | .initializeContract a => returning (fun _ => .unit) (initializeContract a)
  | .setGracePeriod graceSecs => returning (fun _ => .unit) (setGracePeriod graceSecs)
  | .createRequest requester payer token amount ttlSecs memo =>
    returning .id (createRequest requester payer token amount ttlSecs memo)
  | .pay refusal payer id => returning (fun _ => .unit) (pay refusal payer id)
  | .expireRequest id => returning (fun _ => .unit) (expireRequest id)
  | .cancelRequest requester id => returning (fun _ => .unit) (cancelRequest requester id)
  | .renewRequest requester oldId newAmount newTtlSecs =>
    returning .id (renewRequest requester oldId newAmount newTtlSecs)
  | .getRequest id => returning .request (getRequest id)
  | .isExpired id => returning .flag (isExpired id)
  | .admin => returning .address admin
  | .gracePeriod => returning .seconds gracePeriod

def contract : System (Submission Call) World Trap Ret := system invoke

/-! ## What a returned call has done -/

def Call.isView : Call → Bool
  | .getRequest _ | .isExpired _ | .admin | .gracePeriod => true
  | _ => false

/-- The request `create_request` and `renew_request` store. -/
def newRequest (s : Storage) (now : Nat) (requester : Address) (payer : Option Address)
    (token : Address) (amount : Int) (ttlSecs : Nat) (memo : String) : PaymentRequest :=
  { id := s.next, requester, payer, token, amount, status := .pending, createdAt := now,
    expiresAt := now + ttlSecs, gracePeriod := s.gracePeriod, expiredAt := 0, paidAt := 0, memo }

/-- The bounds on a new request, and room for its id and its deadline. -/
structure Accepted (s : Storage) (now : Nat) (amount : Int) (ttlSecs : Nat) : Prop where
  positive : 0 < amount
  ttl : minTtlSecs ≤ ttlSecs ∧ ttlSecs ≤ maxTtlSecs
  id : s.next + 1 < u64Bound
  ends : now + ttlSecs < u64Bound

theorem accepted_iff {s : Storage} {now : Nat} {amount : Int} {ttlSecs : Nat} :
    Accepted s now amount ttlSecs ↔
      0 < amount ∧ minTtlSecs ≤ ttlSecs ∧ ttlSecs ≤ maxTtlSecs ∧ s.next + 1 < u64Bound ∧
        now + ttlSecs < u64Bound :=
  ⟨fun h => ⟨h.positive, h.ttl.1, h.ttl.2, h.id, h.ends⟩,
    fun h => ⟨h.1, ⟨h.2.1, h.2.2.1⟩, h.2.2.2.1, h.2.2.2.2⟩⟩

/-- What `pay` checks of the request and of the call. -/
structure Payable (env : Env) (refusal : Option Trap) (payer : Address) (req : PaymentRequest) :
    Prop where
  signed : payer ∈ env.auths
  fits : req.expiresAt + req.gracePeriod < u64Bound
  inTime : env.timestamp ≤ req.expiresAt + req.gracePeriod
  entitled : req.payer = none ∨ req.payer = some payer
  moves : refusal = none

/-- What `expire_request` checks of the request. -/
structure Expirable (env : Env) (req : PaymentRequest) : Prop where
  fits : req.expiresAt + req.gracePeriod < u64Bound
  late : req.expiresAt + req.gracePeriod < env.timestamp

/-- What `cancel_request` and `renew_request` check of the caller. -/
structure Owned (env : Env) (requester : Address) (req : PaymentRequest) : Prop where
  signed : requester ∈ env.auths
  owned : req.requester = requester

theorem payable_iff {env : Env} {refusal : Option Trap} {payer : Address}
    {req : PaymentRequest} :
    Payable env refusal payer req ↔
      payer ∈ env.auths ∧ req.expiresAt + req.gracePeriod < u64Bound ∧
        env.timestamp ≤ req.expiresAt + req.gracePeriod ∧
        (req.payer = none ∨ req.payer = some payer) ∧ refusal = none :=
  ⟨fun h => ⟨h.signed, h.fits, h.inTime, h.entitled, h.moves⟩,
    fun h => ⟨h.1, h.2.1, h.2.2.1, h.2.2.2.1, h.2.2.2.2⟩⟩

theorem expirable_iff {env : Env} {req : PaymentRequest} :
    Expirable env req ↔ req.expiresAt + req.gracePeriod < u64Bound ∧
      req.expiresAt + req.gracePeriod < env.timestamp :=
  ⟨fun h => ⟨h.fits, h.late⟩, fun h => ⟨h.1, h.2⟩⟩

theorem owned_iff {env : Env} {requester : Address} {req : PaymentRequest} :
    Owned env requester req ↔ requester ∈ env.auths ∧ req.requester = requester :=
  ⟨fun h => ⟨h.signed, h.owned⟩, fun h => ⟨h.1, h.2⟩⟩

/-- What an accepted call has checked, and the world it leaves. -/
inductive Step (env : Env) (w : World) : Call → World → Prop
  | viewed {call} (isView : call.isView = true) : Step env w call w
  | initialized {admin} (first : w.storage.init = none) (signed : admin ∈ env.auths) :
      Step env w (.initializeContract admin)
        { w with storage :=
            { w.storage with
              admin := some admin, grace := some defaultGracePeriodSecs, init := some true } }
  | graceSet {graceSecs admin} (stored : w.storage.admin = some admin)
      (signed : admin ∈ env.auths) :
      Step env w (.setGracePeriod graceSecs)
        { w with storage := { w.storage with grace := some graceSecs } }
  | created {requester payer token amount ttlSecs memo} (signed : requester ∈ env.auths)
      (accepted : Accepted w.storage env.timestamp amount ttlSecs) :
      Step env w (.createRequest requester payer token amount ttlSecs memo)
        ⟨{ w.storage.putRequest w.storage.next (newRequest w.storage env.timestamp requester payer
              token amount ttlSecs memo) with
            nextId := some (w.storage.next + 1) },
          w.events ++ [.created w.storage.next requester payer token amount
            (env.timestamp + ttlSecs) memo]⟩
  | paid {refusal payer id req} (found : w.storage.request id = some req)
      (payable : Payable env refusal payer req) :
      Step env w (.pay refusal payer id)
        ⟨{ w.storage.putRequest id { req with status := .paid, paidAt := env.timestamp } with
            transfers := w.storage.transfers ++ [⟨id, req.token, payer, req.requester,
              req.amount⟩] },
          w.events ++ [.paid id req.requester payer req.amount env.timestamp]⟩
  | expired {id req} (found : w.storage.request id = some req) (expirable : Expirable env req) :
      Step env w (.expireRequest id)
        ⟨w.storage.putRequest id { req with status := .expired, expiredAt := env.timestamp },
          w.events ++ [.expired id req.requester env.timestamp]⟩
  | cancelled {requester id req} (found : w.storage.request id = some req)
      (owned : Owned env requester req) :
      Step env w (.cancelRequest requester id)
        ⟨w.storage.putRequest id { req with status := .cancelled },
          w.events ++ [.cancelled id requester]⟩
  | renewed {requester oldId oldReq newAmount newTtlSecs}
      (found : w.storage.request oldId = some oldReq)
      (owned : Owned env requester oldReq)
      (closed : oldReq.status = .expired ∨ oldReq.status = .cancelled)
      (accepted : Accepted w.storage env.timestamp newAmount newTtlSecs) :
      Step env w (.renewRequest requester oldId newAmount newTtlSecs)
        ⟨{ w.storage.putRequest w.storage.next (newRequest w.storage env.timestamp
              oldReq.requester oldReq.payer oldReq.token newAmount newTtlSecs oldReq.memo) with
            nextId := some (w.storage.next + 1) },
          w.events ++ [.renewed oldId w.storage.next newAmount (env.timestamp + newTtlSecs)]⟩

section Returns

variable {env : Env} {w w' : World} {u : Unit}

@[simp] theorem findRequest_ok {id : Nat} {req : PaymentRequest} :
    findRequest id env w = .ok (req, w') ↔ w.storage.request id = some req ∧ w = w' := by
  simp [findRequest]

@[simp] theorem tokenTransfer_ok {refusal : Option Trap} {transfer : Transfer} :
    tokenTransfer refusal transfer env w = .ok (u, w') ↔
      refusal = none ∧
        { w with storage :=
            { w.storage with transfers := w.storage.transfers ++ [transfer] } } = w' := by
  cases refusal <;> simp [tokenTransfer]

@[simp] theorem incNextId_ok :
    incNextId env w = .ok (u, w') ↔
      w.storage.next + 1 < u64Bound ∧
        { w with storage := { w.storage with nextId := some (w.storage.next + 1) } } = w' := by
  simp [incNextId]

theorem setGracePeriod_ok {graceSecs : Nat} :
    setGracePeriod graceSecs env w = .ok (u, w') ↔
      ∃ admin, w.storage.admin = some admin ∧ admin ∈ env.auths ∧
        { w with storage := { w.storage with grace := some graceSecs } } = w' := by
  simp [setGracePeriod, requireAdmin, admin, and_assoc]

theorem initializeContract_ok {a : Address} :
    initializeContract a env w = .ok (u, w') ↔
      w.storage.init = none ∧ a ∈ env.auths ∧
        { w with storage :=
            { w.storage with
              admin := some a, grace := some defaultGracePeriodSecs, init := some true } } =
          w' := by
  simp [initializeContract]

theorem createRequest_ok {requester token : Address} {payer : Option Address} {amount : Int}
    {ttlSecs id : Nat} {memo : String} :
    createRequest requester payer token amount ttlSecs memo env w = .ok (id, w') ↔
      requester ∈ env.auths ∧ Accepted w.storage env.timestamp amount ttlSecs ∧
        id = w.storage.next ∧
        (⟨{ w.storage.putRequest w.storage.next (newRequest w.storage env.timestamp requester
              payer token amount ttlSecs memo) with
            nextId := some (w.storage.next + 1) },
          w.events ++ [.created w.storage.next requester payer token amount
            (env.timestamp + ttlSecs) memo]⟩ : World) = w' := by
  simp [createRequest, accepted_iff, newRequest, Storage.putRequest, Storage.gracePeriod, and_assoc]
  exact fun _ _ _ _ _ _ _ => eq_comm

theorem pay_ok {refusal : Option Trap} {payer : Address} {id : Nat} :
    pay refusal payer id env w = .ok (u, w') ↔
      ∃ req, w.storage.request id = some req ∧ Payable env refusal payer req ∧
        (⟨{ w.storage.putRequest id { req with status := .paid, paidAt := env.timestamp } with
            transfers := w.storage.transfers ++ [⟨id, req.token, payer, req.requester,
              req.amount⟩] },
          w.events ++ [.paid id req.requester payer req.amount env.timestamp]⟩ : World) = w' := by
  simp [pay, payable_iff, Storage.putRequest, and_assoc]
  constructor
  · rintro ⟨hsigned, req, hfound, hrest⟩
    exact ⟨req, hfound, hsigned, hrest⟩
  · rintro ⟨req, hfound, hsigned, hrest⟩
    exact ⟨hsigned, req, hfound, hrest⟩

theorem expireRequest_ok {id : Nat} :
    expireRequest id env w = .ok (u, w') ↔
      ∃ req, w.storage.request id = some req ∧ Expirable env req ∧
        (⟨w.storage.putRequest id { req with status := .expired, expiredAt := env.timestamp },
          w.events ++ [.expired id req.requester env.timestamp]⟩ : World) = w' := by
  simp [expireRequest, expirable_iff, Storage.putRequest, and_assoc]

theorem cancelRequest_ok {requester : Address} {id : Nat} :
    cancelRequest requester id env w = .ok (u, w') ↔
      ∃ req, w.storage.request id = some req ∧ Owned env requester req ∧
        (⟨w.storage.putRequest id { req with status := .cancelled },
          w.events ++ [.cancelled id requester]⟩ : World) = w' := by
  simp [cancelRequest, owned_iff, Storage.putRequest, and_assoc]
  constructor
  · rintro ⟨hsigned, req, hfound, hrest⟩
    exact ⟨req, hfound, hsigned, hrest⟩
  · rintro ⟨req, hfound, hsigned, hrest⟩
    exact ⟨hsigned, req, hfound, hrest⟩

theorem renewRequest_ok {requester : Address} {oldId newTtlSecs id : Nat} {newAmount : Int} :
    renewRequest requester oldId newAmount newTtlSecs env w = .ok (id, w') ↔
      ∃ oldReq, w.storage.request oldId = some oldReq ∧ Owned env requester oldReq ∧
        (oldReq.status = .expired ∨ oldReq.status = .cancelled) ∧
        Accepted w.storage env.timestamp newAmount newTtlSecs ∧ id = w.storage.next ∧
        (⟨{ w.storage.putRequest w.storage.next (newRequest w.storage env.timestamp
              oldReq.requester oldReq.payer oldReq.token newAmount newTtlSecs oldReq.memo) with
            nextId := some (w.storage.next + 1) },
          w.events ++ [.renewed oldId w.storage.next newAmount (env.timestamp + newTtlSecs)]⟩ :
            World) = w' := by
  simp [renewRequest, accepted_iff, owned_iff, newRequest, Storage.putRequest,
    Storage.gracePeriod, and_assoc]
  constructor
  · rintro ⟨hsigned, req, hfound, howned, hclosed, hpos, hlo, hhi, hid, hends, rfl, hw⟩
    exact ⟨req, hfound, hsigned, howned, hclosed, hpos, hlo, hhi, hid, hends, rfl, hw⟩
  · rintro ⟨req, hfound, hsigned, howned, hclosed, hpos, hlo, hhi, hid, hends, rfl, hw⟩
    exact ⟨hsigned, req, hfound, howned, hclosed, hpos, hlo, hhi, hid, hends, rfl, hw⟩

theorem isExpired_ok {id : Nat} {b : Bool} (h : isExpired id env w = .ok (b, w')) : w = w' := by
  simp only [isExpired, bind_ok, read_ok] at h
  obtain ⟨stored, _, ⟨_, rfl⟩, h⟩ := h
  cases stored with
  | none => exact (pure_ok.mp h).2
  | some req =>
    rw [ite_ok] at h
    obtain ⟨_, h⟩ | ⟨_, h⟩ := h
    · exact (pure_ok.mp h).2
    · simp only [bind_ok, timestamp_ok, addU64_ok, pure_ok] at h
      obtain ⟨_, _, ⟨_, rfl⟩, _, _, ⟨_, _, rfl⟩, _, rfl⟩ := h
      rfl

/-- The inversion of the dispatcher: what returned is one of the listed steps. -/
theorem step_of_ok {call : Call} {r : Ret} (h : invoke call env w = .ok (r, w')) :
    Step env w call w' := by
  cases call with
  | initializeContract a =>
    obtain ⟨_, ha, rfl⟩ := returning_ok.mp h
    obtain ⟨hfirst, hsigned, rfl⟩ := initializeContract_ok.mp ha
    exact .initialized hfirst hsigned
  | setGracePeriod graceSecs =>
    obtain ⟨_, ha, rfl⟩ := returning_ok.mp h
    obtain ⟨admin, hstored, hsigned, rfl⟩ := setGracePeriod_ok.mp ha
    exact .graceSet hstored hsigned
  | createRequest requester payer token amount ttlSecs memo =>
    obtain ⟨_, ha, rfl⟩ := returning_ok.mp h
    obtain ⟨hsigned, haccepted, _, rfl⟩ := createRequest_ok.mp ha
    exact .created hsigned haccepted
  | pay refusal payer id =>
    obtain ⟨_, ha, rfl⟩ := returning_ok.mp h
    obtain ⟨req, hfound, hpayable, rfl⟩ := pay_ok.mp ha
    exact .paid hfound hpayable
  | expireRequest id =>
    obtain ⟨_, ha, rfl⟩ := returning_ok.mp h
    obtain ⟨req, hfound, hexpirable, rfl⟩ := expireRequest_ok.mp ha
    exact .expired hfound hexpirable
  | cancelRequest requester id =>
    obtain ⟨_, ha, rfl⟩ := returning_ok.mp h
    obtain ⟨req, hfound, howned, rfl⟩ := cancelRequest_ok.mp ha
    exact .cancelled hfound howned
  | renewRequest requester oldId newAmount newTtlSecs =>
    obtain ⟨_, ha, rfl⟩ := returning_ok.mp h
    obtain ⟨oldReq, hfound, howned, hclosed, haccepted, _, rfl⟩ := renewRequest_ok.mp ha
    exact .renewed hfound howned hclosed haccepted
  | getRequest id =>
    obtain ⟨_, ha, rfl⟩ := returning_ok.mp h
    obtain ⟨_, rfl⟩ := findRequest_ok.mp ha
    exact .viewed rfl
  | isExpired id =>
    obtain ⟨_, ha, rfl⟩ := returning_ok.mp h
    obtain rfl := isExpired_ok ha
    exact .viewed rfl
  | admin =>
    obtain ⟨_, ha, rfl⟩ := returning_ok.mp h
    obtain rfl : w = w' := by simp [admin] at ha; exact ha.2
    exact .viewed rfl
  | gracePeriod =>
    obtain ⟨_, ha, rfl⟩ := returning_ok.mp h
    obtain ⟨_, rfl⟩ := read_ok.mp ha
    exact .viewed rfl

/-- Every committed submission is a listed step, or trapped and changed nothing. -/
theorem commit_step (w : World) (i : Submission Call) :
    Step i.env w i.call (commit contract w i) ∨ commit contract w i = w := by
  obtain ⟨r, hr⟩ | he := system_cases invoke w i
  · exact .inl (step_of_ok hr)
  · exact .inr he

end Returns

end PaymentRequestContract
