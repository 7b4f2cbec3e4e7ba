import AgenticPay.Evm
import AgenticPay.Reentrancy

/-!
# Payment requests with an expiration on the EVM

The requests, the functions, and what a payment has left to do when the requester or
the token returns. The payments are kept beside the storage. The ether that a payment
forwards is the ether that has come with it.
-/
namespace EvmRequestExpiry

open Evm Body Reentrancy

inductive RequestStatus where
  | pending | paid | expired | cancelled
  deriving DecidableEq, Repr

structure PaymentRequest where
  id : Nat
  requester : Address
  payer : Address
  token : Address
  amount : Nat
  status : RequestStatus
  createdAt : Nat
  expiresAt : Nat
  gracePeriod : UInt32
  expiredAt : Nat
  paidAt : Nat
  memo : String
  deriving DecidableEq

/-- What the mapping holds where nothing has been stored. -/
def PaymentRequest.blank : PaymentRequest :=
  ⟨0, .zero, .zero, .zero, 0, .pending, 0, 0, 0, 0, 0, ""⟩

inductive Event where
  | requestCreated (id : Nat) (requester payer token : Address) (amount expiresAt : Nat)
      (memo : String)
  | requestPaid (id : Nat) (requester payer : Address) (amount paidAt : Nat)
  | requestExpired (id : Nat) (requester : Address) (expiredAt : Nat)
  | requestCancelled (id : Nat) (requester : Address)
  | requestRenewed (oldId newId newAmount newExpiresAt : Nat)
  | defaultGracePeriodUpdated (newGracePeriod : UInt32)
  | ownershipTransferred (previousOwner newOwner : Address)
  deriving DecidableEq

inductive Error where
  | requestNotFound (id : Nat)
  | requestAlreadyPaid (id : Nat)
  | requestAlreadyExpired (id : Nat)
  | requestAlreadyCancelled (id : Nat)
  | requestNotExpiredYet (id : Nat)
  | requestIsExpired (id : Nat)
  | unauthorizedPayer (id : Nat) (caller : Address)
  | invalidAmount
  | invalidTtl (ttl : Nat)
  | ownableInvalidOwner (owner : Address)
  | ownableUnauthorizedAccount (account : Address)
  | reentrancyGuardReentrantCall
  deriving DecidableEq, Repr

/-- An amount that the sender of `pay` has sent to the requester. -/
structure Payment where
  id : Nat
  token : Address
  payer : Address
  requester : Address
  amount : Nat
  time : Nat
  deriving DecidableEq, Repr

structure State where
  owner : Address
  nextId : Nat
  requests : Nat → PaymentRequest
  defaultGracePeriod : UInt32
  entered : Bool
  payments : List Payment
  events : List Event

/-- What `pay` does after the transfer. -/
inductive Rest where
  | pay (id : Nat) (requester payer : Address) (amount time : Nat)
  deriving DecidableEq, Repr

abbrev Fn (α : Type) := Body State Error α

def maxTtl : Nat := 90 * 86400

def minTtl : Nat := 60

/-- The constructor. -/
def deploy (initialOwner : Address) : Except (Revert Error) State :=
  if initialOwner = .zero then .error (.error (.ownableInvalidOwner .zero))
  else .ok
    { owner := initialOwner, nextId := 0, requests := fun _ => .blank, defaultGracePeriod := 60,
      entered := false, payments := [],
      events := [.ownershipTransferred .zero initialOwner] }

def emit (e : Event) : Fn Unit := write fun s => { s with events := s.events ++ [e] }

def onlyOwner : Fn Unit := do
  let msg ← message
  let owner ← read (·.owner)
  revertIf (owner ≠ msg.sender) (.ownableUnauthorizedAccount msg.sender)

/-- `nonReentrant`, before the body. -/
def enterGuard : Fn Unit := do
  let entered ← read (·.entered)
  revertIf (entered = true) .reentrancyGuardReentrantCall
  write ({ · with entered := true })

/-- `nonReentrant`, after the body. -/
def leaveGuard : Fn Unit := write ({ · with entered := false })

def store (id : Nat) (req : PaymentRequest) : Fn Unit :=
  write fun s => { s with requests := Function.update s.requests id req }

/-- `_getActive`. -/
def getActive (id : Nat) : Fn PaymentRequest := do
  let req ← read (·.requests id)
  revertIf (req.id = 0) (.requestNotFound id)
  revertIf (req.status = .paid) (.requestAlreadyPaid id)
  revertIf (req.status = .expired) (.requestAlreadyExpired id)
  revertIf (req.status = .cancelled) (.requestAlreadyCancelled id)
  return req

/-- The end of `createRequest` and of `renewRequest`: the next id and the record under it, for
the requester, the payer, the token and the memo. -/
def addRequest (requester payer token : Address) (amount ttlSeconds : Nat) (memo : String)
    (announce : Nat → Nat → Fn Unit) : Fn (Option Rest) := do
  let msg ← message
  let lastId ← read (·.nextId)
  let id ← addWord lastId 1
  write ({ · with nextId := id })
  let expiresAt ← addWord msg.timestamp ttlSeconds
  let gracePeriod ← read (·.defaultGracePeriod)
  store id
    { id, requester, payer, token, amount, status := .pending, createdAt := msg.timestamp,
      expiresAt, gracePeriod, expiredAt := 0, paidAt := 0, memo }
  announce id expiresAt
  emit (.requestCreated id requester payer token amount expiresAt memo)
  return none

def createRequest (payer token : Address) (amount ttlSeconds : Nat) (memo : String) :
    Fn (Option Rest) := do
  nonPayable
  revertIf (amount = 0) .invalidAmount
  revertIf (ttlSeconds < minTtl ∨ ttlSeconds > maxTtl) (.invalidTtl ttlSeconds)
  let msg ← message
  addRequest msg.sender payer token amount ttlSeconds memo fun _ _ => pure ()

/-- The requirements of the transfer in `pay`. Ether that the contract sends to itself finds no
`receive`. -/
def checkTransfer (self : Address) (req : PaymentRequest) : Fn Unit := do
  let msg ← message
  if req.token = .zero then do
    require (msg.value = req.amount) "PaymentRequestExpiry: wrong ETH amount"
    require (req.requester ≠ self) "PaymentRequestExpiry: ETH transfer failed"
  else require (msg.value = 0) "PaymentRequestExpiry: ETH sent for token request"

/-- `pay`, up to the point where the requester or the token takes over. -/
def pay (self : Address) (id : Nat) : Fn (Option Rest) := do
  enterGuard
  let req ← getActive id
  let msg ← message
  let deadline ← addWord req.expiresAt req.gracePeriod.toNat
  -- the request that is marked here is not: the revert takes the mark back
  revertIf (msg.timestamp > deadline) (.requestIsExpired id)
  revertIf (req.payer ≠ .zero ∧ req.payer ≠ msg.sender) (.unauthorizedPayer id msg.sender)
  store id { req with status := .paid, paidAt := msg.timestamp }
  checkTransfer self req
  write fun s =>
    { s with
      payments := s.payments ++
        [⟨id, req.token, msg.sender, req.requester, req.amount, msg.timestamp⟩] }
  return some (.pay id req.requester msg.sender req.amount msg.timestamp)

def expireRequest (id : Nat) : Fn (Option Rest) := do
  nonPayable
  let req ← read (·.requests id)
  revertIf (req.id = 0) (.requestNotFound id)
  revertIf (req.status = .paid) (.requestAlreadyPaid id)
  revertIf (req.status = .cancelled) (.requestAlreadyCancelled id)
  revertIf (req.status = .expired) (.requestAlreadyExpired id)
  let msg ← message
  let deadline ← addWord req.expiresAt req.gracePeriod.toNat
  revertIf (msg.timestamp ≤ deadline) (.requestNotExpiredYet id)
  store id { req with status := .expired, expiredAt := msg.timestamp }
  emit (.requestExpired id req.requester msg.timestamp)
  return none

def cancelRequest (id : Nat) : Fn (Option Rest) := do
  nonPayable
  let req ← getActive id
  let msg ← message
  require (msg.sender = req.requester) "PaymentRequestExpiry: not requester"
  store id { req with status := .cancelled }
  emit (.requestCancelled id req.requester)
  return none

def renewRequest (oldId newAmount newTtlSeconds : Nat) : Fn (Option Rest) := do
  nonPayable
  let old ← read (·.requests oldId)
  revertIf (old.id = 0) (.requestNotFound oldId)
  require (old.status = .expired ∨ old.status = .cancelled)
    "PaymentRequestExpiry: original not expired/cancelled"
  let msg ← message
  require (msg.sender = old.requester) "PaymentRequestExpiry: not requester"
  revertIf (newAmount = 0) .invalidAmount
  revertIf (newTtlSeconds < minTtl ∨ newTtlSeconds > maxTtl) (.invalidTtl newTtlSeconds)
  addRequest old.requester old.payer old.token newAmount newTtlSeconds old.memo
    fun newId newExpiresAt => emit (.requestRenewed oldId newId newAmount newExpiresAt)

def setDefaultGracePeriod (gracePeriod : UInt32) : Fn (Option Rest) := do
  nonPayable
  onlyOwner
  write ({ · with defaultGracePeriod := gracePeriod })
  emit (.defaultGracePeriodUpdated gracePeriod)
  return none

def setOwner (newOwner : Address) : Fn (Option Rest) := do
  let owner ← read (·.owner)
  write ({ · with owner := newOwner })
  emit (.ownershipTransferred owner newOwner)
  return none

def transferOwnership (newOwner : Address) : Fn (Option Rest) := do
  nonPayable
  onlyOwner
  revertIf (newOwner = .zero) (.ownableInvalidOwner .zero)
  setOwner newOwner

def renounceOwnership : Fn (Option Rest) := do
  nonPayable
  onlyOwner
  setOwner .zero

/-- What `pay` does after the transfer. -/
def finish : Rest → Fn Unit
  | .pay id requester payer amount time => do
    emit (.requestPaid id requester payer amount time)
    leaveGuard

inductive Function where
  | createRequest (payer token : Address) (amount ttlSeconds : Nat) (memo : String)
  | pay (id : Nat)
  | expireRequest (id : Nat)
  | cancelRequest (id : Nat)
  | renewRequest (oldId newAmount newTtlSeconds : Nat)
  | setDefaultGracePeriod (gracePeriod : UInt32)
  | transferOwnership (newOwner : Address)
  | renounceOwnership
  deriving DecidableEq

def body (self : Address) : Function → Fn (Option Rest)
  | .createRequest payer token amount ttlSeconds memo =>
    createRequest payer token amount ttlSeconds memo
  | .pay id => pay self id
  | .expireRequest id => expireRequest id
  | .cancelRequest id => cancelRequest id
  | .renewRequest oldId newAmount newTtlSeconds => renewRequest oldId newAmount newTtlSeconds
  | .setDefaultGracePeriod gracePeriod => setDefaultGracePeriod gracePeriod
  | .transferOwnership newOwner => transferOwnership newOwner
  | .renounceOwnership => renounceOwnership

structure Call where
  msg : Message
  function : Function
  deriving DecidableEq

/-- The contract at the address `self`. -/
def contract (self : Address) : Reentrancy.Contract Call State Rest (Revert Error) where
  enter := fun c s => body self c.function c.msg s
  resume := fun rest s =>
    match finish rest ⟨self, 0, 0⟩ s with
    | .ok (_, s') => .ok s'
    | .error r => .error r

end EvmRequestExpiry
