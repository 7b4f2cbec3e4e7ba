import AgenticPay.Evm
import AgenticPay.ExternalCalls

/-!
# The bridge base contract on the EVM

Requests that a user initiates and that the owner completes or fails. What an adapter does in
`_initiateBridge` and in `_verifyBridgeCompletion` is a call that is waited for: it may move ether,
call the bridge back or revert. The request fields that have been stored and the settlements are
kept beside the storage. The hash is a parameter.
-/
namespace EvmGenericBridge

open Evm Body ExternalCalls

structure BridgeRequest where
  sender : Address
  recipient : Address
  amount : Nat
  sourceChainId : Nat
  targetChainId : Nat
  txHash : BitVec 256
  timestamp : Nat
  completed : Bool
  deriving DecidableEq

/-- What the mapping holds where nothing has been stored. -/
def BridgeRequest.blank : BridgeRequest := ⟨.zero, .zero, 0, 0, 0, 0, 0, false⟩

/-- What is hashed for the id of a request. -/
structure RequestFields where
  sender : Address
  recipient : Address
  amount : Nat
  sourceChainId : Nat
  targetChainId : Nat
  timestamp : Nat
  blockNumber : Nat
  deriving DecidableEq, Repr

def RequestFields.request (k : RequestFields) : BridgeRequest :=
  { sender := k.sender, recipient := k.recipient, amount := k.amount,
    sourceChainId := k.sourceChainId, targetChainId := k.targetChainId, txHash := 0,
    timestamp := k.timestamp, completed := false }

variable {δ : Type}

inductive Event (δ : Type) where
  | bridgeInitiated (requestId : δ) (sender : Address) (targetChainId amount : Nat)
  | bridgeCompleted (requestId : δ) (recipient : Address) (amount : Nat)
  | bridgeFailed (requestId : δ) (reason : String)
  | ownershipTransferred (previousOwner newOwner : Address)
  deriving DecidableEq

/-- The revert of a hook or of the receiver of a transfer, which is passed on. -/
inductive Error where
  | passedOn
  deriving DecidableEq, Repr

/-- A request that has been completed or failed. -/
structure Settlement (δ : Type) where
  requestId : δ
  failed : Bool
  deriving DecidableEq

structure State (δ : Type) where
  owner : Address
  entered : Bool
  bridgeRequests : δ → BridgeRequest
  supportedChains : Nat → Bool
  bridgeFeeBasisPoints : Nat
  balance : Nat
  initiated : List RequestFields
  settlements : List (Settlement δ)
  events : List (Event δ)

/-- What a call has left to do after the hook that it waits for. -/
inductive Rest (δ : Type) where
  | initiate (requestId : δ) (sender : Address) (value targetChainId amount fee : Nat)
  | complete (requestId : δ)
  deriving DecidableEq

/-- How a hook has ended: it has spent some ether, and the user will take a refund or not, or it
has reverted. -/
inductive Outcome where
  | ran (spent : Nat) (takes : Bool)
  | reverted
  deriving DecidableEq, Repr

abbrev Fn (δ : Type) (α : Type) := Body (State δ) Error α

def maxFeeBasisPoints : Nat := 100

/-- The constructors. -/
def deploy (deployer : Address) : State δ :=
  { owner := deployer, entered := false, bridgeRequests := fun _ => .blank,
    supportedChains := fun _ => false, bridgeFeeBasisPoints := 10, balance := 0, initiated := [],
    settlements := [], events := [.ownershipTransferred .zero deployer] }

def emit (e : Event δ) : Fn δ Unit := write fun s => { s with events := s.events ++ [e] }

def onlyOwner : Fn δ Unit := do
  let msg ← message
  let owner ← read (·.owner)
  require (owner = msg.sender) "Ownable: caller is not the owner"

/-- `nonReentrant`, before the body. -/
def enterGuard : Fn δ Unit := do
  let entered ← read (·.entered)
  require (entered = false) "ReentrancyGuard: reentrant call"
  write ({ · with entered := true })

/-- `nonReentrant`, after the body. -/
def leaveGuard : Fn δ Unit := write ({ · with entered := false })

def onlySupportedChain (chainId : Nat) : Fn δ Unit := do
  let supported ← read (·.supportedChains chainId)
  require (supported = true) "Chain not supported"

def store [DecidableEq δ] (requestId : δ) (r : BridgeRequest) : Fn δ Unit :=
  write fun s => { s with bridgeRequests := Function.update s.bridgeRequests requestId r }

def settle (x : Settlement δ) : Fn δ Unit :=
  write fun s => { s with settlements := s.settlements ++ [x] }

/-- `transfer`, to a receiver that takes it or not. With the gas that comes with it the receiver
can change nothing. -/
def transfer (takes : Bool) (amount : Nat) : Fn δ Unit := do
  let balance ← read (·.balance)
  revertIf (¬ (amount ≤ balance ∧ takes = true)) .passedOn
  write ({ · with balance := balance - amount })

def addSupportedChain (chainId : Nat) : Fn δ (Option (Rest δ)) := do
  nonPayable
  onlyOwner
  write fun s => { s with supportedChains := Function.update s.supportedChains chainId true }
  return none

def removeSupportedChain (chainId : Nat) : Fn δ (Option (Rest δ)) := do
  nonPayable
  onlyOwner
  write fun s => { s with supportedChains := Function.update s.supportedChains chainId false }
  return none

def setBridgeFee (newFee : Nat) : Fn δ (Option (Rest δ)) := do
  nonPayable
  onlyOwner
  require (newFee ≤ maxFeeBasisPoints) "Fee too high"
  write ({ · with bridgeFeeBasisPoints := newFee })
  return none

def calculateBridgeFee (amount : Nat) : Fn δ Nat := do
  let bridgeFeeBasisPoints ← read (·.bridgeFeeBasisPoints)
  let product ← mulWord amount bridgeFeeBasisPoints
  return product / 10000

/-- `initiateBridge`, up to the hook. The chain id and the block number are those of the block that
the call is in. -/
def initiateBridge [DecidableEq δ] (keccak : RequestFields → δ) (chainId blockNumber : Nat)
    (recipient : Address) (targetChainId amount : Nat) : Fn δ (Option (Rest δ)) := do
  let msg ← message
  let balance ← read (·.balance)
  let balance ← creditWord balance msg.value
  write ({ · with balance })
  enterGuard
  onlySupportedChain targetChainId
  require (amount > 0) "Amount must be greater than 0"
  require (recipient ≠ .zero) "Invalid recipient"
  let fee ← calculateBridgeFee amount
  let needed ← addWord amount fee
  require (msg.value ≥ needed) "Insufficient funds"
  let fields : RequestFields :=
    { sender := msg.sender, recipient, amount, sourceChainId := chainId, targetChainId,
      timestamp := msg.timestamp, blockNumber }
  store (keccak fields) fields.request
  write fun s => { s with initiated := s.initiated ++ [fields] }
  return some (.initiate (keccak fields) msg.sender msg.value targetChainId amount fee)

/-- The checks that `completeBridge` and `failBridge` start with. -/
def getUnsettled (requestId : δ) : Fn δ BridgeRequest := do
  let request ← read (·.bridgeRequests requestId)
  require (request.sender ≠ .zero) "Request not found"
  require (request.completed = false) "Already completed"
  return request

/-- `completeBridge`, up to the hook. -/
def completeBridge [DecidableEq δ] (requestId : δ) (targetTxHash : BitVec 256) :
    Fn δ (Option (Rest δ)) := do
  nonPayable
  onlyOwner
  let request ← getUnsettled requestId
  store requestId { request with txHash := targetTxHash, completed := true }
  settle ⟨requestId, false⟩
  return some (.complete requestId)

def failBridge (takes : Bool) (requestId : δ) (reason : String) : Fn δ (Option (Rest δ)) := do
  nonPayable
  onlyOwner
  let request ← getUnsettled requestId
  let fee ← calculateBridgeFee request.amount
  let refund ← addWord request.amount fee
  transfer takes refund
  settle ⟨requestId, true⟩
  emit (.bridgeFailed requestId reason)
  return none

def setOwner (newOwner : Address) : Fn δ (Option (Rest δ)) := do
  let owner ← read (·.owner)
  write ({ · with owner := newOwner })
  emit (.ownershipTransferred owner newOwner)
  return none

def transferOwnership (newOwner : Address) : Fn δ (Option (Rest δ)) := do
  nonPayable
  onlyOwner
  require (newOwner ≠ .zero) "Ownable: new owner is the zero address"
  setOwner newOwner

def renounceOwnership : Fn δ (Option (Rest δ)) := do
  nonPayable
  onlyOwner
  setOwner .zero

/-- Ether that arrives without a call of the contract. -/
def force : Fn δ (Option (Rest δ)) := do
  let msg ← message
  let balance ← read (·.balance)
  let balance ← creditWord balance msg.value
  write ({ · with balance })
  return none

/-- The ether that a hook has moved, or its revert. -/
def hookReturns : Outcome → Fn δ Unit
  | .ran spent _ => do
    let balance ← read (·.balance)
    revertIf (balance < spent) .passedOn
    write ({ · with balance := balance - spent })
  | .reverted => revert (.error .passedOn)

def Outcome.takes : Outcome → Bool
  | .ran _ takes => takes
  | .reverted => false

/-- The end of `initiateBridge` for the user. -/
def refundExcess (takes : Bool) (value amount fee : Nat) : Fn δ Unit :=
  if value > amount + fee then transfer takes (value - amount - fee) else pure ()

/-- What a call does when the hook that it waits for has ended. -/
def finish (rest : Rest δ) (a : Outcome) : Fn δ (Option (Rest δ)) :=
  match rest with
  | .initiate requestId sender value targetChainId amount fee => do
    hookReturns a
    emit (.bridgeInitiated requestId sender targetChainId amount)
    refundExcess a.takes value amount fee
    leaveGuard
    return none
  | .complete requestId => do
    hookReturns a
    let request ← read (·.bridgeRequests requestId)
    emit (.bridgeCompleted requestId request.recipient request.amount)
    return none

inductive Function (δ : Type) where
  | addSupportedChain (chainId : Nat)
  | removeSupportedChain (chainId : Nat)
  | setBridgeFee (newFee : Nat)
  | initiateBridge (recipient : Address) (targetChainId amount : Nat)
  | completeBridge (requestId : δ) (targetTxHash : BitVec 256)
  | failBridge (requestId : δ) (reason : String)
  | transferOwnership (newOwner : Address)
  | renounceOwnership
  | force
  deriving DecidableEq

/-- A call in its block, and whether the receiver of its transfer takes it. -/
structure Call (δ : Type) where
  msg : Message
  chainId : Nat
  blockNumber : Nat
  takes : Bool
  function : Function δ
  deriving DecidableEq

def body [DecidableEq δ] (keccak : RequestFields → δ) (c : Call δ) : Fn δ (Option (Rest δ)) :=
  match c.function with
  | .addSupportedChain chainId => addSupportedChain chainId
  | .removeSupportedChain chainId => removeSupportedChain chainId
  | .setBridgeFee newFee => setBridgeFee newFee
  | .initiateBridge recipient targetChainId amount =>
    initiateBridge keccak c.chainId c.blockNumber recipient targetChainId amount
  | .completeBridge requestId targetTxHash => completeBridge requestId targetTxHash
  | .failBridge requestId reason => failBridge c.takes requestId reason
  | .transferOwnership newOwner => transferOwnership newOwner
  | .renounceOwnership => renounceOwnership
  | .force => force

def contract [DecidableEq δ] (keccak : RequestFields → δ) :
    ExternalCalls.Contract (Call δ) (State δ) (Rest δ) (Revert Error) Outcome where
  enter := fun c s => body keccak c c.msg s
  resume := fun rest a s => finish rest a ⟨.zero, 0, 0⟩ s
  undone := fun a => decide (a = .reverted)

end EvmGenericBridge
