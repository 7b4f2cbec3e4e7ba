import AgenticPay.Evm
import AgenticPay.ExternalCalls

/-!
# The paymaster of user operations on the EVM

The entry point has the operations of a bundle validated first and settles them afterwards. The
operations that have been validated and not settled yet, each with what has been returned for it
and the most it may cost, are kept beside the storage, and so is what each user has deposited in
all. The tokens are any other code, and may call the paymaster back.
-/
namespace EvmErc4337

open Evm Body ExternalCalls

inductive PaymasterMode where
  | none
  | verifying
  | deposit
  deriving DecidableEq, Repr

/-- The fields that the paymaster reads, and what `abi.decode` makes of `paymasterAndData[20:]`
where it is an encoding. -/
structure UserOperation where
  sender : Address
  paymasterData : Option (PaymasterMode × List UInt8)
  deriving DecidableEq

/-- What a validation returns and `postOp` gets back. -/
structure Context where
  sender : Address
  mode : PaymasterMode
  deriving DecidableEq

structure Budget where
  balance : Nat
  maxGasPerTx : Nat
  deriving DecidableEq

structure Operation where
  context : Context
  maxCost : Nat
  deriving DecidableEq

inductive Event where
  | userOperationSponsored (sender : Address) (nonce : Nat) (userOpHash : Bytes32)
      (actualGasCost : Nat)
  | budgetDeposited (user token : Address) (amount : Nat)
  | budgetWithdrawn (user token : Address) (amount : Nat)
  | tokenAccepted (token : Address) (accepted : Bool)
  | verifyingSignerUpdated (signer : Address)
  deriving DecidableEq

inductive Error where
  | notOwner
  | zeroAddress
  | insufficientBudget
  | tokenNotAccepted
  | invalidUserOperation
  | invalidSignature
  | budgetExceeded
  deriving DecidableEq, Repr

structure State where
  owner : Address
  entryPoint : Address
  verifyingSigner : Address
  totalSponsored : Nat
  budgets : Address → Budget
  acceptedTokens : Address → Bool
  validated : List Operation
  deposited : Address → Nat
  events : List Event

/-- What a call does when the token has answered. -/
inductive Rest where
  | deposit (user token : Address) (amount : Nat)
  | withdraw (user token : Address) (amount : Nat)
  deriving DecidableEq, Repr

/-- `_getHash` and `ecrecover`. -/
structure Primitives where
  getHash : Bytes32 → Bytes32
  ecrecover : Bytes32 → Signature → Address

abbrev Fn (α : Type) := Body State Error α

/-- The constructor. -/
def deploy (sender entryPoint verifyingSigner : Address) : State :=
  { owner := sender, entryPoint, verifyingSigner, totalSponsored := 0, budgets := fun _ => ⟨0, 0⟩,
    acceptedTokens := fun _ => false, validated := [], deposited := fun _ => 0, events := [] }

def emit (e : Event) : Fn Unit := write fun s => { s with events := s.events ++ [e] }

def onlyOwner : Fn Unit := do
  let msg ← message
  let owner ← read (·.owner)
  revertIf (msg.sender ≠ owner) .notOwner

def onlyEntryPoint : Fn Unit := do
  let msg ← message
  let entryPoint ← read (·.entryPoint)
  revertIf (msg.sender ≠ entryPoint) .invalidUserOperation

def setBalance (user : Address) (balance : Nat) : Fn Unit := write fun s =>
  { s with budgets := Function.update s.budgets user { s.budgets user with balance } }

def validateVerifying (p : Primitives) (userOpHash : Bytes32) (signature : List UInt8) :
    Fn Context :=
  match splitSignature signature with
  | none => revert (.error .invalidSignature)
  | some sig => do
    let verifyingSigner ← read (·.verifyingSigner)
    revertIf (p.ecrecover (p.getHash userOpHash) sig ≠ verifyingSigner) .invalidSignature
    return ⟨.zero, .verifying⟩

def validateDeposit (sender : Address) (maxCost : Nat) : Fn Context := do
  let budget ← read (·.budgets sender)
  revertIf (budget.balance < maxCost) .insufficientBudget
  revertIf (budget.maxGasPerTx > 0 ∧ maxCost > budget.maxGasPerTx) .budgetExceeded
  return ⟨sender, .deposit⟩

def validatePaymasterUserOp (p : Primitives) (userOp : UserOperation) (userOpHash : Bytes32)
    (maxCost : Nat) : Fn Context := do
  nonPayable
  onlyEntryPoint
  match userOp.paymasterData with
  | none => revert .decoding
  | some (.verifying, signature) => validateVerifying p userOpHash signature
  | some (.deposit, _) => validateDeposit userOp.sender maxCost
  | some (.none, _) => revert (.error .invalidUserOperation)

/-- The part of `postOp` that is about a budget. -/
def chargeBudget (context : Context) (actualGasCost : Nat) : Fn Unit :=
  if context.mode = .deposit then do
    let budget ← read (·.budgets context.sender)
    revertIf (budget.balance < actualGasCost) .insufficientBudget
    setBalance context.sender (uncheckedSub budget.balance actualGasCost)
    write fun s => { s with totalSponsored := uncheckedAdd s.totalSponsored actualGasCost }
  else return ()

def postOp (context : Context) (actualGasCost : Nat) : Fn Unit := do
  nonPayable
  onlyEntryPoint
  chargeBudget context actualGasCost
  let before ← read (·.totalSponsored)
  let totalSponsored ← addWord before actualGasCost
  write ({ · with totalSponsored })
  emit (.userOperationSponsored context.sender 0 0 actualGasCost)

/-- `depositBudget`, up to the call of the token. -/
def depositBudget (token : Address) (amount : Nat) : Fn (Option Rest) := do
  nonPayable
  let accepted ← read (·.acceptedTokens token)
  revertIf (accepted = false) .tokenNotAccepted
  let msg ← message
  write fun s =>
    { s with
      deposited := Function.update s.deposited msg.sender (s.deposited msg.sender + amount) }
  return some (.deposit msg.sender token amount)

/-- `withdrawBudget`, up to the call of the token. -/
def withdrawBudget (token : Address) (amount : Nat) : Fn (Option Rest) := do
  nonPayable
  let msg ← message
  let budget ← read (·.budgets msg.sender)
  revertIf (budget.balance < amount) .insufficientBudget
  setBalance msg.sender (uncheckedSub budget.balance amount)
  return some (.withdraw msg.sender token amount)

def setMaxGasPerTx (user : Address) (maxGas : Nat) : Fn Unit := do
  nonPayable
  onlyOwner
  write fun s =>
    { s with
      budgets := Function.update s.budgets user { s.budgets user with maxGasPerTx := maxGas } }

def setAcceptedToken (token : Address) (accepted : Bool) : Fn Unit := do
  nonPayable
  onlyOwner
  revertIf (token = .zero) .zeroAddress
  write fun s => { s with acceptedTokens := Function.update s.acceptedTokens token accepted }
  emit (.tokenAccepted token accepted)

def setVerifyingSigner (signer : Address) : Fn Unit := do
  nonPayable
  onlyOwner
  revertIf (signer = .zero) .zeroAddress
  write ({ · with verifyingSigner := signer })
  emit (.verifyingSignerUpdated signer)

def transferOwnership (newOwner : Address) : Fn Unit := do
  nonPayable
  onlyOwner
  revertIf (newOwner = .zero) .zeroAddress
  write ({ · with owner := newOwner })

/-- What a call does when the token has answered. -/
def finish (rest : Rest) (a : Answer) : Fn (Option Rest) :=
  match rest with
  | .deposit user token amount => do
    let transferred ← decodeTransfer a
    require (transferred = true) "TokenTransferFailed"
    let budget ← read (·.budgets user)
    setBalance user (uncheckedAdd budget.balance amount)
    emit (.budgetDeposited user token amount)
    return none
  | .withdraw user token amount => do
    require (a.undone = false) "TokenTransferFailed"
    emit (.budgetWithdrawn user token amount)
    return none

inductive Function where
  | validatePaymasterUserOp (userOp : UserOperation) (userOpHash : Bytes32) (maxCost : Nat)
  | postOp (op : Operation) (actualGasCost : Nat)
  | depositBudget (token : Address) (amount : Nat)
  | withdrawBudget (token : Address) (amount : Nat)
  | setMaxGasPerTx (user : Address) (maxGas : Nat)
  | setAcceptedToken (token : Address) (accepted : Bool)
  | setVerifyingSigner (signer : Address)
  | transferOwnership (newOwner : Address)
  deriving DecidableEq

/-- A function that calls no other code. -/
def done (f : Fn Unit) : Fn (Option Rest) := do
  f
  return none

/-- The functions, with the operation of a validation or of a settlement put beside the storage or
taken away. -/
def body (p : Primitives) : Function → Fn (Option Rest)
  | .validatePaymasterUserOp userOp userOpHash maxCost => do
    let context ← validatePaymasterUserOp p userOp userOpHash maxCost
    write fun s => { s with validated := s.validated ++ [⟨context, maxCost⟩] }
    return none
  | .postOp op actualGasCost => do
    postOp op.context actualGasCost
    write fun s => { s with validated := s.validated.erase op }
    return none
  | .depositBudget token amount => depositBudget token amount
  | .withdrawBudget token amount => withdrawBudget token amount
  | .setMaxGasPerTx user maxGas => done (setMaxGasPerTx user maxGas)
  | .setAcceptedToken token accepted => done (setAcceptedToken token accepted)
  | .setVerifyingSigner signer => done (setVerifyingSigner signer)
  | .transferOwnership newOwner => done (transferOwnership newOwner)

structure Call where
  msg : Message
  function : Function
  deriving DecidableEq

def contract (p : Primitives) : ExternalCalls.Contract Call State Rest (Revert Error) Answer where
  enter := fun c s => body p c.function c.msg s
  resume := fun rest a s => finish rest a ⟨.zero, 0, 0⟩ s
  undone := Answer.undone

end EvmErc4337
