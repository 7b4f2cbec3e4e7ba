import Mathlib.Logic.Function.Basic
import AgenticPay.Soroban
import AgenticPay.Transaction

/-!
# Data of the AgenticPay contract

The records, the storage keys and the events of the contract, field by field.
Every storage key is a field of `Storage`; a keyed entry is a partial function
of its key, and a key that was never set reads as `none`.
-/
namespace AgenticPayContract

open Soroban

inductive MultisigProposalStatus where
  | pending | executed | rejected | expired | cancelled
  deriving DecidableEq, Repr

structure MultisigWallet where
  id : Nat
  signers : List Address
  threshold : Nat
  timeoutLedgers : Nat
  active : Bool
  deriving DecidableEq, Repr

structure MultisigProposal where
  id : Nat
  walletId : Nat
  amount : Int
  recipient : Address
  description : String
  status : MultisigProposalStatus
  approvals : List Address
  rejections : List Address
  createdAt : Nat
  expiresAt : Nat
  deriving DecidableEq, Repr

inductive ProjectStatus where
  | created | funded | inProgress | workSubmitted | verified | completed | disputed | cancelled
  deriving DecidableEq, Repr

structure Project where
  id : Nat
  client : Address
  freelancer : Address
  amount : Int
  deposited : Int
  status : ProjectStatus
  githubRepo : String
  description : String
  createdAt : Nat
  deadline : Nat
  deriving DecidableEq, Repr

structure Receipt where
  id : Nat
  projectId : Nat
  amount : Int
  currency : String
  sender : Address
  recipient : Address
  timestamp : Nat
  deriving DecidableEq, Repr

structure ProjectInput where
  freelancer : Address
  amount : Int
  description : String
  githubRepo : String
  deriving DecidableEq, Repr

/-- One field for each `DataKey`, and the code an upgrade has installed. -/
structure Storage where
  project : Nat → Option Project
  projectCount : Option Nat
  receipt : Nat → Option Receipt
  receiptCount : Option Nat
  admin : Option Address
  metadata : String → Option String
  reentrancyLock : Option Bool
  paused : Option Bool
  multisigWalletCount : Option Nat
  multisigWallet : Nat → Option MultisigWallet
  multisigProposalCount : Option Nat
  multisigProposal : Nat → Option MultisigProposal
  code : Option BytesN32

/-- Published events, named by their two topics. -/
inductive Event where
  | circuitPaused (paused : Bool)
  | projectCreated (id : Nat) (client freelancer : Address) (amount : Int)
  | projectFunded (projectId : Nat) (amount : Int)
  | projectWorkSub (projectId : Nat) (githubRepo : String)
  | projectPayment (projectId : Nat) (amount : Int)
  | receiptIssued (id projectId : Nat) (amount : Int) (currency : String)
      (sender recipient : Address)
  | projectDisputed (projectId : Nat) (caller : Address)
  | projectExpired (projectId : Nat) (amount : Int)
  | metaSet (key value : String)
  | metaDel (key : String)
  | msigCreated (id : Nat) (threshold : Nat)
  | msigSgnAdd (walletId : Nat) (signer : Address)
  | msigSgnRem (walletId : Nat) (signer : Address)
  | msigProp (id walletId : Nat) (amount : Int) (recipient : Address)
  | msigExec (proposalId walletId : Nat) (amount : Int) (recipient : Address)
  | msigReject (proposalId walletId : Nat)
  | msigCancel (proposalId walletId : Nat)
  | msigExpired (proposalId walletId : Nat)
  deriving DecidableEq, Repr

abbrev World := Soroban.World Storage Event

abbrev Entry (α : Type) := Contract Storage Event α

/-- The contract right after its deployment: no key is set. -/
def deployed : World where
  storage :=
    { project := fun _ => none
      projectCount := none
      receipt := fun _ => none
      receiptCount := none
      admin := none
      metadata := fun _ => none
      reentrancyLock := none
      paused := none
      multisigWalletCount := none
      multisigWallet := fun _ => none
      multisigProposalCount := none
      multisigProposal := fun _ => none
      code := none }
  events := []

/-- `ReentrancyLock` as every function reads it. -/
def locked (w : World) : Bool := w.storage.reentrancyLock.getD false

/-- `Paused` as every function reads it. -/
def paused (w : World) : Bool := w.storage.paused.getD false

end AgenticPayContract
