import AgenticPay.Evm
import AgenticPay.ExternalCalls

/-!
# The paymaster of relayed transactions on the EVM

A deposit is one balance for each user, whatever the token it was made in. What each user has
deposited, withdrawn and paid in each token, and what the contract holds of each, are kept beside
the storage. A token that answers without reverting has moved what it was asked to, unless it
returns false; it may call the paymaster back before.
-/
namespace EvmRelayPaymaster

open Evm Body ExternalCalls

inductive Event where
  | gasSponsored (user relayer : Address) (gasCostWei : Nat)
  | feeCollected (user token : Address) (tokenAmount : Nat)
  | deposited (user token : Address) (amount : Nat)
  | withdrawn (user token : Address) (amount : Nat)
  | tokenAccepted (token : Address) (accepted : Bool)
  | relayerUpdated (relayer : Address) (active : Bool)
  deriving DecidableEq

inductive Error where
  | notOwner
  | notRelayer
  | zeroAddress
  | insufficientDeposit
  | tokenNotAccepted
  deriving DecidableEq, Repr

/-- What a user has done with one token. -/
structure Account where
  deposited : Nat
  withdrawn : Nat
  collected : Nat
  deriving DecidableEq

structure State where
  owner : Address
  totalSponsored : Nat
  totalFeesCollected : Nat
  /-- `deposits[user].balance`. -/
  balance : Address → Nat
  acceptedTokens : Address → Bool
  tokenPriceRatios : Address → Nat
  relayers : Address → Bool
  accounts : Address → Address → Account
  held : Address → Nat
  events : List Event

/-- What a call does when the token has answered. -/
inductive Rest where
  | deposit (user token : Address) (amount : Nat)
  | withdraw (user token : Address) (amount : Nat)
  deriving DecidableEq, Repr

abbrev Fn (α : Type) := Body State Error α

/-- The constructor. -/
def deploy (sender : Address) : State :=
  { owner := sender, totalSponsored := 0, totalFeesCollected := 0, balance := fun _ => 0,
    acceptedTokens := fun _ => false, tokenPriceRatios := fun _ => 0, relayers := fun _ => false,
    accounts := fun _ _ => ⟨0, 0, 0⟩, held := fun _ => 0, events := [] }

def emit (e : Event) : Fn Unit := write fun s => { s with events := s.events ++ [e] }

def onlyOwner : Fn Unit := do
  let msg ← message
  let owner ← read (·.owner)
  revertIf (msg.sender ≠ owner) .notOwner

def onlyRelayer : Fn Unit := do
  let msg ← message
  let relayer ← read (·.relayers msg.sender)
  revertIf (relayer = false) .notRelayer

/-- The accounts with another account of a user in a token. -/
def setAccount (accounts : Address → Address → Account) (user token : Address) (a : Account) :
    Address → Address → Account :=
  Function.update accounts user (Function.update (accounts user) token a)

/-- `deposit`, up to the call of the token. -/
def deposit (token : Address) (amount : Nat) : Fn (Option Rest) := do
  nonPayable
  let accepted ← read (·.acceptedTokens token)
  revertIf (accepted = false) .tokenNotAccepted
  let msg ← message
  return some (.deposit msg.sender token amount)

/-- The token takes what it is asked to transfer. -/
def payOut (user token : Address) (amount : Nat) : Fn Unit := write fun s =>
  { s with
    accounts := setAccount s.accounts user token
      { s.accounts user token with withdrawn := (s.accounts user token).withdrawn + amount }
    held := Function.update s.held token (s.held token - amount) }

/-- What a token that has not reverted has left where it was. -/
def unmoved (a : Answer) (amount : Nat) : Nat := if a = .returned false then amount else 0

/-- The token has not transferred an amount that it was asked to. -/
def keep (user token : Address) (amount : Nat) : Fn Unit := write fun s =>
  { s with
    accounts := setAccount s.accounts user token
      { s.accounts user token with withdrawn := (s.accounts user token).withdrawn - amount }
    held := Function.update s.held token (s.held token + amount) }

/-- `withdraw`, up to the call of the token. -/
def withdraw (token : Address) (amount : Nat) : Fn (Option Rest) := do
  nonPayable
  let msg ← message
  let before ← read (·.balance msg.sender)
  revertIf (before < amount) .insufficientDeposit
  let balance ← subWord before amount
  write fun s => { s with balance := Function.update s.balance msg.sender balance }
  payOut msg.sender token amount
  return some (.withdraw msg.sender token amount)

/-- The ratio of a token, which is 1 where none is set. -/
def ratioOf (ratio : Nat) : Nat := if ratio = 0 then 10 ^ 18 else ratio

def collectFee (user token : Address) (gasCostWei : Nat) : Fn (Option Rest) := do
  nonPayable
  onlyRelayer
  let s ← read id
  revertIf (s.acceptedTokens token = false) .tokenNotAccepted
  let product ← mulWord gasCostWei (ratioOf (s.tokenPriceRatios token))
  let tokenFee := product / 10 ^ 18
  revertIf (s.balance user < tokenFee) .insufficientDeposit
  let balance ← subWord (s.balance user) tokenFee
  let totalSponsored ← addWord s.totalSponsored gasCostWei
  let totalFeesCollected ← addWord s.totalFeesCollected tokenFee
  write fun s =>
    { s with
      balance := Function.update s.balance user balance
      totalSponsored
      totalFeesCollected
      accounts := setAccount s.accounts user token
        { s.accounts user token with collected := (s.accounts user token).collected + tokenFee } }
  let msg ← message
  emit (.gasSponsored user msg.sender gasCostWei)
  emit (.feeCollected user token tokenFee)
  return none

def setAcceptedToken (token : Address) (accepted : Bool) : Fn (Option Rest) := do
  nonPayable
  onlyOwner
  revertIf (token = .zero) .zeroAddress
  write fun s => { s with acceptedTokens := Function.update s.acceptedTokens token accepted }
  emit (.tokenAccepted token accepted)
  return none

def setTokenRatio (token : Address) (ratio : Nat) : Fn (Option Rest) := do
  nonPayable
  onlyOwner
  write fun s => { s with tokenPriceRatios := Function.update s.tokenPriceRatios token ratio }
  return none

def setRelayer (relayer : Address) (active : Bool) : Fn (Option Rest) := do
  nonPayable
  onlyOwner
  revertIf (relayer = .zero) .zeroAddress
  write fun s => { s with relayers := Function.update s.relayers relayer active }
  emit (.relayerUpdated relayer active)
  return none

def transferOwnership (newOwner : Address) : Fn (Option Rest) := do
  nonPayable
  onlyOwner
  revertIf (newOwner = .zero) .zeroAddress
  write ({ · with owner := newOwner })
  return none

/-- Tokens that are sent to the contract without any call of it. -/
def force (token : Address) (amount : Nat) : Fn (Option Rest) := do
  write fun s => { s with held := Function.update s.held token (s.held token + amount) }
  return none

/-- What a call does when the token has answered. -/
def finish (rest : Rest) (a : Answer) : Fn (Option Rest) :=
  match rest with
  | .deposit user token amount => do
    let transferred ← decodeTransfer a
    require (transferred = true) "TransferFrom failed"
    let before ← read (·.balance user)
    let balance ← addWord before amount
    write fun s =>
      { s with
        balance := Function.update s.balance user balance
        accounts := setAccount s.accounts user token
          { s.accounts user token with deposited := (s.accounts user token).deposited + amount }
        held := Function.update s.held token (s.held token + amount) }
    emit (.deposited user token amount)
    return none
  | .withdraw user token amount => do
    require (a.undone = false) "Transfer failed"
    keep user token (unmoved a amount)
    emit (.withdrawn user token amount)
    return none

inductive Function where
  | deposit (token : Address) (amount : Nat)
  | withdraw (token : Address) (amount : Nat)
  | collectFee (user token : Address) (gasCostWei : Nat)
  | setAcceptedToken (token : Address) (accepted : Bool)
  | setTokenRatio (token : Address) (ratio : Nat)
  | setRelayer (relayer : Address) (active : Bool)
  | transferOwnership (newOwner : Address)
  | force (token : Address) (amount : Nat)
  deriving DecidableEq

def body : Function → Fn (Option Rest)
  | .deposit token amount => deposit token amount
  | .withdraw token amount => withdraw token amount
  | .collectFee user token gasCostWei => collectFee user token gasCostWei
  | .setAcceptedToken token accepted => setAcceptedToken token accepted
  | .setTokenRatio token ratio => setTokenRatio token ratio
  | .setRelayer relayer active => setRelayer relayer active
  | .transferOwnership newOwner => transferOwnership newOwner
  | .force token amount => force token amount

structure Call where
  msg : Message
  function : Function
  deriving DecidableEq

def contract : ExternalCalls.Contract Call State Rest (Revert Error) Answer where
  enter := fun c s => body c.function c.msg s
  resume := fun rest a s => finish rest a ⟨.zero, 0, 0⟩ s
  undone := Answer.undone

end EvmRelayPaymaster
