import AgenticPay.Awaits
import AgenticPay.HashChain
import AgenticPay.Records

/-!
# The detector of reorganisations

The polls of a network's chain, and the tracker of the confirmations on it. A provider answers from
the chain its network has at that time, though its answer to the number of the last block may be
some blocks old. Left out is what happens to the affected payments themselves, and the jobs that
verify them again.
-/
namespace ReorgDetector

open Awaits Chains Records

abbrev Network := String
abbrev TxHash := String
abbrev PaymentId := String
abbrev BlockHeader := Header String

/-! ## The tracker of confirmations -/

structure ConfirmedTx where
  id : String
  txHash : TxHash
  network : Network
  confirmedAtBlock : Nat
  firstSeenAt : Int
  deriving DecidableEq

def ConfirmedTx.key (tx : ConfirmedTx) : String := tx.network ++ ":" ++ tx.txHash

abbrev Confirmations := Table ConfirmedTx.key

structure Host where
  toLowerCase : String → String

def key (host : Host) (txHash : TxHash) (network : Network) : String :=
  host.toLowerCase network ++ ":" ++ txHash

def newConfirmation (host : Host) (uuid : String) (now : Int) (txHash : TxHash)
    (network : Network) (blockNumber : Nat) : ConfirmedTx :=
  ⟨uuid, txHash, host.toLowerCase network, blockNumber, now⟩

def removeConfirmation (host : Host) (network : Network) (confirmedTxs : Confirmations)
    (txHash : TxHash) : Confirmations :=
  confirmedTxs.remove (key host txHash network)

/-- The transactions in orphaned blocks. -/
def findAffected (host : Host) (network : Network) (fromBlock toBlock : Nat)
    (confirmedTxs : Confirmations) : List ConfirmedTx :=
  confirmedTxs.records.filter fun tx =>
    tx.network = host.toLowerCase network && fromBlock ≤ tx.confirmedAtBlock &&
      tx.confirmedAtBlock ≤ toBlock

/-! ## The state -/

structure ChainConfig where
  network : Network
  safetyThreshold : Option Int

structure ChainTip where
  blockNumber : Nat
  blockHash : String
  parentHash : String
  deriving DecidableEq

def tipOf (block : BlockHeader) : ChainTip := ⟨block.number, block.hash, block.parentHash⟩

structure ReorgIncident where
  network : Network
  reorgDepth : Int
  canonicalBlockHash : String
  orphanedBlockHash : String
  fromBlockNumber : Nat
  toBlockNumber : Nat
  affectedTxHashes : List TxHash

structure AffectedPayment where
  txHash : TxHash
  paymentId : Option PaymentId
  originalBlock : Option Nat
  deriving DecidableEq

/-- A row of the table of reorganisations. -/
structure ReorgEvent where
  id : String
  network : Network
  reorgDepth : Int
  safetyThreshold : Int
  canonicalBlockHash : String
  orphanedBlockHash : String
  fromBlockNumber : Nat
  toBlockNumber : Nat
  affectedTxCount : Nat
  deriving DecidableEq

structure TransactionReorg where
  reorgEventId : String
  network : Network
  payment : AffectedPayment
  deriving DecidableEq

structure State where
  chain : Network → Chain String
  providers : Network → Bool
  tips : Network → Option ChainTip
  networkHeads : Network → Option Nat
  confirmedTxs : Confirmations
  reorgEvents : List ReorgEvent
  transactionReorgs : List TransactionReorg

def start (chain : Network → Chain String) : State :=
  ⟨chain, fun _ => false, fun _ => none, fun _ => none, ∅, [], []⟩

/-- What the detector asks of providers and of the database. -/
inductive Request where
  | getBlockNumber
  | getBlock
  | findMany
  | transaction
  deriving DecidableEq

/-- What a turn is told: an identifier, the time, which requests are rejected, how many blocks ago
the number of the last block was read, whether the block that was asked for is missing, and the
payments that are found. -/
structure Told where
  uuid : String
  now : Int
  rejects : Request → Bool
  behind : Nat
  missing : Bool
  payments : List (PaymentId × TxHash)

inductive Call where
  | becomes (network : Network) (chain : Chain String)
  | recordConfirmation (txHash : TxHash) (network : Network) (blockNumber : Nat)
  | startChain (network : Network)
  | pollChain (network : Network)

/-- A reorganisation that is being handled. -/
structure Handling where
  network : Network
  oldTip : ChainTip
  newBlock : BlockHeader
  deriving DecidableEq

inductive Waiting where
  | bootNumber (network : Network)
  | bootHead (network : Network) (number : Nat)
  | number (network : Network)
  | head (network : Network) (latestNumber : Nat) (currentTip : ChainTip)
  | ancestor (h : Handling) (i : Nat) (searchBlock : Int)
  | payments (h : Handling) (incident : ReorgIncident) (originalBlocks : List (TxHash × Nat))
  | persisting (h : Handling) (incident : ReorgIncident) (affected : List AffectedPayment)
  | alerting (h : Handling)

inductive Response where
  | nothing
  | confirmed (tx : ConfirmedTx)

abbrev Ends := Turn Waiting Response × State

def State.setTip (s : State) (network : Network) (block : BlockHeader) : State :=
  { s with tips := Function.update s.tips network (some (tipOf block)) }

@[simp] theorem State.setTip_tips (s : State) (network : Network) (block : BlockHeader) :
    (s.setTip network block).tips = Function.update s.tips network (some (tipOf block)) := rfl

def State.setNetworkHead (host : Host) (network : Network) (blockNumber : Nat) (s : State) :
    State :=
  { s with
    networkHeads := Function.update s.networkHeads (host.toLowerCase network) (some blockNumber) }

def recordConfirmation (host : Host) (told : Told) (txHash : TxHash) (network : Network)
    (blockNumber : Nat) (s : State) : Ends :=
  match s.confirmedTxs.get (key host txHash network) with
  | some existing => (.done (.confirmed existing), s)
  | none =>
    let entry := newConfirmation host told.uuid told.now txHash network blockNumber
    (.done (.confirmed entry), { s with confirmedTxs := s.confirmedTxs.set entry })

/-- The answer of a provider to `getBlock`, or none when it is null. -/
def getBlock (told : Told) (network : Network) (blockNumber : Nat) (s : State) :
    Option BlockHeader :=
  if told.missing then none else (s.chain network).getBlock blockNumber

def getBlockNumber (told : Told) (network : Network) (s : State) : Nat :=
  (s.chain network).height - told.behind

/-! ## Handling a reorganisation -/

variable (host : Host) (chains : List ChainConfig)

def safetyThresholds : Network → Option Int
  | "ethereum" => some 12
  | "polygon" => some 64
  | "stellar" => some 1
  | _ => none

def safetyThreshold (network : Network) : Int :=
  (((chains.find? (·.network = network)).bind (·.safetyThreshold)).or
    (safetyThresholds network)).getD 12

/-- The block of each hash, the last one where there are several. -/
def originalBlock (originalBlocks : List (TxHash × Nat)) (hash : TxHash) : Option Nat :=
  (originalBlocks.reverse.find? (·.1 = hash)).map (·.2)

def resolveAffectedPayments (told : Told) (txHashes : List TxHash)
    (originalBlocks : List (TxHash × Nat)) : List AffectedPayment :=
  txHashes.map fun hash =>
    ⟨hash, (told.payments.find? (·.2 = hash)).map (·.1), originalBlock originalBlocks hash⟩

def incidentOf (h : Handling) (fromBlock : Nat) (affected : List ConfirmedTx) : ReorgIncident where
  network := h.network
  reorgDepth := h.oldTip.blockNumber - fromBlock + 1
  canonicalBlockHash := h.newBlock.hash
  orphanedBlockHash := h.oldTip.blockHash
  fromBlockNumber := fromBlock
  toBlockNumber := h.oldTip.blockNumber
  affectedTxHashes := affected.map (·.txHash)

/-- The confirmations in the range that is reported are removed. -/
def orphan (h : Handling) (commonAncestor : Nat) (s : State) : Ends :=
  let fromBlock := commonAncestor + 1
  let affected := findAffected host h.network fromBlock h.oldTip.blockNumber s.confirmedTxs
  let hashes := affected.map (·.txHash)
  let s := { s with
    confirmedTxs := hashes.foldl (removeConfirmation host h.network) s.confirmedTxs }
  let incident := incidentOf h fromBlock affected
  if hashes = [] then (.waits (.persisting h incident []), s)
  else (.waits (.payments h incident (affected.map fun tx => (tx.txHash, tx.confirmedAtBlock))), s)

def maxWalk (h : Handling) : Nat := min 200 (max h.oldTip.blockNumber h.newBlock.number)

/-- The loop of `findCommonAncestor`, up to its next request. -/
def walk (h : Handling) (i : Nat) (searchBlock : Int) (s : State) : Ends :=
  if i < maxWalk h ∧ 0 < searchBlock then (.waits (.ancestor h i searchBlock), s)
  else orphan host h (max 0 searchBlock).toNat s

def handleReorg (h : Handling) (s : State) : Ends :=
  walk host h 0 (min h.oldTip.blockNumber h.newBlock.number - 1) s

def eventOf (uuid : String) (incident : ReorgIncident) (affected : List AffectedPayment) :
    ReorgEvent where
  id := uuid
  network := incident.network
  reorgDepth := incident.reorgDepth
  safetyThreshold := safetyThreshold chains incident.network
  canonicalBlockHash := incident.canonicalBlockHash
  orphanedBlockHash := incident.orphanedBlockHash
  fromBlockNumber := incident.fromBlockNumber
  toBlockNumber := incident.toBlockNumber
  affectedTxCount := affected.length

def persistReorgEvent (uuid : String) (incident : ReorgIncident) (affected : List AffectedPayment)
    (s : State) : State :=
  { s with
    reorgEvents := s.reorgEvents ++ [eventOf chains uuid incident affected]
    transactionReorgs :=
      s.transactionReorgs ++ affected.map fun payment => ⟨uuid, incident.network, payment⟩ }

/-! ## Polls -/

/-- Whether the last block, not below the tip, shows that the chain was reorganised. -/
def detects (latestNumber : Nat) (currentTip : ChainTip) (latestBlock : BlockHeader) : Bool :=
  if latestNumber = currentTip.blockNumber then latestBlock.hash ≠ currentTip.blockHash
  else latestBlock.parentHash ≠ currentTip.blockHash

def poll (network : Network) (latestNumber : Nat) (currentTip : ChainTip)
    (latestBlock : BlockHeader) (s : State) : Ends :=
  if detects latestNumber currentTip latestBlock then
    handleReorg host ⟨network, currentTip, latestBlock⟩ s
  else if latestNumber = currentTip.blockNumber then (.done .nothing, s)
  else (.done .nothing, s.setTip network latestBlock)

def startChain (network : Network) (s : State) : Ends :=
  (.waits (.bootNumber network), { s with providers := Function.update s.providers network true })

def pollChain (network : Network) (s : State) : Ends :=
  if s.providers network then (.waits (.number network), s) else (.done .nothing, s)

/-- One call, up to its first wait. -/
def request (told : Told) (s : State) : Call → Ends
  | .becomes network chain =>
    (.done .nothing, { s with chain := Function.update s.chain network chain })
  | .recordConfirmation txHash network blockNumber =>
    recordConfirmation host told txHash network blockNumber s
  | .startChain network => startChain network s
  | .pollChain network => pollChain network s

/-- A task goes on. What a request rejects with is caught, and ends the poll. -/
def resume (told : Told) (s : State) : Waiting → Ends
  | .bootNumber network =>
    if told.rejects .getBlockNumber then (.done .nothing, s)
    else (.waits (.bootHead network (getBlockNumber told network s)), s)
  | .bootHead network number =>
    if told.rejects .getBlock then (.done .nothing, s)
    else
      match getBlock told network number s with
      | none => (.done .nothing, s)
      | some block =>
        (.done .nothing, (s.setTip network block).setNetworkHead host network block.number)
  | .number network =>
    if told.rejects .getBlockNumber then (.done .nothing, s)
    else
      match s.tips network with
      | none => (.done .nothing, s)
      | some currentTip =>
        let latestNumber := getBlockNumber told network s
        if latestNumber < currentTip.blockNumber then (.done .nothing, s)
        else (.waits (.head network latestNumber currentTip), s)
  | .head network latestNumber currentTip =>
    if told.rejects .getBlock then (.done .nothing, s)
    else
      match getBlock told network latestNumber s with
      | none => (.done .nothing, s)
      | some latestBlock =>
        poll host network latestNumber currentTip latestBlock
          (s.setNetworkHead host network latestNumber)
  | .ancestor h i searchBlock =>
    if told.rejects .getBlock then (.done .nothing, s)
    else
      match getBlock told h.network searchBlock.toNat s with
      | some _ => orphan host h searchBlock.toNat s
      | none => walk host h (i + 1) (searchBlock - 1) s
  | .payments h incident originalBlocks =>
    if told.rejects .findMany then (.done .nothing, s)
    else
      (.waits (.persisting h incident
        (resolveAffectedPayments told incident.affectedTxHashes originalBlocks)), s)
  | .persisting h incident affected =>
    if told.rejects .transaction then (.done .nothing, s)
    else
      let s := persistReorgEvent chains told.uuid incident affected s
      if safetyThreshold chains h.network < incident.reorgDepth then (.waits (.alerting h), s)
      else (.done .nothing, s.setTip h.network h.newBlock)
  | .alerting h => (.done .nothing, s.setTip h.network h.newBlock)

def detector : Program Call Told State Waiting Response where
  call := fun c told s => some (request host told s c)
  resume := fun task told s => resume host chains told s task

end ReorgDetector
