import Mathlib.Data.List.Basic
import AgenticPay.ContractGuards

/-!
# Multi-signature wallets

Wallets, their signer lists, and the proposals their signers approve, reject,
cancel or let expire. The index loops of the source over a signer vector are
recursions over the list here, with the same early exits and accumulators.
-/
namespace AgenticPayContract

open Soroban Contract

/-- `for i in 0..v.len() { if v.get(i) == address { found = true; break; } }`. -/
def scanFor (address : Address) : List Address → Bool
  | [] => false
  | s :: rest => if s = address then true else scanFor address rest

@[simp] theorem scanFor_iff {address : Address} {v : List Address} :
    scanFor address v = true ↔ address ∈ v := by
  induction v with
  | nil => simp [scanFor]
  | cons s rest ih =>
    by_cases h : s = address
    · simp [scanFor, h]
    · have h' : address ≠ s := fun he => h he.symm
      simp [scanFor, h, h', ih]

/-- The scan of `remove_multisig_signer` from index `i`: whether `authorizer` was
met so far, and the last index at which `target` was met. -/
def scanSigners (authorizer target : Address) :
    List Address → Nat → Bool × Option Nat → Bool × Option Nat
  | [], _, found => found
  | s :: rest, i, (isAuthorizer, removeIdx) =>
    scanSigners authorizer target rest (i + 1)
      (if s = authorizer then true else isAuthorizer, if s = target then some i else removeIdx)

/-- The rebuild loop of `remove_multisig_signer` from index `i`. -/
def rebuildSigners (removeIdx : Option Nat) : List Address → Nat → List Address → List Address
  | [], _, acc => acc
  | s :: rest, i, acc =>
    rebuildSigners removeIdx rest (i + 1) (if some i ≠ removeIdx then acc ++ [s] else acc)

theorem scanSigners_fst (authorizer target : Address) (v : List Address) (i : Nat)
    (found : Bool × Option Nat) :
    (scanSigners authorizer target v i found).1 = true ↔ found.1 = true ∨ authorizer ∈ v := by
  induction v generalizing i found with
  | nil => simp [scanSigners]
  | cons s rest ih =>
    by_cases h : s = authorizer
    · simp [scanSigners, ih, h]
    · have h' : authorizer ≠ s := fun he => h he.symm
      simp [scanSigners, ih, h, h']

/-- The index the scan ends with is one it started with, or holds `target`. -/
theorem scanSigners_snd {authorizer target : Address} {v : List Address} {i k : Nat}
    {found : Bool × Option Nat} (h : (scanSigners authorizer target v i found).2 = some k) :
    found.2 = some k ∨ i ≤ k ∧ v[k - i]? = some target := by
  induction v generalizing i found with
  | nil => exact .inl h
  | cons s rest ih =>
    rcases ih h with hk | ⟨hle, hk⟩
    · by_cases hs : s = target
      · obtain rfl : i = k := by simpa [hs] using hk
        exact .inr ⟨le_rfl, by simp [hs]⟩
      · exact .inl (by simpa [hs] using hk)
    · have hsub : k - i = k - (i + 1) + 1 := by omega
      exact .inr ⟨by omega, by rw [hsub, List.getElem?_cons_succ]; exact hk⟩

/-- The rebuilt vector is the old one without the entry at `k`, and only that one. -/
theorem rebuildSigners_eq (v : List Address) (i k : Nat) (acc : List Address) :
    rebuildSigners (some k) v i acc = acc ++ if i ≤ k then v.eraseIdx (k - i) else v := by
  induction v generalizing i acc with
  | nil => simp [rebuildSigners]
  | cons s rest ih =>
    rw [rebuildSigners, ih]
    rcases Nat.lt_trichotomy i k with hlt | rfl | hgt
    · have hsub : k - i = k - (i + 1) + 1 := by omega
      simp [hsub, Nat.ne_of_lt hlt, Nat.le_of_lt hlt, Nat.succ_le_of_lt hlt]
    · have hlt : ¬ i + 1 ≤ i := by omega
      simp [hlt]
    · simp [Nat.ne_of_gt hgt, Nat.not_le.mpr hgt, Nat.not_le.mpr (Nat.lt_succ_of_lt hgt)]

/-- `set(&DataKey::MultisigWallet(id), &wallet)`. -/
def Storage.putWallet (s : Storage) (id : Nat) (wallet : MultisigWallet) : Storage :=
  { s with multisigWallet := Function.update s.multisigWallet id (some wallet) }

/-- `set(&DataKey::MultisigProposal(id), &proposal)`. -/
def Storage.putProposal (s : Storage) (id : Nat) (proposal : MultisigProposal) : Storage :=
  { s with multisigProposal := Function.update s.multisigProposal id (some proposal) }

def setWallet (id : Nat) (wallet : MultisigWallet) : Entry Unit := write (·.putWallet id wallet)

def findWallet (id : Nat) (message : String) : Entry MultisigWallet := do
  let stored ← read (·.multisigWallet id)
  expect stored message

def setProposal (id : Nat) (proposal : MultisigProposal) : Entry Unit :=
  write (·.putProposal id proposal)

def findProposal (id : Nat) : Entry MultisigProposal := do
  let stored ← read (·.multisigProposal id)
  expect stored "Proposal not found"

def createMultisigWallet (creator : Address) (signers : List Address)
    (threshold timeoutLedgers : Nat) : Entry Nat := do
  requireNotPaused
  requireAuth creator
  acquireLock
  assert (signers.length ≥ 2) "At least 2 signers required"
  assert (threshold ≥ 1) "Threshold must be at least 1"
  assert (threshold ≤ signers.length) "Threshold cannot exceed number of signers"
  let stored ← read (·.multisigWalletCount.getD 0)
  let count ← addU64 stored 1
  setWallet count { id := count, signers, threshold, timeoutLedgers, active := true }
  write ({ · with multisigWalletCount := some count })
  publish (.msigCreated count threshold)
  releaseLock
  return count

def getMultisigWallet (walletId : Nat) : Entry MultisigWallet :=
  findWallet walletId "Multisig wallet not found"

def addMultisigSigner (authorizer : Address) (walletId : Nat) (newSigner : Address) :
    Entry Unit := do
  requireNotPaused
  requireAuth authorizer
  acquireLock
  let wallet ← findWallet walletId "Multisig wallet not found"
  assert (wallet.active = true) "Wallet is inactive"
  assert (scanFor authorizer wallet.signers = true) "Authorizer is not a signer"
  setWallet walletId { wallet with signers := wallet.signers ++ [newSigner] }
  publish (.msigSgnAdd walletId newSigner)
  releaseLock

def removeMultisigSigner (authorizer : Address) (walletId : Nat) (signerToRemove : Address) :
    Entry Unit := do
  requireNotPaused
  requireAuth authorizer
  acquireLock
  let wallet ← findWallet walletId "Multisig wallet not found"
  assert (wallet.active = true) "Wallet is inactive"
  let found := scanSigners authorizer signerToRemove wallet.signers 0 (false, none)
  assert (found.1 = true) "Authorizer is not a signer"
  assert (found.2.isSome = true) "Signer to remove not found"
  let newLen ← subU32 wallet.signers.length 1
  assert (newLen ≥ 2) "Cannot reduce below 2 signers"
  assert (wallet.threshold ≤ newLen) "Removal would make threshold unreachable"
  setWallet walletId { wallet with signers := rebuildSigners found.2 wallet.signers 0 [] }
  publish (.msigSgnRem walletId signerToRemove)
  releaseLock

def createMultisigProposal (proposer : Address) (walletId : Nat) (amount : Int)
    (recipient : Address) (description : String) : Entry Nat := do
  requireNotPaused
  requireAuth proposer
  acquireLock
  let wallet ← findWallet walletId "Multisig wallet not found"
  assert (wallet.active = true) "Wallet is inactive"
  assert (amount > 0) "Amount must be positive"
  assert (scanFor proposer wallet.signers = true) "Proposer is not a signer of this wallet"
  let stored ← read (·.multisigProposalCount.getD 0)
  let count ← addU64 stored 1
  let now ← timestamp
  let expiresAt ← if wallet.timeoutLedgers > 0 then addU64 now wallet.timeoutLedgers else pure 0
  setProposal count
    { id := count, walletId, amount, recipient, description, status := .pending,
      approvals := [proposer], rejections := [], createdAt := now, expiresAt }
  write ({ · with multisigProposalCount := some count })
  publish (.msigProp count walletId amount recipient)
  releaseLock
  return count

def approveMultisigProposal (signer : Address) (proposalId : Nat) : Entry Unit := do
  requireNotPaused
  requireAuth signer
  acquireLock
  let mut proposal ← findProposal proposalId
  assert (proposal.status = .pending) "Proposal is not pending"
  let wallet ← findWallet proposal.walletId "Wallet not found"
  let now ← timestamp
  if proposal.expiresAt > 0 ∧ now ≥ proposal.expiresAt then
    -- the write is lost again: the panic below discards it
    setProposal proposalId { proposal with status := .expired }
    releaseLock
    abort "Proposal has expired"
  assert (scanFor signer wallet.signers = true) "Not a signer of this wallet"
  if scanFor signer proposal.approvals then
    releaseLock
    return
  proposal := { proposal with approvals := proposal.approvals ++ [signer] }
  if proposal.approvals.length ≥ wallet.threshold then
    proposal := { proposal with status := .executed }
    publish (.msigExec proposalId proposal.walletId proposal.amount proposal.recipient)
  setProposal proposalId proposal
  releaseLock

def rejectMultisigProposal (signer : Address) (proposalId : Nat) : Entry Unit := do
  requireNotPaused
  requireAuth signer
  acquireLock
  let mut proposal ← findProposal proposalId
  assert (proposal.status = .pending) "Proposal is not pending"
  let wallet ← findWallet proposal.walletId "Wallet not found"
  assert (scanFor signer wallet.signers = true) "Not a signer of this wallet"
  if scanFor signer proposal.rejections then
    releaseLock
    return
  proposal := { proposal with rejections := proposal.rejections ++ [signer] }
  let spare ← subU32 wallet.signers.length wallet.threshold
  let blocking ← addU32 spare 1
  if proposal.rejections.length ≥ blocking then
    proposal := { proposal with status := .rejected }
    publish (.msigReject proposalId proposal.walletId)
  setProposal proposalId proposal
  releaseLock

def cancelMultisigProposal (signer : Address) (proposalId : Nat) : Entry Unit := do
  requireNotPaused
  requireAuth signer
  acquireLock
  let proposal ← findProposal proposalId
  assert (proposal.status = .pending) "Only pending proposals can be cancelled"
  let wallet ← findWallet proposal.walletId "Wallet not found"
  assert (scanFor signer wallet.signers = true) "Not a signer of this wallet"
  setProposal proposalId { proposal with status := .cancelled }
  publish (.msigCancel proposalId proposal.walletId)
  releaseLock

def getMultisigProposal (proposalId : Nat) : Entry MultisigProposal := findProposal proposalId

def checkMultisigExpiry (proposalId : Nat) : Entry Bool := do
  acquireLock
  let proposal ← findProposal proposalId
  if proposal.status ≠ .pending ∨ proposal.expiresAt = 0 then
    releaseLock
    return false
  let now ← timestamp
  if now < proposal.expiresAt then
    releaseLock
    return false
  setProposal proposalId { proposal with status := .expired }
  publish (.msigExpired proposalId proposal.walletId)
  releaseLock
  return true

/-! ## What the entry points do -/

/-- The wallet `create_multisig_wallet` stores. -/
def newWallet (id : Nat) (signers : List Address) (threshold timeoutLedgers : Nat) :
    MultisigWallet :=
  { id, signers, threshold, timeoutLedgers, active := true }

/-- The index `remove_multisig_signer` picks: the last one that holds the address. -/
def MultisigWallet.removeIdx (wallet : MultisigWallet) (authorizer target : Address) :
    Option Nat :=
  (scanSigners authorizer target wallet.signers 0 (false, none)).2

/-- When a proposal made now expires. -/
def MultisigWallet.expiry (wallet : MultisigWallet) (now : Nat) : Nat :=
  if wallet.timeoutLedgers > 0 then now + wallet.timeoutLedgers else 0

def newProposal (id walletId : Nat) (amount : Int) (recipient : Address) (description : String)
    (proposer : Address) (createdAt expiresAt : Nat) : MultisigProposal :=
  { id, walletId, amount, recipient, description, status := .pending,
    approvals := [proposer], rejections := [], createdAt, expiresAt }

def MultisigProposal.Lapsed (p : MultisigProposal) (now : Nat) : Prop :=
  p.expiresAt > 0 ∧ now ≥ p.expiresAt

/-- One more approval, and the execution it may bring about. -/
def MultisigProposal.approve (p : MultisigProposal) (threshold : Nat) (signer : Address) :
    MultisigProposal :=
  { p with
    approvals := p.approvals ++ [signer]
    status := if threshold ≤ p.approvals.length + 1 then .executed else p.status }

@[simp] theorem MultisigProposal.approve_approvals (p : MultisigProposal) (threshold : Nat)
    (signer : Address) : (p.approve threshold signer).approvals = p.approvals ++ [signer] := rfl

def MultisigProposal.approveEvents (p : MultisigProposal) (proposalId threshold : Nat) :
    List Event :=
  if threshold ≤ p.approvals.length + 1 then
    [.msigExec proposalId p.walletId p.amount p.recipient] else []

/-- How many rejections `reject_multisig_proposal` asks for. -/
def MultisigWallet.blocking (wallet : MultisigWallet) : Nat :=
  wallet.signers.length - wallet.threshold + 1

/-- One more rejection, and the status it may bring about. -/
def MultisigProposal.reject (p : MultisigProposal) (blocking : Nat) (signer : Address) :
    MultisigProposal :=
  { p with
    rejections := p.rejections ++ [signer]
    status := if blocking ≤ p.rejections.length + 1 then .rejected else p.status }

@[simp] theorem MultisigProposal.reject_rejections (p : MultisigProposal) (blocking : Nat)
    (signer : Address) : (p.reject blocking signer).rejections = p.rejections ++ [signer] := rfl

def MultisigProposal.rejectEvents (p : MultisigProposal) (proposalId blocking : Nat) :
    List Event :=
  if blocking ≤ p.rejections.length + 1 then [.msigReject proposalId p.walletId] else []

section Returns

variable {env : Env} {w w' : World} {u : Unit}

@[simp] theorem setWallet_ok {id : Nat} {wallet : MultisigWallet} :
    setWallet id wallet env w = .ok (u, w') ↔
      (⟨w.storage.putWallet id wallet, w.events⟩ : World) = w' := by
  simp [setWallet]

@[simp] theorem findWallet_ok {id : Nat} {message : String} {wallet : MultisigWallet} :
    findWallet id message env w = .ok (wallet, w') ↔
      w.storage.multisigWallet id = some wallet ∧ w = w' := by
  simp [findWallet]

@[simp] theorem setProposal_ok {id : Nat} {p : MultisigProposal} :
    setProposal id p env w = .ok (u, w') ↔
      (⟨w.storage.putProposal id p, w.events⟩ : World) = w' := by
  simp [setProposal]

@[simp] theorem findProposal_ok {id : Nat} {p : MultisigProposal} :
    findProposal id env w = .ok (p, w') ↔ w.storage.multisigProposal id = some p ∧ w = w' := by
  simp [findProposal]

theorem createMultisigWallet_ok {creator : Address} {signers : List Address}
    {threshold timeoutLedgers id : Nat} :
    createMultisigWallet creator signers threshold timeoutLedgers env w = .ok (id, w') ↔
      Entered env w creator ∧ 2 ≤ signers.length ∧ 1 ≤ threshold ∧ threshold ≤ signers.length ∧
      id = w.storage.multisigWalletCount.getD 0 + 1 ∧ id < u64Bound ∧
      leave w
        { w.storage.putWallet id (newWallet id signers threshold timeoutLedgers) with
          multisigWalletCount := some id }
        [.msigCreated id threshold] = w' := by
  simp [createMultisigWallet, leave, Storage.putWallet, entered_iff, newWallet, and_assoc]
  refine fun _ _ _ _ _ _ => ⟨?_, ?_⟩
  · rintro ⟨hlt, rfl, hw⟩
    exact ⟨rfl, hlt, hw⟩
  · rintro ⟨rfl, hlt, hw⟩
    exact ⟨hlt, rfl, hw⟩

theorem addMultisigSigner_ok {authorizer newSigner : Address} {walletId : Nat} :
    addMultisigSigner authorizer walletId newSigner env w = .ok (u, w') ↔
      Entered env w authorizer ∧ ∃ wallet, w.storage.multisigWallet walletId = some wallet ∧
        wallet.active = true ∧ authorizer ∈ wallet.signers ∧
        leave w
          (w.storage.putWallet walletId { wallet with signers := wallet.signers ++ [newSigner] })
          [.msigSgnAdd walletId newSigner] = w' := by
  simp [addMultisigSigner, leave, Storage.putWallet, entered_iff, and_assoc]

theorem removeMultisigSigner_ok {authorizer target : Address} {walletId : Nat} :
    removeMultisigSigner authorizer walletId target env w = .ok (u, w') ↔
      Entered env w authorizer ∧ ∃ wallet, w.storage.multisigWallet walletId = some wallet ∧
        wallet.active = true ∧ authorizer ∈ wallet.signers ∧
        ∃ k, wallet.removeIdx authorizer target = some k ∧ 3 ≤ wallet.signers.length ∧
          wallet.threshold ≤ wallet.signers.length - 1 ∧
          leave w
            (w.storage.putWallet walletId { wallet with signers := wallet.signers.eraseIdx k })
            [.msigSgnRem walletId target] = w' := by
  simp [removeMultisigSigner, leave, Storage.putWallet, entered_iff, scanSigners_fst,
    MultisigWallet.removeIdx, and_assoc]
  refine fun _ _ _ => exists_congr fun wallet => and_congr_right fun _ =>
    and_congr_right fun _ => and_congr_right fun _ => ?_
  cases (scanSigners authorizer target wallet.signers 0 (false, none)).2 with
  | none => simp
  | some k =>
    have hlen : (1 ≤ wallet.signers.length ∧ 2 ≤ wallet.signers.length - 1) ↔
        3 ≤ wallet.signers.length := by omega
    simp [rebuildSigners_eq, ← hlen, and_assoc]

theorem createMultisigProposal_ok {proposer recipient : Address} {walletId id : Nat}
    {amount : Int} {description : String} :
    createMultisigProposal proposer walletId amount recipient description env w = .ok (id, w') ↔
      Entered env w proposer ∧ ∃ wallet, w.storage.multisigWallet walletId = some wallet ∧
        wallet.active = true ∧ 0 < amount ∧ proposer ∈ wallet.signers ∧
        id = w.storage.multisigProposalCount.getD 0 + 1 ∧ id < u64Bound ∧
        (wallet.timeoutLedgers > 0 → env.timestamp + wallet.timeoutLedgers < u64Bound) ∧
        leave w
          { w.storage.putProposal id (newProposal id walletId amount recipient description proposer
              env.timestamp (wallet.expiry env.timestamp)) with multisigProposalCount := some id }
          [.msigProp id walletId amount recipient] = w' := by
  simp [createMultisigProposal, leave, Storage.putProposal, entered_iff, newProposal,
    MultisigWallet.expiry, and_assoc]
  refine fun _ _ _ => exists_congr fun wallet => ?_
  by_cases h : 0 < wallet.timeoutLedgers
  · have h0 : wallet.timeoutLedgers ≠ 0 := by omega
    simp [h, h0]
    refine fun _ _ _ _ => ⟨?_, ?_⟩
    · rintro ⟨hlt, ht, rfl, hw⟩
      exact ⟨rfl, hlt, ht, hw⟩
    · rintro ⟨rfl, hlt, ht, hw⟩
      exact ⟨hlt, ht, rfl, hw⟩
  · have h0 : wallet.timeoutLedgers = 0 := by omega
    simp [h0]
    refine fun _ _ _ _ => ⟨?_, ?_⟩
    · rintro ⟨hlt, rfl, hw⟩
      exact ⟨rfl, hlt, hw⟩
    · rintro ⟨rfl, hlt, hw⟩
      exact ⟨hlt, rfl, hw⟩

theorem approveMultisigProposal_ok {signer : Address} {proposalId : Nat} :
    approveMultisigProposal signer proposalId env w = .ok (u, w') ↔
      Entered env w signer ∧ ∃ p, w.storage.multisigProposal proposalId = some p ∧
        p.status = .pending ∧ ∃ wallet, w.storage.multisigWallet p.walletId = some wallet ∧
        ¬ p.Lapsed env.timestamp ∧ signer ∈ wallet.signers ∧
        (signer ∈ p.approvals ∧ leave w w.storage [] = w' ∨
          signer ∉ p.approvals ∧
          leave w
            (w.storage.putProposal proposalId (p.approve wallet.threshold signer))
            (p.approveEvents proposalId wallet.threshold) = w') := by
  simp [approveMultisigProposal, leave, Storage.putProposal, entered_iff, MultisigProposal.approve,
    MultisigProposal.approveEvents, MultisigProposal.Lapsed, and_assoc]
  refine fun _ _ _ => exists_congr fun p => and_congr_right fun _ => and_congr_right fun _ =>
    exists_congr fun wallet => ?_
  by_cases h : wallet.threshold ≤ p.approvals.length + 1
  · simp [h, Nat.not_lt.mpr h]
  · simp [h, Nat.not_le.mp h]

theorem rejectMultisigProposal_ok {signer : Address} {proposalId : Nat} :
    rejectMultisigProposal signer proposalId env w = .ok (u, w') ↔
      Entered env w signer ∧ ∃ p, w.storage.multisigProposal proposalId = some p ∧
        p.status = .pending ∧ ∃ wallet, w.storage.multisigWallet p.walletId = some wallet ∧
        signer ∈ wallet.signers ∧
        (signer ∈ p.rejections ∧ leave w w.storage [] = w' ∨
          signer ∉ p.rejections ∧ wallet.threshold ≤ wallet.signers.length ∧
          wallet.blocking < u32Bound ∧
          leave w
            (w.storage.putProposal proposalId (p.reject wallet.blocking signer))
            (p.rejectEvents proposalId wallet.blocking) = w') := by
  simp [rejectMultisigProposal, leave, Storage.putProposal, entered_iff, MultisigProposal.reject,
    MultisigProposal.rejectEvents, MultisigWallet.blocking, and_assoc]
  refine fun _ _ _ => exists_congr fun p => and_congr_right fun _ => and_congr_right fun _ =>
    exists_congr fun wallet => ?_
  by_cases h : wallet.signers.length ≤ p.rejections.length + wallet.threshold
  · have h' : ¬ p.rejections.length < wallet.signers.length - wallet.threshold := by omega
    simp [h, h']
  · have h' : p.rejections.length < wallet.signers.length - wallet.threshold := by omega
    simp [h, h']

theorem cancelMultisigProposal_ok {signer : Address} {proposalId : Nat} :
    cancelMultisigProposal signer proposalId env w = .ok (u, w') ↔
      Entered env w signer ∧ ∃ p, w.storage.multisigProposal proposalId = some p ∧
        p.status = .pending ∧ ∃ wallet, w.storage.multisigWallet p.walletId = some wallet ∧
        signer ∈ wallet.signers ∧
        leave w
          (w.storage.putProposal proposalId { p with status := .cancelled })
          [.msigCancel proposalId p.walletId] = w' := by
  simp [cancelMultisigProposal, leave, Storage.putProposal, entered_iff, and_assoc]

theorem checkMultisigExpiry_ok {proposalId : Nat} {b : Bool} :
    checkMultisigExpiry proposalId env w = .ok (b, w') ↔
      locked w = false ∧ ∃ p, w.storage.multisigProposal proposalId = some p ∧
        (¬ (p.status = .pending ∧ p.Lapsed env.timestamp) ∧ b = false ∧
            leave w w.storage [] = w' ∨
          (p.status = .pending ∧ p.Lapsed env.timestamp) ∧ b = true ∧
            leave w
              (w.storage.putProposal proposalId { p with status := .expired })
              [.msigExpired proposalId p.walletId] = w') := by
  simp [checkMultisigExpiry, leave, Storage.putProposal, MultisigProposal.Lapsed, and_assoc]
  refine fun _ => exists_congr fun p => and_congr_right fun _ => ?_
  by_cases hp : p.status = .pending
  · by_cases he : p.expiresAt = 0
    · simp [hp, he]
    · have hpos : 0 < p.expiresAt := by omega
      by_cases ht : env.timestamp < p.expiresAt
      · simp [hp, he, ht, Nat.not_le.mpr ht]
      · simp [hp, he, hpos, ht, Nat.not_lt.mp ht]
  · simp [hp]

end Returns

end AgenticPayContract
