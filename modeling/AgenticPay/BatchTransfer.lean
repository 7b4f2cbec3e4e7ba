import AgenticPay.Transaction
import AgenticPay.Soroban
import Mathlib.Data.List.Range

/-!
# The batch transfer contract

The entry points, with the balances they move kept beside the storage. How a
transfer of the token changes the balances is the token's: `tryTransfer` is a
parameter, and `refuses` says which transfers of an execution it turns down.
-/
namespace BatchTransferContract

open Soroban Contract Attempts

def maxBatchSize : Nat := 100

structure Transfer where
  toAddress : Address
  amount : Int
  deriving DecidableEq, Repr

structure BatchResult where
  successCount : Nat
  failureCount : Nat
  failedIndices : List Nat
  deriving DecidableEq, Repr

structure BatchRecord where
  id : Nat
  initiator : Address
  totalTransfers : Nat
  successCount : Nat
  failureCount : Nat
  executed : Bool
  rolledBack : Bool
  createdAt : Nat
  deriving DecidableEq, Repr

abbrev Ledger := Address → Int

/-- `env.balance().try_transfer(from, to, amount)`: the balances after it, or an error. -/
abbrev TryTransfer := Ledger → Address → Address → Int → Option Ledger

/-- The instance storage, and beside it the balances of all accounts. -/
structure Storage where
  init : Option Bool
  admin : Option Address
  batchCount : Option Nat
  batch : Nat → Option BatchRecord
  balances : Ledger

abbrev World := Soroban.World Storage Empty

abbrev Entry (α : Type) := Contract Storage Empty α

/-- Nothing stored, and the given balances. -/
def deployed (balances : Ledger) : World where
  storage :=
    { init := none, admin := none, batchCount := none, batch := fun _ => none, balances }
  events := []

/-- `set(&DataKey::Batch(id), &record)`. -/
def Storage.putBatch (s : Storage) (id : Nat) (record : BatchRecord) : Storage :=
  { s with batch := Function.update s.batch id (some record) }

/-- The entry point `initialize`, whose name is reserved here. -/
def initializeContract (admin : Address) : Entry Unit := do
  let init ← read (·.init)
  assert (init = none) "already initialized"
  write ({ · with init := some true })
  write ({ · with admin := some admin })
  write ({ · with batchCount := some 0 })

def upgrade (newWasmHash : BytesN32) : Entry Unit := do
  let stored ← read (·.admin)
  let admin ← expect stored "not initialized"
  requireAuth admin
  requireUploaded newWasmHash

/-- One call of the token; the answer is whether it went through. -/
def tryMove (attempt : Ledger → Option Ledger) : Entry Bool := fun _ w =>
  match attempt w.storage.balances with
  | some balances => .ok (true, { w with storage := { w.storage with balances } })
  | none => .ok (false, w)

/-- The loop of `execute_batch`, with `success_count` and `failed_indices` so far. -/
def executeLoop (tryTransfer : TryTransfer) (refuses : Nat → Bool) (initiator : Address) :
    List Transfer → Nat → Nat → List Nat → Entry (Nat × List Nat)
  | [], _, successCount, failedIndices => pure (successCount, failedIndices)
  | transfer :: rest, idx, successCount, failedIndices =>
    if transfer.amount ≤ 0 then
      executeLoop tryTransfer refuses initiator rest (idx + 1) successCount
        (failedIndices ++ [idx])
    else do
      let result ← tryMove fun b =>
        if refuses idx then none else tryTransfer b initiator transfer.toAddress transfer.amount
      if result then do
        let successCount ← addU32 successCount 1
        executeLoop tryTransfer refuses initiator rest (idx + 1) successCount failedIndices
      else
        executeLoop tryTransfer refuses initiator rest (idx + 1) successCount
          (failedIndices ++ [idx])

def executeBatch (tryTransfer : TryTransfer) (refuses : Nat → Bool) (initiator : Address)
    (transfers : List Transfer) : Entry BatchResult := do
  let init ← read (·.init)
  assert (init ≠ none) "not initialized"
  requireAuth initiator
  let count := transfers.length
  assert (count ≠ 0) "empty batch"
  assert (¬ count > maxBatchSize) "batch limit exceeded"
  let (successCount, failedIndices) ← executeLoop tryTransfer refuses initiator transfers 0 0 []
  let failureCount ← subU32 count successCount
  let stored ← read (·.batchCount)
  let previous ← expect stored "not initialized"
  let batchId ← addU64 previous 1
  write ({ · with batchCount := some batchId })
  let createdAt ← timestamp
  let record : BatchRecord :=
    { id := batchId, initiator, totalTransfers := count, successCount, failureCount,
      executed := true, rolledBack := false, createdAt }
  write (·.putBatch batchId record)
  return { successCount, failureCount, failedIndices }

/-- The loop of `rollback_batch`, with `rollback_success` and `rollback_failed` so far. -/
def rollbackLoop (tryTransfer : TryTransfer) (originalInitiator : Address)
    (transfers : List Transfer) : List Nat → Nat → List Nat → Entry (Nat × List Nat)
  | [], rollbackSuccess, rollbackFailed => pure (rollbackSuccess, rollbackFailed)
  | idx :: rest, rollbackSuccess, rollbackFailed => do
    let transfer ← expect transfers[idx]? "invalid index"
    let result ← tryMove fun b => tryTransfer b transfer.toAddress originalInitiator transfer.amount
    if result then do
      let rollbackSuccess ← addU32 rollbackSuccess 1
      rollbackLoop tryTransfer originalInitiator transfers rest rollbackSuccess rollbackFailed
    else
      rollbackLoop tryTransfer originalInitiator transfers rest rollbackSuccess
        (rollbackFailed ++ [idx])

def rollbackBatch (tryTransfer : TryTransfer) (admin : Address) (batchId : Nat)
    (originalInitiator : Address) (failedIndices : List Nat) (transfers : List Transfer) :
    Entry BatchResult := do
  requireAuth admin
  let stored ← read (·.batch batchId)
  let record ← expect stored "batch not found"
  assert (¬ (record.executed = false ∨ record.rolledBack = true)) "batch cannot be rolled back"
  let (rollbackSuccess, rollbackFailed) ←
    rollbackLoop tryTransfer originalInitiator transfers failedIndices 0 []
  write (·.putBatch batchId { record with rolledBack := true })
  return { successCount := rollbackSuccess, failureCount := rollbackFailed.length,
           failedIndices := rollbackFailed }

def getBatch (batchId : Nat) : Entry BatchRecord := do
  let stored ← read (·.batch batchId)
  expect stored "batch not found"

def getBatchCount : Entry Nat := read (·.batchCount.getD 0)

/-! Both loops are lists of attempts, over the indices they go through. -/

/-- What transfer `i` of an execution makes of the balances, if it goes through. -/
def execution (tryTransfer : TryTransfer) (refuses : Nat → Bool) (initiator : Address)
    (transfers : List Transfer) (i : Nat) (b : Ledger) : Option Ledger :=
  match transfers[i]? with
  | some t =>
    if t.amount ≤ 0 ∨ refuses i = true then none else tryTransfer b initiator t.toAddress t.amount
  | none => none

/-- What the reversal of transfer `i` makes of the balances, if it goes through. -/
def reversal (tryTransfer : TryTransfer) (originalInitiator : Address)
    (transfers : List Transfer) (i : Nat) (b : Ledger) : Option Ledger :=
  match transfers[i]? with
  | some t => tryTransfer b t.toAddress originalInitiator t.amount
  | none => none

/-- The same storage over other balances. -/
def settle (w : World) (balances : Ledger) : World :=
  { w with storage := { w.storage with balances } }

variable {tryTransfer : TryTransfer} {refuses : Nat → Bool} {initiator admin : Address}
  {transfers : List Transfer} {env env' : Env} {w w' : World}

theorem tryMove_some {α : Type} {attempt : Ledger → Option Ledger} {next : Bool → Entry α}
    {b : Ledger} (h : attempt w.storage.balances = some b) :
    (tryMove attempt >>= next) env w = next true env (settle w b) := by
  simp [bind, tryMove, h, settle]

theorem tryMove_none {α : Type} {attempt : Ledger → Option Ledger} {next : Bool → Entry α}
    (h : attempt w.storage.balances = none) :
    (tryMove attempt >>= next) env w = next false env w := by
  simp [bind, tryMove, h]

theorem addU32_bind {α : Type} {a b : Nat} {next : Nat → Entry α} (h : a + b < u32Bound) :
    (addU32 a b >>= next) env w = next (a + b) env w := by
  rw [addU32, if_pos h]
  rfl

@[simp] theorem settle_balances {b : Ledger} : (settle w b).storage.balances = b := rfl
@[simp] theorem settle_settle {b b' : Ledger} : settle (settle w b) b' = settle w b' := rfl

/-- The loop of `execute_batch` from index `idx` on. -/
theorem executeLoop_eq {l : List Transfer} {idx successCount : Nat} {failedIndices : List Nat}
    (hl : transfers.drop idx = l) (hfits : successCount + l.length < u32Bound) :
    executeLoop tryTransfer refuses initiator l idx successCount failedIndices env w =
      .ok ((successCount + (l.length -
            (failed (execution tryTransfer refuses initiator transfers)
              (List.range' idx l.length) w.storage.balances).length),
          failedIndices ++ failed (execution tryTransfer refuses initiator transfers)
            (List.range' idx l.length) w.storage.balances),
        settle w (final (execution tryTransfer refuses initiator transfers)
          (List.range' idx l.length) w.storage.balances)) := by
  induction l generalizing idx successCount failedIndices w with
  | nil =>
    simp only [executeLoop, List.length_nil, List.range'_zero, failed_nil, final_nil,
      List.append_nil]
    rfl
  | cons t rest ih =>
    have hget : transfers[idx]? = some t := by
      rw [← List.head?_drop, hl, List.head?_cons]
    have hdrop : transfers.drop (idx + 1) = rest := by
      rw [← List.tail_drop, hl, List.tail_cons]
    rw [List.length_cons] at hfits
    rw [List.length_cons, List.range'_succ]
    by_cases hbad : t.amount ≤ 0
    · have hnone : execution tryTransfer refuses initiator transfers idx w.storage.balances =
          none := by
        simp [execution, hget, hbad]
      rw [executeLoop, if_pos hbad, ih hdrop (by omega), failed_cons_none hnone,
        final_cons_none hnone, List.append_assoc, List.length_cons, Nat.add_sub_add_right,
        List.singleton_append]
    · have hattempt : execution tryTransfer refuses initiator transfers idx w.storage.balances =
          if refuses idx = true then none
          else tryTransfer w.storage.balances initiator t.toAddress t.amount := by
        simp [execution, hget, hbad]
      rw [executeLoop, if_neg hbad]
      cases hmoved : execution tryTransfer refuses initiator transfers idx w.storage.balances with
      | some b =>
        have hle := (failed_sublist
          (execution tryTransfer refuses initiator transfers)
          (List.range' (idx + 1) rest.length) b).length_le
        rw [List.length_range'] at hle
        have hcount : ∀ k, k ≤ rest.length →
            successCount + 1 + (rest.length - k) = successCount + (rest.length + 1 - k) := by
          omega
        rw [tryMove_some (hattempt.symm.trans hmoved), if_pos rfl, addU32_bind (by omega),
          ih hdrop (by omega), failed_cons_some hmoved, final_cons_some hmoved, settle_balances,
          settle_settle, hcount _ hle]
      | none =>
        rw [tryMove_none (hattempt.symm.trans hmoved), if_neg Bool.false_ne_true,
          ih hdrop (by omega), failed_cons_none hmoved, final_cons_none hmoved,
          List.append_assoc, List.length_cons, Nat.add_sub_add_right, List.singleton_append]

/-- The loop of `rollback_batch` over indices of the list. -/
theorem rollbackLoop_eq {l : List Nat} {rollbackSuccess : Nat} {rollbackFailed : List Nat}
    (hl : ∀ i ∈ l, i < transfers.length) (hfits : rollbackSuccess + l.length < u32Bound) :
    rollbackLoop tryTransfer initiator transfers l rollbackSuccess rollbackFailed env w =
      .ok ((rollbackSuccess + (l.length -
            (failed (reversal tryTransfer initiator transfers) l w.storage.balances).length),
          rollbackFailed ++ failed (reversal tryTransfer initiator transfers) l w.storage.balances),
        settle w (final (reversal tryTransfer initiator transfers) l w.storage.balances)) := by
  induction l generalizing rollbackSuccess rollbackFailed w with
  | nil =>
    simp only [rollbackLoop, List.length_nil, failed_nil, final_nil, List.append_nil]
    rfl
  | cons i rest ih =>
    obtain ⟨t, hget⟩ : ∃ t, transfers[i]? = some t :=
      ⟨_, List.getElem?_eq_getElem (hl i List.mem_cons_self)⟩
    have hrest : ∀ j ∈ rest, j < transfers.length := fun j hj =>
      hl j (List.mem_cons_of_mem i hj)
    have hattempt : reversal tryTransfer initiator transfers i w.storage.balances =
        tryTransfer w.storage.balances t.toAddress initiator t.amount := by
      simp [reversal, hget]
    have hexpect : ∀ next : Transfer → Entry (Nat × List Nat),
        (expect transfers[i]? "invalid index" >>= next) env w = next t env w := by
      intro next
      rw [hget]
      rfl
    rw [List.length_cons] at hfits
    rw [rollbackLoop, hexpect, List.length_cons]
    cases hmoved : reversal tryTransfer initiator transfers i w.storage.balances with
    | some b =>
      have hle := (failed_sublist (reversal tryTransfer initiator transfers) rest b).length_le
      have hcount : ∀ k, k ≤ rest.length →
          rollbackSuccess + 1 + (rest.length - k) = rollbackSuccess + (rest.length + 1 - k) := by
        omega
      rw [tryMove_some (hattempt.symm.trans hmoved), if_pos rfl, addU32_bind (by omega),
        ih hrest (by omega), failed_cons_some hmoved, final_cons_some hmoved, settle_balances,
        settle_settle, hcount _ hle]
    | none =>
      rw [tryMove_none (hattempt.symm.trans hmoved), if_neg Bool.false_ne_true,
        ih hrest (by omega), failed_cons_none hmoved, final_cons_none hmoved, List.append_assoc,
        List.length_cons, Nat.add_sub_add_right, List.singleton_append]

/-- The indices of the transfers that an execution on these balances fails at. -/
def failures (tryTransfer : TryTransfer) (refuses : Nat → Bool) (initiator : Address)
    (transfers : List Transfer) (b : Ledger) : List Nat :=
  failed (execution tryTransfer refuses initiator transfers) (List.range transfers.length) b

/-- The balances after an execution. -/
def settled (tryTransfer : TryTransfer) (refuses : Nat → Bool) (initiator : Address)
    (transfers : List Transfer) (b : Ledger) : Ledger :=
  final (execution tryTransfer refuses initiator transfers) (List.range transfers.length) b

/-- The result of `total` attempts that fail at `failedIndices`. -/
def report (total : Nat) (failedIndices : List Nat) : BatchResult where
  successCount := total - failedIndices.length
  failureCount := failedIndices.length
  failedIndices := failedIndices

/-- The record of an execution at `createdAt` that fails at `failedIndices`. -/
def executedRecord (id : Nat) (initiator : Address) (total : Nat) (failedIndices : List Nat)
    (createdAt : Nat) : BatchRecord where
  id := id
  initiator := initiator
  totalTransfers := total
  successCount := total - failedIndices.length
  failureCount := failedIndices.length
  executed := true
  rolledBack := false
  createdAt := createdAt

theorem failures_sublist (b : Ledger) :
    (failures tryTransfer refuses initiator transfers b).Sublist (List.range transfers.length) :=
  failed_sublist _ _ b

theorem failures_length_le (b : Ledger) :
    (failures tryTransfer refuses initiator transfers b).length ≤ transfers.length := by
  have hsub : (failures tryTransfer refuses initiator transfers b).Sublist
      (List.range transfers.length) := failures_sublist b
  have hle := hsub.length_le
  rwa [List.length_range] at hle

theorem executeLoop_whole (hfits : transfers.length < u32Bound) :
    executeLoop tryTransfer refuses initiator transfers 0 0 [] env w =
      .ok ((transfers.length -
            (failures tryTransfer refuses initiator transfers w.storage.balances).length,
          failures tryTransfer refuses initiator transfers w.storage.balances),
        settle w (settled tryTransfer refuses initiator transfers w.storage.balances)) := by
  have hstart : transfers.drop 0 = transfers := List.drop_zero
  rw [executeLoop_eq hstart (by omega), failures, settled,
    List.range_eq_range', Nat.zero_add, List.nil_append]

theorem executeBatch_ok {r : BatchResult} :
    executeBatch tryTransfer refuses initiator transfers env w = .ok (r, w') ↔
      w.storage.init ≠ none ∧ initiator ∈ env.auths ∧ transfers.length ≠ 0 ∧
        transfers.length ≤ maxBatchSize ∧
        ∃ count, w.storage.batchCount = some count ∧ count + 1 < u64Bound ∧
          report transfers.length
            (failures tryTransfer refuses initiator transfers w.storage.balances) = r ∧
          (⟨{ w.storage.putBatch (count + 1)
                (executedRecord (count + 1) initiator transfers.length
                  (failures tryTransfer refuses initiator transfers w.storage.balances)
                  env.timestamp) with
              batchCount := some (count + 1),
              balances := settled tryTransfer refuses initiator transfers w.storage.balances },
            w.events⟩ : World) = w' := by
  have hle : (failures tryTransfer refuses initiator transfers w.storage.balances).length ≤
      transfers.length := failures_length_le _
  by_cases hsize : transfers.length ≤ maxBatchSize
  · have hfits : transfers.length < u32Bound := by
      simp only [maxBatchSize] at hsize
      simp only [u32Bound]
      omega
    have hcount : transfers.length - (transfers.length -
        (failures tryTransfer refuses initiator transfers w.storage.balances).length) =
        (failures tryTransfer refuses initiator transfers w.storage.balances).length := by
      omega
    simp [executeBatch, executeLoop_whole hfits, hsize, hcount, report, executedRecord, settle,
      Storage.putBatch]
  · simp [executeBatch, hsize]

/-- A rollback over indices of the list: what it checks, and what it leaves. -/
theorem rollbackBatch_ok {id : Nat} {indices : List Nat} {r : BatchResult}
    (hindices : ∀ i ∈ indices, i < transfers.length) (hfits : indices.length < u32Bound) :
    rollbackBatch tryTransfer admin id initiator indices transfers env w = .ok (r, w') ↔
      admin ∈ env.auths ∧ ∃ record, w.storage.batch id = some record ∧ record.executed = true ∧
        record.rolledBack = false ∧
        report indices.length
          (failed (reversal tryTransfer initiator transfers) indices w.storage.balances) = r ∧
        (⟨{ w.storage.putBatch id { record with rolledBack := true } with
            balances := final (reversal tryTransfer initiator transfers) indices
              w.storage.balances },
          w.events⟩ : World) = w' := by
  have hloop : rollbackLoop tryTransfer initiator transfers indices 0 [] env w = _ :=
    rollbackLoop_eq hindices (by omega)
  rw [Nat.zero_add, List.nil_append] at hloop
  simp [rollbackBatch, hloop, report, settle, Storage.putBatch, and_assoc]

end BatchTransferContract
