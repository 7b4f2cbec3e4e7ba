import AgenticPay.BatchTransfer

/-!
# Rolling back an executed batch

A rollback right after an execution goes over the indices that the execution
reports as failed, and over no others.
-/
namespace BatchTransferContract

open Soroban Contract Attempts

/-- How often a rollback of `attempted` has reversed transfer `i`, by the result it returns. -/
def reversals (attempted : List Nat) (result : BatchResult) (i : Nat) : Nat :=
  attempted.count i - result.failedIndices.count i

/-- An execution is undone: the balances are the ones before it, each of its successful
transfers has been reversed once, and none of its failed ones. -/
structure Undone (transfers : List Transfer) (executed rolledBack : BatchResult)
    (before after : Ledger) : Prop where
  restored : after = before
  once : ∀ i < transfers.length, i ∉ executed.failedIndices →
    reversals executed.failedIndices rolledBack i = 1
  never : ∀ i ∈ executed.failedIndices, reversals executed.failedIndices rolledBack i = 0

/-- On these balances neither transfer `i` of an execution goes through nor its reversal. -/
def Stuck (tryTransfer : TryTransfer) (refuses : Nat → Bool) (initiator : Address) (b : Ledger)
    (i : Nat) (t : Transfer) : Prop :=
  (t.amount ≤ 0 ∨ refuses i = true ∨ tryTransfer b initiator t.toAddress t.amount = none) ∧
    tryTransfer b t.toAddress initiator t.amount = none

variable {tryTransfer : TryTransfer} {refuses : Nat → Bool} {initiator admin : Address}
  {transfers : List Transfer} {env env' : Env} {w w' : World} {b : Ledger}

theorem lt_of_mem_failures {i : Nat}
    (h : i ∈ failures tryTransfer refuses initiator transfers b) : i < transfers.length :=
  List.mem_range.mp ((failures_sublist b).subset h)

theorem execution_eq_none_iff {i : Nat} {t : Transfer} (hget : transfers[i]? = some t) :
    execution tryTransfer refuses initiator transfers i b = none ↔
      t.amount ≤ 0 ∨ refuses i = true ∨ tryTransfer b initiator t.toAddress t.amount = none := by
  simp only [execution, hget, ← or_assoc]
  by_cases hbad : t.amount ≤ 0 ∨ refuses i = true
  · simp only [if_pos hbad, true_iff]
    exact .inl hbad
  · rw [if_neg hbad, or_iff_right hbad]

/-- Every transfer is stuck exactly when none of them and none of their reversals go through. -/
theorem stuck_iff :
    (∀ i t, transfers[i]? = some t → Stuck tryTransfer refuses initiator b i t) ↔
      (∀ i ∈ List.range transfers.length,
        execution tryTransfer refuses initiator transfers i b = none) ∧
      ∀ i ∈ List.range transfers.length, reversal tryTransfer initiator transfers i b = none := by
  constructor
  · intro h
    constructor
    · intro i hi
      have hget := List.getElem?_eq_getElem (List.mem_range.mp hi)
      exact (execution_eq_none_iff hget).mpr (h i _ hget).1
    · intro i hi
      have hget := List.getElem?_eq_getElem (List.mem_range.mp hi)
      simpa [reversal, hget] using (h i _ hget).2
  · rintro ⟨hexec, hrev⟩ i t hget
    have hi : i ∈ List.range transfers.length :=
      List.mem_range.mpr (List.getElem?_eq_some_iff.mp hget).1
    constructor
    · exact (execution_eq_none_iff hget).mp (hexec i hi)
    · simpa [reversal, hget] using hrev i hi

/-- What a rollback right after an execution achieves, told from the balances at its start. -/
theorem undone_iff :
    Undone transfers
        (report transfers.length (failures tryTransfer refuses initiator transfers b))
        (report (failures tryTransfer refuses initiator transfers b).length
          (failed (reversal tryTransfer initiator transfers)
            (failures tryTransfer refuses initiator transfers b)
            (settled tryTransfer refuses initiator transfers b)))
        b
        (final (reversal tryTransfer initiator transfers)
          (failures tryTransfer refuses initiator transfers b)
          (settled tryTransfer refuses initiator transfers b)) ↔
      ∀ i t, transfers[i]? = some t → Stuck tryTransfer refuses initiator b i t := by
  rw [stuck_iff]
  constructor
  · intro h
    have hall : List.range transfers.length ⊆
        failures tryTransfer refuses initiator transfers b := by
      intro i hi
      by_contra hnot
      have honce := h.once i (List.mem_range.mp hi) hnot
      rw [reversals, report, List.count_eq_zero_of_not_mem hnot, Nat.zero_sub] at honce
      contradiction
    have hfail : failures tryTransfer refuses initiator transfers b =
        List.range transfers.length :=
      failed_eq_self_of_subset List.nodup_range hall
    have hexec := failed_eq_self_iff.mp hfail
    have hsettled : settled tryTransfer refuses initiator transfers b = b := final_of_stuck hexec
    have hnever := h.never
    rw [hfail, hsettled] at hnever
    have hreversed : List.range transfers.length ⊆
        failed (reversal tryTransfer initiator transfers) (List.range transfers.length) b := by
      intro i hi
      have hzero := hnever i hi
      have hone := List.count_eq_one_of_mem List.nodup_range hi
      rw [reversals, report, hone] at hzero
      exact List.count_pos_iff.mp (Nat.sub_eq_zero_iff_le.mp hzero)
    exact ⟨hexec, failed_eq_self_iff.mp (failed_eq_self_of_subset List.nodup_range hreversed)⟩
  · rintro ⟨hexec, hrev⟩
    have hfail : failures tryTransfer refuses initiator transfers b =
        List.range transfers.length :=
      failed_eq_self_iff.mpr hexec
    have hsettled : settled tryTransfer refuses initiator transfers b = b := final_of_stuck hexec
    rw [hfail, hsettled, failed_eq_self_iff.mpr hrev, final_of_stuck hrev]
    constructor
    · rfl
    · intro i hi hnot
      exact (hnot (List.mem_range.mpr hi)).elim
    · intro i _
      exact Nat.sub_self _

/-- A rollback right after an execution, signed by the address it names, returns. -/
theorem rollback_returns {r : BatchResult} (hsigned : admin ∈ env'.auths)
    (hexec : executeBatch tryTransfer refuses initiator transfers env w = .ok (r, w')) :
    r = report transfers.length
        (failures tryTransfer refuses initiator transfers w.storage.balances) ∧
      ∃ id w'', w'.storage.batchCount = some id ∧
        rollbackBatch tryTransfer admin id initiator r.failedIndices transfers env' w' =
          .ok (report r.failedIndices.length (failed (reversal tryTransfer initiator transfers)
            r.failedIndices (settled tryTransfer refuses initiator transfers
              w.storage.balances)), w'') ∧
        w''.storage.balances = final (reversal tryTransfer initiator transfers) r.failedIndices
          (settled tryTransfer refuses initiator transfers w.storage.balances) := by
  obtain ⟨_, _, _, hsize, count, _, _, rfl, rfl⟩ := executeBatch_ok.mp hexec
  have hle : (failures tryTransfer refuses initiator transfers w.storage.balances).length ≤
      transfers.length := failures_length_le _
  have hfits : (failures tryTransfer refuses initiator transfers
      w.storage.balances).length < u32Bound := by
    simp only [maxBatchSize] at hsize
    simp only [u32Bound]
    omega
  have hstored : ∀ s : Storage, ∀ record,
      (s.putBatch (count + 1) record).batch (count + 1) = some record := fun s record =>
    Function.update_self ..
  exact ⟨rfl, count + 1, _, rfl, (rollbackBatch_ok (fun _ hi => lt_of_mem_failures hi) hfits).mpr
    ⟨hsigned, _, hstored _ _, rfl, rfl, rfl, rfl⟩, rfl⟩

/-- A rollback right after an execution returns. It undoes the execution exactly when on the
balances before it no transfer of the list goes through, and no reversal of one does. -/
theorem rollback_undoes_iff {r : BatchResult} (hsigned : admin ∈ env'.auths)
    (hexec : executeBatch tryTransfer refuses initiator transfers env w = .ok (r, w')) :
    ∃ id r' w'', w'.storage.batchCount = some id ∧
      rollbackBatch tryTransfer admin id initiator r.failedIndices transfers env' w' =
        .ok (r', w'') ∧
      (Undone transfers r r' w.storage.balances w''.storage.balances ↔
        ∀ i t, transfers[i]? = some t →
          Stuck tryTransfer refuses initiator w.storage.balances i t) := by
  obtain ⟨rfl, id, w'', hid, hroll, hleft⟩ := rollback_returns hsigned hexec
  refine ⟨id, _, w'', hid, hroll, ?_⟩
  rw [hleft]
  exact undone_iff

/-- `amount` moved from one account to another. -/
def moved (b : Ledger) (payer recipient : Address) (amount : Int) : Ledger := fun account =>
  b account + (if account = recipient then amount else 0) -
    if account = payer then amount else 0

/-- A token that moves the amount when it is not negative and the payer has it. -/
def exactTransfer : TryTransfer := fun b payer recipient amount =>
  if amount < 0 ∨ b payer < amount then none else some (moved b payer recipient amount)

/-- What transfer `i` of the list adds to an account. -/
def gain (initiator : Address) (transfers : List Transfer) (account : Address) (i : Nat) : Int :=
  match transfers[i]? with
  | some t =>
    (if account = t.toAddress then t.amount else 0) - if account = initiator then t.amount else 0
  | none => 0

/-- A token that moves exactly the amount wherever a transfer goes through. -/
def Exact (tryTransfer : TryTransfer) : Prop :=
  ∀ b payer recipient amount b', tryTransfer b payer recipient amount = some b' →
    b' = moved b payer recipient amount

theorem execution_moves {account : Address} {i : Nat} {b b' : Ledger} (hexact : Exact tryTransfer)
    (h : execution tryTransfer refuses initiator transfers i b = some b') :
    b' account = b account + gain initiator transfers account i := by
  cases hget : transfers[i]? with
  | none => simp [execution, hget] at h
  | some t =>
    simp only [execution, hget] at h
    split at h
    · contradiction
    · rw [hexact _ _ _ _ _ h, moved, gain, hget]
      simp only
      omega

theorem reversal_moves {account : Address} {i : Nat} {b b' : Ledger} (hexact : Exact tryTransfer)
    (h : reversal tryTransfer initiator transfers i b = some b') :
    - b' account = - b account + gain initiator transfers account i := by
  cases hget : transfers[i]? with
  | none => simp [reversal, hget] at h
  | some t =>
    simp only [reversal, hget] at h
    rw [hexact _ _ _ _ _ h, moved, gain, hget]
    simp only
    omega

/-- An account is back where it was when what the successful transfers added to it is what the
reversals of the failed ones took. -/
theorem account_restored_iff (hexact : Exact tryTransfer) (account : Address) :
    final (reversal tryTransfer initiator transfers)
          (failures tryTransfer refuses initiator transfers b)
          (settled tryTransfer refuses initiator transfers b) account = b account ↔
      ((List.range transfers.length).map (gain initiator transfers account)).sum -
          ((failures tryTransfer refuses initiator transfers b).map
            (gain initiator transfers account)).sum =
        ((failures tryTransfer refuses initiator transfers b).map
            (gain initiator transfers account)).sum -
          ((failed (reversal tryTransfer initiator transfers)
            (failures tryTransfer refuses initiator transfers b)
            (settled tryTransfer refuses initiator transfers b)).map
              (gain initiator transfers account)).sum := by
  have hmoves : ∀ i b b', execution tryTransfer refuses initiator transfers i b = some b' →
      b' account = b account + gain initiator transfers account i :=
    fun _ _ _ h => execution_moves hexact h
  have hexecuted := measure_final (fun b : Ledger => b account)
    (gain initiator transfers account) hmoves (List.range transfers.length) b
  have hreversed := measure_final (fun b : Ledger => - b account)
    (gain initiator transfers account) (fun _ _ _ h => reversal_moves hexact h)
    (failures tryTransfer refuses initiator transfers b)
    (settled tryTransfer refuses initiator transfers b)
  rw [← failures, ← settled] at hexecuted
  omega

/-- With a token that moves exactly the amount, a rollback restores the balances exactly when,
account by account, what the successful transfers added is what the reversals of the failed
ones took. -/
theorem balances_restored_iff {r : BatchResult}
    (hexact : Exact tryTransfer) (hsigned : admin ∈ env'.auths)
    (hexec : executeBatch tryTransfer refuses initiator transfers env w = .ok (r, w')) :
    ∃ id r' w'', w'.storage.batchCount = some id ∧
      rollbackBatch tryTransfer admin id initiator r.failedIndices transfers env' w' =
        .ok (r', w'') ∧
      (w''.storage.balances = w.storage.balances ↔ ∀ account,
        ((List.range transfers.length).map (gain initiator transfers account)).sum -
            (r.failedIndices.map (gain initiator transfers account)).sum =
          (r.failedIndices.map (gain initiator transfers account)).sum -
            (r'.failedIndices.map (gain initiator transfers account)).sum) := by
  obtain ⟨rfl, id, w'', hid, hroll, hleft⟩ := rollback_returns hsigned hexec
  refine ⟨id, _, w'', hid, hroll, ?_⟩
  rw [hleft, funext_iff]
  exact forall_congr' (account_restored_iff hexact)

/-! Account 1 has 10 and sends 4 to account 2. -/

/-- An initialized contract, and 10 on account 1. -/
def funded : World where
  storage :=
    { init := some true, admin := some ⟨9⟩, batchCount := some 0, batch := fun _ => none,
      balances := fun account => if account = ⟨1⟩ then 10 else 0 }
  events := []

def payment : List Transfer := [{ toAddress := ⟨2⟩, amount := 4 }]

/-- What the execution leaves behind. -/
def paid : World where
  storage :=
    { funded.storage.putBatch 1 (executedRecord 1 ⟨1⟩ 1 [] 5) with
      batchCount := some 1
      balances := moved funded.storage.balances ⟨1⟩ ⟨2⟩ 4 }
  events := []

theorem executeBatch_paid :
    executeBatch exactTransfer (fun _ => false) ⟨1⟩ payment { timestamp := 5, auths := [⟨1⟩] }
      funded = .ok (⟨1, 0, []⟩, paid) := rfl

theorem rollback_undoes_iff_of_paid :
    ∃ id r' w'', paid.storage.batchCount = some id ∧
      rollbackBatch exactTransfer ⟨9⟩ id ⟨1⟩ [] payment { timestamp := 6, auths := [⟨9⟩] } paid =
        .ok (r', w'') ∧
      (Undone payment ⟨1, 0, []⟩ r' funded.storage.balances w''.storage.balances ↔
        ∀ i t, payment[i]? = some t →
          Stuck exactTransfer (fun _ => false) ⟨1⟩ funded.storage.balances i t) :=
  rollback_undoes_iff List.mem_cons_self executeBatch_paid

/-- The successful transfer has no failed index, and the rollback leaves it as it is. -/
theorem successful_transfer_kept :
    ∃ w' w'', executeBatch exactTransfer (fun _ => false) ⟨1⟩ payment
        { timestamp := 5, auths := [⟨1⟩] } funded = .ok (⟨1, 0, []⟩, w') ∧
      rollbackBatch exactTransfer ⟨9⟩ 1 ⟨1⟩ [] payment { timestamp := 6, auths := [⟨9⟩] } w' =
        .ok (⟨0, 0, []⟩, w'') ∧
      funded.storage.balances ⟨2⟩ = 0 ∧ w''.storage.balances ⟨2⟩ = 4 ∧
      w''.storage.balances ≠ funded.storage.balances := by
  refine ⟨paid, _, executeBatch_paid, rfl, rfl, rfl, ?_⟩
  intro he
  have hkept : (4 : Int) = 0 := congrFun he ⟨2⟩
  contradiction

end BatchTransferContract
