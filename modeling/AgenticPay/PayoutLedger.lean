import AgenticPay.PayoutSteps
import Mathlib.Algebra.Order.Ring.Rat
import Mathlib.Tactic.Linarith

/-!
# What a merchant is owed

Money is in the balance of a merchant or in one batch, and it goes from the one to the other when a
batch is made, rejected or released. A batch that has given its money back is failed, and stays so
as long as it is not retried.
-/
namespace Payouts

open Records Awaits Transaction

/-- No batch is retried that has given its money back, and no balance is rounded. -/
def intact (credited : MerchantId → Bool) : Conditions where
  ready := fun batch => !batch.fundsReleased
  exact := fun value decimals => decide (Exact value decimals)
  credited := credited

/-- The part of a batch in what the merchant is owed, or has been paid. -/
def part (merchantId : MerchantId) (batch : PayoutBatch) : ℚ :=
  if batch.merchantId = merchantId ∧ batch.fundsReleased = false then batch.amount else 0

/-- The balance of the merchant with the batches that have kept their money. -/
def ledger (merchantId : MerchantId) (s : State) : ℚ :=
  s.pendingAmounts merchantId + Records.total (part merchantId) s.batches

/-- A batch that has given its money back is failed. -/
def GivenBack (s : State) : Prop :=
  ∀ batch ∈ s.batches, batch.fundsReleased = true → batch.status = .failed

/-- The batch has given its money back, and has been sent as it was. -/
structure Gone (batchId : BatchId) (sent : List SentBatch) (s : State) : Prop where
  found : ∃ batch, s.batches.get batchId = some batch ∧ batch.fundsReleased = true ∧
    batch.status = .failed
  sent : sentOf batchId s = sent

variable {showNumber : ℚ → String} {config : Settings} {credited : MerchantId → Bool}
  {v v' : View} {s s' : State} {batch batch' : PayoutBatch} {batchId : BatchId}
  {merchantId : MerchantId} {sent : List SentBatch}

/-! ## Batches that have given their money back -/

theorem GivenBack.set (h : GivenBack s) (hs' : s'.batches = s.batches.set batch)
    (hbatch : batch.fundsReleased = true → batch.status = .failed) : GivenBack s' := by
  intro b hb
  rw [hs'] at hb
  rcases Table.mem_set.mp hb with rfl | ⟨hold, _⟩
  · exact hbatch
  · exact h b hold

theorem GivenBack.kept (h : GivenBack s) (hfound : s.batches.get batch.id = some batch)
    (hnot : batch.status ≠ .failed) : batch.fundsReleased = false := by
  rw [← Bool.not_eq_true]
  exact fun hreleased => hnot (h batch (Table.get_some hfound).1 hreleased)

theorem Changed.givenBack (h : Changed (intact credited) batch batch')
    (hkept : batch.status ≠ .failed → batch.fundsReleased = false) :
    batch.fundsReleased = false ∧ batch'.fundsReleased = false := by
  cases h with
  | retried failed ready =>
    have hreserved : batch.fundsReleased = false := by simpa [intact] using ready
    exact ⟨hreserved, hreserved⟩
  | cleared notFailed => exact ⟨hkept notFailed, hkept notFailed⟩

theorem Step.givenBack (h : Step config (intact credited) v v') (hv : GivenBack v.state) :
    GivenBack v'.state := by
  cases h with
  | idle batches => exact fun b hb => hv b (batches ▸ hb)
  | credited => exact hv
  | created fresh _ _ batches =>
    exact hv.set batches fun hreleased =>
      absurd (fresh.fundsReleased.symm.trans hreleased) (by decide)
  | @sent s f batch actorId found notSent =>
    have hkept := hv.kept found (by rw [notSent]; decide)
    exact hv.set rfl fun hreleased => absurd (hkept.symm.trans hreleased) (by decide)
  | changed found change batches =>
    have hkept := (change.givenBack (hv.kept found)).2
    exact hv.set batches fun hreleased => absurd (hkept.symm.trans hreleased) (by decide)
  | rejected _ _ _ status _ _ _ _ _ _ batches => exact hv.set batches fun _ => status
  | released _ failed _ _ _ _ batches => exact hv.set batches fun _ => failed
  | answered found _ _ notFailed _ _ released batches =>
    have hkept := released.trans (hv.kept found notFailed)
    exact hv.set batches fun hreleased => absurd (hkept.symm.trans hreleased) (by decide)
  | dropped => exact hv

/-! ## What has gone stays so -/

theorem Gone.ne (h : Gone batchId sent s) (hfound : s.batches.get batch.id = some batch)
    (hbatch : batch.fundsReleased = false ∨ batch.status ≠ .failed) : batchId ≠ batch.id := by
  rintro rfl
  obtain ⟨gone, hget, hreleased, hfailed⟩ := h.found
  obtain rfl := Option.some.inj (hfound.symm.trans hget)
  rcases hbatch with hreserved | hnot
  · exact absurd (hreserved.symm.trans hreleased) (by decide)
  · exact hnot hfailed

theorem Gone.set (h : Gone batchId sent s) (hs' : s'.batches = s.batches.set batch)
    (hne : batchId ≠ batch.id) (hsent : s'.sent = s.sent) :
    Gone batchId sent s' where
  found := by
    rw [hs', Table.get_set_ne hne]
    exact h.found
  sent := by
    rw [sentOf, hsent]
    exact h.sent

theorem Step.gone (h : Step config (intact credited) v v') (hv : Gone batchId sent v.state) :
    Gone batchId sent v'.state := by
  cases h with
  | idle batches _ quiet =>
    refine ⟨batches ▸ hv.found, ?_⟩
    rw [sentOf, quiet.sent]
    exact hv.sent
  | credited => exact ⟨hv.found, hv.sent⟩
  | created fresh _ _ batches _ _ hsent =>
    refine hv.set batches ?_ hsent
    rintro rfl
    obtain ⟨gone, hget, _⟩ := hv.found
    exact absurd (fresh.unused.symm.trans hget) (by simp)
  | @sent s f batch actorId found notSent =>
    have hne : batchId ≠ batch.id := hv.ne found (.inr (by rw [notSent]; decide))
    refine ⟨?_, ?_⟩
    · have hget : (send batch actorId s).batches.get batchId = s.batches.get batchId :=
        Table.get_set_ne hne
      rw [hget]
      exact hv.found
    · have hsent : sentOf batchId (send batch actorId s) = sentOf batchId s := by
        simp [sentOf, send, State.record, State.setBatch, hne.symm]
      rw [hsent]
      exact hv.sent
  | @changed s s' f batch batch' found change batches _ quiet =>
    have hid : batch'.id = batch.id := by cases change <;> rfl
    have hbatch : batch.fundsReleased = false ∨ batch.status ≠ .failed := by
      cases change with
      | retried failed ready => exact .inl (by simpa [intact] using ready)
      | cleared notFailed => exact .inr notFailed
    exact hv.set batches (hid ▸ hv.ne found hbatch) quiet.sent
  | rejected found notSent keeps _ _ _ _ _ _ _ batches _ hsent =>
    exact hv.set batches (keeps.id ▸ hv.ne found (.inr (by rw [notSent]; decide))) hsent
  | released found _ reserved _ _ _ batches quiet =>
    have hne := hv.ne found (.inl reserved)
    exact hv.set batches hne quiet.sent
  | answered found _ keeps notFailed _ _ _ batches _ quiet =>
    exact hv.set batches (keeps.id ▸ hv.ne found (.inr notFailed)) quiet.sent
  | dropped => exact hv

/-! ## The ledger -/

theorem part_of_released (h : batch.fundsReleased = true) : part merchantId batch = 0 := by
  rw [part, if_neg (by simp [h])]

theorem part_congr (hmerchant : batch'.merchantId = batch.merchantId)
    (hamount : batch'.amount = batch.amount)
    (hreleased : batch'.fundsReleased = batch.fundsReleased) :
    part merchantId batch' = part merchantId batch := by
  rw [part, part, hmerchant, hamount, hreleased]

/-- A batch may be changed in all but its money. -/
theorem ledger_set (hs' : s'.batches = s.batches.set batch')
    (hfound : s.batches.get batch'.id = some batch)
    (hpart : part merchantId batch' = part merchantId batch)
    (hpending : s'.pendingAmounts = s.pendingAmounts) :
    ledger merchantId s' = ledger merchantId s := by
  have htotal := total_set_found (part merchantId) hfound
  rw [ledger, ledger, hpending, hs']
  linarith

/-- A batch gives its money back to its merchant. -/
theorem ledger_back (hs' : s'.batches = s.batches.set batch')
    (hfound : s.batches.get batch'.id = some batch)
    (hreserved : batch.fundsReleased = false) (hreleased : batch'.fundsReleased = true)
    (hpending : s'.pendingAmounts = Function.update s.pendingAmounts batch.merchantId
      (s.pendingAmounts batch.merchantId + batch.amount)) :
    ledger merchantId s' = ledger merchantId s := by
  have htotal := total_set_found (part merchantId) hfound
  rw [part_of_released hreleased] at htotal
  rw [ledger, ledger, hs', hpending]
  by_cases he : merchantId = batch.merchantId
  · have hpart : part merchantId batch = batch.amount := by simp [part, he, hreserved]
    rw [he, Function.update_self, ← he]
    linarith
  · have hpart : part merchantId batch = 0 := by simp [part, Ne.symm he]
    rw [Function.update_of_ne he]
    linarith

/-- Money goes from the balance to a batch and back, and is neither made nor lost. -/
theorem Step.ledger (h : Step config (intact credited) v v') (hv : GivenBack v.state)
    (hmerchant : credited merchantId = false) :
    ledger merchantId v'.state = ledger merchantId v.state := by
  cases h with
  | idle batches pending => rw [Payouts.ledger, Payouts.ledger, batches, pending]
  | @credited s f merchant amount hcredited =>
    have hne : merchantId ≠ merchant := by
      rintro rfl
      exact absurd (hmerchant.symm.trans hcredited) (by decide)
    rw [Payouts.ledger, Payouts.ledger]
    congr 1
    exact Function.update_of_ne hne _ _
  | @created s s' f batch fresh made exact batches pending =>
    have hamount : batch.amount = s.pendingAmounts batch.merchantId :=
      made (of_decide_eq_true exact)
    rw [Payouts.ledger, Payouts.ledger, batches, pending, total_set_fresh _ fresh.unused]
    by_cases he : merchantId = batch.merchantId
    · have hpart : part merchantId batch = batch.amount := by simp [part, he, fresh.fundsReleased]
      rw [hpart, hamount, he, Function.update_self]
      ring
    · have hpart : part merchantId batch = 0 := by simp [part, Ne.symm he]
      rw [hpart, Function.update_of_ne he, add_zero]
  | @sent s f batch actorId found => 
    exact ledger_set (send_batches batch actorId s) found (part_congr rfl rfl rfl) rfl
  | @changed s s' f batch batch' found change batches pending =>
    have hid : batch'.id = batch.id := by cases change <;> rfl
    exact ledger_set batches (hid ▸ found) (by cases change <;> exact part_congr rfl rfl rfl)
      pending
  | rejected found notSent keeps _ _ released exact putBack _ _ batches =>
    have hreserved := hv.kept found (by rw [notSent]; decide)
    exact ledger_back batches (keeps.id ▸ found) hreserved released
      (putBack hreserved (of_decide_eq_true (exact hreserved)))
  | released found _ reserved exact putBack _ batches =>
    exact ledger_back batches found reserved rfl (putBack reserved (of_decide_eq_true exact))
  | answered found _ keeps _ _ _ released batches pending =>
    exact ledger_set batches (keeps.id ▸ found)
      (part_congr keeps.merchantId keeps.amount released) pending
  | dropped => rfl

/-! ## Runs -/

/-- The balance of the merchant is not set. -/
def Spares (merchantId : MerchantId) : Act Call Told → Prop
  | .call (.setPendingAmount merchant _) _ => merchant ≠ merchantId
  | _ => True

theorem Meets.spares {g : Engine} {act : Act Call Told}
    (h : Meets config (intact fun _ => true) g act) (hspares : Spares merchantId act) :
    Meets config (intact (· ≠ merchantId)) g act := by
  cases act with
  | call c told =>
    cases c with
    | setPendingAmount merchant amount => exact decide_eq_true hspares
    | _ => exact h
  | resume i told =>
    intro task hwaiting
    have hgoes := h task hwaiting
    cases task <;> exact hgoes

theorem givenBack_run (showNumber : ℚ → String) {g : Engine} {acts : List (Act Call Told)}
    (hg : GivenBack g.state)
    (h : Along (machine (engine showNumber config)) (Meets config (intact credited)) g acts) :
    GivenBack (run (machine (engine showNumber config)) g acts).state :=
  run_steps (I := fun v => GivenBack v.state) showNumber (fun _ _ h hv => h.givenBack hv) hg h

/-- As long as no batch is retried that has given its money back, and no balance is rounded, the
balance of a merchant and the batches that have kept their money add up to the same, and a batch
that has given its money back is neither sent nor settled. -/
theorem ledger_constant (showNumber : ℚ → String) (config : Settings) (merchantId : MerchantId)
    (acts later : List (Act Call Told))
    (h : Along (machine (engine showNumber config)) (Meets config (intact fun _ => true)) initial
      (acts ++ later)) :
    ((∀ act ∈ later, Spares merchantId act) →
      ledger merchantId (run (machine (engine showNumber config)) initial (acts ++ later)).state =
        ledger merchantId (run (machine (engine showNumber config)) initial acts).state) ∧
      ∀ batch ∈ (run (machine (engine showNumber config)) initial acts).state.batches,
        batch.fundsReleased = true → Gone batch.id
          (sentOf batch.id (run (machine (engine showNumber config)) initial acts).state)
          (run (machine (engine showNumber config)) initial (acts ++ later)).state := by
  obtain ⟨hacts, hlater⟩ := along_append.mp h
  have hstart : GivenBack initial.state := fun batch hb => absurd hb (Table.not_mem_empty _)
  have hmid := givenBack_run showNumber hstart hacts
  rw [run_append]
  constructor
  · intro hspares
    have hspared := (hlater.and (along_forall.mpr hspares)).imp fun _ _ h => h.1.spares h.2
    have hend := run_steps
      (I := fun v => GivenBack v.state ∧ ledger merchantId v.state = ledger merchantId
        (run (machine (engine showNumber config)) initial acts).state)
      showNumber (fun _ _ h hv => ⟨h.givenBack hv.1, (h.ledger hv.1 (by simp)).trans hv.2⟩)
      ⟨hmid, rfl⟩ hspared
    exact hend.2
  · intro batch hbatch hreleased
    have hgone : Gone batch.id
        (sentOf batch.id (run (machine (engine showNumber config)) initial acts).state)
        (view (run (machine (engine showNumber config)) initial acts)).state :=
      ⟨⟨batch, Table.get_of_mem hbatch, hreleased, hmid batch hbatch hreleased⟩, rfl⟩
    exact run_steps (I := fun v => Gone batch.id _ v.state) showNumber
      (fun _ _ h hv => h.gone hv) hgone hlater

/-- The balance is set, and paid out. -/
def paysOut (balance : ℚ) : List (Act Call Told) :=
  [daily "m-1" 1000, sets "m-1" balance, .call .evaluatePayouts (tells 0 noAnswer)]

/-- The rail refuses the batch, and the pass ends. -/
def refused : List (Act Call Told) :=
  [.resume 0 (tells 0 (.throws "RAIL_DOWN")), .resume 0 (tells 0 noAnswer)]

def releases : Act Call Told := .call (.releaseReservedFunds 1 finance) (tells 0 noAnswer)

/-- The batch is due again, and is settled. -/
def settledAgain : List (Act Call Told) :=
  [.call .retryDueBatches (tells 60000 noAnswer), .resume 0 (tells 60000 (.settles "0xabc"))]

theorem refused_ledger : ledger "m-1" (run (machine (engine noText settings)) initial
      (paysOut 200 ++ refused ++ [releases])).state =
    ledger "m-1" (run (machine (engine noText settings)) initial (paysOut 200)).state := by
  rw [List.append_assoc]
  exact (ledger_constant noText settings "m-1" (paysOut 200) (refused ++ [releases])
    (by decide +kernel)).1 (by simp [Spares, refused, releases])

/-- A batch that has given its money back is retried and settled, and a balance that is paid out is
rounded. -/
theorem released_and_settled :
    (((run (machine (engine noText settings)) initial
        (paysOut 200 ++ refused ++ [releases])).state.batches.get 1).map
          fun batch => (batch.fundsReleased, batch.status)) = some (true, .failed) ∧
      (((run (machine (engine noText settings)) initial
        (paysOut 200 ++ refused ++ [releases] ++ settledAgain)).state.batches.get 1).map
          fun batch => (batch.fundsReleased, batch.status)) = some (true, .completed) ∧
      (run (machine (engine noText settings)) initial
        (paysOut 200 ++ refused ++ [releases] ++ settledAgain)).state.pendingAmounts "m-1" =
          200 ∧
      ledger "m-1" (run (machine (engine noText settings)) initial
        ((paysOut (1 + 4 / 10 ^ 7)).take 2)).state = 1 + 4 / 10 ^ 7 ∧
      ledger "m-1" (run (machine (engine noText settings)) initial
        (paysOut (1 + 4 / 10 ^ 7))).state = 1 := by
  decide +kernel

end Payouts
