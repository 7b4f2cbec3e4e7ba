import AgenticPay.Awaits
import AgenticPay.PayoutTypes

/-!
# The payout engine

Batches of the pending balances of the merchants, which a rail settles. A pass over the schedules or
over the batches to be retried waits whenever a batch is settled, and all other calls are made in
between. Kept beside the engine are the batches as they have been sent to the rail, each with the
audit trail that the engine had then.
-/
namespace Payouts

open Records Awaits

structure SentBatch where
  batch : PayoutBatch
  trail : List PayoutAuditEntry
  deriving DecidableEq

structure State where
  schedules : List PayoutSchedule
  batches : Table PayoutBatch.id
  auditTrail : List PayoutAuditEntry
  pendingAmounts : MerchantId → ℚ  -- what is not in the map counts as 0
  lastMaterialisedAt : ScheduleId → Option Int
  materialisedCycles : String → Option BatchId
  evaluationInFlight : Bool
  sequence : Nat
  sent : List SentBatch

def start : State where
  schedules := []
  batches := ∅
  auditTrail := []
  pendingAmounts := fun _ => 0
  lastMaterialisedAt := fun _ => none
  materialisedCycles := fun _ => none
  evaluationInFlight := false
  sequence := 0
  sent := []

/-- What the rail answers. No hash is an empty one. -/
inductive Answer where
  | settles (transactionHash : String)
  | throws (message : String)

/-- What a turn is told: the time, a random number and the answer of the rail. -/
structure Told where
  now : Int
  random : ℚ
  answer : Answer

/-! ## Internals -/

def State.record (s : State) (subject : Subject) (action : AuditAction) (actorId : String)
    (details : Option String) : State :=
  { s with auditTrail := s.auditTrail ++ [⟨subject, action, actorId, details⟩] }

def State.setBatch (s : State) (batch : PayoutBatch) : State :=
  { s with batches := s.batches.set batch }

def State.setPending (s : State) (merchantId : MerchantId) (amount : ℚ) : State :=
  { s with pendingAmounts := Function.update s.pendingAmounts merchantId amount }

def allowedTransitions : PayoutStatus → List PayoutStatus
  | .pending => [.executing, .completed, .failed]
  | .executing => [.completed, .failed]
  | .completed => []
  | .failed => [.pending]

def transition (batch : PayoutBatch) (next : PayoutStatus) : Except String PayoutBatch :=
  if next ∈ allowedTransitions batch.status then .ok { batch with status := next }
  else .error ("INVALID_PAYOUT_TRANSITION:" ++ batch.status.text ++ "->" ++ next.text)

def assertApprover (approver : PayoutApprover) : Except String Unit :=
  if approver.id ≠ "" ∧ approver.role ∈ ["finance_approver", "admin"] then .ok ()
  else .error "PAYOUT_APPROVER_FORBIDDEN"

/-- The length of a text of the host, in units of 16 bits. -/
def textLength (text : String) : Nat :=
  (text.toList.map fun c => if 0xFFFF < c.toNat then 2 else 1).sum

variable (showNumber : ℚ → String) (config : Settings)

def assertValidSchedule (schedule : PayoutSchedule) : Except String Unit :=
  if schedule.id = "" ∨ 128 < textLength schedule.id then .error "INVALID_PAYOUT_SCHEDULE_ID"
  else if schedule.merchantId = "" ∨ 128 < textLength schedule.merchantId then
    .error "INVALID_PAYOUT_MERCHANT_ID"
  else if schedule.preferredAsset ∉ config.allowedAssets then .error "UNSUPPORTED_PAYOUT_ASSET"
  else if schedule.autoApproveLimit < 0 then .error "INVALID_PAYOUT_AUTO_APPROVE_LIMIT"
  else if schedule.scheduleType = .threshold ∧ ¬ schedule.thresholdAmount.any (0 < ·) then
    .error "INVALID_PAYOUT_THRESHOLD_AMOUNT"
  else .ok ()

def isTriggerMet (schedule : PayoutSchedule) (pending : ℚ) : Prop :=
  0 < pending ∧
    (schedule.scheduleType = .threshold → schedule.thresholdAmount.any (· ≤ pending))

instance (schedule : PayoutSchedule) (pending : ℚ) : Decidable (isTriggerMet schedule pending) :=
  inferInstanceAs (Decidable (_ ∧ _))

def isScheduleDue (now : Int) (schedule : PayoutSchedule) (s : State) : Prop :=
  ∀ period ∈ schedulePeriodMs schedule.scheduleType,
    ∀ lastRun ∈ s.lastMaterialisedAt schedule.id, (period : Int) ≤ now - lastRun

instance (now : Int) (schedule : PayoutSchedule) (s : State) :
    Decidable (isScheduleDue now schedule s) :=
  inferInstanceAs (Decidable (∀ period ∈ schedulePeriodMs schedule.scheduleType,
    ∀ lastRun ∈ s.lastMaterialisedAt schedule.id, (period : Int) ≤ now - lastRun))

def cycleBase (schedule : PayoutSchedule) : String :=
  schedule.id ++ ":" ++ schedule.merchantId ++ ":" ++ schedule.scheduleType.text

/-- The key of the period that a schedule is in. -/
def calendarKey (schedule : PayoutSchedule) (period : Nat) (now : Int) : String :=
  cycleBase schedule ++ ":" ++ toString (now / period)

def sequenceKey (schedule : PayoutSchedule) (sequence : Nat) : String :=
  cycleBase schedule ++ ":seq-" ++ toString sequence

def cycleKeyFor (now : Int) (schedule : PayoutSchedule) (s : State) : String × State :=
  match schedulePeriodMs schedule.scheduleType with
  | none => (sequenceKey schedule (s.sequence + 1), { s with sequence := s.sequence + 1 })
  | some period => (calendarKey schedule period now, s)

/-- A number that no batch has. -/
def newId (s : State) : BatchId := (s.batches.records.map (·.id)).foldr max 0 + 1

def createBatch (schedule : PayoutSchedule) (amount : ℚ) (cycleKey : String) (s : State) :
    Except String (PayoutBatch × State) := do
  if config.maxBatchAmount < amount then .error "PAYOUT_AMOUNT_EXCEEDED"
  else
    let quantized ← quantizeNumber showNumber amount (assetDecimals schedule.preferredAsset)
    let batch : PayoutBatch :=
      { id := newId s, merchantId := schedule.merchantId, scheduleId := schedule.id, cycleKey
        status := .pending, amount := quantized, asset := schedule.preferredAsset
        errorMessage := none, errorCode := none, rejectedBy := none, attempts := 0
        maxAttempts := config.maxAttempts
        requiresApproval :=
          schedule.autoApproveLimit < amount ∨ config.approvalThreshold ≤ amount
        nextAttemptAt := none, transactionHash := none, fundsReleased := false }
    return (batch, (s.setPending schedule.merchantId 0).setBatch batch)

/-- The cycle of a batch has begun. -/
def beginCycle (now : Int) (schedule : PayoutSchedule) (batch : PayoutBatch) (s : State) : State :=
  { s.record (.batch batch.id) .created "system"
      (some (if batch.requiresApproval then "Awaiting approval" else "Auto-approved")) with
    materialisedCycles := Function.update s.materialisedCycles batch.cycleKey (some batch.id)
    lastMaterialisedAt := Function.update s.lastMaterialisedAt schedule.id (some now) }

/-- The batch of a cycle. -/
def materialiseCycle (now : Int) (schedule : PayoutSchedule) (cycleKey : String) (s : State) :
    Except String (Option PayoutBatch) × State :=
  let pending := s.pendingAmounts schedule.merchantId
  match createBatch showNumber config schedule pending cycleKey s with
  | .error detail => (.error detail, s)
  | .ok (batch, s) => (.ok (some batch), beginCycle now schedule batch s)

/-- The batch of a schedule, if one is due. The number of a cycle is used up even when no batch can
be made. -/
def materialiseBatch (now : Int) (schedule : PayoutSchedule) (s : State) :
    Except String (Option PayoutBatch) × State :=
  if ¬ isScheduleDue now schedule s then (.ok none, s)
  else if ¬ isTriggerMet schedule (s.pendingAmounts schedule.merchantId) then (.ok none, s)
  else
    let (cycleKey, s) := cycleKeyFor now schedule s
    if (schedulePeriodMs schedule.scheduleType).isSome ∧ (s.materialisedCycles cycleKey).isSome then
      (.ok none, s)
    else materialiseCycle showNumber config now schedule cycleKey s

/-- The amount goes back once. When the new balance is no amount, the batch counts as released all
the same. -/
def releaseFunds (batch : PayoutBatch) (s : State) : Except String Unit × State :=
  if batch.fundsReleased then (.ok (), s)
  else
    let s := s.setBatch { batch with fundsReleased := true }
    match quantizeNumber showNumber (s.pendingAmounts batch.merchantId + batch.amount)
      (assetDecimals batch.asset) with
    | .error message => (.error message, s)
    | .ok amount => (.ok (), (s.setPending batch.merchantId amount).record (.batch batch.id)
        .released "system" (some ("Returned " ++ showNumber batch.amount ++ " " ++ batch.asset ++
          " to pending balance")))

/-- Exponential backoff with symmetric jitter. -/
def backoffMs (random : ℚ) (attempts : Nat) : Int :=
  let capped := min (config.retryBaseMs * 2 ^ (attempts - 1)) config.retryMaxMs
  max 1 ⌊capped + (random * 2 - 1) * (capped * (1 / 4)) + 1 / 2⌋

/-! ## Settlement -/

/-- The batch goes to the rail. -/
def send (batch : PayoutBatch) (actorId : String) (s : State) : State :=
  let batch := { batch with attempts := batch.attempts + 1, status := .executing }
  let s := (s.setBatch batch).record (.batch batch.id) .executing actorId
    (some ("Attempt " ++ toString batch.attempts ++ " of " ++ toString batch.maxAttempts))
  { s with sent := s.sent ++ [⟨batch, s.auditTrail⟩] }

/-- The attempt has failed. -/
def failSettlement (told : Told) (batch : PayoutBatch) (actorId detail : String) (s : State) :
    Except String Unit × State :=
  match transition batch .failed with
  | .error message => (.error message, s)
  | .ok failed =>
    let exhausted := decide (batch.maxAttempts ≤ batch.attempts)
    let s := s.setBatch
      { failed with
        errorMessage := some detail
        errorCode :=
          some (if exhausted then "PAYOUT_ATTEMPTS_EXHAUSTED" else "PAYOUT_EXECUTION_FAILED")
        nextAttemptAt := if exhausted then batch.nextAttemptAt
          else some (told.now + backoffMs config told.random batch.attempts) }
    (.ok (), s.record (.batch batch.id) .failed actorId (some detail))

/-- The rail has answered, and `settle` goes on to its end. -/
def finishSettlement (told : Told) (batchId : BatchId) (actorId : String) (s : State) :
    Except String Unit × State :=
  match s.batches.get batchId with
  | none => (.ok (), s)  -- no batch is ever removed
  | some batch =>
    match told.answer with
    | .throws message => failSettlement config told batch actorId message s
    | .settles transactionHash =>
      if transactionHash = "" then
        failSettlement config told batch actorId "EMPTY_PAYOUT_TRANSACTION_HASH" s
      else
        match transition batch .completed with
        | .error message => failSettlement config told batch actorId message s
        | .ok completed =>
          let s := s.setBatch
            { completed with transactionHash := some transactionHash, nextAttemptAt := none }
          (.ok (), s.record (.batch batch.id) .settled actorId (some transactionHash))

/-! ## Calls and what waits -/

inductive Call where
  | setPendingAmount (merchantId : MerchantId) (amount : ℚ)
  | configureSchedule (schedule : PayoutSchedule)
  | removeSchedule (merchantId : MerchantId)
  | evaluatePayouts
  | retryDueBatches
  | approveManualPayout (batchId : BatchId) (approver : PayoutApprover)
  | rejectManualPayout (batchId : BatchId) (approver : PayoutApprover)
  | retryFailedBatch (batchId : BatchId) (approver : PayoutApprover)
  | releaseReservedFunds (batchId : BatchId) (approver : PayoutApprover)

/-- What a settlement is part of. -/
inductive After where
  | evaluation (schedule : PayoutSchedule) (rest : List PayoutSchedule) (executed : List BatchId)
  | retry (rest retried : List BatchId)
  | approval

/-- What is waited for: the rail, or a step of a pass that has ended. -/
inductive Waiting where
  | settling (batchId : BatchId) (actorId : String) (after : After)
  | evaluating (schedule : PayoutSchedule) (outcome : Except String (Option BatchId))
      (rest : List PayoutSchedule) (executed : List BatchId)
  | retrying (batchId : BatchId) (rest retried : List BatchId)

/-- The batches that a pass returns are named and not copied. -/
inductive Response where
  | unit
  | done (answer : Bool)
  | batches (ids : List BatchId)

abbrev Ends := Turn Waiting (Except String Response) × State

/-- The end of `settle`. -/
def settled (after : After) (batchId : BatchId) (result : Except String Unit) (s : State) : Ends :=
  match after, result with
  | .evaluation schedule rest executed, result =>
    (.waits (.evaluating schedule (result.map fun _ => some batchId) rest executed), s)
  | .retry rest retried, .ok () => (.waits (.retrying batchId rest retried), s)
  | .retry _ _, .error message => (.done (.error message), s)
  | .approval, result => (.done (result.map fun _ => .done true), s)

def settle (after : After) (batchId : BatchId) (actorId : String) (s : State) : Ends :=
  match s.batches.get batchId with
  | none => settled after batchId (.ok ()) s
  | some batch =>
    if batch.status ≠ .pending then settled after batchId (.ok ()) s
    else (.waits (.settling batchId actorId after), send batch actorId s)

/-- The loop of `evaluatePayouts`. -/
def evaluateNext (now : Int) (rest : List PayoutSchedule) (executed : List BatchId) (s : State) :
    Ends :=
  match rest with
  | [] => (.done (.ok (.batches executed)), { s with evaluationInFlight := false })
  | schedule :: rest =>
    match materialiseBatch showNumber config now schedule s with
    | (.error detail, s) => (.waits (.evaluating schedule (.error detail) rest executed), s)
    | (.ok none, s) => (.waits (.evaluating schedule (.ok none) rest executed), s)
    | (.ok (some batch), s) =>
      if batch.requiresApproval then
        (.waits (.evaluating schedule (.ok (some batch.id)) rest executed), s)
      else settle (.evaluation schedule rest executed) batch.id "system" s

def evaluatePayouts (now : Int) (s : State) : Ends :=
  if s.evaluationInFlight then (.done (.ok (.batches [])), s)
  else evaluateNext showNumber config now s.schedules [] { s with evaluationInFlight := true }

/-- The pass is told what has become of a schedule. -/
def evaluated (schedule : PayoutSchedule) (executed : List BatchId) (s : State) :
    Except String (Option BatchId) → List BatchId × State
  | .error detail => (executed, s.record (.schedule schedule.id) .failed "system" (some detail))
  | .ok none => (executed, s)
  | .ok (some id) => (executed ++ [id], s)

/-- A batch that is about to be retried. -/
def forRetry (batch : PayoutBatch) : PayoutBatch :=
  { batch with nextAttemptAt := none, errorCode := none, errorMessage := none }

/-- The loop of `retryDueBatches`. A batch whose status has changed meanwhile ends the pass. -/
def retryNext : List BatchId → List BatchId → State → Ends
  | [], retried, s => (.done (.ok (.batches retried)), s)
  | id :: rest, retried, s =>
    match s.batches.get id with
    | none => retryNext rest retried s
    | some batch =>
      match transition (forRetry batch) .pending with
      | .error message => (.done (.error message), s.setBatch (forRetry batch))
      | .ok batch =>
        let s := (s.setBatch batch).record (.batch id) .retried "system"
          (some "Retry after backoff elapsed")
        if batch.requiresApproval then retryNext rest (retried ++ [id]) s
        else settle (.retry rest retried) id "system" s

def isDue (now : Int) (batch : PayoutBatch) : Prop :=
  batch.status = .failed ∧ batch.rejectedBy = none ∧ batch.attempts < batch.maxAttempts ∧
    ∃ nextAttemptAt ∈ batch.nextAttemptAt, nextAttemptAt ≤ now

instance (now : Int) (batch : PayoutBatch) : Decidable (isDue now batch) :=
  inferInstanceAs (Decidable (_ ∧ _ ∧ _ ∧ ∃ nextAttemptAt ∈ batch.nextAttemptAt,
    nextAttemptAt ≤ now))

def dueBatches (now : Int) (s : State) : List BatchId :=
  (s.batches.records.filter (isDue now ·)).map (·.id)

/-- The batch that an approver decides on, when it has the status that the decision is about. -/
def batchWith (s : State) (batchId : BatchId) (status : PayoutStatus) : Option PayoutBatch :=
  (s.batches.get batchId).filter (·.status = status)

def approveManualPayout (batchId : BatchId) (approver : PayoutApprover) (s : State) : Ends :=
  match assertApprover approver, batchWith s batchId .pending with
  | .error message, _ => (.done (.error message), s)
  | .ok (), none => (.done (.ok (.done false)), s)
  | .ok (), some batch =>
    settle .approval batchId approver.id (s.record (.batch batch.id) .approved approver.id none)

def rejectManualPayout (batchId : BatchId) (approver : PayoutApprover) (s : State) : Ends :=
  match assertApprover approver, batchWith s batchId .pending with
  | .error message, _ => (.done (.error message), s)
  | .ok (), none => (.done (.ok (.done false)), s)
  | .ok (), some batch =>
    let batch := { batch with
      status := .failed
      errorMessage := some "Rejected by manual review"
      rejectedBy := some approver.id }
    match releaseFunds showNumber batch (s.setBatch batch) with
    | (.error message, s) => (.done (.error message), s)
    | (.ok (), s) => (.done (.ok (.done true)),
        s.record (.batch batch.id) .rejected approver.id batch.errorMessage)

def retryFailedBatch (batchId : BatchId) (approver : PayoutApprover) (s : State) : Ends :=
  match assertApprover approver, batchWith s batchId .failed with
  | .error message, _ => (.done (.error message), s)
  | .ok (), none => (.done (.ok (.done false)), s)
  | .ok (), some batch =>
    if batch.rejectedBy ≠ none ∨ batch.maxAttempts ≤ batch.attempts then
      (.done (.ok (.done false)), s)
    else (.done (.ok (.done true)),
      (s.setBatch { forRetry batch with status := .pending }).record (.batch batch.id) .retried
        approver.id (some "Returned to approval queue"))

def releaseReservedFunds (batchId : BatchId) (approver : PayoutApprover) (s : State) : Ends :=
  match assertApprover approver, batchWith s batchId .failed with
  | .error message, _ => (.done (.error message), s)
  | .ok (), none => (.done (.ok (.done false)), s)
  | .ok (), some batch =>
    if batch.fundsReleased then (.done (.ok (.done false)), s)
    else
      match releaseFunds showNumber batch s with
      | (.error message, s) => (.done (.error message), s)
      | (.ok (), s) => (.done (.ok (.done true)),
          s.record (.batch batch.id) .released approver.id
            (some ("Released " ++ showNumber batch.amount ++ " " ++ batch.asset ++ " reservation")))

def setPendingAmount (merchantId : MerchantId) (amount : ℚ) (s : State) : Ends :=
  if amount < 0 then (.done (.error "INVALID_PENDING_PAYOUT_AMOUNT"), s)
  else (.done (.ok .unit), s.setPending merchantId amount)

def configureSchedule (schedule : PayoutSchedule) (s : State) : Ends :=
  match assertValidSchedule config schedule with
  | .error message => (.done (.error message), s)
  | .ok () => (.done (.ok .unit), { s with
      schedules := s.schedules.filter (·.merchantId ≠ schedule.merchantId) ++ [schedule] })

def removeSchedule (merchantId : MerchantId) (s : State) : Ends :=
  match s.schedules.find? (·.merchantId = merchantId) with
  | none => (.done (.ok (.done false)), s)
  | some removed => (.done (.ok (.done true)), { s with
      schedules := s.schedules.filter (·.merchantId ≠ merchantId)
      lastMaterialisedAt := Function.update s.lastMaterialisedAt removed.id none })

def request (told : Told) (s : State) : Call → Ends
  | .setPendingAmount merchantId amount => setPendingAmount merchantId amount s
  | .configureSchedule schedule => configureSchedule config schedule s
  | .removeSchedule merchantId => removeSchedule merchantId s
  | .evaluatePayouts => evaluatePayouts showNumber config told.now s
  | .retryDueBatches => retryNext (dueBatches told.now s) [] s
  | .approveManualPayout batchId approver => approveManualPayout batchId approver s
  | .rejectManualPayout batchId approver => rejectManualPayout showNumber batchId approver s
  | .retryFailedBatch batchId approver => retryFailedBatch batchId approver s
  | .releaseReservedFunds batchId approver => releaseReservedFunds showNumber batchId approver s

def resume (told : Told) (s : State) : Waiting → Ends
  | .settling batchId actorId after =>
    settled after batchId (finishSettlement config told batchId actorId s).1
      (finishSettlement config told batchId actorId s).2
  | .evaluating schedule outcome rest executed =>
    let (executed, s) := evaluated schedule executed s outcome
    evaluateNext showNumber config told.now rest executed s
  | .retrying batchId rest retried => retryNext rest (retried ++ [batchId]) s

def engine : Program Call Told State Waiting (Except String Response) where
  call := fun c told s => some (request showNumber config told s c)
  resume := fun task told s => resume showNumber config told s task

abbrev Engine := Config State Waiting

def initial : Engine := ⟨start, []⟩

end Payouts
