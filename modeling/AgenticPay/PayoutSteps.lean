import AgenticPay.Payouts
import Mathlib.Logic.Relation

/-!
# The steps of the payout engine

A turn is a sequence of steps, and a step makes, changes or sends one batch at most. Which batches
may be retried, and which balances may become batches or take one back, is left to a parameter: the
engine does not check all of it.
-/
namespace Payouts

open Records Awaits Transaction Relation

/-- What is required of the batches that are retried, of the balances that become batches or take
one back, and of the merchants whose balances are set. -/
structure Conditions where
  ready : PayoutBatch → Bool
  exact : ℚ → Nat → Bool
  credited : MerchantId → Bool

/-- The engine with the batches that the rail has not answered for. -/
structure View where
  state : State
  flight : List BatchId

/-- The key of a calendar schedule. -/
def IsCalendar (key : String) : Prop :=
  ∃ schedule period now, schedulePeriodMs schedule.scheduleType = some period ∧
    key = calendarKey schedule period now

/-- What the changes of a batch keep, other than that it is sent. -/
structure Keeps (batch batch' : PayoutBatch) : Prop where
  id : batch'.id = batch.id
  merchantId : batch'.merchantId = batch.merchantId
  cycleKey : batch'.cycleKey = batch.cycleKey
  amount : batch'.amount = batch.amount
  asset : batch'.asset = batch.asset
  attempts : batch'.attempts = batch.attempts
  maxAttempts : batch'.maxAttempts = batch.maxAttempts
  requiresApproval : batch'.requiresApproval = batch.requiresApproval

/-- A batch that is made of the balance of a merchant. -/
structure Fresh (config : Settings) (s : State) (batch : PayoutBatch) : Prop where
  unused : s.batches.get batch.id = none
  status : batch.status = .pending
  attempts : batch.attempts = 0
  maxAttempts : batch.maxAttempts = config.maxAttempts
  rejectedBy : batch.rejectedBy = none
  fundsReleased : batch.fundsReleased = false
  key : (IsCalendar batch.cycleKey ∧ s.materialisedCycles batch.cycleKey = none) ∨
    ∃ schedule n, schedulePeriodMs schedule.scheduleType = none ∧
      batch.cycleKey = sequenceKey schedule n

/-- A change of one batch that does not send it. -/
inductive Changed (P : Conditions) : PayoutBatch → PayoutBatch → Prop
  | retried {batch} (failed : batch.status = .failed) (ready : P.ready batch = true) :
      Changed P batch { forRetry batch with status := .pending }
  | cleared {batch} (notFailed : batch.status ≠ .failed) : Changed P batch (forRetry batch)

/-- The amount of a batch is put back, unless the new balance is no amount. -/
def PutBack (s s' : State) (batch : PayoutBatch) : Prop :=
  batch.fundsReleased = false →
    Exact (s.pendingAmounts batch.merchantId + batch.amount) (assetDecimals batch.asset) →
      s'.pendingAmounts = Function.update s.pendingAmounts batch.merchantId
        (s.pendingAmounts batch.merchantId + batch.amount)

/-- The entries that are added to the trail are no rejections. -/
def Notes (s s' : State) : Prop :=
  ∃ entries, s'.auditTrail = s.auditTrail ++ entries ∧ ∀ e ∈ entries, e.action ≠ .rejected

/-- No cycle is begun, no batch sent and none rejected. -/
structure Quiet (s s' : State) : Prop where
  cycles : s'.materialisedCycles = s.materialisedCycles
  sent : s'.sent = s.sent
  notes : Notes s s'

/-- The balances of all other merchants are as they were. -/
def Others (s s' : State) (merchantId : MerchantId) : Prop :=
  ∀ m, m ≠ merchantId → s'.pendingAmounts m = s.pendingAmounts m

inductive Step (config : Settings) (P : Conditions) : View → View → Prop
  | idle {s s' : State} {f : List BatchId} (batches : s'.batches = s.batches)
      (pending : s'.pendingAmounts = s.pendingAmounts) (quiet : Quiet s s') :
      Step config P ⟨s, f⟩ ⟨s', f⟩
  | credited {s : State} {f : List BatchId} {merchantId : MerchantId} {amount : ℚ}
      (credited : P.credited merchantId = true) :
      Step config P ⟨s, f⟩ ⟨s.setPending merchantId amount, f⟩
  | created {s s' : State} {f : List BatchId} {batch : PayoutBatch} (fresh : Fresh config s batch)
      (made : Exact (s.pendingAmounts batch.merchantId) (assetDecimals batch.asset) →
        batch.amount = s.pendingAmounts batch.merchantId)
      (exact : P.exact (s.pendingAmounts batch.merchantId) (assetDecimals batch.asset) = true)
      (batches : s'.batches = s.batches.set batch)
      (pending : s'.pendingAmounts = Function.update s.pendingAmounts batch.merchantId 0)
      (cycles : s'.materialisedCycles =
        Function.update s.materialisedCycles batch.cycleKey (some batch.id))
      (sent : s'.sent = s.sent) (notes : Notes s s') : Step config P ⟨s, f⟩ ⟨s', f⟩
  | sent {s : State} {f : List BatchId} {batch : PayoutBatch} {actorId : String}
      (found : s.batches.get batch.id = some batch) (notSent : batch.status = .pending)
      (reviewed : batch.requiresApproval = true → ∃ approver, assertApprover approver = .ok () ∧
        s.auditTrail.getLast? = some ⟨.batch batch.id, .approved, approver.id, none⟩) :
      Step config P ⟨s, f⟩ ⟨send batch actorId s, f ++ [batch.id]⟩
  | changed {s s' : State} {f : List BatchId} {batch batch' : PayoutBatch}
      (found : s.batches.get batch.id = some batch) (change : Changed P batch batch')
      (batches : s'.batches = s.batches.set batch')
      (pending : s'.pendingAmounts = s.pendingAmounts) (quiet : Quiet s s') :
      Step config P ⟨s, f⟩ ⟨s', f⟩
  | rejected {s s' : State} {f : List BatchId} {batch batch' : PayoutBatch} {actorId : String}
      (found : s.batches.get batch.id = some batch) (notSent : batch.status = .pending)
      (keeps : Keeps batch batch') (status : batch'.status = .failed)
      (rejectedBy : batch'.rejectedBy = some actorId) (released : batch'.fundsReleased = true)
      (exact : batch.fundsReleased = false →
        P.exact (s.pendingAmounts batch.merchantId + batch.amount) (assetDecimals batch.asset) =
          true)
      (putBack : PutBack s s' batch) (others : Others s s' batch.merchantId)
      (kept : batch.fundsReleased = true → s'.pendingAmounts = s.pendingAmounts)
      (batches : s'.batches = s.batches.set batch')
      (cycles : s'.materialisedCycles = s.materialisedCycles) (sent : s'.sent = s.sent)
      (trail : ∃ entries, s'.auditTrail = s.auditTrail ++ entries ∧
        ∀ e ∈ entries, e.subject = .batch batch.id) :
      Step config P ⟨s, f⟩ ⟨s', f⟩
  | released {s s' : State} {f : List BatchId} {batch : PayoutBatch}
      (found : s.batches.get batch.id = some batch) (failed : batch.status = .failed)
      (reserved : batch.fundsReleased = false)
      (exact : P.exact (s.pendingAmounts batch.merchantId + batch.amount)
        (assetDecimals batch.asset) = true)
      (putBack : PutBack s s' batch) (others : Others s s' batch.merchantId)
      (batches : s'.batches = s.batches.set { batch with fundsReleased := true })
      (quiet : Quiet s s') : Step config P ⟨s, f⟩ ⟨s', f⟩
  | answered {s s' : State} {f f' : List BatchId} {batch batch' : PayoutBatch}
      (found : s.batches.get batch.id = some batch) (flight : f.Perm (batch.id :: f'))
      (keeps : Keeps batch batch') (notFailed : batch.status ≠ .failed)
      (status : batch'.status = .completed ∨ batch'.status = .failed)
      (rejectedBy : batch'.rejectedBy = batch.rejectedBy)
      (released : batch'.fundsReleased = batch.fundsReleased)
      (batches : s'.batches = s.batches.set batch')
      (pending : s'.pendingAmounts = s.pendingAmounts) (quiet : Quiet s s') :
      Step config P ⟨s, f⟩ ⟨s', f'⟩
  | dropped {s : State} {f f' : List BatchId} (flight : f'.Sublist f) :
      Step config P ⟨s, f⟩ ⟨s, f'⟩

abbrev Steps (config : Settings) (P : Conditions) : View → View → Prop :=
  ReflTransGen (Step config P)

def Waiting.batchId? : Waiting → Option BatchId
  | .settling batchId _ _ => some batchId
  | .evaluating .. | .retrying .. => none

/-- The sendings of a batch. -/
def sentOf (batchId : BatchId) (s : State) : List SentBatch :=
  s.sent.filter (·.batch.id = batchId)

/-- The batches that the rail has not answered for. -/
def inFlight (tasks : List Waiting) : List BatchId := tasks.filterMap Waiting.batchId?

theorem inFlight_append (tasks tasks' : List Waiting) :
    inFlight (tasks ++ tasks') = inFlight tasks ++ inFlight tasks' := List.filterMap_append

/-- The ends of a turn are reached by steps. -/
def Leads (config : Settings) (P : Conditions) (s : State) (base : List Waiting) (ends : Ends) :
    Prop :=
  Steps config P ⟨s, inFlight base⟩ ⟨ends.2, inFlight (base ++ ends.1.tasks)⟩

variable {showNumber : ℚ → String} {config : Settings} {P : Conditions} {s s' : State}
  {batch batch' : PayoutBatch} {batchId : BatchId} {schedule : PayoutSchedule}
  {base : List Waiting} {told : Told} {now : Int} {actorId : String}
  {approver : PayoutApprover} {after : After} {result : Except String Unit}

/-! ## Parts of a turn -/

theorem notes_refl (s : State) : Notes s s := ⟨[], (List.append_nil _).symm, by simp⟩

theorem notes_record {entry : PayoutAuditEntry} (h : s'.auditTrail = s.auditTrail ++ [entry])
    (haction : entry.action ≠ .rejected) : Notes s s' := by
  refine ⟨[entry], h, fun e he => ?_⟩
  rw [List.mem_singleton.mp he]
  exact haction

theorem transition_ok {next : PayoutStatus} : transition batch next = .ok batch' ↔
    next ∈ allowedTransitions batch.status ∧ { batch with status := next } = batch' := by
  rw [transition]
  split_ifs with h <;> simp [h]

theorem send_batches (batch : PayoutBatch) (actorId : String) (s : State) :
    (send batch actorId s).batches =
      s.batches.set { batch with attempts := batch.attempts + 1, status := .executing } := rfl

theorem send_sent (batch : PayoutBatch) (actorId : String) (s : State) : ∃ details,
    (send batch actorId s).sent = s.sent ++
      [⟨{ batch with attempts := batch.attempts + 1, status := .executing },
        s.auditTrail ++ [⟨.batch batch.id, .executing, actorId, details⟩]⟩] := ⟨_, rfl⟩

theorem settled_state : (settled after batchId result s).2 = s := by
  cases after <;> cases result <;> rfl

theorem settled_tasks : inFlight (settled after batchId result s).1.tasks = [] := by
  cases after <;> cases result <;> rfl

theorem settled_leads (h : Steps config P ⟨s, inFlight base⟩ ⟨s', inFlight base⟩) :
    Leads config P s base (settled after batchId result s') := by
  rw [Leads, settled_state, inFlight_append, settled_tasks, List.append_nil]
  exact h

/-- A batch that need not be reviewed, or has been approved just now, is settled. -/
theorem settle_leads {actor : String} (h : Steps config P ⟨s, inFlight base⟩ ⟨s', inFlight base⟩)
    (hreviewed : ∀ batch, s'.batches.get batchId = some batch → batch.requiresApproval = true →
      ∃ approver, assertApprover approver = .ok () ∧
        s'.auditTrail.getLast? = some ⟨.batch batchId, .approved, approver.id, none⟩) :
    Leads config P s base (settle after batchId actor s') := by
  rw [settle]
  split
  next => exact settled_leads h
  next batch hfound =>
    obtain rfl := Table.key_of_get hfound
    split_ifs with hstatus
    · exact settled_leads h
    · rw [Leads, inFlight_append]
      exact h.tail (.sent hfound (not_not.mp hstatus) (hreviewed batch hfound))

theorem done_leads {r : Except String Response}
    (h : Steps config P ⟨s, inFlight base⟩ ⟨s', inFlight base⟩) :
    Leads config P s base (.done r, s') := by
  rw [Leads, Turn.tasks, List.append_nil]
  exact h

theorem le_foldr_max {list : List Nat} {n : Nat} (h : n ∈ list) : n ≤ list.foldr max 0 := by
  induction list with
  | nil => exact absurd h List.not_mem_nil
  | cons first rest ih =>
    rcases List.mem_cons.mp h with rfl | hrest
    · exact le_max_left _ _
    · exact (ih hrest).trans (le_max_right _ _)

theorem newId_unused (s : State) : s.batches.get (newId s) = none := by
  rw [Table.get_eq_none]
  intro hmem
  have hle : newId s ≤ (s.batches.records.map (·.id)).foldr max 0 := le_foldr_max hmem
  exact absurd hle (Nat.not_succ_le_self _)

/-! ## A schedule -/

theorem createBatch_ok {amount : ℚ} {cycleKey : String}
    (h : createBatch showNumber config schedule amount cycleKey s = .ok (batch, s')) :
    amount ≤ config.maxBatchAmount ∧
      s' = (s.setPending schedule.merchantId 0).setBatch batch ∧
      quantizeNumber showNumber amount (assetDecimals schedule.preferredAsset) =
        .ok batch.amount ∧
      batch.id = newId s ∧ batch.merchantId = schedule.merchantId ∧ batch.cycleKey = cycleKey ∧
      batch.asset = schedule.preferredAsset ∧ batch.status = .pending ∧ batch.attempts = 0 ∧
      batch.maxAttempts = config.maxAttempts ∧ batch.rejectedBy = none ∧
      batch.fundsReleased = false := by
  rw [createBatch] at h
  split_ifs at h with hmax
  obtain ⟨quantized, hquantized, h⟩ := bind_returns h
  cases h
  exact ⟨not_lt.mp hmax, rfl, hquantized, rfl, rfl, rfl, rfl, rfl, rfl, rfl, rfl, rfl⟩

/-- What a cycle comes to: an error, or a new batch. -/
theorem materialiseCycle_steps (showNumber : ℚ → String) (now : Int) {f : List BatchId}
    {cycleKey : String}
    (hexact : s.pendingAmounts schedule.merchantId ≤ config.maxBatchAmount →
      IsAmount (s.pendingAmounts schedule.merchantId) (assetDecimals schedule.preferredAsset) →
        P.exact (s.pendingAmounts schedule.merchantId) (assetDecimals schedule.preferredAsset) =
          true)
    (hkey : (IsCalendar cycleKey ∧ s.materialisedCycles cycleKey = none) ∨
      ∃ schedule n, schedulePeriodMs schedule.scheduleType = none ∧
        cycleKey = sequenceKey schedule n) :
    Steps config P ⟨s, f⟩ ⟨(materialiseCycle showNumber config now schedule cycleKey s).2, f⟩ ∧
      ∀ batch, (materialiseCycle showNumber config now schedule cycleKey s).1 = .ok (some batch) →
        (materialiseCycle showNumber config now schedule cycleKey s).2.batches.get batch.id =
          some batch := by
  rw [materialiseCycle]
  split
  next => exact ⟨.refl, by simp⟩
  next batch t hcreated =>
    obtain ⟨hle, rfl, hquantized, hid, hmerchant, rfl, hasset, hstatus, hattempts, hmax, hrejected,
      hreleased⟩ := createBatch_ok hcreated
    have hunused : s.batches.get batch.id = none := hid ▸ newId_unused s
    refine ⟨.single (.created ⟨hunused, hstatus, hattempts, hmax, hrejected, hreleased, hkey⟩
      (fun hamount => ?_) ?_ rfl ?_ rfl rfl ?_), fun made hmade => ?_⟩
    · rw [hmerchant, hasset] at hamount
      rw [quantizeNumber_exact showNumber hamount] at hquantized
      rw [hmerchant, Except.ok.inj hquantized]
    · rw [hmerchant, hasset]
      exact hexact hle (quantizeNumber_amount hquantized)
    · rw [hmerchant]
      rfl
    · exact notes_record rfl (by simp)
    · obtain rfl : batch = made := Option.some.inj (Except.ok.inj hmade)
      exact Table.get_set_self _ _

theorem cycleKeyFor_cases (now : Int) (schedule : PayoutSchedule) (s : State) :
    (∃ period, schedulePeriodMs schedule.scheduleType = some period ∧
        cycleKeyFor now schedule s = (calendarKey schedule period now, s)) ∨
      schedulePeriodMs schedule.scheduleType = none ∧ cycleKeyFor now schedule s =
        (sequenceKey schedule (s.sequence + 1), { s with sequence := s.sequence + 1 }) := by
  rw [cycleKeyFor]
  cases h : schedulePeriodMs schedule.scheduleType with
  | none => exact .inr ⟨rfl, rfl⟩
  | some period => exact .inl ⟨period, rfl, rfl⟩

/-- A batch is made of the balance of the schedule. -/
def Makes (config : Settings) (now : Int) (s : State) (schedule : PayoutSchedule) : Prop :=
  isScheduleDue now schedule s ∧ isTriggerMet schedule (s.pendingAmounts schedule.merchantId) ∧
    (∀ period ∈ schedulePeriodMs schedule.scheduleType,
      s.materialisedCycles (calendarKey schedule period now) = none) ∧
    s.pendingAmounts schedule.merchantId ≤ config.maxBatchAmount ∧
    IsAmount (s.pendingAmounts schedule.merchantId) (assetDecimals schedule.preferredAsset)

instance (config : Settings) (now : Int) (s : State) (schedule : PayoutSchedule) :
    Decidable (Makes config now s schedule) :=
  inferInstanceAs (Decidable (_ ∧ _ ∧ (∀ period ∈ schedulePeriodMs schedule.scheduleType,
    s.materialisedCycles (calendarKey schedule period now) = none) ∧ _ ∧ _))

/-- A balance that becomes a batch is as required. -/
def Takes (config : Settings) (P : Conditions) (now : Int) (s : State)
    (schedule : PayoutSchedule) : Prop :=
  Makes config now s schedule →
    P.exact (s.pendingAmounts schedule.merchantId) (assetDecimals schedule.preferredAsset) = true

instance (config : Settings) (P : Conditions) (now : Int) (s : State) (schedule : PayoutSchedule) :
    Decidable (Takes config P now s schedule) :=
  inferInstanceAs (Decidable (_ → _))

/-- What a schedule comes to: no batch, or a new one. -/
theorem materialiseBatch_steps (showNumber : ℚ → String) {f : List BatchId}
    (htakes : Takes config P now s schedule) :
    Steps config P ⟨s, f⟩ ⟨(materialiseBatch showNumber config now schedule s).2, f⟩ ∧
      ∀ batch, (materialiseBatch showNumber config now schedule s).1 = .ok (some batch) →
        (materialiseBatch showNumber config now schedule s).2.batches.get batch.id =
          some batch := by
  rw [materialiseBatch]
  by_cases hdue : isScheduleDue now schedule s
  · rw [if_neg (not_not.mpr hdue)]
    by_cases htrigger : isTriggerMet schedule (s.pendingAmounts schedule.merchantId)
    · rw [if_neg (not_not.mpr htrigger)]
      obtain ⟨period, hperiod, hkey⟩ | ⟨hperiod, hkey⟩ := cycleKeyFor_cases now schedule s
      · rw [hkey]
        dsimp only
        split_ifs with hbegun
        · exact ⟨.refl, by simp⟩
        · have hnew : s.materialisedCycles (calendarKey schedule period now) = none := by
            rw [hperiod] at hbegun
            simpa using hbegun
          have hfree : ∀ period ∈ schedulePeriodMs schedule.scheduleType,
              s.materialisedCycles (calendarKey schedule period now) = none := by
            rw [hperiod]
            rintro _ ⟨⟩
            exact hnew
          exact materialiseCycle_steps showNumber now
            (fun hmax hamount => htakes ⟨hdue, htrigger, hfree, hmax, hamount⟩)
            (.inl ⟨⟨schedule, period, now, hperiod, rfl⟩, hnew⟩)
      · rw [hkey]
        dsimp only
        rw [hperiod, if_neg (by simp)]
        -- the number of the cycle is used up first
        have hused : Step config P ⟨s, f⟩ ⟨{ s with sequence := s.sequence + 1 }, f⟩ :=
          .idle rfl rfl ⟨rfl, rfl, notes_refl s⟩
        have hfree : ∀ period ∈ schedulePeriodMs schedule.scheduleType,
            s.materialisedCycles (calendarKey schedule period now) = none := by simp [hperiod]
        obtain ⟨hsteps, hmade⟩ := materialiseCycle_steps showNumber now (f := f)
          (s := { s with sequence := s.sequence + 1 })
          (fun hmax hamount => htakes ⟨hdue, htrigger, hfree, hmax, hamount⟩)
          (.inr ⟨schedule, _, hperiod, rfl⟩)
        exact ⟨.head hused hsteps, hmade⟩
    · rw [if_pos htrigger]
      exact ⟨.refl, by simp⟩
  · rw [if_pos hdue]
    exact ⟨.refl, by simp⟩

/-! ## Passes -/

theorem evaluateNext_leads {rest : List PayoutSchedule} {executed : List BatchId}
    (h : Steps config P ⟨s, inFlight base⟩ ⟨s', inFlight base⟩)
    (htakes : ∀ schedule ∈ rest.head?, Takes config P now s' schedule) :
    Leads config P s base (evaluateNext showNumber config now rest executed s') := by
  cases rest with
  | nil => exact done_leads (h.tail (.idle rfl rfl ⟨rfl, rfl, notes_refl s'⟩))
  | cons schedule rest =>
    obtain ⟨hsteps, hmade⟩ := materialiseBatch_steps showNumber (f := inFlight base)
      (htakes schedule rfl)
    rw [evaluateNext]
    generalize materialiseBatch showNumber config now schedule s' = made at hsteps hmade
    have hall := h.trans hsteps
    have hwaits : ∀ outcome, Leads config P s base
        (.waits (.evaluating schedule outcome rest executed), made.2) := by
      intro outcome
      rw [Leads, inFlight_append]
      show Steps config P _ ⟨made.2, inFlight base ++ []⟩
      rwa [List.append_nil]
    obtain ⟨outcome, t⟩ := made
    match outcome with
    | .error detail => exact hwaits (.error detail)
    | .ok none => exact hwaits (.ok none)
    | .ok (some batch) =>
      dsimp only
      split_ifs with hrequires
      · exact hwaits (.ok (some batch.id))
      · refine settle_leads hall fun found hfound hasks => ?_
        obtain rfl := Option.some.inj (hfound.symm.trans (hmade batch rfl))
        exact absurd hasks hrequires

/-- The batches that a pass retries up to its next wait are as required. -/
def Retries (ready : PayoutBatch → Bool) (s : State) : List BatchId → Prop
  | [] => True
  | id :: rest =>
    (∀ batch ∈ s.batches.get id, batch.status = .failed → ready batch = true) ∧
      ((∀ batch ∈ s.batches.get id, batch.status = .failed ∧ batch.requiresApproval = true) →
        Retries ready s rest)

instance decidableRetries (ready : PayoutBatch → Bool) (s : State) : (ids : List BatchId) →
    Decidable (Retries ready s ids)
  | [] => isTrue trivial
  | id :: rest =>
    have := decidableRetries ready s rest
    inferInstanceAs (Decidable ((∀ batch ∈ s.batches.get id, _ → _) ∧
      ((∀ batch ∈ s.batches.get id, _ ∧ _) → Retries ready s rest)))

variable {ready : PayoutBatch → Bool}

theorem retries_of_ready {ids : List BatchId} (h : ∀ id ∈ ids, ∀ batch,
      s.batches.get id = some batch → batch.status = .failed → ready batch = true) :
    Retries ready s ids := by
  induction ids with
  | nil => trivial
  | cons id rest ih =>
    exact ⟨h id List.mem_cons_self, fun _ => ih fun id hmem => h id (List.mem_cons_of_mem _ hmem)⟩

/-- A pass ends at a batch that is not failed any more. -/
theorem Retries.set {ids : List BatchId} (h : Retries ready s ids)
    (hs' : s'.batches = s.batches.set batch) (hbatch : batch.status ≠ .failed) :
    Retries ready s' ids := by
  induction ids with
  | nil => trivial
  | cons id rest ih =>
    obtain ⟨hready, hrest⟩ := h
    have hget : s'.batches.get id = if id = batch.id then some batch else s.batches.get id := by
      rw [hs', Table.get_set]
    rw [Retries, hget]
    split_ifs with he
    · refine ⟨fun found hfound hfailed => ?_, fun hall => absurd (hall batch rfl).1 hbatch⟩
      obtain rfl := Option.some.inj hfound
      exact absurd hfailed hbatch
    · exact ⟨hready, fun hall => ih (hrest hall)⟩

theorem retried_step {f : List BatchId} (actorId : String) (details : Option String)
    (hfound : s.batches.get batch.id = some batch) (hfailed : batch.status = .failed)
    (hready : P.ready batch = true) :
    Step config P ⟨s, f⟩ ⟨(s.setBatch { forRetry batch with status := .pending }).record
      (.batch batch.id) .retried actorId details, f⟩ :=
  .changed hfound (.retried hfailed hready) rfl rfl ⟨rfl, rfl, notes_record rfl (by simp)⟩

theorem retryNext_leads {rest retried : List BatchId}
    (h : Steps config P ⟨s, inFlight base⟩ ⟨s', inFlight base⟩)
    (hretries : Retries P.ready s' rest) :
    Leads config P s base (retryNext rest retried s') := by
  induction rest generalizing retried s' with
  | nil => exact done_leads h
  | cons id rest ih =>
    obtain ⟨hready, hrest⟩ := hretries
    rw [retryNext]
    split
    next hnone => exact ih h (hrest (by simp [hnone]))
    next batch hfound =>
      obtain rfl := Table.key_of_get hfound
      cases htransition : transition (forRetry batch) .pending with
      | error message =>
        have hnot : batch.status ≠ .failed := by
          intro hfailed
          rw [transition, if_pos] at htransition
          · contradiction
          · show PayoutStatus.pending ∈ allowedTransitions batch.status
            rw [hfailed]
            decide
        exact done_leads (h.tail (.changed hfound (.cleared hnot) rfl rfl
          ⟨rfl, rfl, notes_refl s'⟩))
      | ok next =>
        obtain ⟨hallowed, rfl⟩ := transition_ok.mp htransition
        have hfailed : batch.status = .failed := by
          revert hallowed
          show PayoutStatus.pending ∈ allowedTransitions batch.status → _
          cases batch.status <;> decide
        have hstep := h.tail (retried_step "system" (some "Retry after backoff elapsed") hfound
          hfailed (hready batch hfound hfailed))
        dsimp only
        split_ifs with hrequires
        · have hall : ∀ found ∈ s'.batches.get batch.id,
              found.status = .failed ∧ found.requiresApproval = true := by
            intro found hget
            obtain rfl := Option.some.inj (hfound.symm.trans hget)
            exact ⟨hfailed, hrequires⟩
          exact ih hstep ((hrest hall).set rfl (by simp))
        · refine settle_leads hstep fun found hget hasks => ?_
          have hself : (s'.batches.set { forRetry batch with status := .pending }).get batch.id =
              some { forRetry batch with status := .pending } :=
            Table.get_set_self s'.batches { forRetry batch with status := .pending }
          rw [← Option.some.inj (hself.symm.trans hget)] at hasks
          exact absurd hasks hrequires

/-! ## Answers -/

/-- The rail has answered for a batch. -/
theorem answered_step {f f' : List BatchId} (actorId : String) (details : Option String)
    {action : AuditAction} (haction : action ≠ .rejected) (keeps : Keeps batch batch')
    (hfound : s.batches.get batch.id = some batch) (hperm : f.Perm (batch.id :: f'))
    (hnot : batch.status ≠ .failed) (hstatus : batch'.status = .completed ∨ batch'.status = .failed)
    (hrejected : batch'.rejectedBy = batch.rejectedBy)
    (hreleased : batch'.fundsReleased = batch.fundsReleased) :
    Step config P ⟨s, f⟩
      ⟨(s.setBatch batch').record (.batch batch.id) action actorId details, f'⟩ :=
  .answered hfound hperm keeps hnot hstatus hrejected hreleased rfl rfl
    ⟨rfl, rfl, notes_record rfl haction⟩

theorem failSettlement_steps {f f' : List BatchId} {detail : String}
    (hfound : s.batches.get batch.id = some batch) (hperm : f.Perm (batch.id :: f'))
    (hsub : f'.Sublist f) :
    Steps config P ⟨s, f⟩ ⟨(failSettlement config told batch actorId detail s).2, f'⟩ := by
  rw [failSettlement]
  cases htransition : transition batch .failed with
  | error message => exact .single (.dropped hsub)
  | ok failed =>
    obtain ⟨hallowed, rfl⟩ := transition_ok.mp htransition
    have hnot : batch.status ≠ .failed := by
      intro hfailed
      rw [hfailed] at hallowed
      exact absurd hallowed (by decide)
    refine .single (answered_step actorId (some detail) (by decide) ?_ hfound hperm hnot ?_ ?_ ?_)
    · exact ⟨rfl, rfl, rfl, rfl, rfl, rfl, rfl, rfl⟩
    · exact .inr rfl
    · rfl
    · rfl

theorem finishSettlement_steps {f f' : List BatchId} (hperm : f.Perm (batchId :: f'))
    (hsub : f'.Sublist f) :
    Steps config P ⟨s, f⟩ ⟨(finishSettlement config told batchId actorId s).2, f'⟩ := by
  rw [finishSettlement]
  cases hfound : s.batches.get batchId with
  | none => exact .single (.dropped hsub)
  | some batch =>
    obtain rfl := Table.key_of_get hfound
    dsimp only
    split
    next => exact failSettlement_steps hfound hperm hsub
    next transactionHash _ =>
      split_ifs
      · exact failSettlement_steps hfound hperm hsub
      · cases htransition : transition batch .completed with
        | error message => exact failSettlement_steps hfound hperm hsub
        | ok completed =>
          obtain ⟨hallowed, rfl⟩ := transition_ok.mp htransition
          have hnot : batch.status ≠ .failed := by
            intro hfailed
            rw [hfailed] at hallowed
            exact absurd hallowed (by decide)
          refine .single (answered_step actorId (some transactionHash) (by decide) ?_ hfound hperm
            hnot ?_ ?_ ?_)
          · exact ⟨rfl, rfl, rfl, rfl, rfl, rfl, rfl, rfl⟩
          · exact .inl rfl
          · rfl
          · rfl

/-! ## Decisions -/

/-- The reservation of a batch is given up. -/
structure Released (s s' : State) (batch : PayoutBatch) : Prop where
  batches : s'.batches = s.batches.set { batch with fundsReleased := true }
  putBack : PutBack s s' batch
  others : Others s s' batch.merchantId
  cycles : s'.materialisedCycles = s.materialisedCycles
  sent : s'.sent = s.sent
  trail : ∃ entries, s'.auditTrail = s.auditTrail ++ entries ∧
    ∀ e ∈ entries, e.subject = .batch batch.id ∧ e.action = .released

theorem releaseFunds_released (showNumber : ℚ → String) (s : State)
    (h : batch.fundsReleased = false) :
    Released s (releaseFunds showNumber batch s).2 batch := by
  rw [releaseFunds, if_neg (by simp [h])]
  dsimp only
  cases hquantized : quantizeNumber showNumber
      ((s.setBatch { batch with fundsReleased := true }).pendingAmounts batch.merchantId +
        batch.amount) (assetDecimals batch.asset) with
  | error message =>
    refine ⟨rfl, fun _ hexact => ?_, fun _ _ => rfl, rfl, rfl,
      [], (List.append_nil _).symm, by simp⟩
    have hnot := (quantizeNumber_exact showNumber hexact).symm.trans hquantized
    contradiction
  | ok amount =>
    refine ⟨rfl, fun _ hexact => ?_, fun m hm => Function.update_of_ne hm _ _, rfl, rfl,
      [_], rfl, by simp⟩
    rw [← Except.ok.inj ((quantizeNumber_exact showNumber hexact).symm.trans hquantized)]
    rfl

theorem batchWith_some {status : PayoutStatus} (h : batchWith s batchId status = some batch) :
    s.batches.get batchId = some batch ∧ batch.status = status := by
  obtain ⟨hget, hstatus⟩ := Option.filter_eq_some_iff.mp h
  exact ⟨hget, of_decide_eq_true hstatus⟩

theorem approveManualPayout_leads :
    Leads config P s base (approveManualPayout batchId approver s) := by
  rw [approveManualPayout]
  split
  next => exact done_leads .refl
  next => exact done_leads .refl
  next batch hallowed hbatch =>
    obtain ⟨hget, _⟩ := batchWith_some hbatch
    obtain rfl := Table.key_of_get hget
    refine settle_leads (.single (.idle rfl rfl ⟨rfl, rfl, notes_record rfl (by simp)⟩)) ?_
    intro found hfound _
    exact ⟨approver, hallowed, List.getLast?_concat⟩

theorem retryFailedBatch_leads (hready : ∀ batch ∈ batchWith s batchId .failed,
      assertApprover approver = .ok () → batch.rejectedBy = none →
        batch.attempts < batch.maxAttempts → P.ready batch = true) :
    Leads config P s base (retryFailedBatch batchId approver s) := by
  rw [retryFailedBatch]
  split
  next => exact done_leads .refl
  next => exact done_leads .refl
  next batch hallowed hbatch =>
    obtain ⟨hget, hstatus⟩ := batchWith_some hbatch
    obtain rfl := Table.key_of_get hget
    split_ifs with hspent
    · exact done_leads .refl
    · obtain ⟨hrejected, hleft⟩ := not_or.mp hspent
      exact done_leads (.single (retried_step _ _ hget hstatus
        (hready batch hbatch hallowed (not_not.mp hrejected) (not_le.mp hleft))))

/-- A balance that takes back what a batch has reserved is as required. -/
def TakesBack (P : Conditions) (s : State) (batch : PayoutBatch) : Prop :=
  batch.fundsReleased = false →
    P.exact (s.pendingAmounts batch.merchantId + batch.amount) (assetDecimals batch.asset) = true

instance (P : Conditions) (s : State) (batch : PayoutBatch) : Decidable (TakesBack P s batch) :=
  inferInstanceAs (Decidable (_ → _))

/-- A batch that is rejected gives up its reservation, if it still has one. -/
theorem rejected_step {f : List BatchId} {rejected : PayoutBatch} {extra : List PayoutAuditEntry}
    (hended : releaseFunds showNumber rejected (s.setBatch rejected) = (result, s'))
    (hfound : s.batches.get batch.id = some batch)
    (hpending : batch.status = .pending) (htakes : TakesBack P s batch)
    (keeps : Keeps batch rejected) (hfailed : rejected.status = .failed)
    (hby : rejected.rejectedBy = some actorId)
    (hfunds : rejected.fundsReleased = batch.fundsReleased)
    (hextra : ∀ e ∈ extra, e.subject = .batch batch.id) :
    Step config P ⟨s, f⟩ ⟨{ s' with auditTrail := s'.auditTrail ++ extra }, f⟩ := by
  cases hreleased : batch.fundsReleased with
  | true =>
    have hdone : rejected.fundsReleased = true := hfunds.trans hreleased
    rw [releaseFunds, if_pos hdone] at hended
    obtain ⟨-, rfl⟩ := Prod.mk.inj hended
    exact .rejected hfound hpending keeps hfailed hby hdone htakes
      (fun h => absurd (hreleased.symm.trans h) (by decide)) (fun _ _ => rfl) (fun _ => rfl) rfl
      rfl rfl ⟨extra, rfl, hextra⟩
  | false =>
    have hspec := releaseFunds_released showNumber (s.setBatch rejected) (hfunds.trans hreleased)
    rw [hended] at hspec
    obtain ⟨entries, htrail, hentries⟩ := hspec.trail
    have hkeeps : Keeps batch { rejected with fundsReleased := true } :=
      ⟨keeps.id, keeps.merchantId, keeps.cycleKey, keeps.amount, keeps.asset, keeps.attempts,
        keeps.maxAttempts, keeps.requiresApproval⟩
    have hset : (s.setBatch rejected).batches.set { rejected with fundsReleased := true } =
        s.batches.set { rejected with fundsReleased := true } := Table.set_set rfl
    refine .rejected hfound hpending hkeeps hfailed hby rfl htakes ?_ ?_
      (fun h => absurd (hreleased.symm.trans h) (by decide)) ?_ hspec.cycles hspec.sent
      ⟨entries ++ extra, ?_, ?_⟩
    · intro _ hamount
      have hput := hspec.putBack (hfunds.trans hreleased)
      rw [keeps.merchantId, keeps.amount, keeps.asset] at hput
      exact hput hamount
    · rw [← keeps.merchantId]
      exact hspec.others
    · exact hspec.batches.trans hset
    · show s'.auditTrail ++ extra = s.auditTrail ++ (entries ++ extra)
      rw [htrail]
      exact List.append_assoc _ _ _
    · intro e he
      rcases List.mem_append.mp he with he | he
      · exact keeps.id ▸ (hentries e he).1
      · exact hextra e he

theorem rejectManualPayout_leads (htakes : ∀ batch ∈ batchWith s batchId .pending,
      assertApprover approver = .ok () → TakesBack P s batch) :
    Leads config P s base (rejectManualPayout showNumber batchId approver s) := by
  rw [rejectManualPayout]
  split
  next => exact done_leads .refl
  next => exact done_leads .refl
  next batch hallowed hbatch =>
    obtain ⟨hget, hstatus⟩ := batchWith_some hbatch
    obtain rfl := Table.key_of_get hget
    have hback := htakes batch hbatch hallowed
    dsimp only
    split
    next message t hended =>
      have hstep : Step config P ⟨s, inFlight base⟩
          ⟨{ t with auditTrail := t.auditTrail ++ [] }, inFlight base⟩ :=
        rejected_step hended hget hstatus hback
          ⟨rfl, rfl, rfl, rfl, rfl, rfl, rfl, rfl⟩ rfl rfl rfl (by simp)
      rw [List.append_nil] at hstep
      exact done_leads (.single hstep)
    next t hended =>
      exact done_leads (.single (rejected_step hended hget hstatus hback
        ⟨rfl, rfl, rfl, rfl, rfl, rfl, rfl, rfl⟩ rfl rfl rfl (by simp)))

theorem releaseReservedFunds_leads (htakes : ∀ batch ∈ batchWith s batchId .failed,
      assertApprover approver = .ok () → TakesBack P s batch) :
    Leads config P s base (releaseReservedFunds showNumber batchId approver s) := by
  rw [releaseReservedFunds]
  split
  next => exact done_leads .refl
  next => exact done_leads .refl
  next batch hallowed hbatch =>
    obtain ⟨hget, hstatus⟩ := batchWith_some hbatch
    obtain rfl := Table.key_of_get hget
    split_ifs with hreleased
    · exact done_leads .refl
    · have hreserved : batch.fundsReleased = false := by simpa using hreleased
      have hspec := releaseFunds_released showNumber s hreserved
      have hquiet : Quiet s (releaseFunds showNumber batch s).2 := by
        obtain ⟨entries, htrail, hentries⟩ := hspec.trail
        exact ⟨hspec.cycles, hspec.sent, entries, htrail, fun e he => by simp [hentries e he]⟩
      have hstep : Step config P ⟨s, inFlight base⟩
          ⟨(releaseFunds showNumber batch s).2, inFlight base⟩ :=
        .released hget hstatus hreserved (htakes batch hbatch hallowed hreserved) hspec.putBack
          hspec.others hspec.batches hquiet
      generalize releaseFunds showNumber batch s = released at hstep
      obtain ⟨outcome, t⟩ := released
      match outcome with
      | .error message => exact done_leads (.single hstep)
      | .ok () =>
        exact done_leads (.tail (.single hstep)
          (.idle rfl rfl ⟨rfl, rfl, notes_record rfl (by simp)⟩))

/-! ## Turns -/

/-- What a task comes to when it is resumed is as required. -/
def Goes (config : Settings) (P : Conditions) (now : Int) (s : State) : Waiting → Prop
  | .evaluating _ _ rest _ => ∀ schedule ∈ rest.head?, Takes config P now s schedule
  | .retrying _ rest _ => Retries P.ready s rest
  | .settling .. => True

instance (config : Settings) (P : Conditions) (now : Int) (s : State) (task : Waiting) :
    Decidable (Goes config P now s task) :=
  match task with
  | .evaluating _ _ rest _ =>
    inferInstanceAs (Decidable (∀ schedule ∈ rest.head?, Takes config P now s schedule))
  | .retrying _ rest _ => inferInstanceAs (Decidable (Retries P.ready s rest))
  | .settling .. => isTrue trivial

/-- What a turn comes to is as required. -/
def Meets (config : Settings) (P : Conditions) (g : Engine) : Act Call Told → Prop
  | .call (.setPendingAmount merchantId _) _ => P.credited merchantId = true
  | .call .evaluatePayouts told => g.state.evaluationInFlight = false →
      ∀ schedule ∈ g.state.schedules.head?, Takes config P told.now g.state schedule
  | .call .retryDueBatches told => Retries P.ready g.state (dueBatches told.now g.state)
  | .call (.rejectManualPayout batchId approver) _ =>
      ∀ batch ∈ batchWith g.state batchId .pending,
        assertApprover approver = .ok () → TakesBack P g.state batch
  | .call (.retryFailedBatch batchId approver) _ =>
      ∀ batch ∈ batchWith g.state batchId .failed, assertApprover approver = .ok () →
        batch.rejectedBy = none → batch.attempts < batch.maxAttempts → P.ready batch = true
  | .call (.releaseReservedFunds batchId approver) _ =>
      ∀ batch ∈ batchWith g.state batchId .failed,
        assertApprover approver = .ok () → TakesBack P g.state batch
  | .resume i told => ∀ task ∈ g.tasks[i]?, Goes config P told.now g.state task
  | .call (.configureSchedule _) _ => True
  | .call (.removeSchedule _) _ => True
  | .call (.approveManualPayout _ _) _ => True

instance (config : Settings) (P : Conditions) (g : Engine) (act : Act Call Told) :
    Decidable (Meets config P g act) :=
  match act with
  | .call (.setPendingAmount merchantId _) _ =>
    inferInstanceAs (Decidable (P.credited merchantId = true))
  | .call .evaluatePayouts told => inferInstanceAs (Decidable (g.state.evaluationInFlight = false →
      ∀ schedule ∈ g.state.schedules.head?, Takes config P told.now g.state schedule))
  | .call .retryDueBatches told =>
    inferInstanceAs (Decidable (Retries P.ready g.state (dueBatches told.now g.state)))
  | .call (.rejectManualPayout batchId approver) _ =>
    inferInstanceAs (Decidable (∀ batch ∈ batchWith g.state batchId .pending,
      assertApprover approver = .ok () → TakesBack P g.state batch))
  | .call (.retryFailedBatch batchId approver) _ =>
    inferInstanceAs (Decidable (∀ batch ∈ batchWith g.state batchId .failed,
      assertApprover approver = .ok () → batch.rejectedBy = none →
        batch.attempts < batch.maxAttempts → P.ready batch = true))
  | .call (.releaseReservedFunds batchId approver) _ =>
    inferInstanceAs (Decidable (∀ batch ∈ batchWith g.state batchId .failed,
      assertApprover approver = .ok () → TakesBack P g.state batch))
  | .resume i told => inferInstanceAs (Decidable (∀ task ∈ g.tasks[i]?, Goes config P told.now
      g.state task))
  | .call (.configureSchedule _) _ | .call (.removeSchedule _) _
  | .call (.approveManualPayout _ _) _ => isTrue trivial

theorem evaluated_state (schedule : PayoutSchedule) (executed : List BatchId) (s : State)
    (outcome : Except String (Option BatchId)) :
    (evaluated schedule executed s outcome).2 = s ∨
      ∃ detail, (evaluated schedule executed s outcome).2 =
        s.record (.schedule schedule.id) .failed "system" (some detail) :=
  match outcome with
  | .error detail => .inr ⟨detail, rfl⟩
  | .ok none => .inl rfl
  | .ok (some _) => .inl rfl

theorem resume_leads (showNumber : ℚ → String) {task : Waiting} {f : List BatchId}
    (hgoes : Goes config P told.now s task) (hperm : f.Perm (inFlight (task :: base)))
    (hsub : (inFlight base).Sublist f) :
    Steps config P ⟨s, f⟩ ⟨(resume showNumber config told s task).2,
      inFlight (base ++ (resume showNumber config told s task).1.tasks)⟩ := by
  cases task with
  | settling batchId actorId after =>
    rw [resume, settled_state, inFlight_append, settled_tasks, List.append_nil]
    exact finishSettlement_steps hperm hsub
  | evaluating schedule outcome rest executed =>
    obtain rfl : f = inFlight base := (hsub.eq_of_length hperm.length_eq.symm).symm
    rw [resume]
    obtain he | ⟨detail, he⟩ := evaluated_state schedule executed s outcome
    · dsimp only
      rw [he]
      exact evaluateNext_leads .refl hgoes
    · dsimp only
      rw [he]
      exact evaluateNext_leads (.single (.idle rfl rfl
        ⟨rfl, rfl, notes_record rfl (by simp)⟩)) hgoes
  | retrying batchId rest retried =>
    obtain rfl : f = inFlight base := (hsub.eq_of_length hperm.length_eq.symm).symm
    exact retryNext_leads .refl hgoes

theorem request_leads {c : Call} (showNumber : ℚ → String)
    (hmeets : Meets config P ⟨s, base⟩ (.call c told)) :
    Leads config P s base (request showNumber config told s c) := by
  have hidle : ∀ {t : State} {r : Except String Response}, t.batches = s.batches →
      t.pendingAmounts = s.pendingAmounts → t.materialisedCycles = s.materialisedCycles →
        t.sent = s.sent → t.auditTrail = s.auditTrail → Leads config P s base (.done r, t) := by
    intro t r hbatches hpending hcycles hsent htrail
    exact done_leads (.single (.idle hbatches hpending
      ⟨hcycles, hsent, [], by rw [htrail, List.append_nil], by simp⟩))
  cases c with
  | setPendingAmount merchantId amount =>
    rw [request, setPendingAmount]
    split_ifs
    · exact done_leads .refl
    · exact done_leads (.single (.credited hmeets))
  | configureSchedule schedule =>
    rw [request, configureSchedule]
    split
    · exact done_leads .refl
    · exact hidle rfl rfl rfl rfl rfl
  | removeSchedule merchantId =>
    rw [request, removeSchedule]
    split
    · exact done_leads .refl
    · exact hidle rfl rfl rfl rfl rfl
  | evaluatePayouts =>
    rw [request, evaluatePayouts]
    split_ifs with hflight
    · exact done_leads .refl
    · exact evaluateNext_leads (.single (.idle rfl rfl ⟨rfl, rfl, notes_refl s⟩))
        (hmeets (by simpa using hflight))
  | retryDueBatches => exact retryNext_leads .refl hmeets
  | approveManualPayout batchId approver => exact approveManualPayout_leads
  | rejectManualPayout batchId approver => exact rejectManualPayout_leads hmeets
  | retryFailedBatch batchId approver => exact retryFailedBatch_leads hmeets
  | releaseReservedFunds batchId approver => exact releaseReservedFunds_leads hmeets

/-- The engine with what is in flight. -/
def view (g : Engine) : View := ⟨g.state, inFlight g.tasks⟩

/-- A turn that is as required is a sequence of steps. -/
theorem commit_steps (showNumber : ℚ → String) {g : Engine} {act : Act Call Told}
    (hmeets : Meets config P g act) :
    Steps config P (view g) (view (commit (machine (engine showNumber config)) g act)) := by
  obtain hmoves | he := commit_moves (engine showNumber config) g act
  · generalize commit (machine (engine showNumber config)) g act = g' at hmoves
    cases hmoves with
    | @called c told t s hcalled =>
      have he : request showNumber config told g.state c = (t, s) := Option.some.inj hcalled
      have hleads := request_leads showNumber hmeets
      rwa [he] at hleads
    | @resumed i told task t s hwaiting hresumed =>
      have he : resume showNumber config told g.state task = (t, s) := hresumed
      obtain ⟨hi, hget⟩ := List.getElem?_eq_some_iff.mp hwaiting
      have hperm : (inFlight (task :: g.tasks.eraseIdx i)).Perm (inFlight g.tasks) :=
        hget ▸ (List.getElem_cons_eraseIdx_perm hi).filterMap _
      have hsub : (inFlight (g.tasks.eraseIdx i)).Sublist (inFlight g.tasks) :=
        (List.eraseIdx_sublist ..).filterMap _
      have hsteps := resume_leads showNumber (hmeets task hwaiting) hperm.symm hsub
      rwa [he] at hsteps
  · rw [he]

/-- A property that every step keeps is kept along a run whose turns are as required. -/
theorem run_steps (showNumber : ℚ → String) {g : Engine} {acts : List (Act Call Told)}
    {I : View → Prop} (hstep : ∀ v v', Step config P v v' → I v → I v') (hg : I (view g))
    (h : Along (machine (engine showNumber config)) (Meets config P) g acts) :
    I (view (run (machine (engine showNumber config)) g acts)) :=
  run_invariant (I := fun g => I (view g))
    (fun _ _ hi hmeets => ReflTransGen.head_induction_on (commit_steps showNumber hmeets)
      (fun hi => hi) (fun hstep' _ ih hi => ih (hstep _ _ hstep' hi)) hi) hg h

/-! ## Daily payouts -/

def settings : Settings where
  approvalThreshold := 10000
  maxAttempts := 5
  retryBaseMs := 30000
  retryMaxMs := 3600000
  maxBatchAmount := 1000000
  allowedAssets := ["USDC", "XLM"]
  attempts := by decide

def noText : ℚ → String := fun _ => ""

def tells (now : Int) (answer : Answer) : Told := ⟨now, 1 / 2, answer⟩

def noAnswer : Answer := .throws ""

def finance : PayoutApprover := ⟨"approver", "finance_approver"⟩

/-- The balance of the merchant is paid out every day, and up to some amount without approval. -/
def daily (merchantId : MerchantId) (autoApproveLimit : ℚ) : Act Call Told :=
  .call (.configureSchedule ⟨merchantId, merchantId, .daily, none, "USDC", autoApproveLimit⟩)
    (tells 0 noAnswer)

def sets (merchantId : MerchantId) (balance : ℚ) : Act Call Told :=
  .call (.setPendingAmount merchantId balance) (tells 0 noAnswer)

end Payouts
