import AgenticPay.Awaits
import AgenticPay.Records
import AgenticPay.RecurringTypes

/-!
# The recurring billing service

The service over its store in memory. A call reads a copy of a schedule, waits, and writes the whole
copy back; a sweep reads the copies of all due schedules and waits after each invoice and after each
schedule that it writes back. Waits in between which nothing shared is read or written are one.
-/
namespace Recurring

open Records Awaits

structure State where
  schedules : Table RecurringSchedule.id
  invoices : ScheduleId → List RecurringInvoice  -- what is not in the map counts as no invoices

def start : State := ⟨∅, fun _ => []⟩

/-- What a turn is told: the time, an identifier, and what the publisher throws. -/
structure Told where
  now : Int
  uuid : ScheduleId
  throws : Option String

variable (host : Host) (config : RecurringBillingConfig)

/-! ## Schedules -/

/-- The schedule of a request, with its first billing instant: a past start does not backfill, and
a future one delays the first invoice. -/
def newSchedule (now : Int) (id : ScheduleId) (request : NormalizedRecurringSchedule) :
    RecurringSchedule :=
  let effectiveFrom := if now < request.startAt then request.startAt else now
  let first := host.nextRunAfter request.cronExpression request.timezone (effectiveFrom - 1)
  let nextRunAt := first.filter fun first => request.endAt.all (first ≤ ·)
  { id, tenantId := request.tenantId, customerId := request.customerId
    cronExpression := request.cronExpression, timezone := request.timezone
    amount := request.amount, currency := request.currency
    status := if nextRunAt.isSome then .active else .completed
    startAt := request.startAt, endAt := request.endAt, maxRuns := request.maxRuns
    runCount := 0, lastRunAt := none, nextRunAt, createdAt := now, updatedAt := now }

def runsExhausted (schedule : RecurringSchedule) : Bool :=
  schedule.maxRuns.any (· ≤ schedule.runCount)

/-- The schedule goes on with a next run, unless that is past the end or none is left. -/
def recomputed (now : Int) (endAt : Option Int) (schedule : RecurringSchedule) :
    RecurringSchedule :=
  let next := host.nextRunAfter schedule.cronExpression schedule.timezone now
  let nextRunAt := next.filter fun next => endAt.all (next ≤ ·) && !runsExhausted schedule
  { schedule with
    status := if nextRunAt.isSome then .active else .completed
    nextRunAt, updatedAt := now }

def pauseSchedule (now : Int) (schedule : RecurringSchedule) : Except Failure RecurringSchedule :=
  if schedule.status ≠ .active then
    .error (conflictFailure ("Cannot pause a " ++ schedule.status.text ++ " schedule"))
  else .ok { schedule with status := .paused, updatedAt := now }

def resumeSchedule (now : Int) (schedule : RecurringSchedule) :
    Except Failure RecurringSchedule :=
  if schedule.status ≠ .paused then
    .error (conflictFailure ("Cannot resume a " ++ schedule.status.text ++ " schedule"))
  else .ok (recomputed host now schedule.endAt schedule)

def cancelSchedule (now : Int) (schedule : RecurringSchedule) :
    Except Failure RecurringSchedule :=
  if schedule.status = .cancelled then
    .error (conflictFailure "Schedule is already cancelled")
  else if schedule.status = .completed then
    .error (conflictFailure "Cannot cancel a completed schedule")
  else .ok { schedule with status := .cancelled, nextRunAt := none, updatedAt := now }

/-- What is validated again when the cadence of a schedule changes. -/
def rescheduleRequest (input : RescheduleInput) (schedule : RecurringSchedule) :
    CreateRecurringScheduleInput where
  tenantId := schedule.tenantId
  customerId := schedule.customerId
  amount := some schedule.amount
  currency := some schedule.currency
  cronExpression :=
    some (input.cronExpression.getD ((input.preset.map presetCron).getD schedule.cronExpression))
  preset := none
  timezone := some (input.timezone.getD schedule.timezone)
  startAt := some (.at schedule.startAt)
  endAt := schedule.endAt.map .at
  maxRuns := schedule.maxRuns.map (↑)

def reschedule (now : Int) (input : RescheduleInput) (schedule : RecurringSchedule) :
    Except Failure RecurringSchedule :=
  if schedule.status = .cancelled then
    .error (conflictFailure "Cannot reschedule a cancelled schedule")
  else do
    let request ←
      validateRecurringSchedule host config now (rescheduleRequest input schedule)
    return recomputed host now request.endAt
      { schedule with cronExpression := request.cronExpression, timezone := request.timezone }

/-! ## Calls and what waits -/

/-- The calls that change one schedule. -/
inductive Operation where
  | pauseSchedule
  | resumeSchedule
  | cancelSchedule
  | reschedule (input : RescheduleInput)

def perform (now : Int) (schedule : RecurringSchedule) :
    Operation → Except Failure RecurringSchedule
  | .pauseSchedule => pauseSchedule now schedule
  | .resumeSchedule => resumeSchedule host now schedule
  | .cancelSchedule => cancelSchedule now schedule
  | .reschedule input => reschedule host config now input schedule

inductive Call where
  | createSchedule (input : CreateRecurringScheduleInput)
  | change (tenantId : String) (scheduleId : ScheduleId) (operation : Operation)
  | runDue (instant : Option DateInput)

/-- A sweep, with the copies of the schedules that it has still to bill. -/
structure Sweep where
  now : Int
  processed : Nat
  rest : List RecurringSchedule
  invoices : List RecurringInvoice
  completedScheduleIds : List ScheduleId

inductive Response where
  | schedule (saved : RecurringSchedule)
  | swept (processed : Nat) (invoices : List RecurringInvoice)
      (completedScheduleIds : List ScheduleId)

/-- What is waited for: the store that has read a schedule or the due ones or has taken an invoice,
or the store and the publisher after a schedule has been written. -/
inductive Waiting where
  | reading (tenantId : String) (scheduleId : ScheduleId) (operation : Operation)
      (found : Option RecurringSchedule)
  | publishing (saved : RecurringSchedule)
  | finding (sweep : Sweep)
  | billing (sweep : Sweep) (schedule : RecurringSchedule) (invoice : RecurringInvoice)
  | generated (sweep : Sweep)

abbrev Ends := Turn Waiting (Except Failure Response) × State

/-- `update` of the store. -/
def State.update (s : State) (schedule : RecurringSchedule) : State :=
  { s with schedules := s.schedules.set schedule }

def State.createInvoice (s : State) (invoice : RecurringInvoice) : State :=
  { s with
    invoices := Function.update s.invoices invoice.scheduleId
      (s.invoices invoice.scheduleId ++ [invoice]) }

def isDue (before : Int) (schedule : RecurringSchedule) : Prop :=
  schedule.status = .active ∧ ∃ nextRunAt ∈ schedule.nextRunAt, nextRunAt ≤ before

instance (before : Int) (schedule : RecurringSchedule) : Decidable (isDue before schedule) :=
  inferInstanceAs (Decidable (_ ∧ ∃ nextRunAt ∈ schedule.nextRunAt, nextRunAt ≤ before))

/-- The due schedules of all tenants, by their next run and then by their identifiers. -/
def findDue (before : Int) (s : State) : List RecurringSchedule :=
  (s.schedules.records.filter (isDue before ·)).mergeSort fun a b =>
    a.nextRunAt.getD 0 < b.nextRunAt.getD 0 ||
      (a.nextRunAt.getD 0 = b.nextRunAt.getD 0 && host.localeLe a.id b.id)

/-! ## Sweeps -/

def invoiceOf (now : Int) (schedule : RecurringSchedule) (dueAt : Int) : RecurringInvoice where
  scheduleId := schedule.id
  tenantId := schedule.tenantId
  amount := schedule.amount
  currency := schedule.currency
  periodStart := schedule.lastRunAt.getD schedule.createdAt
  dueAt := dueAt
  createdAt := now

/-- The loop of `runDue`, up to the next invoice. -/
def nextInvoice (sweep : Sweep) (s : State) : List RecurringSchedule → Ends
  | [] =>
    (.done (.ok (.swept sweep.processed sweep.invoices sweep.completedScheduleIds)), s)
  | schedule :: rest =>
    match schedule.nextRunAt with
    | none => nextInvoice sweep s rest
    | some dueAt =>
      let invoice := invoiceOf sweep.now schedule dueAt
      (.waits (.billing { sweep with rest } schedule invoice), s.createInvoice invoice)

/-- A schedule that has been billed. -/
def advanced (now : Int) (schedule : RecurringSchedule) (dueAt : Int) : RecurringSchedule :=
  let schedule := { schedule with
    runCount := schedule.runCount + 1, lastRunAt := some dueAt, updatedAt := now }
  let next := host.nextRunAfter schedule.cronExpression schedule.timezone dueAt
  match next.filter fun next => schedule.endAt.all (next ≤ ·) && !runsExhausted schedule with
  | none => { schedule with status := .completed, nextRunAt := none }
  | some next => { schedule with nextRunAt := some next }

/-- The invoice has been stored, and the schedule is written back. -/
def billed (sweep : Sweep) (schedule : RecurringSchedule) (invoice : RecurringInvoice)
    (s : State) : Ends :=
  let schedule := advanced host sweep.now schedule invoice.dueAt
  let sweep := { sweep with
    invoices := sweep.invoices ++ [invoice]
    completedScheduleIds := sweep.completedScheduleIds ++
      if schedule.status = .completed then [schedule.id] else [] }
  (.waits (.generated sweep), s.update schedule)

/-! ## Turns -/

def createSchedule (told : Told) (input : CreateRecurringScheduleInput) (s : State) : Ends :=
  match validateRecurringSchedule host config told.now input with
  | .error failure => (.done (.error failure), s)
  | .ok request =>
    let schedule := newSchedule host told.now told.uuid request
    (.waits (.publishing schedule), s.update schedule)

def runDue (now : Int) (instant : Option DateInput) (s : State) : Ends :=
  match instant.getD (.at now) with
  | .invalid =>
    (.done (.error (validationFailure "runDue timestamp must be a valid date")), s)
  | .at now =>
    let due := findDue host now s
    (.waits (.finding ⟨now, due.length, due, [], []⟩), s)

/-- One call, up to its first wait. An identifier that is not new is no call. -/
def request (told : Told) (s : State) : Call → Option Ends
  | .createSchedule input =>
    if s.schedules.get told.uuid = none then some (createSchedule host config told input s)
    else none
  | .change tenantId scheduleId operation =>
    some (.waits (.reading tenantId scheduleId operation (s.schedules.get scheduleId)), s)
  | .runDue instant => some (runDue host told.now instant s)

/-- The schedule that was read is changed and written back. -/
def change (told : Told) (tenantId : String) (scheduleId : ScheduleId) (operation : Operation)
    (found : Option RecurringSchedule) (s : State) : Ends :=
  match found.filter (·.tenantId = tenantId) with
  | none => (.done (.error (notFoundFailure "Recurring schedule" scheduleId)), s)
  | some schedule =>
    match perform host config told.now schedule operation with
    | .error failure => (.done (.error failure), s)
    | .ok saved => (.waits (.publishing saved), s.update saved)

def resume (told : Told) (s : State) : Waiting → Ends
  | .reading tenantId scheduleId operation found =>
    change host config told tenantId scheduleId operation found s
  | .publishing saved =>
    match told.throws with
    | some message => (.done (.error (.thrown message)), s)
    | none => (.done (.ok (.schedule saved)), s)
  | .finding sweep => nextInvoice sweep s sweep.rest
  | .billing sweep schedule invoice => billed host sweep schedule invoice s
  | .generated sweep =>
    match told.throws with
    | some message => (.done (.error (.thrown message)), s)
    | none => nextInvoice sweep s sweep.rest

def service : Program Call Told State Waiting (Except Failure Response) where
  call := fun c told s => request host config told s c
  resume := fun task told s => resume host config told s task

abbrev Service := Config State Waiting

def initial : Service := ⟨start, []⟩

end Recurring
