import AgenticPay.Awaits
import AgenticPay.Calendar
import AgenticPay.Records
import Mathlib.Data.Rat.Floor

/-!
# The background job queue

The jobs, the dead letters, the events and the retry policy, and the queue with its calls. An
attempt waits for the handler of its job, and every event is a wait for the sink, which may make
calls of its own before it returns or throws. A pass waits for each attempt that it makes.
-/
namespace JobQueue

open Records Awaits Dates

abbrev JobId := String

inductive JobState where
  | pending
  | processing
  | completed
  | failed
  | dead
  deriving DecidableEq

/-- `maxAttempts` counts the first attempt. -/
structure RetryPolicy where
  maxAttempts : Int
  initialDelayMs : ℚ
  maxDelayMs : ℚ
  multiplier : ℚ
  jitter : Bool

def defaultRetryPolicy : RetryPolicy where
  maxAttempts := 3
  initialDelayMs := 1000
  maxDelayMs := 60000
  multiplier := 2
  jitter := false

structure JobRecord where
  id : JobId
  name : String
  state : JobState
  attempts : Nat
  maxAttempts : Int
  createdAt : Int
  updatedAt : Int
  startedAt : Option Int
  finishedAt : Option Int
  lastError : Option String
  nextAttemptAt : Option Int
  deriving DecidableEq

structure DeadLetterEntry where
  job : JobRecord
  failedAt : Int
  reason : String
  deriving DecidableEq

inductive JobQueueEventType where
  | enqueued
  | started
  | completed
  | failed
  | retrying
  | deadLettered
  deriving DecidableEq

structure JobQueueEvent where
  type : JobQueueEventType
  jobId : JobId
  name : String
  attempt : Nat
  occurredAt : Int
  error : Option String

structure JobQueueMetrics where
  pending : Nat
  processing : Nat
  completed : Nat
  failed : Nat
  dead : Nat
  totalEnqueued : Nat
  totalCompleted : Nat
  totalDeadLettered : Nat

structure JobQueueSummary where
  processed : Nat
  completed : Nat
  retried : Nat
  deadLettered : Nat

/-! ## Retries -/

def computeBackoffDelayMs (failedAttempt : Nat) (policy : RetryPolicy) (random : ℚ) :
    Except String Int :=
  if failedAttempt < 1 then .error "failedAttempt must be >= 1"
  else if policy.maxAttempts < 1 then .error "maxAttempts must be >= 1"
  else if policy.initialDelayMs < 0 ∨ policy.maxDelayMs < 0 then
    .error "backoff delays must be non-negative"
  else if policy.multiplier < 1 then .error "multiplier must be >= 1"
  else
    let exponential := policy.initialDelayMs * policy.multiplier ^ (failedAttempt - 1)
    let capped := min exponential policy.maxDelayMs
    let delay := if policy.jitter then capped * random else capped
    .ok (max 0 ⌊delay + 1 / 2⌋)

def canRetry (attempts : Nat) (policy : RetryPolicy) : Bool :=
  decide (attempts < policy.maxAttempts)

/-! ## The queue -/

structure State where
  handlers : List String
  jobs : Table JobRecord.id
  deadLetters : List DeadLetterEntry
  totalEnqueued : Nat
  totalCompleted : Nat
  totalFailedAttempts : Nat
  totalDeadLettered : Nat

def start : State := ⟨[], ∅, [], 0, 0, 0, 0⟩

/-- What a turn is told: the time, an identifier, a random number, what the handler rejects with and
what the sink throws. -/
structure Told where
  now : Int
  uuid : JobId
  random : ℚ
  handler : Option String
  sink : Option String

inductive Call where
  | registerHandler (name : String)
  | enqueue (name : String)
  | requeueDeadLetter (jobId : JobId)
  | drain (now : Option Int) (maxJobs : Option ℚ)  -- no bound is infinity
  | processNext (now : Option Int)

/-- A pass of `drain` over the jobs that are due. -/
structure Pass where
  now : Int
  maxJobs : Option ℚ
  seen : List JobId
  summary : JobQueueSummary

inductive Caller where
  | drain (pass : Pass)
  | processNext (now : Int)

def Caller.now : Caller → Int
  | .drain pass => pass.now
  | .processNext now => now

structure Attempt where
  jobId : JobId
  name : String
  attempt : Nat
  caller : Caller

inductive Response where
  | unit
  | job (record : Option JobRecord)
  | summary (summary : JobQueueSummary)
  | ran (eligible : Bool)

/-- How far an attempt has come when its event is emitted. -/
inductive Stage where
  | started
  | completed
  | failed (message : String)
  | closed

/-- What is waited for: the sink, at the end of a call or within an attempt, the handler, or an
attempt that has ended. -/
inductive Waiting where
  | returning (event : JobQueueEvent)
  | emitting (event : JobQueueEvent) (stage : Stage) (attempt : Attempt)
  | handling (attempt : Attempt)
  | ended (result : Except String Unit) (attempt : Attempt)

abbrev Ends := Turn Waiting (Except String Response) × State

/-! ## Calls on jobs -/

def registerHandler (name : String) (s : State) : Ends :=
  if name = "" then (.done (.error "Job name is required"), s)
  else (.done (.ok .unit), { s with handlers := s.handlers.insert name })

def newJob (policy : RetryPolicy) (now : Int) (id : JobId) (name : String) : JobRecord where
  id := id
  name := name
  state := .pending
  attempts := 0
  maxAttempts := policy.maxAttempts
  createdAt := now
  updatedAt := now
  startedAt := none
  finishedAt := none
  lastError := none
  nextAttemptAt := none

def enqueuedEvent (now : Int) (job : JobRecord) : JobQueueEvent :=
  ⟨.enqueued, job.id, job.name, 0, now, none⟩

def enqueue (policy : RetryPolicy) (told : Told) (name : String) (s : State) : Ends :=
  if name ∉ s.handlers then (.done (.error ("Unknown job: " ++ name)), s)
  else
    let record := newJob policy told.now told.uuid name
    (.waits (.returning (enqueuedEvent told.now record)),
      { s with jobs := s.jobs.set record, totalEnqueued := s.totalEnqueued + 1 })

def requeued (now : Int) (job : JobRecord) : JobRecord :=
  { job with
    state := .pending, attempts := 0, nextAttemptAt := none, lastError := none
    finishedAt := none, updatedAt := now }

def requeueDeadLetter (told : Told) (jobId : JobId) (s : State) : Ends :=
  match s.deadLetters.find? (·.job.id = jobId) with
  | none => (.done (.ok (.job none)), s)
  | some _ =>
    let s := { s with deadLetters := s.deadLetters.eraseP (·.job.id = jobId) }
    match s.jobs.get jobId with
    | none => (.done (.ok (.job none)), s)
    | some job =>
      (.waits (.returning (enqueuedEvent told.now job)),
        { s with jobs := s.jobs.set (requeued told.now job) })

def countOf (state : JobState) (s : State) : Nat :=
  total (fun job => if job.state = state then 1 else 0) s.jobs

def metrics (s : State) : JobQueueMetrics where
  pending := countOf .pending s
  processing := countOf .processing s
  completed := countOf .completed s
  dead := countOf .dead s
  failed := s.totalFailedAttempts
  totalEnqueued := s.totalEnqueued
  totalCompleted := s.totalCompleted
  totalDeadLettered := s.totalDeadLettered

/-! ## Attempts -/

def Attempt.event (a : Attempt) (type : JobQueueEventType) (now : Int) (error : Option String) :
    JobQueueEvent :=
  ⟨type, a.jobId, a.name, a.attempt, now, error⟩

def buried (now : Int) (reason : String) (job : JobRecord) : JobRecord :=
  { job with
    state := .dead, lastError := some reason, finishedAt := some now, updatedAt := now
    nextAttemptAt := none }

def State.bury (s : State) (job : JobRecord) (failedAt : Int) (reason : String) : State :=
  { s with
    jobs := s.jobs.set job, totalDeadLettered := s.totalDeadLettered + 1
    deadLetters := s.deadLetters ++ [⟨job, failedAt, reason⟩] }

def deadLetter (told : Told) (a : Attempt) (job : JobRecord) (reason : String) (s : State) : Ends :=
  let event := ⟨.deadLettered, job.id, job.name, job.attempts, told.now, some reason⟩
  (.waits (.emitting event .closed a),
    s.bury (buried told.now reason job) a.caller.now reason)

def started (now : Int) (job : JobRecord) : JobRecord :=
  { job with
    state := .processing, attempts := job.attempts + 1, startedAt := some now, updatedAt := now }

def runAttempt (told : Told) (job : JobRecord) (caller : Caller) (s : State) : Ends :=
  if job.name ∉ s.handlers then
    deadLetter told ⟨job.id, job.name, job.attempts, caller⟩ job
      ("No handler registered for \"" ++ job.name ++ "\"") s
  else
    let a : Attempt := ⟨job.id, job.name, job.attempts + 1, caller⟩
    (.waits (.emitting (a.event .started told.now none) .started a),
      { s with jobs := s.jobs.set (started told.now job) })

def completed (now : Int) (job : JobRecord) : JobRecord :=
  { job with
    state := .completed, finishedAt := some now, updatedAt := now, lastError := none
    nextAttemptAt := none }

/-- The handler has resolved. -/
def succeed (told : Told) (a : Attempt) (job : JobRecord) (s : State) : Ends :=
  (.waits (.emitting (a.event .completed told.now none) .completed a),
    { s with
      jobs := s.jobs.set (completed told.now job), totalCompleted := s.totalCompleted + 1 })

def failed (now : Int) (message : String) (job : JobRecord) : JobRecord :=
  { job with lastError := some message, updatedAt := now }

/-- The handler has rejected, or the sink has thrown at the job that it completed. -/
def fail (told : Told) (a : Attempt) (message : String) (job : JobRecord) (s : State) : Ends :=
  (.waits (.emitting (a.event .failed told.now (some message)) (.failed message) a),
    { s with
      jobs := s.jobs.set (failed told.now message job)
      totalFailedAttempts := s.totalFailedAttempts + 1 })

/-- What follows a failure, once its event has been emitted. -/
def retry (policy : RetryPolicy) (told : Told) (a : Attempt) (message : String) (job : JobRecord)
    (s : State) : Ends :=
  if canRetry job.attempts policy then
    match computeBackoffDelayMs job.attempts policy told.random with
    | .error thrown => (.waits (.ended (.error thrown) a), s)
    | .ok delay =>
      let job := { job with state := .pending }
      match toIsoString (a.caller.now + delay) with
      | .error thrown => (.waits (.ended (.error thrown) a), { s with jobs := s.jobs.set job })
      | .ok nextAttemptAt =>
        (.waits (.emitting (a.event .retrying job.updatedAt (some message)) .closed a),
          { s with jobs := s.jobs.set { job with nextAttemptAt := some nextAttemptAt } })
  else deadLetter told a job message s

/-! ## Passes -/

def nextEligible (now : Int) (exclude : List JobId) (s : State) : Option JobRecord :=
  s.jobs.records.find? fun job =>
    job.state = .pending && job.id ∉ exclude && job.nextAttemptAt.all (· ≤ now)

/-- The loop of `drain`, up to the next attempt. -/
def pass (told : Told) (p : Pass) (s : State) : Ends :=
  if p.maxJobs.all fun maxJobs => (p.summary.processed : ℚ) < maxJobs then
    match nextEligible p.now p.seen s with
    | none => (.done (.ok (.summary p.summary)), s)
    | some job => runAttempt told job (.drain { p with seen := job.id :: p.seen }) s
  else (.done (.ok (.summary p.summary)), s)

def JobQueueSummary.count (summary : JobQueueSummary) (state : Option JobState) :
    JobQueueSummary :=
  let summary := { summary with processed := summary.processed + 1 }
  match state with
  | some .completed => { summary with completed := summary.completed + 1 }
  | some .dead => { summary with deadLettered := summary.deadLettered + 1 }
  | _ => { summary with retried := summary.retried + 1 }

def processNext (told : Told) (now : Int) (s : State) : Ends :=
  match nextEligible now [] s with
  | none => (.done (.ok (.ran false)), s)
  | some job => runAttempt told job (.processNext now) s

/-- The caller of an attempt goes on. -/
def goOn (told : Told) (a : Attempt) (s : State) : Ends :=
  match a.caller with
  | .processNext _ => (.done (.ok (.ran true)), s)
  | .drain p =>
    pass told { p with summary := p.summary.count ((s.jobs.get a.jobId).map (·.state)) } s

/-! ## Turns -/

variable (policy : RetryPolicy)

/-- One call, up to its first wait. An identifier that is not new is no call. -/
def request (told : Told) (s : State) : Call → Option Ends
  | .registerHandler name => some (registerHandler name s)
  | .enqueue name =>
    if s.jobs.get told.uuid = none then some (enqueue policy told name s) else none
  | .requeueDeadLetter jobId => some (requeueDeadLetter told jobId s)
  | .drain now maxJobs => some (pass told ⟨now.getD told.now, maxJobs, [], ⟨0, 0, 0, 0⟩⟩ s)
  | .processNext now => some (processNext told (now.getD told.now) s)

/-- An attempt goes on with its job. No job is ever removed. -/
def withJob (a : Attempt) (s : State) (f : JobRecord → State → Ends) : Ends :=
  match s.jobs.get a.jobId with
  | none => (.waits (.ended (.ok ()) a), s)
  | some job => f job s

/-- An attempt goes on after its event, unless the sink has thrown. -/
def emitted (told : Told) (s : State) (a : Attempt) : Stage → Ends
  | .started =>
    match told.sink with
    | some thrown => (.waits (.ended (.error thrown) a), s)
    | none => (.waits (.handling a), s)
  | .completed =>  -- the event is emitted where what it throws is caught
    match told.sink with
    | some thrown => withJob a s (fail told a thrown)
    | none => (.waits (.ended (.ok ()) a), s)
  | .failed message =>
    match told.sink with
    | some thrown => (.waits (.ended (.error thrown) a), s)
    | none => withJob a s (retry policy told a message)
  | .closed =>
    match told.sink with
    | some thrown => (.waits (.ended (.error thrown) a), s)
    | none => (.waits (.ended (.ok ()) a), s)

def resume (told : Told) (s : State) : Waiting → Ends
  | .returning event =>
    match told.sink with
    | some thrown => (.done (.error thrown), s)
    | none => (.done (.ok (.job (s.jobs.get event.jobId))), s)
  | .emitting _ stage a => emitted policy told s a stage
  | .handling a =>
    match told.handler with
    | some message => withJob a s (fail told a message)
    | none => withJob a s (succeed told a)
  | .ended (.error thrown) _ => (.done (.error thrown), s)
  | .ended (.ok ()) a => goOn told a s

def queue : Program Call Told State Waiting (Except String Response) where
  call := fun c told s => request policy told s c
  resume := fun task told s => resume policy told s task

abbrev Queue := Config State Waiting

def initial : Queue := ⟨start, []⟩

end JobQueue
