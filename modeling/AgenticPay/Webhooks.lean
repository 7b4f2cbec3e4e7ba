import AgenticPay.Awaits
import AgenticPay.Calendar
import AgenticPay.Json
import AgenticPay.Records
import Mathlib.Algebra.Order.Field.Rat
import Mathlib.Data.List.Infix

/-!
# Webhook deliveries

A delivery is scheduled, attempted over HTTP and tried again, by hand or from the queue of the dead
letters. An attempt waits for its answer, and a replay of several entries waits after each of them;
meanwhile any other call is made. The endpoints and their retry policies stay as they are. Left out
are the timer that aborts a request (an answer may be an abort at any time), the summaries and the
export.
-/
namespace Webhooks

open Records Awaits Dates

/-- A text as the host cuts it: its code units. -/
abbrev Text := List Nat

inductive DeliveryStatus where
  | pending
  | processing
  | delivered
  | retrying
  | failed
  | deadLetter
  | expired
  deriving DecidableEq

inductive FailureCategory where
  | invalidEndpoint
  | badSignature
  | rateLimited
  | timeout
  | httpError
  | sslError
  | payloadTooLarge
  | unknown
  deriving DecidableEq

structure RetryPolicy where
  maxRetries : ℚ := 5
  backoffMultiplier : ℚ := 2
  initialDelayMs : ℚ := 1000
  windowDays : ℚ := 7

structure WebhookEndpointConfig where
  id : String
  url : String
  enabled : Bool
  retryPolicy : RetryPolicy

structure DeliveryLog where
  id : String
  endpointId : String
  merchantId : String
  eventId : String
  eventType : String
  payloadPreview : Text
  status : DeliveryStatus := .pending
  attempt : Nat := 0
  statusCode : Option Nat := none
  responseLatencyMs : Option Int := none
  lastError : Option String := none
  failureCategory : Option FailureCategory := none
  nextAttemptAt : Option Int := none
  deliveredAt : Option Int := none
  expiredAt : Option Int := none
  createdAt : Int
  updatedAt : Int
  deriving DecidableEq

structure DeadLetterEntry where
  id : String
  deliveryLogId : String
  endpointId : String
  merchantId : String
  eventId : String
  eventType : String
  payloadPreview : Text
  failureCategory : FailureCategory
  lastError : Option String
  originalAttempts : Nat
  enqueuedAt : Int
  replayCount : Nat := 0
  lastReplayAt : Option Int := none
  purgedAt : Option Int := none
  deriving DecidableEq

structure ReplayResult where
  deadLetterEntryId : String
  deliveryLogId : String
  success : Bool
  status : DeliveryStatus
  replayedAt : Int
  deriving DecidableEq

/-- What is handed to `fetch`. -/
structure Request where
  url : String
  eventId : String
  body : Text
  deriving DecidableEq

/-- What has happened to a delivery: it was scheduled with the JSON of a payload, put back by an
operator, sent or delivered. -/
inductive Event where
  | scheduled (payloadJson : Text)
  | requeued
  | sent (request : Request)
  | delivered
  deriving DecidableEq

/-- The stores, and what has happened to which delivery, in its order. -/
structure State where
  deliveryLogs : Table DeliveryLog.id := ∅
  idempotencyIndex : String → Option String := fun _ => none
  dlqEntries : Table DeadLetterEntry.id := ∅
  trace : List (String × Event) := []

/-- How a request ends. -/
inductive Answer where
  | status (code : Nat)
  | failed (message : String)

/-- What a turn is told: the time, the random ids that it draws, and the answer to the request that
it has waited for. -/
structure Told where
  now : Int
  randomUUID : Nat → String
  answer : Answer

/-- The rest of a replay of several entries. A batch looks each of them up again. -/
structure Loop where
  lookedUp : Bool
  entryIds : List String
  results : List ReplayResult := []

/-- Who waits for an attempt. -/
inductive Caller where
  | direct
  | replay (entryId : String) (replayedAt : Int) (loop : Option Loop)

inductive Waiting where
  | request (logId : String) (policy : RetryPolicy) (startMs : Int) (caller : Caller)
  | replayed (entryId logId : String) (replayedAt : Int) (loop : Option Loop)

inductive Result where
  | log (log : DeliveryLog)
  | bulkRetry (retried skipped : Nat) (logs : List DeliveryLog)
  | entry (entry : DeadLetterEntry)
  | replay (result : ReplayResult)
  | replays (results : List ReplayResult)
  | count (n : Nat)
  | nothing

/-- How a turn ends, and the state that it leaves. -/
abbrev Ends := Turn Waiting (Except String Result) × State

abbrev Endpoints := Table WebhookEndpointConfig.id

/-- The log is put in place, and what has happened to it is noted. -/
def State.write (log : DeliveryLog) (events : List Event) (s : State) : State :=
  { s with
    deliveryLogs := s.deliveryLogs.set log
    trace := s.trace ++ events.map (log.id, ·) }

/-- A filter that is absent or empty lets everything through. -/
def passes (filter : Option String) (value : String) : Bool :=
  match filter with
  | none | some "" => true
  | some wanted => wanted = value

def listDeliveryLogs (endpointId merchantId : Option String) (status : Option DeliveryStatus)
    (s : State) : List DeliveryLog :=
  s.deliveryLogs.records.filter fun log =>
    passes endpointId log.endpointId && passes merchantId log.merchantId &&
      status.all (log.status = ·)

def listDLQ (merchantId endpointId : Option String) (failureCategory : Option FailureCategory)
    (s : State) : List DeadLetterEntry :=
  s.dlqEntries.records.filter fun e =>
    e.purgedAt.isNone && passes merchantId e.merchantId && passes endpointId e.endpointId &&
      failureCategory.all (e.failureCategory = ·)

/-! ## Scheduling -/

/-- The log that was scheduled with the key, if there is one. -/
def scheduledWith (idempotencyKey : Option String) (s : State) : Option DeliveryLog := do
  let key ← idempotencyKey
  let existingId ← if key = "" then none else s.idempotencyIndex key
  if existingId = "" then none else s.deliveryLogs.get existingId

/-- `JSON.stringify`. -/
def payloadJson (payload : List (String × Json.Value)) : Text :=
  Json.Value.codeUnits (Json.Value.object payload).stringify

/-- The random id of the log is a new one, or the call cannot be made. -/
def scheduleDelivery (endpoints : Endpoints) (endpointId merchantId eventId eventType : String)
    (payload : List (String × Json.Value)) (idempotencyKey : Option String) (told : Told)
    (s : State) : Option Ends :=
  match endpoints.get endpointId with
  | none => some (.done (.error ("Endpoint " ++ endpointId ++ " not found")), s)
  | some _ =>
    match scheduledWith idempotencyKey s with
    | some existing => some (.done (.ok (.log existing)), s)
    | none =>
      let json := payloadJson payload
      let log : DeliveryLog := {
        id := told.randomUUID 0
        endpointId := endpointId
        merchantId := merchantId
        eventId := eventId
        eventType := eventType
        payloadPreview := json.take 256
        createdAt := told.now
        updatedAt := told.now
        nextAttemptAt := some told.now }
      let index := match idempotencyKey with
        | none | some "" => s.idempotencyIndex
        | some key => Function.update s.idempotencyIndex key (some log.id)
      if (s.deliveryLogs.get log.id).isSome then none
      else some (.done (.ok (.log log)),
        { s.write log [.scheduled json] with idempotencyIndex := index })

/-- The log as it is put back. -/
def reset (now : Int) (log : DeliveryLog) : DeliveryLog :=
  { log with
    status := .pending
    attempt := 0
    lastError := none
    failureCategory := none
    nextAttemptAt := some now
    updatedAt := now }

def requeue (now : Int) (s : State) (log : DeliveryLog) : State :=
  s.write (reset now log) [.requeued]

def bulkRetryDeadLetters (endpoints : Endpoints) (merchantId : Option String) (told : Told)
    (s : State) : Ends :=
  let dead := listDeliveryLogs none merchantId (some .deadLetter) s
  let retried := dead.filter fun log => (endpoints.get log.endpointId).any (·.enabled)
  (.done (.ok (.bulkRetry retried.length (dead.length - retried.length)
    (retried.map (reset told.now)))), retried.foldl (requeue told.now) s)

/-! ## Attempts -/

def includes (text word : String) : Bool := word.toList <:+: text.toList

/-- The words that are looked for are of letters that `String.toLower` knows. -/
def classifyError (err : String) (statusCode : Option Nat) : FailureCategory :=
  let msg := err.toLower
  let code := statusCode.getD 0
  if code = 429 then .rateLimited
  else if 400 ≤ code ∧ code < 500 then .invalidEndpoint
  else if includes msg "ssl" ∨ includes msg "certificate" then .sslError
  else if includes msg "timeout" ∨ includes msg "abort" then .timeout
  else if includes msg "payload" ∨ includes msg "size" then .payloadTooLarge
  else if 500 ≤ code then .httpError
  else .unknown

def nextDelay (policy : RetryPolicy) (attempt : Nat) : ℚ :=
  policy.initialDelayMs * policy.backoffMultiplier ^ attempt

def isExpired (log : DeliveryLog) (policy : RetryPolicy) (now : Int) : Bool :=
  policy.windowDays * 86400000 < (now - log.createdAt : ℚ)

/-- The date at a number of milliseconds, if it is one. -/
def dateAt (time : ℚ) : Except String Int :=
  if |time| ≤ maxTime then .ok (time.num.tdiv time.den) else .error "Invalid time value"

/-- The log is changed before the date of its next attempt turns out to be none. -/
def handleRetryOrDead (policy : RetryPolicy) (category : FailureCategory) (statusCode : Option Nat)
    (now : Int) (log : DeliveryLog) : Except String Unit × DeliveryLog :=
  let log := { log with
    failureCategory := some category
    statusCode := if statusCode.getD 0 ≠ 0 then statusCode else log.statusCode }
  if policy.maxRetries ≤ log.attempt then
    (.ok (), { log with status := .deadLetter, nextAttemptAt := none })
  else
    match dateAt (now + nextDelay policy log.attempt) with
    | .ok date => (.ok (), { log with status := .retrying, nextAttemptAt := some date })
    | .error message => (.error message, { log with status := .retrying })

/-- The `catch` around a request. -/
def caught (policy : RetryPolicy) (message : String) (startMs now : Int) (log : DeliveryLog) :
    Except String Unit × DeliveryLog :=
  handleRetryOrDead policy (classifyError message none) none now
    { log with responseLatencyMs := some (now - startMs), lastError := some message }

/-- What becomes of the log when its request is answered. -/
def answered (policy : RetryPolicy) (answer : Answer) (startMs now : Int) (log : DeliveryLog) :
    Except String Unit × DeliveryLog :=
  match answer with
  | .failed message => caught policy message startMs now log
  | .status code =>
    let log := { log with responseLatencyMs := some (now - startMs), statusCode := some code }
    if 200 ≤ code ∧ code < 300 then
      (.ok (), { log with
        status := .delivered
        deliveredAt := some now
        nextAttemptAt := none })
    else
      let r := handleRetryOrDead policy (classifyError "" (some code)) (some code) now log
      match r.1 with
      | .ok () => r
      | .error message => caught policy message startMs now r.2

/-- An attempt has returned the log. A replay goes on after a wait. -/
def returned (log : DeliveryLog) : Caller → Turn Waiting (Except String Result)
  | .direct => .done (.ok (.log log))
  | .replay entryId replayedAt loop => .waits (.replayed entryId log.id replayedAt loop)

/-- The log of an attempt that comes too late. -/
def lapsed (now : Int) (log : DeliveryLog) : DeliveryLog :=
  { log with status := .expired, expiredAt := some now, updatedAt := now }

/-- The log while its request is under way. -/
def processed (now : Int) (log : DeliveryLog) : DeliveryLog :=
  { log with status := .processing, attempt := log.attempt + 1, updatedAt := now }

/-- `attemptDelivery` up to its request. -/
def attemptDelivery (endpoints : Endpoints) (logId : String) (caller : Caller) (told : Told)
    (s : State) : Ends :=
  match s.deliveryLogs.get logId with
  | none => (.done (.error ("Delivery log " ++ logId ++ " not found")), s)
  | some log =>
    match endpoints.get log.endpointId with
    | none => (.done (.error ("Endpoint " ++ log.endpointId ++ " not found")), s)
    | some endpoint =>
      if isExpired log endpoint.retryPolicy told.now then
        (returned (lapsed told.now log) caller, s.write (lapsed told.now log) [])
      else
        (.waits (.request logId endpoint.retryPolicy told.now caller),
          s.write (processed told.now log)
            [.sent ⟨endpoint.url, log.eventId, log.payloadPreview⟩])

/-- `attemptDelivery` from the answer on. -/
def answerDelivery (logId : String) (policy : RetryPolicy) (startMs : Int) (caller : Caller)
    (told : Told) (s : State) : Ends :=
  match s.deliveryLogs.get logId with
  | none => (.done (.error ("Delivery log " ++ logId ++ " not found")), s)
  | some log =>
    let r := answered policy told.answer startMs told.now log
    let events := if r.2.status = .delivered then [.delivered] else []
    match r.1 with
    | .ok () =>
      let log := { r.2 with updatedAt := told.now }
      (returned log caller, s.write log events)
    | .error message => (.done (.error message), s.write r.2 events)

/-! ## The queue of the dead letters -/

def enqueueDeadLetter (log : DeliveryLog) (id : String) (now : Int) (s : State) :
    DeadLetterEntry × State :=
  match s.dlqEntries.records.find? fun e => e.deliveryLogId = log.id && e.purgedAt.isNone with
  | some entry => (entry, s)
  | none =>
    let entry : DeadLetterEntry := {
      id := id
      deliveryLogId := log.id
      endpointId := log.endpointId
      merchantId := log.merchantId
      eventId := log.eventId
      eventType := log.eventType
      payloadPreview := log.payloadPreview
      failureCategory := log.failureCategory.getD .unknown
      lastError := log.lastError
      originalAttempts := log.attempt
      enqueuedAt := now }
    (entry, { s with dlqEntries := s.dlqEntries.set entry })

def syncDLQFromDeliveryLogs (told : Told) (s : State) : State :=
  (listDeliveryLogs none none (some .deadLetter) s).zipIdx.foldl
    (fun s (log, n) => (enqueueDeadLetter log (told.randomUUID n) told.now s).2) s

def countReplay (entry : DeadLetterEntry) (now : Int) (s : State) : State :=
  { s with dlqEntries := s.dlqEntries.set { entry with
      replayCount := entry.replayCount + 1
      lastReplayAt := some now } }

/-- A replay is counted, and its log is put back if there is one. -/
def prepareReplay (entry : DeadLetterEntry) (now : Int) (s : State) : State :=
  let s := countReplay entry now s
  match s.deliveryLogs.get entry.deliveryLogId with
  | none => s
  | some original => requeue now s original

/-- `replayOne` up to the wait for its attempt. -/
def replayOne (endpoints : Endpoints) (entry : DeadLetterEntry) (loop : Option Loop) (told : Told)
    (s : State) : Ends :=
  attemptDelivery endpoints entry.deliveryLogId (.replay entry.id told.now loop) told
    (prepareReplay entry told.now s)

def replaySingle (endpoints : Endpoints) (entryId : String) (told : Told) (s : State) : Ends :=
  match s.dlqEntries.get entryId with
  | none => (.done (.error ("DLQ entry " ++ entryId ++ " not found")), s)
  | some entry =>
    if entry.purgedAt.isSome then
      (.done (.error ("DLQ entry " ++ entryId ++ " has been purged")), s)
    else replayOne endpoints entry none told s

/-- The entry that a loop comes to next, and those after it. -/
def nextEntry (lookedUp : Bool) (s : State) : List String → Option (DeadLetterEntry × List String)
  | [] => none
  | id :: rest =>
    match s.dlqEntries.get id with
    | none => nextEntry lookedUp s rest
    | some entry =>
      if lookedUp && entry.purgedAt.isSome then nextEntry lookedUp s rest else some (entry, rest)

def replayRest (endpoints : Endpoints) (loop : Loop) (told : Told) (s : State) : Ends :=
  match nextEntry loop.lookedUp s loop.entryIds with
  | none => (.done (.ok (.replays loop.results)), s)
  | some (entry, rest) =>
    replayOne endpoints entry (some { loop with entryIds := rest }) told s

def replayBatch (endpoints : Endpoints) (entryIds : List String) : Told → State → Ends :=
  replayRest endpoints ⟨true, entryIds, []⟩

/-- The entries are listed once, and those that are purged meanwhile are replayed too. -/
def replayAll (endpoints : Endpoints) (merchantId : Option String) (told : Told) (s : State) :
    Ends :=
  replayRest endpoints ⟨false, (listDLQ merchantId none none s).map (·.id), []⟩ told s

/-- `replayOne` after its attempt has returned: the log is read as it is now. -/
def finishReplay (endpoints : Endpoints) (entryId logId : String) (replayedAt : Int)
    (loop : Option Loop) (told : Told) (s : State) : Ends :=
  match s.deliveryLogs.get logId with
  | none => (.done (.error ("Delivery log " ++ logId ++ " not found")), s)
  | some log =>
    let result : ReplayResult :=
      ⟨entryId, logId, log.status = .delivered, log.status, replayedAt⟩
    match loop with
    | none => (.done (.ok (.replay result)), s)
    | some loop => replayRest endpoints { loop with results := loop.results ++ [result] } told s

def purge (now : Int) (s : State) (entry : DeadLetterEntry) : State :=
  { s with dlqEntries := s.dlqEntries.set { entry with purgedAt := some now } }

def purgeDLQEntry (entryId : String) (told : Told) (s : State) : Ends :=
  match s.dlqEntries.get entryId with
  | none => (.done (.error ("DLQ entry " ++ entryId ++ " not found")), s)
  | some entry => (.done (.ok .nothing), purge told.now s entry)

def purgeByCategory (category : FailureCategory) (merchantId : Option String) (told : Told)
    (s : State) : Ends :=
  let entries := listDLQ merchantId none (some category) s
  (.done (.ok (.count entries.length)), entries.foldl (purge told.now) s)

/-! ## The program -/

inductive Call where
  | scheduleDelivery (endpointId merchantId eventId eventType : String)
      (payload : List (String × Json.Value)) (idempotencyKey : Option String)
  | bulkRetryDeadLetters (merchantId : Option String)
  | attemptDelivery (logId : String)
  | enqueueDeadLetter (log : DeliveryLog)
  | syncDLQFromDeliveryLogs
  | replaySingle (entryId : String)
  | replayBatch (entryIds : List String)
  | replayAll (merchantId : Option String)
  | purgeDLQEntry (entryId : String)
  | purgeByCategory (category : FailureCategory) (merchantId : Option String)

def call (endpoints : Endpoints) (c : Call) (told : Told) (s : State) : Option Ends :=
  match c with
  | .scheduleDelivery endpointId merchantId eventId eventType payload idempotencyKey =>
    scheduleDelivery endpoints endpointId merchantId eventId eventType payload idempotencyKey told s
  | .bulkRetryDeadLetters merchantId => some (bulkRetryDeadLetters endpoints merchantId told s)
  | .attemptDelivery logId => some (attemptDelivery endpoints logId .direct told s)
  | .enqueueDeadLetter log =>
    let r := enqueueDeadLetter log (told.randomUUID 0) told.now s
    some (.done (.ok (.entry r.1)), r.2)
  | .syncDLQFromDeliveryLogs => some (.done (.ok .nothing), syncDLQFromDeliveryLogs told s)
  | .replaySingle entryId => some (replaySingle endpoints entryId told s)
  | .replayBatch entryIds => some (replayBatch endpoints entryIds told s)
  | .replayAll merchantId => some (replayAll endpoints merchantId told s)
  | .purgeDLQEntry entryId => some (purgeDLQEntry entryId told s)
  | .purgeByCategory category merchantId => some (purgeByCategory category merchantId told s)

def resume (endpoints : Endpoints) (task : Waiting) (told : Told) (s : State) : Ends :=
  match task with
  | .request logId policy startMs caller => answerDelivery logId policy startMs caller told s
  | .replayed entryId logId replayedAt loop =>
    finishReplay endpoints entryId logId replayedAt loop told s

def webhooks (endpoints : Endpoints) : Program Call Told State Waiting (Except String Result) where
  call := call endpoints
  resume := resume endpoints

end Webhooks
