import AgenticPay.Records
import AgenticPay.Transaction
import Mathlib.Algebra.Order.Field.Rat
import Mathlib.Data.List.Sort

/-!
# The event stores

Events are appended to the stream of their aggregate and to a global sequence. One store keeps the
streams in memory; the other keeps one row for each event in a database, and finds versions, numbers
and streams by querying the rows. The database returns the rows that were created, in the order that
is asked for.
-/
namespace EventStore

open Records Transaction

/-- The payload and the metadata are kept as they come. A route takes any text for a type. -/
structure StoredEvent (α μ : Type) where
  id : String
  type : String
  aggregateId : String
  aggregateType : String
  version : Nat
  payload : α
  metadata : μ
  occurredAt : Int
  sequenceNumber : Nat
  streamId : String
  deriving DecidableEq

structure EventStream (α μ : Type) where
  streamId : String
  aggregateId : String
  aggregateType : String
  version : Nat
  events : List (StoredEvent α μ)
  createdAt : Int
  updatedAt : Int
  deriving DecidableEq

/-- A call of `appendEvent`, with the time and the random id that it is told. -/
structure Append (α μ : Type) where
  aggregateType : String
  aggregateId : String
  type : String
  payload : α
  metadata : μ
  expectedVersion : Option ℚ
  id : String
  now : Int

/-- An optimistic concurrency conflict. -/
structure Conflict where
  expected : ℚ
  got : Nat
  deriving DecidableEq

def streamKey (aggregateType aggregateId : String) : String :=
  aggregateType ++ ":" ++ aggregateId

variable {α μ : Type}

def Append.key (c : Append α μ) : String := streamKey c.aggregateType c.aggregateId

/-- The event of a call, with its place in its stream and in the global sequence. -/
def Append.event (c : Append α μ) (version sequenceNumber : Nat) : StoredEvent α μ where
  id := c.id
  type := c.type
  aggregateId := c.aggregateId
  aggregateType := c.aggregateType
  version := version
  payload := c.payload
  metadata := c.metadata
  occurredAt := c.now
  sequenceNumber := sequenceNumber
  streamId := c.key

/-- The check of the expected version, where there is one, against that of the stream, if there is
one. -/
def checkVersion (expectedVersion : Option ℚ) (version : Option Nat) : Except Conflict Unit :=
  match expectedVersion, version with
  | some expected, some got => if (got : ℚ) ≠ expected then .error ⟨expected, got⟩ else .ok ()
  | _, _ => .ok ()

/-! ## In memory -/

structure Memory (α μ : Type) where
  streams : Table (EventStream.streamId (α := α) (μ := μ)) := ∅
  globalSequence : List (StoredEvent α μ) := []

namespace Memory

def appendEvent (c : Append α μ) (m : Memory α μ) :
    Except Conflict (StoredEvent α μ × Memory α μ) := do
  let stream := (m.streams.get c.key).getD
    ⟨c.key, c.aggregateId, c.aggregateType, 0, [], c.now, c.now⟩
  checkVersion c.expectedVersion (some stream.version)
  let nextVersion := stream.version + 1
  let stored := c.event nextVersion (m.globalSequence.length + 1)
  let stream := { stream with
    events := stream.events ++ [stored], version := nextVersion, updatedAt := c.now }
  return (stored, ⟨m.streams.set stream, m.globalSequence ++ [stored]⟩)

def loadStream (m : Memory α μ) (aggregateType aggregateId : String) : Option (EventStream α μ) :=
  m.streams.get (streamKey aggregateType aggregateId)

def loadEvents (m : Memory α μ) (aggregateType aggregateId : String) (fromVersion : Int) :
    List (StoredEvent α μ) :=
  match m.streams.get (streamKey aggregateType aggregateId) with
  | none => []
  | some stream => stream.events.filter fun e => fromVersion < e.version

def getAllEvents (m : Memory α μ) (fromSequence : Int) : List (StoredEvent α μ) :=
  m.globalSequence.filter fun e => fromSequence < e.sequenceNumber

def getEventsByType (m : Memory α μ) (type : String) : List (StoredEvent α μ) :=
  m.globalSequence.filter fun e => e.type = type

def getAllStreams (m : Memory α μ) : List (EventStream α μ) := m.streams.records

end Memory

/-! ## In a database -/

structure Row (α μ : Type) where
  id : String
  streamId : String
  eventType : String
  aggregateType : String
  aggregateId : String
  version : Nat
  payload : α
  metadata : μ
  occurredAt : Int
  sequenceNumber : Nat
  /-- The database sets it to the time at which it creates the row. -/
  createdAt : Int
  deriving DecidableEq

def Row.event (r : Row α μ) : StoredEvent α μ where
  id := r.id
  type := r.eventType
  aggregateId := r.aggregateId
  aggregateType := r.aggregateType
  version := r.version
  payload := r.payload
  metadata := r.metadata
  occurredAt := r.occurredAt
  sequenceNumber := r.sequenceNumber
  streamId := r.streamId

/-- The rows, as they were created. -/
abbrev Rows (α μ : Type) := List (Row α μ)

/-- The distinct ids among those of the rows. Their order is up to the database. -/
structure Distinct where
  ids : List String → List String
  nodup : ∀ streamIds, (ids streamIds).Nodup
  mem_ids : ∀ {streamIds streamId}, streamId ∈ ids streamIds ↔ streamId ∈ streamIds

namespace Rows

def findMany (rows : Rows α μ) (which : Row α μ → Bool) (orderBy : Row α μ → Nat) : Rows α μ :=
  (rows.filter which).insertionSort fun a b => orderBy a ≤ orderBy b

/-- The latest event of a stream. -/
def findLatest (rows : Rows α μ) (streamId : String) : Option (Row α μ) :=
  ((rows.filter (·.streamId = streamId)).insertionSort fun a b => b.version ≤ a.version).head?

def maxSequence (rows : Rows α μ) : Option Nat := (rows.map (·.sequenceNumber)).max?

def create (stored : StoredEvent α μ) (now : Int) : Row α μ where
  id := stored.id
  streamId := stored.streamId
  eventType := stored.type
  aggregateType := stored.aggregateType
  aggregateId := stored.aggregateId
  version := stored.version
  payload := stored.payload
  metadata := stored.metadata
  occurredAt := stored.occurredAt
  sequenceNumber := stored.sequenceNumber
  createdAt := now

def appendEvent (c : Append α μ) (rows : Rows α μ) :
    Except Conflict (StoredEvent α μ × Rows α μ) := do
  let latestEvent := findLatest rows c.key
  checkVersion c.expectedVersion (latestEvent.map (·.version))
  let nextVersion := latestEvent.elim 1 (·.version + 1)
  let sequenceNumber := (maxSequence rows).getD 0 + 1
  let stored := c.event nextVersion sequenceNumber
  return (stored, rows ++ [create stored c.now])

def loadStream (rows : Rows α μ) (aggregateType aggregateId : String) :
    Option (EventStream α μ) :=
  let key := streamKey aggregateType aggregateId
  let events := findMany rows (·.streamId = key) (·.version)
  match events.head?, events.getLast? with
  | some firstEvent, some lastEvent =>
    some ⟨key, aggregateId, aggregateType, lastEvent.version, events.map Row.event,
      firstEvent.createdAt, lastEvent.createdAt⟩
  | _, _ => none

def loadEvents (rows : Rows α μ) (aggregateType aggregateId : String) (fromVersion : Int) :
    List (StoredEvent α μ) :=
  let key := streamKey aggregateType aggregateId
  (findMany rows (fun r => r.streamId = key ∧ fromVersion < r.version) (·.version)).map Row.event

def getAllEvents (rows : Rows α μ) (fromSequence : Int) : List (StoredEvent α μ) :=
  (findMany rows (fun r => fromSequence < r.sequenceNumber) (·.sequenceNumber)).map Row.event

def getEventsByType (rows : Rows α μ) (type : String) : List (StoredEvent α μ) :=
  (findMany rows (·.eventType = type) (·.sequenceNumber)).map Row.event

/-- The first two parts of a text between its colons. -/
def splitId (streamId : String) : String × String :=
  let parts := (streamId.toList.splitOn ':').map String.ofList
  (parts.getD 0 "undefined", parts.getD 1 "undefined")

def getAllStreams (distinct : Distinct) (rows : Rows α μ) : List (EventStream α μ) :=
  (distinct.ids (rows.map (·.streamId))).filterMap fun streamId =>
    let (aggregateType, aggregateId) := splitId streamId
    loadStream rows aggregateType aggregateId

end Rows

end EventStore

/-!
## Snapshots and replays of events

A snapshot keeps the state of a stream at its version. A replay selects events of the database and
hands them to a handler; a state is built again by a reducer, from an initial state or from the
snapshot. What the database says of the duration of a replay is left out.
-/
namespace EventReplay

open Records EventStore

variable {α μ T σ : Type}

/-! ## Snapshots -/

structure EventSnapshot (T : Type) where
  streamId : String
  aggregateType : String
  aggregateId : String
  version : Nat
  state : T

structure Database (α μ T : Type) where
  events : Rows α μ := []
  snapshots : Table (EventSnapshot.streamId (T := T)) := ∅

def createSnapshot (aggregateType aggregateId : String) (state : T) (db : Database α μ T) :
    Except String (Database α μ T) :=
  let key := streamKey aggregateType aggregateId
  match Rows.loadStream db.events aggregateType aggregateId with
  | none => .error ("Stream not found: " ++ key)
  | some stream =>
    let snapshot := (db.snapshots.get key).getD ⟨key, aggregateType, aggregateId, 0, state⟩
    let snapshot := { snapshot with version := stream.version, state := state }
    .ok { db with snapshots := db.snapshots.set snapshot }

def getSnapshot (db : Database α μ T) (aggregateType aggregateId : String) :
    Option (EventSnapshot T) :=
  db.snapshots.get (streamKey aggregateType aggregateId)

/-! ## Replays -/

structure ReplayOptions where
  fromSequence : Option Int := none
  toSequence : Option ℚ := none
  eventTypes : Option (List String) := none
  aggregateId : Option String := none
  aggregateType : Option String := none
  dryRun : Bool := false
  validateSchemas : Bool := true
  stopOnError : Bool := false

structure ReplayResult (α μ : Type) where
  totalEvents : Nat := 0
  processedEvents : Nat := 0
  failedEvents : Nat := 0
  skippedEvents : Nat := 0
  errors : List (StoredEvent α μ × String) := []

/-- A text that is there and is not empty. -/
def truthy (text : Option String) : Option String := text.filter (· ≠ "")

/-- The events that the filters ask for. -/
def fetch (options : ReplayOptions) (rows : Rows α μ) : List (StoredEvent α μ) :=
  match truthy options.aggregateId, truthy options.aggregateType with
  | some aggregateId, some aggregateType =>
    Rows.loadEvents rows aggregateType aggregateId (options.fromSequence.getD 0)
  | _, _ =>
    match options.eventTypes.getD [] with
    | [] => Rows.getAllEvents rows (options.fromSequence.getD 0)
    | eventTypes => (eventTypes.flatMap (Rows.getEventsByType rows)).insertionSort
        fun a b => a.sequenceNumber ≤ b.sequenceNumber

def select (options : ReplayOptions) (rows : Rows α μ) : List (StoredEvent α μ) :=
  match options.toSequence with
  | some toSequence => (fetch options rows).filter fun e => e.sequenceNumber ≤ toSequence
  | none => fetch options rows

/-- What becomes of one event. -/
inductive Outcome where
  | processed
  | skipped
  | failed (message : String)

/-- A handler may throw, with a message, after it has changed its surroundings. -/
abbrev Handler (α μ σ : Type) := StoredEvent α μ → σ → Option String × σ

/-- The registry has a message for an event that fails the schema of its type. -/
abbrev Registry (α μ : Type) := StoredEvent α μ → Option String

def attempt (registry : Registry α μ) (handler : Handler α μ σ) (options : ReplayOptions)
    (event : StoredEvent α μ) (s : σ) : Outcome × σ :=
  match if options.validateSchemas then registry event else none with
  | some message => (.failed ("Schema validation failed: " ++ message), s)
  | none =>
    if options.dryRun then (.skipped, s)
    else match handler event s with
      | (some message, s) => (.failed message, s)
      | (none, s) => (.processed, s)

def ReplayResult.note (result : ReplayResult α μ) (event : StoredEvent α μ) :
    Outcome → ReplayResult α μ
  | .processed => { result with processedEvents := result.processedEvents + 1 }
  | .skipped => { result with skippedEvents := result.skippedEvents + 1 }
  | .failed message =>
    { result with
      failedEvents := result.failedEvents + 1, errors := result.errors ++ [(event, message)] }

def process (registry : Registry α μ) (handler : Handler α μ σ) (options : ReplayOptions) :
    List (StoredEvent α μ) → ReplayResult α μ → σ → ReplayResult α μ × σ
  | [], result, s => (result, s)
  | event :: events, result, s =>
    match attempt registry handler options event s with
    | (.failed message, s) =>
      let result := result.note event (.failed message)
      if options.stopOnError then (result, s) else process registry handler options events result s
    | (outcome, s) => process registry handler options events (result.note event outcome) s

def replay (registry : Registry α μ) (handler : Handler α μ σ) (options : ReplayOptions)
    (rows : Rows α μ) (s : σ) : ReplayResult α μ × σ :=
  let events := select options rows
  process registry handler options events { totalEvents := events.length } s

def replayToState (registry : Registry α μ) (aggregateType aggregateId : String)
    (initialState : T) (stateReducer : T → StoredEvent α μ → T) (options : ReplayOptions)
    (rows : Rows α μ) : T :=
  (replay registry (fun event state => (none, stateReducer state event))
    { options with aggregateType := some aggregateType, aggregateId := some aggregateId }
    rows initialState).2

/-- `empty` is the state that is built without a snapshot. -/
def replayWithSnapshot (registry : Registry α μ) (empty : T) (aggregateType aggregateId : String)
    (stateReducer : T → StoredEvent α μ → T) (options : ReplayOptions) (db : Database α μ T) : T :=
  match getSnapshot db aggregateType aggregateId with
  | some snapshot =>
    replayToState registry aggregateType aggregateId snapshot.state stateReducer
      { options with fromSequence := some snapshot.version } db.events
  | none =>
    replayToState registry aggregateType aggregateId empty stateReducer
      { options with fromSequence := some 0 } db.events

end EventReplay
