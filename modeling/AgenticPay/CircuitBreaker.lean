import AgenticPay.Awaits
import AgenticPay.BillingTypes
import Mathlib.Algebra.Order.Field.Rat

/-!
# The circuit breaker

Calls of a service are guarded by a breaker that opens on failures, rejects calls for a time and
then permits a number of them on trial. A call that is permitted goes on while others begin and end.
Left out are the metrics, the listeners and what is kept for the snapshot only.
-/
namespace CircuitBreaker

open Awaits

inductive CircuitBreakerState where
  | closed
  | opened
  | halfOpen
  deriving DecidableEq

/-- The text of an error, by what it is made of. -/
inductive Message where
  | isOpen
  | timedOutAfter (timeoutMs : ℚ)
  | text (content : String)

structure CircuitBreakerError where
  serviceName : String
  message : Message
  isTimeout : Bool

/-- What is thrown: an error of a breaker, of this one or of another, or any other value. -/
inductive Thrown (ε : Type) where
  | breaker (error : CircuitBreakerError)
  | other (error : ε)

/-- The configuration, with its defaults. -/
structure CircuitBreakerConfig (ε : Type) where
  slidingWindowSize : ℚ := 20
  minimumCallsToOpen : ℚ := 5
  failureRateThreshold : ℚ := 50
  failureThreshold : ℚ := 5
  successThreshold : ℚ := 2
  waitDurationInOpenState : ℚ := 60000
  permittedNumberOfCallsInHalfOpenState : ℚ := 3
  requestTimeoutMs : ℚ := 10000
  recordFailure : Option (Thrown ε → Bool) := none
  ignoreFailures : Option (Thrown ε → Bool) := none

structure Breaker where
  state : CircuitBreakerState := .closed
  consecutiveFailures : Nat := 0
  consecutiveSuccesses : Nat := 0
  permittedCallsInHalfOpen : Nat := 0
  openedAt : Option ℚ := none
  outcomes : List Bool := []
  deriving DecidableEq

variable {ε : Type}

/-- The constructor. -/
def construct (name : String) (config : CircuitBreakerConfig ε) : Except String Breaker :=
  if name = "" ∨ Billing.trim name = "" then .error "CircuitBreaker requires a non-empty name"
  else if config.slidingWindowSize < 1 then .error "slidingWindowSize must be >= 1"
  else if config.failureRateThreshold < 0 ∨ 100 < config.failureRateThreshold then
    .error "failureRateThreshold must be between 0 and 100"
  else .ok {}

/-! ## Transitions -/

def transitionToHalfOpen (b : Breaker) : Breaker :=
  { b with state := .halfOpen, permittedCallsInHalfOpen := 0, consecutiveSuccesses := 0 }

def transitionToOpen (now : ℚ) (b : Breaker) : Breaker :=
  { b with
    state := .opened
    openedAt := some now
    consecutiveFailures := 0
    consecutiveSuccesses := 0
    permittedCallsInHalfOpen := 0 }

def transitionToClosed (b : Breaker) : Breaker :=
  { b with
    state := .closed
    consecutiveFailures := 0
    consecutiveSuccesses := 0
    permittedCallsInHalfOpen := 0
    openedAt := none
    outcomes := [] }

/-! ## Permission -/

def permitHalfOpenCall (config : CircuitBreakerConfig ε) (b : Breaker) : Bool × Breaker :=
  if b.permittedCallsInHalfOpen < config.permittedNumberOfCallsInHalfOpenState then
    (true, { b with permittedCallsInHalfOpen := b.permittedCallsInHalfOpen + 1 })
  else (false, b)

def isCallPermitted (config : CircuitBreakerConfig ε) (now : ℚ) (b : Breaker) : Bool × Breaker :=
  match b.state with
  | .closed => (true, b)
  | .opened =>
    if config.waitDurationInOpenState ≤ now - b.openedAt.getD now then
      permitHalfOpenCall config (transitionToHalfOpen b)
    else (false, b)
  | .halfOpen => permitHalfOpenCall config b

/-! ## Outcomes -/

def recordOutcome (config : CircuitBreakerConfig ε) (success : Bool) (b : Breaker) : Breaker :=
  let outcomes := b.outcomes ++ [success]
  { b with outcomes := if config.slidingWindowSize < outcomes.length then outcomes.tail
                       else outcomes }

/-- No rate of an empty window reaches the threshold, as it is not a number. -/
def shouldTripByFailureRate (config : CircuitBreakerConfig ε) (b : Breaker) : Bool :=
  let window := b.outcomes
  let failed := (window.filter fun success => !success).length
  decide (config.minimumCallsToOpen ≤ window.length) && !window.isEmpty &&
    decide (config.failureRateThreshold ≤ (failed : ℚ) / window.length * 100)

def recordSuccess (config : CircuitBreakerConfig ε) (b : Breaker) : Breaker :=
  let b := recordOutcome config true b
  match b.state with
  | .halfOpen =>
    let b := { b with consecutiveSuccesses := b.consecutiveSuccesses + 1 }
    if config.successThreshold ≤ b.consecutiveSuccesses then transitionToClosed b else b
  | .closed => { b with consecutiveFailures := 0, consecutiveSuccesses := 0 }
  | .opened => b

/-- A failure drives the breaker if it is neither ignored nor refused. -/
def CircuitBreakerConfig.counts (config : CircuitBreakerConfig ε) (err : Thrown ε) : Bool :=
  !config.ignoreFailures.any (fun ignores => ignores err) &&
    config.recordFailure.all fun records => records err

def recordFailure (config : CircuitBreakerConfig ε) (now : ℚ) (err : Thrown ε) (b : Breaker) :
    Breaker :=
  if config.counts err then
    let b := { recordOutcome config false b with
      consecutiveFailures := b.consecutiveFailures + 1, consecutiveSuccesses := 0 }
    match b.state with
    | .halfOpen => transitionToOpen now b
    | .closed =>
      if config.failureThreshold ≤ b.consecutiveFailures then transitionToOpen now b
      else if shouldTripByFailureRate config b then transitionToOpen now b
      else b
    | .opened => b
  else b

/-! ## Calls -/

/-- The arguments of `protect` apart from the function. -/
structure Protect where
  fallback : Bool
  requestTimeoutMs : Option ℚ

/-- A call in flight. -/
structure Flight where
  timeoutMs : ℚ
  fallback : Bool

/-- How the function ends, or that its timer fires first. -/
inductive Ending (ε : Type) where
  | returned
  | threw (error : Thrown ε)
  | timerFired

/-- The time, and how the call in flight ends. -/
structure Told (ε : Type) where
  now : ℚ
  ending : Ending ε

inductive Response (ε : Type) where
  | returned
  | fellBack
  | threw (error : Thrown ε)

def respond (fallback : Bool) (error : Thrown ε) : Response ε :=
  if fallback then .fellBack else .threw error

abbrev Ends (ε : Type) := Turn Flight (Response ε) × Breaker

/-- `protect`, up to the wait for the function. -/
def protect (name : String) (config : CircuitBreakerConfig ε) (p : Protect) (now : ℚ)
    (b : Breaker) : Ends ε :=
  let permitted := isCallPermitted config now b
  if permitted.1 then
    (.waits ⟨p.requestTimeoutMs.getD config.requestTimeoutMs, p.fallback⟩, permitted.2)
  else (.done (respond p.fallback (.breaker ⟨name, .isOpen, false⟩)), permitted.2)

def timeoutError (name : String) (timeoutMs : ℚ) : Thrown ε :=
  .breaker ⟨name, .timedOutAfter timeoutMs, true⟩

/-- A failure that is recorded, and what becomes of the call. -/
def fail (config : CircuitBreakerConfig ε) (now : ℚ) (error : Thrown ε) (flight : Flight)
    (b : Breaker) : Ends ε :=
  (.done (respond flight.fallback error), recordFailure config now error b)

/-- `protect` and `runCall`, once the function has ended. Without a timer, none fires. -/
def settle (name : String) (config : CircuitBreakerConfig ε) (flight : Flight) (told : Told ε)
    (b : Breaker) : Ends ε :=
  match told.ending with
  | .returned => (.done .returned, recordSuccess config b)
  | .threw (.breaker error) => (.done (.threw (.breaker error)), b)
  | .threw (.other error) => fail config told.now (.other error) flight b
  | .timerFired =>
    if flight.timeoutMs ≤ 0 then (.waits flight, b)
    else fail config told.now (timeoutError name flight.timeoutMs) flight b

def breaker (name : String) (config : CircuitBreakerConfig ε) :
    Program Protect (Told ε) Breaker Flight (Response ε) where
  call p told b := some (protect name config p told.now b)
  resume := settle name config

end CircuitBreaker
