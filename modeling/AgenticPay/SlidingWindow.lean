import AgenticPay.Transaction
import Mathlib.Algebra.Order.Field.Rat
import Mathlib.Data.List.Sort
import Mathlib.Data.Rat.Floor

/-!
# The sliding window rate limit

The log of the requests of one key is kept in memory, or by a script in Redis, where it expires as
the counter and the block do. A script that Redis stops leaves what it has written. Numbers are
exact; left out are the tiers, the paths and the headers of the answer.
-/
namespace SlidingWindow

open Transaction

structure SlidingWindowConfig where
  windowMs : ℚ
  limit : ℚ

structure GraduatedPenaltyConfig where
  warnAtRatio : ℚ
  throttleAtRatio : ℚ
  blockAfterThrottledWindows : ℚ
  blockDurationMs : ℚ

structure EndpointSlidingWindowConfig where
  window : SlidingWindowConfig
  penalties : GraduatedPenaltyConfig

inductive PenaltyLevel where
  | ok
  | warning
  | throttle
  | block
  deriving DecidableEq

structure SlidingWindowResult where
  level : PenaltyLevel
  count : Nat
  limit : ℚ
  remaining : ℚ
  retryAfterMs : ℚ

/-! ## In memory -/

structure WindowState where
  timestamps : List Nat := []
  consecutiveThrottledWindows : Nat := 0
  blockedUntilMs : ℚ := 0

def pruneTimestamps (timestamps : List Nat) (nowMs : Nat) (windowMs : ℚ) : List Nat :=
  timestamps.dropWhile fun timestamp => decide ((timestamp : ℚ) < nowMs - windowMs)

/-- The level and the counter where nothing is blocked. -/
def grade (cfg : EndpointSlidingWindowConfig) (countBefore consecutive : Nat) :
    PenaltyLevel × Nat :=
  let ratio := countBefore / cfg.window.limit
  if cfg.window.limit ≤ countBefore then (.throttle, consecutive + 1)
  else if cfg.penalties.throttleAtRatio ≤ ratio then (.throttle, consecutive)
  else if cfg.penalties.warnAtRatio ≤ ratio then (.warning, consecutive)
  else (.ok, 0)

/-- The result for a key with these requests in its window, and what is stored afterwards. -/
def evaluatePruned (cfg : EndpointSlidingWindowConfig) (state : WindowState) (nowMs : Nat) :
    SlidingWindowResult × Option WindowState :=
  let limit := cfg.window.limit
  let countBefore := state.timestamps.length
  let graded := grade cfg countBefore state.consecutiveThrottledWindows
  let level := graded.1
  if limit ≤ countBefore ∧ cfg.penalties.blockAfterThrottledWindows ≤ graded.2 then
    ({ level := .block
       count := countBefore
       limit := limit
       remaining := 0
       retryAfterMs := cfg.penalties.blockDurationMs },
      some { state with
        consecutiveThrottledWindows := 0
        blockedUntilMs := nowMs + cfg.penalties.blockDurationMs })
  else
    let timestamps := if level ≠ .throttle ∨ countBefore < limit
      then state.timestamps ++ [nowMs] else state.timestamps
    let oldestInWindow : ℚ := timestamps.head?.getD nowMs
    ({ level := level
       count := timestamps.length
       limit := limit
       remaining := max 0 (limit - timestamps.length)
       retryAfterMs := if level = .throttle ∨ level = .block
         then max 0 (oldestInWindow + cfg.window.windowMs - nowMs) else 0 },
      some { state with timestamps := timestamps, consecutiveThrottledWindows := graded.2 })

/-- The result for a key, and what is stored for it afterwards. -/
def evaluateInMemory (cfg : EndpointSlidingWindowConfig) (stored : Option WindowState)
    (nowMs : Nat) : SlidingWindowResult × Option WindowState :=
  let state := stored.getD {}
  if nowMs < state.blockedUntilMs then
    ({ level := .block
       count := state.timestamps.length
       limit := cfg.window.limit
       remaining := 0
       retryAfterMs := state.blockedUntilMs - nowMs }, stored)
  else
    evaluatePruned cfg { state with
      timestamps := pruneTimestamps state.timestamps nowMs cfg.window.windowMs } nowMs

/-! ## In Redis -/

/-- A value that is there until a time. -/
structure Expiring (α : Type) where
  value : α
  expiresAt : Int

/-- The sorted set of a key, as its scores, and the two strings beside it. -/
structure RedisStore where
  scores : Option (Expiring (List Nat)) := none
  blocked : Option (Expiring ℚ) := none
  consecutive : Option (Expiring Nat) := none

inductive RedisError where
  | notInteger
  | invalidExpire
  deriving DecidableEq

/-- What the script returns, each number as an integer. -/
structure Reply where
  level : Nat
  count : Nat
  limit : Int
  retryAfterMs : Int

abbrev Outcome := Except RedisError Reply × RedisStore

def get {α : Type} (nowMs : Nat) (key : Option (Expiring α)) : Option α :=
  (key.filter fun k => decide ((nowMs : Int) < k.expiresAt)).map Expiring.value

def RedisStore.zrange (store : RedisStore) (nowMs : Nat) : List Nat :=
  (get nowMs store.scores).getD []

def RedisStore.zremrangebyscore (store : RedisStore) (cutoff : ℚ) : RedisStore :=
  { store with
    scores := store.scores.map fun key =>
      { key with value := key.value.filter fun score => decide (cutoff < score) } }

/-- `ZADD` of a member that is new, and the `PEXPIRE` after it. -/
def RedisStore.zadd (store : RedisStore) (nowMs : Nat) (ttlMs : Int) : RedisStore :=
  { store with
    scores := some ⟨(store.zrange nowMs).orderedInsert (· ≤ ·) nowMs, nowMs + ttlMs⟩ }

/-- A `SET` with `PX`, after which the script goes on. -/
def setPx (nowMs : Nat) (px : ℚ) (set : Int → RedisStore) (store : RedisStore)
    (next : RedisStore → Outcome) : Outcome :=
  if px.den ≠ 1 then (.error .notInteger, store)
  else if px ≤ 0 then (.error .invalidExpire, store)
  else next (set (nowMs + px.num))

/-- How Redis returns a number of the script. -/
def toInteger (q : ℚ) : Int := q.num.tdiv q.den

def ttlSec (cfg : EndpointSlidingWindowConfig) : Int := ⌈cfg.window.windowMs / 1000⌉ + 60

def record (cfg : EndpointSlidingWindowConfig) (nowMs level countBefore : Nat)
    (store : RedisStore) : Outcome :=
  let store := if level < 2 ∨ countBefore < cfg.window.limit
    then store.zadd nowMs (ttlSec cfg * 1000) else store
  let scores := store.zrange nowMs
  let retryAfter := match scores.head? with
    | some oldest => if 2 ≤ level then max 0 (oldest + cfg.window.windowMs - nowMs) else 0
    | none => 0
  (.ok ⟨level, scores.length, toInteger cfg.window.limit, toInteger retryAfter⟩, store)

/-- The level of a request below the limit. -/
def ratioLevel (cfg : EndpointSlidingWindowConfig) (countBefore : Nat) : Nat :=
  let ratio := countBefore / cfg.window.limit
  if cfg.penalties.throttleAtRatio ≤ ratio then 2
  else if cfg.penalties.warnAtRatio ≤ ratio then 1
  else 0

def setConsecutive (cfg : EndpointSlidingWindowConfig) (nowMs consecutive : Nat)
    (store : RedisStore) (next : RedisStore → Outcome) : Outcome :=
  setPx nowMs cfg.window.windowMs
    (fun expiresAt => { store with consecutive := some ⟨consecutive, expiresAt⟩ }) store next

/-- The script, once it has removed what is out of the window. -/
def scriptPruned (cfg : EndpointSlidingWindowConfig) (store : RedisStore) (nowMs : Nat) :
    Outcome :=
  let countBefore := (store.zrange nowMs).length
  let consecutive := (get nowMs store.consecutive).getD 0
  let duration := cfg.penalties.blockDurationMs
  if cfg.window.limit ≤ countBefore then
    if cfg.penalties.blockAfterThrottledWindows ≤ (consecutive + 1 : Nat) then
      setPx nowMs duration
        (fun expiresAt => { store with blocked := some ⟨nowMs + duration, expiresAt⟩ }) store
        fun store => setConsecutive cfg nowMs 0 store fun store =>
          (.ok ⟨3, countBefore, toInteger cfg.window.limit, toInteger duration⟩, store)
    else setConsecutive cfg nowMs (consecutive + 1) store (record cfg nowMs 2 countBefore)
  else if ratioLevel cfg countBefore = 0 then
    setConsecutive cfg nowMs 0 store (record cfg nowMs 0 countBefore)
  else record cfg nowMs (ratioLevel cfg countBefore) countBefore store

/-- `LUA_SLIDING_WINDOW`. -/
def slidingWindowScript (cfg : EndpointSlidingWindowConfig) (store : RedisStore) (nowMs : Nat) :
    Outcome :=
  let blockedUntil := (get nowMs store.blocked).getD 0
  if nowMs < blockedUntil then
    (.ok ⟨3, (store.zrange nowMs).length, toInteger cfg.window.limit,
      toInteger (blockedUntil - nowMs)⟩, store)
  else scriptPruned cfg (store.zremrangebyscore (nowMs - cfg.window.windowMs)) nowMs

def levels : List PenaltyLevel := [.ok, .warning, .throttle, .block]

/-- The result for a key, where the script has one. -/
def evaluateRedis (cfg : EndpointSlidingWindowConfig) (store : RedisStore) (nowMs : Nat) :
    Except RedisError SlidingWindowResult × RedisStore :=
  let (returned, store) := slidingWindowScript cfg store nowMs
  (returned.map fun reply =>
    { level := levels.getD reply.level .ok
      count := reply.count
      limit := reply.limit
      remaining := max 0 (reply.limit - reply.count)
      retryAfterMs := reply.retryAfterMs }, store)

/-! ## Requests -/

/-- What is kept for one key, in memory and in Redis. -/
structure Stores where
  memory : Option WindowState := none
  redis : RedisStore := {}

def Stores.state (s : Stores) : WindowState := s.memory.getD {}

/-- A request that both are given. -/
def requests (cfg : EndpointSlidingWindowConfig) :
    System Nat Stores Empty (SlidingWindowResult × Except RedisError SlidingWindowResult) :=
  fun nowMs s =>
    let (inMemory, memory) := evaluateInMemory cfg s.memory nowMs
    let (inRedis, redis) := evaluateRedis cfg s.redis nowMs
    .ok ((inMemory, inRedis), ⟨memory, redis⟩)

end SlidingWindow
