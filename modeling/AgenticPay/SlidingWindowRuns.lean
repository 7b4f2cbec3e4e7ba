import AgenticPay.SlidingWindow
import Mathlib.Tactic.Linarith

/-!
# The two sliding windows along a sequence of requests

No request that is recorded is exactly one window old when it is looked at, the counter has not
expired in Redis when it counts, and Redis takes every time that the script sets: then what Redis
keeps is what is kept in memory, up to what has expired there and is pruned here.
-/
namespace SlidingWindow

open Transaction

/-- The two come to the same level. -/
def SameLevel (cfg : EndpointSlidingWindowConfig) (s : Stores) (nowMs : Nat) : Prop :=
  (evaluateRedis cfg s.redis nowMs).1.map SlidingWindowResult.level =
    .ok (evaluateInMemory cfg s.memory nowMs).1.level

instance (cfg : EndpointSlidingWindowConfig) (s : Stores) (nowMs : Nat) :
    Decidable (SameLevel cfg s nowMs) :=
  inferInstanceAs (Decidable ((evaluateRedis cfg s.redis nowMs).1.map _ = _))

/-! ## Conditions -/

/-- Redis takes the time for a key to live. -/
def Lives (px : ℚ) : Prop := px.den = 1 ∧ 0 < px

instance (px : ℚ) : Decidable (Lives px) := inferInstanceAs (Decidable (px.den = 1 ∧ 0 < px))

/-- The requests in the window. -/
def Stores.count (cfg : EndpointSlidingWindowConfig) (s : Stores) (nowMs : Nat) : Nat :=
  (pruneTimestamps s.state.timestamps nowMs cfg.window.windowMs).length

/-- A request at the limit finds the counter in Redis, and the block can be set. -/
def Counts (cfg : EndpointSlidingWindowConfig) (s : Stores) (nowMs : Nat) : Prop :=
  (s.state.consecutiveThrottledWindows = 0 ∨ (get nowMs s.redis.consecutive).isSome = true) ∧
    (cfg.penalties.blockAfterThrottledWindows ≤ (s.state.consecutiveThrottledWindows + 1 : Nat) →
      Lives cfg.penalties.blockDurationMs)

instance (cfg : EndpointSlidingWindowConfig) (s : Stores) (nowMs : Nat) :
    Decidable (Counts cfg s nowMs) :=
  inferInstanceAs (Decidable ((_ ∨ _) ∧ (_ → _)))

/-- The key is blocked, or no request that is recorded is exactly one window old, and what the
script has to count and to set is there and is taken. -/
def Undisturbed (cfg : EndpointSlidingWindowConfig) (s : Stores) (nowMs : Nat) : Prop :=
  nowMs < s.state.blockedUntilMs ∨
    (∀ timestamp ∈ s.state.timestamps, (timestamp : ℚ) + cfg.window.windowMs ≠ nowMs) ∧
      (cfg.window.limit ≤ s.count cfg nowMs → Counts cfg s nowMs) ∧
      (cfg.window.limit ≤ s.count cfg nowMs ∨ ratioLevel cfg (s.count cfg nowMs) = 0 →
        Lives cfg.window.windowMs)

instance (cfg : EndpointSlidingWindowConfig) (s : Stores) (nowMs : Nat) :
    Decidable (Undisturbed cfg s nowMs) :=
  inferInstanceAs (Decidable (_ ∨ (∀ timestamp ∈ s.state.timestamps, _) ∧ (_ → _) ∧ (_ → _)))

/-! ## The two stores -/

/-- The sorted set holds the requests, and does not expire before all of them are out of the
window. -/
def Scored (windowMs : ℚ) (timestamps : List Nat) : Option (Expiring (List Nat)) → Prop
  | none => timestamps = []
  | some key => key.value = timestamps ∧
    ∀ timestamp ∈ timestamps, (timestamp : ℚ) + windowMs < key.expiresAt

/-- The block expires when it is over. -/
def Blocked (blockedUntilMs : ℚ) : Option (Expiring ℚ) → Prop
  | none => blockedUntilMs = 0
  | some key => key.value = blockedUntilMs ∧ key.expiresAt = blockedUntilMs

/-- What Redis keeps is what is kept in memory. -/
structure Related (cfg : EndpointSlidingWindowConfig) (state : WindowState) (redis : RedisStore) :
    Prop where
  sorted : state.timestamps.Pairwise (· < ·)
  scored : Scored cfg.window.windowMs state.timestamps redis.scores
  blocked : Blocked state.blockedUntilMs redis.blocked
  counted : (redis.consecutive.map Expiring.value).getD 0 = state.consecutiveThrottledWindows

/-- The script comes to the level, the stores stay related, and a request is recorded at its
time. -/
structure Agrees (cfg : EndpointSlidingWindowConfig) (timestamps : List Nat) (nowMs : Nat)
    (level : PenaltyLevel) (state' : WindowState) (inRedis : Outcome) : Prop where
  level : inRedis.1.map (fun reply => levels.getD reply.level .ok) = .ok level
  related : Related cfg state' inRedis.2
  times : ∀ timestamp ∈ state'.timestamps, timestamp ∈ timestamps ∨ timestamp = nowMs

variable {cfg : EndpointSlidingWindowConfig} {s : Stores} {state : WindowState}
  {redis : RedisStore} {timestamps times : List Nat} {nowMs consecutive level count : Nat}
  {windowMs cutoff px : ℚ} {key : Option (Expiring (List Nat))}

/-! ## Pruning -/

theorem filter_eq_self_of_first {first : Nat} (hle : cutoff < first)
    (h : (first :: timestamps).Pairwise (· < ·)) :
    (first :: timestamps).filter (fun x : Nat => decide (cutoff < (x : ℚ))) =
      first :: timestamps := by
  refine List.filter_eq_self.mpr fun x hx => decide_eq_true ?_
  obtain rfl | hx := List.mem_cons.mp hx
  · exact hle
  · exact lt_trans hle (Nat.cast_lt.mpr (List.rel_of_pairwise_cons h hx))

/-- Where no request is at the edge of the window, both prune alike. -/
theorem pruneTimestamps_eq_filter (hsorted : timestamps.Pairwise (· < ·))
    (hedge : ∀ x ∈ timestamps, (x : ℚ) + windowMs ≠ nowMs) :
    pruneTimestamps timestamps nowMs windowMs =
      timestamps.filter fun x : Nat => decide ((nowMs : ℚ) - windowMs < x) := by
  induction timestamps with
  | nil => rfl
  | cons first rest ih =>
    have hne : (first : ℚ) ≠ nowMs - windowMs := by
      intro heq
      exact hedge first List.mem_cons_self (by rw [heq]; ring)
    by_cases hlt : (first : ℚ) < nowMs - windowMs
    · rw [List.filter_cons, if_neg fun h => hlt.asymm (of_decide_eq_true h)]
      rw [← ih hsorted.of_cons fun x hx => hedge x (List.mem_cons_of_mem _ hx)]
      exact List.dropWhile_cons_of_pos (decide_eq_true hlt)
    · have hgt : nowMs - windowMs < (first : ℚ) := lt_of_le_of_ne (not_lt.mp hlt) hne.symm
      rw [filter_eq_self_of_first hgt hsorted]
      exact List.dropWhile_cons_of_neg fun h => hlt (of_decide_eq_true h)

theorem scored_filter (h : Scored windowMs timestamps redis.scores) :
    Scored windowMs (timestamps.filter fun x : Nat => decide (cutoff < (x : ℚ)))
      (redis.zremrangebyscore cutoff).scores := by
  unfold RedisStore.zremrangebyscore
  cases hscores : redis.scores with
  | none =>
    rw [hscores] at h
    obtain rfl : timestamps = [] := h
    rfl
  | some key =>
    rw [hscores] at h
    exact ⟨by simp only [h.1], fun x hx => h.2 x (List.mem_of_mem_filter hx)⟩

/-- What has expired is out of the window. -/
theorem zrange_of_scored (h : Scored windowMs timestamps redis.scores)
    (hrecent : ∀ x ∈ timestamps, (nowMs : ℚ) - windowMs < x) :
    redis.zrange nowMs = timestamps := by
  unfold RedisStore.zrange get
  cases hscores : redis.scores with
  | none =>
    rw [hscores] at h
    exact h.symm
  | some key =>
    rw [hscores] at h
    by_cases hlive : (nowMs : Int) < key.expiresAt
    · simpa [Option.filter, hlive] using h.1
    · have hempty : timestamps = [] := by
        refine List.eq_nil_iff_forall_not_mem.mpr fun x hx => hlive ?_
        have hlt : (nowMs : ℚ) < key.expiresAt := by linarith [h.2 x hx, hrecent x hx]
        exact_mod_cast hlt
      simp [Option.filter, hlive, hempty]

/-! ## What is set and recorded -/

theorem setPx_of_lives {set : Int → RedisStore} {next : RedisStore → Outcome} (h : Lives px) :
    setPx nowMs px set redis next = next (set (nowMs + px.num)) := by
  simp [setPx, h.1, not_le.mpr h.2]

theorem Lives.num_eq (h : Lives px) : (px.num : ℚ) = px := Rat.coe_int_num_of_den_eq_one h.1

theorem setConsecutive_of_lives {next : RedisStore → Outcome} (h : Lives cfg.window.windowMs) :
    setConsecutive cfg nowMs consecutive redis next = next { redis with
      consecutive := some ⟨consecutive, nowMs + cfg.window.windowMs.num⟩ } :=
  setPx_of_lives h

theorem orderedInsert_last (h : ∀ x ∈ timestamps, x < nowMs) :
    timestamps.orderedInsert (· ≤ ·) nowMs = timestamps ++ [nowMs] := by
  induction timestamps with
  | nil => rfl
  | cons first rest ih =>
    have hlt := h first List.mem_cons_self
    rw [List.orderedInsert_of_not_le _ _ (not_le.mpr hlt)]
    rw [ih fun x hx => h x (List.mem_cons_of_mem _ hx), List.cons_append]

theorem window_lt_ttl (cfg : EndpointSlidingWindowConfig) :
    cfg.window.windowMs < (ttlSec cfg * 1000 : Int) := by
  have hceil := Int.le_ceil (cfg.window.windowMs / 1000)
  rw [ttlSec]
  push_cast
  linarith

/-- A request is recorded in the sorted set for longer than the window. -/
theorem scored_zadd (hbefore : ∀ x ∈ timestamps, x < nowMs)
    (hrange : redis.zrange nowMs = timestamps) :
    Scored cfg.window.windowMs (timestamps ++ [nowMs])
      (redis.zadd nowMs (ttlSec cfg * 1000)).scores := by
  refine ⟨by simp only [hrange, orderedInsert_last hbefore], fun x hx => ?_⟩
  have hle : x ≤ nowMs := by
    obtain hx | hx := List.mem_append.mp hx
    · exact (hbefore x hx).le
    · exact (List.mem_singleton.mp hx).le
  have hcast : (x : ℚ) ≤ nowMs := Nat.cast_le.mpr hle
  have httl := window_lt_ttl cfg
  push_cast at httl ⊢
  linarith

theorem sorted_snoc (hsorted : timestamps.Pairwise (· < ·))
    (hbefore : ∀ x ∈ timestamps, x < nowMs) :
    (timestamps ++ [nowMs]).Pairwise (· < ·) :=
  List.pairwise_append.mpr ⟨hsorted, List.pairwise_singleton _ _, fun x hx _ hy =>
    List.mem_singleton.mp hy ▸ hbefore x hx⟩

/-- Below the limit, a level by ratio is the level of the script. -/
theorem grade_of_lt (consecutive : Nat) (h : count < cfg.window.limit) :
    (grade cfg count consecutive).1 = levels.getD (ratioLevel cfg count) .ok ∧
      (grade cfg count consecutive).2 = if ratioLevel cfg count = 0 then 0 else consecutive := by
  unfold grade ratioLevel
  dsimp only
  rw [if_neg (not_le.mpr h)]
  split
  · exact ⟨rfl, rfl⟩
  · split
    · exact ⟨rfl, rfl⟩
    · exact ⟨rfl, rfl⟩

theorem grade_of_le (h : cfg.window.limit ≤ count) :
    grade cfg count consecutive = (.throttle, consecutive + 1) := if_pos h

/-! ## The parts of a request -/

theorem blocked_iff (nowMs : Nat) {blockedUntilMs : ℚ} {key : Option (Expiring ℚ)}
    (h : Blocked blockedUntilMs key) :
    (nowMs : ℚ) < (get nowMs key).getD 0 ↔ (nowMs : ℚ) < blockedUntilMs := by
  cases key with
  | none =>
    obtain rfl : blockedUntilMs = 0 := h
    exact Iff.rfl
  | some key =>
    obtain ⟨hvalue, hexpires⟩ := h
    by_cases hlive : (nowMs : Int) < key.expiresAt
    · simp [get, Option.filter, hlive, hvalue]
    · have hover : ¬(nowMs : ℚ) < blockedUntilMs := by
        rw [← hexpires]
        exact_mod_cast hlive
      simp [get, Option.filter, hlive, hover]

theorem get_counter {key : Option (Expiring Nat)}
    (hcounted : (key.map Expiring.value).getD 0 = consecutive)
    (hthere : consecutive = 0 ∨ (get nowMs key).isSome = true) :
    (get nowMs key).getD 0 = consecutive := by
  cases key with
  | none => exact hcounted
  | some key =>
    obtain rfl : key.value = consecutive := hcounted
    by_cases hlive : (nowMs : Int) < key.expiresAt
    · simp [get, Option.filter, hlive]
    · obtain hzero | hsome := hthere
      · simp [get, Option.filter, hlive, hzero]
      · simp [get, Option.filter, hlive] at hsome

/-- Both remove the same requests. -/
theorem related_prune (nowMs : Nat) (h : Related cfg state redis)
    (hedge : ∀ x ∈ state.timestamps, (x : ℚ) + cfg.window.windowMs ≠ nowMs) :
    Related cfg { state with
        timestamps := pruneTimestamps state.timestamps nowMs cfg.window.windowMs }
      (redis.zremrangebyscore (nowMs - cfg.window.windowMs)) where
  sorted := h.sorted.sublist (List.dropWhile_sublist _)
  scored := by
    rw [pruneTimestamps_eq_filter h.sorted hedge]
    exact scored_filter h.scored
  blocked := h.blocked
  counted := h.counted

theorem zrange_prune (nowMs : Nat) (h : Related cfg state redis)
    (hedge : ∀ x ∈ state.timestamps, (x : ℚ) + cfg.window.windowMs ≠ nowMs) :
    (redis.zremrangebyscore (nowMs - cfg.window.windowMs)).zrange nowMs =
      pruneTimestamps state.timestamps nowMs cfg.window.windowMs := by
  refine zrange_of_scored (related_prune nowMs h hedge).scored fun x hx => ?_
  rw [pruneTimestamps_eq_filter h.sorted hedge] at hx
  exact of_decide_eq_true (List.mem_filter.mp hx).2

/-- Where no block begins, the request is recorded if it is below the limit or not throttled. -/
theorem evaluatePruned_recorded (nowMs : Nat) {graded : PenaltyLevel × Nat}
    (hgrade : grade cfg state.timestamps.length state.consecutiveThrottledWindows = graded)
    (hnot : ¬(cfg.window.limit ≤ state.timestamps.length ∧
      cfg.penalties.blockAfterThrottledWindows ≤ graded.2)) :
    (evaluatePruned cfg state nowMs).1.level = graded.1 ∧
      (evaluatePruned cfg state nowMs).2 = some { state with
        timestamps := if graded.1 ≠ .throttle ∨ state.timestamps.length < cfg.window.limit
          then state.timestamps ++ [nowMs] else state.timestamps
        consecutiveThrottledWindows := graded.2 } := by
  subst hgrade
  unfold evaluatePruned
  dsimp only
  rw [if_neg hnot]
  exact ⟨rfl, rfl⟩

theorem record_level : (record cfg nowMs level count redis).1.map
    (fun reply => levels.getD reply.level .ok) = .ok (levels.getD level .ok) := rfl

theorem record_recorded (hlt : count < cfg.window.limit) :
    (record cfg nowMs level count redis).2 = redis.zadd nowMs (ttlSec cfg * 1000) :=
  if_pos (.inr hlt)

theorem record_throttled (hlimit : cfg.window.limit ≤ count) :
    (record cfg nowMs 2 count redis).2 = redis :=
  if_neg fun h => h.elim (by decide) hlimit.not_gt

section

/-! What the two do with the same requests in the window. -/

variable (h : Related cfg state redis) (hrange : redis.zrange nowMs = state.timestamps)
include h hrange

theorem agrees_block (hlimit : cfg.window.limit ≤ state.timestamps.length)
    (hcounter : (get nowMs redis.consecutive).getD 0 = state.consecutiveThrottledWindows)
    (hafter : cfg.penalties.blockAfterThrottledWindows ≤
      (state.consecutiveThrottledWindows + 1 : Nat))
    (hduration : Lives cfg.penalties.blockDurationMs) (hwindow : Lives cfg.window.windowMs) :
    Agrees cfg state.timestamps nowMs (evaluatePruned cfg state nowMs).1.level
      ((evaluatePruned cfg state nowMs).2.getD {}) (scriptPruned cfg redis nowMs) := by
  have hscript : scriptPruned cfg redis nowMs =
      (.ok ⟨3, state.timestamps.length, toInteger cfg.window.limit,
        toInteger cfg.penalties.blockDurationMs⟩,
      { redis with
        blocked := some ⟨nowMs + cfg.penalties.blockDurationMs,
          nowMs + cfg.penalties.blockDurationMs.num⟩
        consecutive := some ⟨0, nowMs + cfg.window.windowMs.num⟩ }) := by
    unfold scriptPruned
    dsimp only
    rw [hrange, hcounter, if_pos hlimit, if_pos hafter, setPx_of_lives hduration,
      setConsecutive_of_lives hwindow]
  have hmemory : evaluatePruned cfg state nowMs =
      (⟨.block, state.timestamps.length, cfg.window.limit, 0, cfg.penalties.blockDurationMs⟩,
      some ⟨state.timestamps, 0, nowMs + cfg.penalties.blockDurationMs⟩) := by
    unfold evaluatePruned
    dsimp only
    rw [grade_of_le hlimit, if_pos ⟨hlimit, hafter⟩]
  have hover : ((nowMs + cfg.penalties.blockDurationMs.num : Int) : ℚ) =
      nowMs + cfg.penalties.blockDurationMs := by
    push_cast
    rw [hduration.num_eq]
  rw [hscript, hmemory]
  exact ⟨rfl, ⟨h.sorted, h.scored, ⟨rfl, hover⟩, rfl⟩, fun x hx => .inl hx⟩

theorem agrees_throttle (hlimit : cfg.window.limit ≤ state.timestamps.length)
    (hcounter : (get nowMs redis.consecutive).getD 0 = state.consecutiveThrottledWindows)
    (hafter : ¬cfg.penalties.blockAfterThrottledWindows ≤
      (state.consecutiveThrottledWindows + 1 : Nat))
    (hwindow : Lives cfg.window.windowMs) :
    Agrees cfg state.timestamps nowMs (evaluatePruned cfg state nowMs).1.level
      ((evaluatePruned cfg state nowMs).2.getD {}) (scriptPruned cfg redis nowMs) := by
  have hscript : scriptPruned cfg redis nowMs =
      record cfg nowMs 2 state.timestamps.length { redis with
        consecutive := some ⟨state.consecutiveThrottledWindows + 1,
          nowMs + cfg.window.windowMs.num⟩ } := by
    unfold scriptPruned
    dsimp only
    rw [hrange, hcounter, if_pos hlimit, if_neg hafter, setConsecutive_of_lives hwindow]
  obtain ⟨hlevel, hstored⟩ := evaluatePruned_recorded nowMs (grade_of_le hlimit)
    fun hboth => hafter hboth.2
  rw [if_neg fun hor => hor.elim (fun hne => hne rfl) hlimit.not_gt] at hstored
  rw [hscript, hlevel, hstored]
  refine ⟨rfl, ?_, fun x hx => .inl hx⟩
  rw [record_throttled hlimit]
  exact ⟨h.sorted, h.scored, h.blocked, rfl⟩

/-- Below the limit, both record the request. -/
theorem agrees_below (hbefore : ∀ x ∈ state.timestamps, x < nowMs)
    (hlt : state.timestamps.length < cfg.window.limit)
    (hwindow : ratioLevel cfg state.timestamps.length = 0 → Lives cfg.window.windowMs) :
    Agrees cfg state.timestamps nowMs (evaluatePruned cfg state nowMs).1.level
      ((evaluatePruned cfg state nowMs).2.getD {}) (scriptPruned cfg redis nowMs) := by
  obtain ⟨hlevel, hstored⟩ := evaluatePruned_recorded nowMs rfl
    fun hboth => hboth.1.not_gt hlt
  obtain ⟨hgraded, hcounted⟩ := grade_of_lt state.consecutiveThrottledWindows hlt
  rw [if_pos (.inr hlt)] at hstored
  have htimes : ∀ x ∈ state.timestamps ++ [nowMs], x ∈ state.timestamps ∨ x = nowMs := fun x hx =>
    (List.mem_append.mp hx).imp_right List.mem_singleton.mp
  have hsorted := sorted_snoc h.sorted hbefore
  unfold scriptPruned
  dsimp only
  rw [hrange, if_neg hlt.not_ge, hlevel, hstored, hgraded, hcounted]
  split
  · rename_i hok
    rw [setConsecutive_of_lives (hwindow hok), hok]
    refine ⟨rfl, ?_, htimes⟩
    rw [record_recorded hlt]
    exact ⟨hsorted, scored_zadd hbefore hrange, h.blocked, rfl⟩
  · refine ⟨record_level, ?_, htimes⟩
    rw [record_recorded hlt]
    exact ⟨hsorted, scored_zadd hbefore hrange, h.blocked, h.counted⟩

end

/-! ## Requests -/

theorem evaluateInMemory_blocked (cfg : EndpointSlidingWindowConfig) {stored : Option WindowState}
    (hblocked : nowMs < (stored.getD {}).blockedUntilMs) :
    (evaluateInMemory cfg stored nowMs).1.level = .block ∧
      (evaluateInMemory cfg stored nowMs).2 = stored := by
  simp [evaluateInMemory, hblocked]

theorem evaluateInMemory_unblocked {stored : Option WindowState}
    (hblocked : ¬nowMs < (stored.getD {}).blockedUntilMs) :
    evaluateInMemory cfg stored nowMs = evaluatePruned cfg { stored.getD {} with
      timestamps := pruneTimestamps (stored.getD {}).timestamps nowMs cfg.window.windowMs }
      nowMs :=
  if_neg hblocked

theorem agrees_request (h : Related cfg s.state s.redis)
    (hbefore : ∀ x ∈ s.state.timestamps, x < nowMs) (hund : Undisturbed cfg s nowMs) :
    Agrees cfg s.state.timestamps nowMs (evaluateInMemory cfg s.memory nowMs).1.level
      ((evaluateInMemory cfg s.memory nowMs).2.getD {})
      (slidingWindowScript cfg s.redis nowMs) := by
  have hiff := blocked_iff nowMs h.blocked
  unfold slidingWindowScript
  dsimp only
  by_cases hblocked : nowMs < s.state.blockedUntilMs
  · obtain ⟨hlevel, hstored⟩ := evaluateInMemory_blocked cfg hblocked
    rw [hlevel, hstored, if_pos (hiff.mpr hblocked)]
    exact ⟨rfl, h, fun x hx => .inl hx⟩
  · obtain ⟨hedge, hcounts, hwindow⟩ := hund.resolve_left hblocked
    have hrelated := related_prune nowMs h hedge
    have hrange := zrange_prune nowMs h hedge
    have hsub : ∀ x ∈ pruneTimestamps s.state.timestamps nowMs cfg.window.windowMs,
        x ∈ s.state.timestamps := fun x hx => (List.dropWhile_sublist _).subset hx
    rw [evaluateInMemory_unblocked hblocked, if_neg (mt hiff.mp hblocked)]
    suffices hagrees : Agrees cfg _ nowMs _ _ _ from
      ⟨hagrees.level, hagrees.related, fun x hx => (hagrees.times x hx).imp_left (hsub x)⟩
    by_cases hlimit : cfg.window.limit ≤ s.count cfg nowMs
    · have hcounter := get_counter h.counted (hcounts hlimit).1
      have hwindow := hwindow (.inl hlimit)
      by_cases hafter : cfg.penalties.blockAfterThrottledWindows ≤
          (s.state.consecutiveThrottledWindows + 1 : Nat)
      · exact agrees_block hrelated hrange hlimit hcounter hafter ((hcounts hlimit).2 hafter)
          hwindow
      · exact agrees_throttle hrelated hrange hlimit hcounter hafter hwindow
    · exact agrees_below hrelated hrange (fun x hx => hbefore x (hsub x hx)) (not_le.mp hlimit)
        fun hok => hwindow (.inr hok)

/-- The requests of both, at times that increase. -/
theorem along_related (h : Related cfg s.state s.redis) (hincreasing : times.Pairwise (· < ·))
    (hbefore : ∀ nowMs ∈ times, ∀ x ∈ s.state.timestamps, x < nowMs)
    (hund : Along (requests cfg) (Undisturbed cfg) s times) :
    Along (requests cfg) (SameLevel cfg) s times := by
  induction times generalizing s with
  | nil => trivial
  | cons nowMs times ih =>
    obtain ⟨hund, hrest⟩ := hund
    obtain ⟨hlater, hincreasing⟩ := List.pairwise_cons.mp hincreasing
    have hagrees := agrees_request h (hbefore nowMs List.mem_cons_self) hund
    refine ⟨?_, ih hagrees.related hincreasing (fun later hmem x hx => ?_) hrest⟩
    · have hlevel := hagrees.level
      unfold SameLevel evaluateRedis
      cases hreturned : (slidingWindowScript cfg s.redis nowMs).1 with
      | error e =>
        rw [hreturned] at hlevel
        contradiction
      | ok reply =>
        rw [hreturned] at hlevel
        simpa [hreturned, Except.map] using hlevel
    · obtain hx | rfl := hagrees.times x hx
      · exact hbefore later (List.mem_cons_of_mem _ hmem) x hx
      · exact hlater later hmem

/-- Both come to the same level at every request, while nothing is disturbed. -/
theorem sliding_window_run (cfg : EndpointSlidingWindowConfig) (times : List Nat)
    (hincreasing : times.Pairwise (· < ·))
    (hund : Along (requests cfg) (Undisturbed cfg) {} times) :
    Along (requests cfg) (SameLevel cfg) {} times :=
  along_related ⟨List.Pairwise.nil, rfl, rfl, rfl⟩ hincreasing (fun _ _ x hx => by cases hx) hund

/-- The window of a free withdrawal. -/
def withdrawals : EndpointSlidingWindowConfig := ⟨⟨60000, 3⟩, ⟨7 / 10, 9 / 10, 3, 300000⟩⟩

/-- Three requests that pass, two that are throttled, one that is blocked and one during the
block. -/
def burst : List Nat := [1000, 2000, 3000, 4000, 5000, 6000, 7000]

theorem burst_sameLevel : Along (requests withdrawals) (SameLevel withdrawals) {} burst :=
  sliding_window_run withdrawals burst (by decide) (by decide +kernel)

/-- A request one window after the first of three still finds it in memory, and not in Redis. -/
theorem windowApart_differs : ¬∀ (cfg : EndpointSlidingWindowConfig) (times : List Nat),
    times.Pairwise (· < ·) → Along (requests cfg) (SameLevel cfg) {} times := by
  intro hall
  obtain ⟨-, -, -, hlast, -⟩ := hall withdrawals [1000, 2000, 3000, 61000] (by decide)
  revert hlast
  decide +kernel

end SlidingWindow
