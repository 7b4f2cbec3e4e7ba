import AgenticPay.CircuitBreakerRuns
import AgenticPay.Transaction

/-!
# Periods on trial

A half open breaker is to close on the successes of the calls that it permits on trial, and to open
on a failure of one of them. A call does not carry the period in which it was permitted: a slow one
from before the period reports to the same counters. Where none ends so, the calls on trial decide.
-/
namespace CircuitBreaker

open Awaits Transaction

variable {ε : Type}

/-- What a breaker makes of the end of a call: a success, a failure, or neither. -/
def result (name : String) (config : CircuitBreakerConfig ε) (flight : Flight) :
    Ending ε → Option Bool
  | .returned => some true
  | .threw (.breaker _) => none
  | .threw (.other error) => if config.counts (.other error) then some false else none
  | .timerFired =>
    if flight.timeoutMs ≤ 0 then none
    else if config.counts (timeoutError name flight.timeoutMs) then some false else none

/-! ## Notes -/

/-- How many half open periods have begun, in which one, if any, each call in flight was permitted,
and how many calls on trial of the last one have succeeded and have failed. -/
structure Trials where
  period : Nat := 0
  permitted : List (Option Nat) := []
  succeeded : Nat := 0
  failed : Nat := 0

def Trials.tally (t : Trials) : Option Bool → Trials
  | some true => { t with succeeded := t.succeeded + 1 }
  | some false => { t with failed := t.failed + 1 }
  | none => t

/-- A half open period may have begun. -/
def Trials.begun (g g' : Circuit) (t : Trials) : Trials :=
  if g.state.state ≠ .halfOpen ∧ g'.state.state = .halfOpen then
    { t with period := t.period + 1, succeeded := 0, failed := 0 }
  else t

/-- After a call that was permitted or rejected. -/
def Trials.called (g g' : Circuit) (t : Trials) : Trials :=
  let t := t.begun g g'
  { t with permitted := t.permitted ++
    if g.tasks.length < g'.tasks.length then
      [if g'.state.state = .halfOpen then some t.period else none]
    else [] }

/-- After the end of the call `i`, or while it still waits. -/
def Trials.ended (i : Nat) (result : Option Bool) (g g' : Circuit) (t : Trials) : Trials :=
  let permitted := t.permitted[i]?.join
  let t := { t with permitted := t.permitted.eraseIdx i ++
    if g'.tasks.length < g.tasks.length then [] else [permitted] }
  if permitted = some t.period then t.tally result else t

def Trials.after (name : String) (config : CircuitBreakerConfig ε) (g : Circuit)
    (act : Act Protect (Told ε)) (g' : Circuit) (t : Trials) : Trials :=
  match act with
  | .call _ _ => t.called g g'
  | .resume i told =>
    t.ended i (g.tasks[i]?.bind fun flight => result name config flight told.ending) g g'

/-- The breaker and its calls in flight, with the notes. -/
abbrev Watched := Circuit × Trials

def watchedBreaker (name : String) (config : CircuitBreakerConfig ε) :
    System (Act Protect (Told ε)) Watched Unit (Turn Flight (Response ε)) :=
  watching (machine (breaker name config)) (Trials.after name config)

/-- The call that goes on was permitted in the half open period that has begun last. -/
def OnTrial (t : Trials) : Act Protect (Told ε) → Prop
  | .call _ _ => False
  | .resume i _ => t.permitted[i]? = some (some t.period)

instance (t : Trials) : (act : Act Protect (Told ε)) → Decidable (OnTrial t act)
  | .call _ _ => isFalse id
  | .resume i _ => inferInstanceAs (Decidable (t.permitted[i]? = some (some t.period)))

/-- A half open breaker closes as a call on trial ends, with enough of them having succeeded and
none having failed, and opens as one of them fails. -/
structure Decided (config : CircuitBreakerConfig ε) (p : Watched) (act : Act Protect (Told ε))
    (p' : Watched) : Prop where
  closes : p.1.state.state = .halfOpen → p'.1.state.state = .closed →
    OnTrial p.2 act ∧ config.successThreshold ≤ p'.2.succeeded ∧ p'.2.failed = 0
  opens : p.1.state.state = .halfOpen → p'.1.state.state = .opened →
    OnTrial p.2 act ∧ p'.2.failed = p.2.failed + 1

instance (config : CircuitBreakerConfig ε) (p : Watched) (act : Act Protect (Told ε))
    (p' : Watched) : Decidable (Decided config p act p') :=
  decidable_of_iff ((p.1.state.state = .halfOpen → p'.1.state.state = .closed →
      OnTrial p.2 act ∧ config.successThreshold ≤ p'.2.succeeded ∧ p'.2.failed = 0) ∧
    (p.1.state.state = .halfOpen → p'.1.state.state = .opened →
      OnTrial p.2 act ∧ p'.2.failed = p.2.failed + 1))
    ⟨fun h => ⟨h.1, h.2⟩, fun h => ⟨h.closes, h.opens⟩⟩

/-- While the breaker is half open, a call whose end is a success or a failure is one on trial. -/
def Timely (name : String) (config : CircuitBreakerConfig ε) (p : Watched) :
    Act Protect (Told ε) → Prop
  | .call _ _ => True
  | .resume i told => ∀ flight ∈ p.1.tasks[i]?, p.1.state.state = .halfOpen →
    (result name config flight told.ending).isSome = true → OnTrial p.2 (.resume i told)

instance (name : String) (config : CircuitBreakerConfig ε) (p : Watched) :
    (act : Act Protect (Told ε)) → Decidable (Timely name config p act)
  | .call _ _ => isTrue trivial
  | .resume i _ => inferInstanceAs (Decidable (∀ flight ∈ p.1.tasks[i]?, _ → _ → _))

/-- The notes are of the calls in flight, and agree with the counter of a half open breaker. -/
structure Tallied (p : Watched) : Prop where
  tagged : p.2.permitted.length = p.1.tasks.length
  succeeded : p.1.state.state = .halfOpen → p.1.state.consecutiveSuccesses = p.2.succeeded
  failed : p.1.state.state = .halfOpen → p.2.failed = 0

variable {name : String} {config : CircuitBreakerConfig ε} {b : Breaker} {g g' : Circuit} {now : ℚ}
  {flight : Flight} {told : Told ε} {i : Nat} {t : Trials} {p : Watched}

/-! ## Calls -/

theorem permitHalfOpenCall_keeps (config : CircuitBreakerConfig ε) (b : Breaker) :
    (permitHalfOpenCall config b).2.state = b.state ∧
      (permitHalfOpenCall config b).2.consecutiveSuccesses = b.consecutiveSuccesses := by
  unfold permitHalfOpenCall
  split
  · exact ⟨rfl, rfl⟩
  · exact ⟨rfl, rfl⟩

/-- Within a half open period, a call that begins changes neither the state nor the counter. -/
theorem isCallPermitted_within (h : b.state = .halfOpen) :
    (isCallPermitted config now b).2.state = .halfOpen ∧
      (isCallPermitted config now b).2.consecutiveSuccesses = b.consecutiveSuccesses := by
  simp only [isCallPermitted, h]
  obtain ⟨hstate, hsuccesses⟩ := permitHalfOpenCall_keeps config b
  exact ⟨hstate.trans h, hsuccesses⟩

/-- A half open period begins with the counter at zero. -/
theorem isCallPermitted_begins (h : b.state ≠ .halfOpen)
    (hhalf : (isCallPermitted config now b).2.state = .halfOpen) :
    (isCallPermitted config now b).2.consecutiveSuccesses = 0 := by
  cases hstate : b.state with
  | closed =>
    simp only [isCallPermitted, hstate] at hhalf
    cases hhalf
  | opened =>
    simp only [isCallPermitted, hstate] at hhalf ⊢
    split at hhalf
    · rename_i hwait
      rw [if_pos hwait]
      exact (permitHalfOpenCall_keeps _ _).2
    · exact absurd hhalf h
  | halfOpen => exact absurd hstate h

theorem protect_state (p : Protect) :
    (protect name config p now b).2 = (isCallPermitted config now b).2 := by
  unfold protect
  dsimp only
  split
  · rfl
  · rfl

theorem protect_length (p : Protect) : (protect name config p now b).1.tasks.length ≤ 1 := by
  unfold protect
  dsimp only
  split
  · exact Nat.le_refl 1
  · exact Nat.zero_le 1

theorem begun_permitted : (t.begun g g').permitted = t.permitted := by
  unfold Trials.begun
  split
  · rfl
  · rfl

theorem tagged_called (h : t.permitted.length = g.tasks.length) {own : List Flight} {b : Breaker}
    (hown : own.length ≤ 1) :
    (t.called g ⟨b, g.tasks ++ own⟩).permitted.length = (g.tasks ++ own).length := by
  simp only [Trials.called, begun_permitted, List.length_append, h]
  split
  · rw [List.length_singleton]
    omega
  · rw [List.length_nil]
    omega

/-- Where a period goes on, the tally does not change with a call. -/
theorem called_within (hhalf : g.state.state = .halfOpen) :
    (t.called g g').succeeded = t.succeeded ∧ (t.called g g').failed = t.failed := by
  have hsame : t.begun g g' = t := if_neg fun h => h.1 hhalf
  simp only [Trials.called, hsame, and_self]

theorem called_begins (hbefore : g.state.state ≠ .halfOpen) (hhalf : g'.state.state = .halfOpen) :
    (t.called g g').succeeded = 0 ∧ (t.called g g').failed = 0 := by
  have hnew : t.begun g g' = { t with period := t.period + 1, succeeded := 0, failed := 0 } :=
    if_pos ⟨hbefore, hhalf⟩
  simp only [Trials.called, hnew, and_self]

theorem tallied_called (h : Tallied (g, t)) (p : Protect) :
    Tallied (⟨(protect name config p now g.state).2,
        g.tasks ++ (protect name config p now g.state).1.tasks⟩,
      t.called g ⟨(protect name config p now g.state).2,
        g.tasks ++ (protect name config p now g.state).1.tasks⟩) := by
  refine ⟨tagged_called h.tagged (protect_length p), fun hhalf' => ?_, fun hhalf' => ?_⟩
  · by_cases hhalf : g.state.state = .halfOpen
    · dsimp only at hhalf' ⊢
      rw [(called_within hhalf).1, protect_state, (isCallPermitted_within hhalf).2]
      exact h.succeeded hhalf
    · rw [(called_begins hhalf hhalf').1]
      dsimp only at hhalf' ⊢
      rw [protect_state] at hhalf' ⊢
      exact isCallPermitted_begins hhalf hhalf'
  · by_cases hhalf : g.state.state = .halfOpen
    · rw [(called_within hhalf).2]
      exact h.failed hhalf
    · exact (called_begins hhalf hhalf').2

/-! ## Ends of calls -/

theorem settle_length : (settle name config flight told b).1.tasks.length ≤ 1 := by
  unfold settle fail
  split
  · exact Nat.zero_le 1
  · exact Nat.zero_le 1
  · exact Nat.zero_le 1
  · split
    · exact Nat.le_refl 1
    · exact Nat.zero_le 1

/-- What becomes of the breaker, by the result of the call that has ended. -/
inductive Recorded (config : CircuitBreakerConfig ε) (now : ℚ) (b : Breaker) :
    Option Bool → Breaker → Prop
  | success : Recorded config now b (some true) (recordSuccess config b)
  | failure {err : Thrown ε} (counts : config.counts err = true) :
      Recorded config now b (some false) (recordFailure config now err b)
  | neither : Recorded config now b none b

/-- A failure is recorded if it counts. -/
theorem recorded_fail (err : Thrown ε) :
    Recorded config now b (if config.counts err then some false else none)
      (recordFailure config now err b) := by
  by_cases hcounts : config.counts err = true
  · rw [if_pos hcounts]
    exact .failure hcounts
  · rw [if_neg hcounts, recordFailure_uncounted hcounts]
    exact .neither

theorem settle_recorded : Recorded config told.now b (result name config flight told.ending)
    (settle name config flight told b).2 := by
  obtain ⟨now, ending⟩ := told
  cases ending with
  | returned => exact .success
  | threw error =>
    cases error with
    | breaker error => exact .neither
    | other error => exact recorded_fail (.other error)
  | timerFired =>
    simp only [result, settle, fail]
    by_cases htimer : flight.timeoutMs ≤ 0
    · rw [if_pos htimer, if_pos htimer]
      exact .neither
    · rw [if_neg htimer, if_neg htimer]
      exact recorded_fail (timeoutError name flight.timeoutMs)

theorem tally_permitted (r : Option Bool) : (t.tally r).permitted = t.permitted := by
  cases r with
  | none => rfl
  | some success => cases success <;> rfl

theorem tagged_ended (h : t.permitted.length = g.tasks.length) (hlt : i < g.tasks.length)
    {own : List Flight} {b : Breaker} (hown : own.length ≤ 1) (r : Option Bool) :
    (t.ended i r g ⟨b, g.tasks.eraseIdx i ++ own⟩).permitted.length =
      (g.tasks.eraseIdx i ++ own).length := by
  have htasks := List.length_eraseIdx_of_lt hlt
  have htags := List.length_eraseIdx_of_lt (h.symm ▸ hlt)
  have hlength : (t.permitted.eraseIdx i ++
      if (g.tasks.eraseIdx i ++ own).length < g.tasks.length then [] else
        [t.permitted[i]?.join]).length = (g.tasks.eraseIdx i ++ own).length := by
    rw [List.length_append, List.length_append]
    split
    · rw [List.length_nil]
      omega
    · rw [List.length_singleton]
      omega
  simp only [Trials.ended]
  split
  · rw [tally_permitted]
    exact hlength
  · exact hlength

theorem ended_tally (h : OnTrial t (.resume i told)) (r : Option Bool) (g g' : Circuit) :
    (t.ended i r g g').succeeded = (t.tally r).succeeded ∧
      (t.ended i r g g').failed = (t.tally r).failed := by
  have hpermitted : t.permitted[i]?.join = some t.period := by
    rw [h]
    rfl
  simp only [Trials.ended, hpermitted, if_pos]
  cases r with
  | none => exact ⟨rfl, rfl⟩
  | some success => cases success <;> exact ⟨rfl, rfl⟩

theorem ended_none (t : Trials) (i : Nat) (g g' : Circuit) :
    (t.ended i none g g').succeeded = t.succeeded ∧
    (t.ended i none g g').failed = t.failed := by
  simp only [Trials.ended]
  split
  · exact ⟨rfl, rfl⟩
  · exact ⟨rfl, rfl⟩

/-- After a step, the notes agree with the breaker, and a change of its state was decided. -/
def Goes (config : CircuitBreakerConfig ε) (p : Watched) (act : Act Protect (Told ε))
    (p' : Watched) : Prop :=
  Tallied p' ∧ Decided config p act p'

theorem decided_of_same {act : Act Protect (Told ε)} {p' : Watched}
    (h : p.1.state.state = .halfOpen → p'.1.state.state = .halfOpen) :
    Decided config p act p' := by
  refine ⟨fun hhalf hclosed => ?_, fun hhalf hopen => ?_⟩
  · exact absurd ((h hhalf).symm.trans hclosed) (by decide)
  · exact absurd ((h hhalf).symm.trans hopen) (by decide)

theorem goes_called (h : Tallied (g, t)) (p : Protect) :
    Goes config (g, t) (.call p told) (⟨(protect name config p told.now g.state).2,
        g.tasks ++ (protect name config p told.now g.state).1.tasks⟩,
      t.called g ⟨(protect name config p told.now g.state).2,
        g.tasks ++ (protect name config p told.now g.state).1.tasks⟩) := by
  refine ⟨tallied_called h p, decided_of_same fun hhalf => ?_⟩
  dsimp only
  rw [protect_state]
  exact (isCallPermitted_within hhalf).1

theorem goes_ended {b' : Breaker} {own : List Flight} {r : Option Bool} (h : Tallied (g, t))
    (hlt : i < g.tasks.length) (hown : own.length ≤ 1)
    (hrecorded : Recorded config now g.state r b')
    (hstays : b'.state = .halfOpen → g.state.state = .halfOpen)
    (htimely : g.state.state = .halfOpen → r.isSome = true → OnTrial t (.resume i told)) :
    Goes config (g, t) (.resume i told) (⟨b', g.tasks.eraseIdx i ++ own⟩,
      t.ended i r g ⟨b', g.tasks.eraseIdx i ++ own⟩) := by
  have htagged := tagged_ended (b := b') h.tagged hlt hown r
  by_cases hhalf : g.state.state = .halfOpen
  · have hnone : t.failed = 0 := h.failed hhalf
    have hcounter : g.state.consecutiveSuccesses = t.succeeded := h.succeeded hhalf
    cases hrecorded with
    | neither =>
      obtain ⟨hsucceeded, hfailed⟩ := ended_none t i g ⟨g.state, g.tasks.eraseIdx i ++ own⟩
      exact ⟨⟨htagged, fun _ => hcounter.trans hsucceeded.symm, fun _ => hfailed.trans hnone⟩,
        decided_of_same id⟩
    | success =>
      have htrial := htimely hhalf rfl
      obtain ⟨hsucceeded, hfailed⟩ := ended_tally htrial (some true) g
        ⟨recordSuccess config g.state, g.tasks.eraseIdx i ++ own⟩
      by_cases henough : config.successThreshold ≤ (g.state.consecutiveSuccesses + 1 : Nat)
      · have hclosed := recordSuccess_enough hhalf henough
        refine ⟨⟨htagged, fun hhalf' => ?_, fun hhalf' => ?_⟩, fun _ _ => ?_, fun _ hopen => ?_⟩
        · exact absurd (hhalf'.symm.trans hclosed) (by decide)
        · exact absurd (hhalf'.symm.trans hclosed) (by decide)
        · refine ⟨htrial, ?_, hfailed.trans hnone⟩
          rw [hsucceeded, Trials.tally, ← hcounter]
          exact henough
        · exact absurd (hopen.symm.trans hclosed) (by decide)
      · obtain ⟨hhalf', -, hone⟩ := recordSuccess_short hhalf henough
        refine ⟨⟨htagged, fun _ => ?_, fun _ => hfailed.trans hnone⟩,
          decided_of_same fun _ => hhalf'⟩
        rw [hsucceeded, Trials.tally, ← hcounter]
        exact hone
    | @failure err hcounts =>
      have htrial := htimely hhalf rfl
      have hopen : (recordFailure config now err g.state).state = .opened :=
        recordFailure_counted hhalf hcounts
      refine ⟨⟨htagged, fun hhalf' => ?_, fun hhalf' => ?_⟩, fun _ hclosed => ?_,
        fun _ _ => ⟨htrial, (ended_tally htrial (some false) _ _).2⟩⟩
      · exact absurd (hhalf'.symm.trans hopen) (by decide)
      · exact absurd (hhalf'.symm.trans hopen) (by decide)
      · exact absurd (hclosed.symm.trans hopen) (by decide)
  · exact ⟨⟨htagged, fun hhalf' => absurd (hstays hhalf') hhalf,
      fun hhalf' => absurd (hstays hhalf') hhalf⟩, decided_of_same fun h => absurd h hhalf⟩

/-! ## Runs -/

theorem goes_commit (h : Tallied p) {act : Act Protect (Told ε)}
    (htimely : Timely name config p act) :
    Goes config p act (commit (watchedBreaker name config) p act) := by
  obtain ⟨g, t⟩ := p
  cases act with
  | call p told => exact goes_called h p
  | resume i told =>
    cases hwaiting : g.tasks[i]? with
    | none =>
      have hsame : commit (watchedBreaker name config) (g, t) (.resume i told) = (g, t) := by
        simp only [watchedBreaker, commit, watching, machine, hwaiting]
        rfl
      rw [hsame]
      exact ⟨h, decided_of_same id⟩
    | some flight =>
      have hended : commit (watchedBreaker name config) (g, t) (.resume i told) =
          (⟨(settle name config flight told g.state).2,
            g.tasks.eraseIdx i ++ (settle name config flight told g.state).1.tasks⟩,
          t.ended i (result name config flight told.ending) g
            ⟨(settle name config flight told g.state).2,
              g.tasks.eraseIdx i ++ (settle name config flight told g.state).1.tasks⟩) := by
        simp only [watchedBreaker, commit, watching, machine, hwaiting, Trials.after]
        rfl
      rw [hended]
      exact goes_ended h (List.getElem?_eq_some_iff.mp hwaiting).1 settle_length settle_recorded
        settle_halfOpen (htimely flight hwaiting)

/-- In a run in which no call from before a half open period ends in it with a success or a
failure, the calls on trial decide when the breaker closes and opens. -/
theorem trials_run (name : String) (config : CircuitBreakerConfig ε) (b : Breaker)
    (hnew : construct name config = .ok b) (acts : List (Act Protect (Told ε)))
    (htimely : Along (watchedBreaker name config) (Timely name config) (⟨b, []⟩, {}) acts) :
    Along (watchedBreaker name config)
      (fun p act => Decided config p act (commit (watchedBreaker name config) p act))
      (⟨b, []⟩, {}) acts := by
  obtain rfl := construct_new hnew
  exact along_of_invariant (I := Tallied) (fun _ _ h hq => (goes_commit h hq).1)
    ⟨rfl, fun _ => rfl, fun _ => rfl⟩ htimely fun _ _ h hq => (goes_commit h hq).2

theorem recovering_decided : Along (watchedBreaker "stripe-api" ignoring)
    (fun p act => Decided ignoring p act (commit (watchedBreaker "stripe-api" ignoring) p act))
    (⟨{}, []⟩, {}) recovering :=
  trials_run "stripe-api" ignoring {} (by decide +kernel) recovering (by decide +kernel)

/-- A breaker that opens on one failure, for a second. -/
def brisk : CircuitBreakerConfig String where
  failureThreshold := 1
  waitDurationInOpenState := 1000

/-- Three calls of a closed breaker. The last one fails at once, and two seconds later there is a
call on trial. -/
def slowCalls : List (Act Protect (Told String)) :=
  [call 0, call 0, call 0, .resume 2 ⟨10, .threw (.other "Error")⟩, call 2000]

/-- One of the two slow calls fails. -/
def slowFails : List (Act Protect (Told String)) :=
  slowCalls ++ [.resume 0 ⟨2010, .threw (.other "Error")⟩]

/-- Both succeed. -/
def slowSucceed : List (Act Protect (Told String)) :=
  slowCalls ++ [.resume 0 ⟨2010, .returned⟩, .resume 0 ⟨2020, .returned⟩]

theorem slow_calls_decide : construct "stripe-api" brisk = .ok {} ∧
    (¬Along (watchedBreaker "stripe-api" brisk)
      (fun p act => Decided brisk p act (commit (watchedBreaker "stripe-api" brisk) p act))
      (⟨{}, []⟩, {}) slowFails) ∧
    ¬Along (watchedBreaker "stripe-api" brisk)
      (fun p act => Decided brisk p act (commit (watchedBreaker "stripe-api" brisk) p act))
      (⟨{}, []⟩, {}) slowSucceed := by
  refine ⟨?_, ?_, ?_⟩
  · decide +kernel
  · decide +kernel
  · decide +kernel

end CircuitBreaker
