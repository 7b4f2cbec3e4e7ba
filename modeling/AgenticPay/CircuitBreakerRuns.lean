import AgenticPay.CircuitBreaker
import Mathlib.Tactic.Linarith

/-!
# Runs of a circuit breaker

A permit for a call on trial is given back by a change of the state only. So a breaker that is half
open and has no call in flight still permits one, unless the last call in flight has ended with the
permits used up and has changed no state: its outcome does not count, or it is a success too few.
-/
namespace CircuitBreaker

open Awaits Transaction

/-- The breaker and the calls in flight. -/
abbrev Circuit := Config Breaker Flight

/-- With no call in flight, a call is permitted now, or the breaker is open and permits one once its
wait is over. -/
def Permits {ε : Type} (config : CircuitBreakerConfig ε) (g : Circuit) : Prop :=
  g.tasks = [] → (∀ now, (isCallPermitted config now g.state).1 = true) ∨
    g.state.state = .opened ∧ ∃ openedAt ∈ g.state.openedAt, ∀ now,
      config.waitDurationInOpenState ≤ now - openedAt →
        (isCallPermitted config now g.state).1 = true

/-! ## Conditions -/

variable {ε : Type}

/-- A call on trial that ends so changes the state of the breaker. -/
def Decides (name : String) (config : CircuitBreakerConfig ε) (b : Breaker) (flight : Flight) :
    Ending ε → Prop
  | .returned => config.successThreshold ≤ (b.consecutiveSuccesses + 1 : Nat)
  | .threw (.breaker _) => False
  | .threw (.other error) => config.counts (.other error) = true
  | .timerFired => flight.timeoutMs ≤ 0 ∨
    config.counts (timeoutError name flight.timeoutMs) = true

instance (name : String) (config : CircuitBreakerConfig ε) (b : Breaker) (flight : Flight) :
    (ending : Ending ε) → Decidable (Decides name config b flight ending)
  | .returned =>
    inferInstanceAs (Decidable (config.successThreshold ≤ (b.consecutiveSuccesses + 1 : Nat)))
  | .threw (.breaker _) => isFalse id
  | .threw (.other error) => inferInstanceAs (Decidable (config.counts (.other error) = true))
  | .timerFired => inferInstanceAs (Decidable (flight.timeoutMs ≤ 0 ∨
    config.counts (timeoutError name flight.timeoutMs) = true))

/-- The last call in flight, with the permits used up, changes the state as it ends. -/
def Settles (name : String) (config : CircuitBreakerConfig ε) (g : Circuit) :
    Act Protect (Told ε) → Prop
  | .call _ _ => True
  | .resume i told => ∀ flight ∈ g.tasks[i]?, g.state.state = .halfOpen → g.tasks.length = 1 →
    config.permittedNumberOfCallsInHalfOpenState ≤ g.state.permittedCallsInHalfOpen →
      Decides name config g.state flight told.ending

instance (name : String) (config : CircuitBreakerConfig ε) (g : Circuit) :
    (act : Act Protect (Told ε)) → Decidable (Settles name config g act)
  | .call _ _ => isTrue trivial
  | .resume i _ => inferInstanceAs (Decidable (∀ flight ∈ g.tasks[i]?, _ → _ → _ → _))

/-- A breaker that is open knows since when, and one that is half open waits for successes. -/
structure Kept (config : CircuitBreakerConfig ε) (b : Breaker) : Prop where
  since : b.state = .opened → b.openedAt.isSome = true
  short : b.state = .halfOpen → b.consecutiveSuccesses < config.successThreshold

/-- There is a call in flight that may change a half open breaker, or a permit for one. -/
def Live (config : CircuitBreakerConfig ε) (g : Circuit) : Prop :=
  g.state.state = .halfOpen → g.tasks ≠ [] ∨
    g.state.permittedCallsInHalfOpen < config.permittedNumberOfCallsInHalfOpenState

variable {name : String} {config : CircuitBreakerConfig ε} {b : Breaker} {g : Circuit} {now : ℚ}
  {err : Thrown ε} {flight : Flight} {told : Told ε} {i : Nat}

/-! ## Transitions -/

theorem kept_of_closed (h : b.state = .closed) : Kept config b :=
  ⟨fun hopen => absurd (h.symm.trans hopen) (by decide),
    fun hhalf => absurd (h.symm.trans hhalf) (by decide)⟩

theorem kept_of_opened (h : b.state = .opened) (hsince : b.openedAt.isSome = true) :
    Kept config b :=
  ⟨fun _ => hsince, fun hhalf => absurd (h.symm.trans hhalf) (by decide)⟩

theorem kept_of_halfOpen (h : b.state = .halfOpen)
    (hshort : b.consecutiveSuccesses < config.successThreshold) : Kept config b :=
  ⟨fun hopen => absurd (h.symm.trans hopen) (by decide), fun _ => hshort⟩

theorem kept_transitionToOpen (now : ℚ) (b : Breaker) : Kept config (transitionToOpen now b) :=
  kept_of_opened rfl rfl

theorem kept_transitionToHalfOpen (hthreshold : 1 ≤ config.successThreshold) (b : Breaker) :
    Kept config (transitionToHalfOpen b) :=
  kept_of_halfOpen rfl (lt_of_lt_of_le (by norm_num [transitionToHalfOpen]) hthreshold)

theorem kept_permitHalfOpenCall (h : Kept config b) :
    Kept config (permitHalfOpenCall config b).2 := by
  unfold permitHalfOpenCall
  split
  · exact ⟨h.since, h.short⟩
  · exact h

theorem kept_isCallPermitted (hthreshold : 1 ≤ config.successThreshold) (h : Kept config b) :
    Kept config (isCallPermitted config now b).2 := by
  unfold isCallPermitted
  split
  · exact h
  · split
    · exact kept_permitHalfOpenCall (kept_transitionToHalfOpen hthreshold b)
    · exact h
  · exact kept_permitHalfOpenCall h

theorem kept_recordSuccess (h : Kept config b) : Kept config (recordSuccess config b) := by
  unfold recordSuccess
  dsimp only
  split
  · rename_i hhalf
    split
    · exact kept_of_closed rfl
    · rename_i hlt
      exact kept_of_halfOpen hhalf (not_le.mp hlt)
  · rename_i hclosed
    exact kept_of_closed hclosed
  · exact ⟨h.since, h.short⟩

theorem kept_recordFailure (h : Kept config b) : Kept config (recordFailure config now err b) := by
  unfold recordFailure
  split
  · dsimp only
    split
    · exact kept_transitionToOpen now _
    · rename_i hclosed
      split
      · exact kept_transitionToOpen now _
      · split
        · exact kept_transitionToOpen now _
        · exact kept_of_closed hclosed
    · rename_i hopen
      exact kept_of_opened hopen (h.since hopen)
  · exact h

theorem kept_settle (h : Kept config b) : Kept config (settle name config flight told b).2 := by
  unfold settle fail
  split
  · exact kept_recordSuccess h
  · exact h
  · exact kept_recordFailure h
  · split
    · exact h
    · exact kept_recordFailure h

theorem kept_commit (hthreshold : 1 ≤ config.successThreshold) (act : Act Protect (Told ε))
    (h : Kept config g.state) :
    Kept config (commit (machine (breaker name config)) g act).state := by
  obtain hmoves | he := commit_moves (breaker name config) g act
  · generalize commit (machine (breaker name config)) g act = g' at hmoves
    cases hmoves with
    | called hcalled =>
      obtain rfl := congrArg Prod.snd (Option.some.inj hcalled)
      unfold protect
      dsimp only
      split
      · exact kept_isCallPermitted hthreshold h
      · exact kept_isCallPermitted hthreshold h
    | resumed hwaiting hresumed =>
      obtain rfl := congrArg Prod.snd hresumed
      exact kept_settle h
  · rwa [he]

/-! ## Permits -/

theorem permitHalfOpenCall_fst (b : Breaker) : (permitHalfOpenCall config b).1 = true ↔
    b.permittedCallsInHalfOpen < config.permittedNumberOfCallsInHalfOpenState := by
  unfold permitHalfOpenCall
  split
  · rename_i hlt
    exact iff_of_true rfl hlt
  · rename_i hge
    exact iff_of_false Bool.false_ne_true hge

/-- A breaker that is kept so is stuck only where it is half open without a call or a permit. -/
theorem permits_iff_live (hpermitted : 1 ≤ config.permittedNumberOfCallsInHalfOpenState)
    (h : Kept config g.state) : Permits config g ↔ Live config g := by
  constructor
  · intro hpermits hhalf
    by_cases hnone : g.tasks = []
    · obtain hnow | ⟨hopen, -⟩ := hpermits hnone
      · have hfirst := hnow 0
        rw [isCallPermitted, hhalf] at hfirst
        exact .inr ((permitHalfOpenCall_fst _).mp hfirst)
      · exact absurd (hhalf.symm.trans hopen) (by decide)
    · exact .inl hnone
  · intro hlive hnone
    cases hstate : g.state.state with
    | closed =>
      refine .inl fun now => ?_
      rw [isCallPermitted, hstate]
    | opened =>
      obtain ⟨openedAt, hsince⟩ := Option.isSome_iff_exists.mp (h.since hstate)
      refine .inr ⟨rfl, openedAt, hsince, fun now hwait => ?_⟩
      rw [isCallPermitted, hstate]
      dsimp only
      rw [hsince, Option.getD_some, if_pos hwait]
      refine (permitHalfOpenCall_fst _).mpr (lt_of_lt_of_le ?_ hpermitted)
      norm_num [transitionToHalfOpen]
    | halfOpen =>
      have hpermit := (hlive hstate).resolve_left fun hne => hne hnone
      refine .inl fun now => ?_
      rw [isCallPermitted, hstate]
      exact (permitHalfOpenCall_fst _).mpr hpermit

/-! ## How a call on trial ends -/

theorem recordSuccess_enough (hhalf : b.state = .halfOpen)
    (henough : config.successThreshold ≤ (b.consecutiveSuccesses + 1 : Nat)) :
    (recordSuccess config b).state = .closed := by
  simp only [recordSuccess, recordOutcome, hhalf]
  rw [if_pos henough]
  rfl

theorem recordSuccess_short (hhalf : b.state = .halfOpen)
    (hshort : ¬config.successThreshold ≤ (b.consecutiveSuccesses + 1 : Nat)) :
    (recordSuccess config b).state = .halfOpen ∧
      (recordSuccess config b).permittedCallsInHalfOpen = b.permittedCallsInHalfOpen ∧
      (recordSuccess config b).consecutiveSuccesses = b.consecutiveSuccesses + 1 := by
  simp only [recordSuccess, recordOutcome, hhalf]
  rw [if_neg hshort]
  exact ⟨rfl, rfl, rfl⟩

theorem recordFailure_counted (hhalf : b.state = .halfOpen) (hcounts : config.counts err = true) :
    (recordFailure config now err b).state = .opened := by
  simp only [recordFailure, recordOutcome, hcounts, hhalf]
  rfl

theorem recordFailure_uncounted (hcounts : ¬config.counts err = true) :
    recordFailure config now err b = b := if_neg hcounts

/-- An end that decides changes the state, unless there is no timer to end the call. -/
theorem settle_of_decides (hhalf : b.state = .halfOpen)
    (h : Decides name config b flight told.ending) :
    (settle name config flight told b).2.state ≠ .halfOpen ∨
      settle name config flight told b = (.waits flight, b) := by
  unfold settle fail
  cases hending : told.ending with
  | returned =>
    rw [hending] at h
    left
    rw [recordSuccess_enough hhalf h]
    decide
  | threw error =>
    rw [hending] at h
    cases error with
    | breaker error => exact h.elim
    | other error =>
      left
      rw [recordFailure_counted hhalf h]
      decide
  | timerFired =>
    rw [hending] at h
    dsimp only
    split
    · exact .inr rfl
    · rename_i htimer
      left
      rw [recordFailure_counted hhalf (h.resolve_left htimer)]
      decide

/-- An end that does not decide leaves the breaker half open, and gives no permit back. -/
theorem settle_of_not_decides (hhalf : b.state = .halfOpen)
    (h : ¬Decides name config b flight told.ending) :
    (settle name config flight told b).2.state = .halfOpen ∧
      (settle name config flight told b).2.permittedCallsInHalfOpen =
        b.permittedCallsInHalfOpen ∧
      (settle name config flight told b).1.tasks = [] := by
  unfold settle fail
  cases hending : told.ending with
  | returned =>
    rw [hending] at h
    obtain ⟨hstate, hpermitted, -⟩ := recordSuccess_short hhalf h
    exact ⟨hstate, hpermitted, rfl⟩
  | threw error =>
    rw [hending] at h
    cases error with
    | breaker error => exact ⟨hhalf, rfl, rfl⟩
    | other error =>
      dsimp only
      rw [recordFailure_uncounted h]
      exact ⟨hhalf, rfl, rfl⟩
  | timerFired =>
    rw [hending] at h
    obtain ⟨htimer, hcounts⟩ := not_or.mp h
    dsimp only
    rw [if_neg htimer, recordFailure_uncounted hcounts]
    exact ⟨hhalf, rfl, rfl⟩

theorem recordSuccess_halfOpen (h : (recordSuccess config b).state = .halfOpen) :
    b.state = .halfOpen := by
  cases hstate : b.state with
  | halfOpen => rfl
  | closed =>
    simp only [recordSuccess, recordOutcome, hstate] at h
    cases h
  | opened =>
    simp only [recordSuccess, recordOutcome, hstate] at h
    cases h

theorem recordFailure_halfOpen (h : (recordFailure config now err b).state = .halfOpen) :
    b.state = .halfOpen := by
  unfold recordFailure at h
  split at h
  · dsimp only at h
    split at h
    · cases h
    · rename_i hclosed
      split at h
      · cases h
      · split at h
        · cases h
        · exact h
    · exact h
  · exact h

/-- No end of a call makes the breaker half open. -/
theorem settle_halfOpen (h : (settle name config flight told b).2.state = .halfOpen) :
    b.state = .halfOpen := by
  unfold settle fail at h
  split at h
  · exact recordSuccess_halfOpen h
  · exact h
  · exact recordFailure_halfOpen h
  · split at h
    · exact h
    · exact recordFailure_halfOpen h

/-! ## Steps -/

theorem isCallPermitted_rejected (hpermitted : 1 ≤ config.permittedNumberOfCallsInHalfOpenState)
    (h : ¬(isCallPermitted config now b).1 = true) : (isCallPermitted config now b).2 = b := by
  cases hstate : b.state with
  | closed => simp only [isCallPermitted, hstate]
  | opened =>
    simp only [isCallPermitted, hstate] at h ⊢
    split at h
    · refine absurd ((permitHalfOpenCall_fst _).mpr (lt_of_lt_of_le ?_ hpermitted)) h
      norm_num [transitionToHalfOpen]
    · rename_i hwait
      rw [if_neg hwait]
  | halfOpen =>
    simp only [isCallPermitted, hstate] at h ⊢
    exact congrArg Prod.snd (if_neg (mt (permitHalfOpenCall_fst b).mpr h))

/-- A call that begins is in flight, or leaves the breaker as it was. -/
theorem live_call (hpermitted : 1 ≤ config.permittedNumberOfCallsInHalfOpenState)
    (h : Live config g) (p : Protect) (told : Told ε) :
    Live config (commit (machine (breaker name config)) g (.call p told)) := by
  rw [commit_called (t := (protect name config p told.now g.state).1)
    (s := (protect name config p told.now g.state).2) rfl]
  intro hhalf
  unfold protect at hhalf ⊢
  dsimp only at hhalf ⊢
  split
  · exact .inl (List.append_ne_nil_of_right_ne_nil _ (List.cons_ne_nil _ _))
  · rename_i hrejected
    rw [if_neg hrejected] at hhalf
    dsimp only at hhalf ⊢
    rw [isCallPermitted_rejected hpermitted hrejected] at hhalf ⊢
    rw [Turn.tasks, List.append_nil]
    exact h hhalf

theorem settles_iff_live (h : Live config g) (i : Nat) (told : Told ε) :
    Settles name config g (.resume i told) ↔
      Live config (commit (machine (breaker name config)) g (.resume i told)) := by
  cases hwaiting : g.tasks[i]? with
  | none =>
    have hsame : commit (machine (breaker name config)) g (.resume i told) = g := by
      simp only [commit, machine, hwaiting]
    rw [hsame]
    refine iff_of_true (fun flight hmem => ?_) h
    rw [hwaiting] at hmem
    cases hmem
  | some flight =>
    rw [commit_resumed (t := (settle name config flight told g.state).1)
      (s := (settle name config flight told g.state).2) hwaiting rfl]
    have hlength := List.length_eraseIdx_of_lt (List.getElem?_eq_some_iff.mp hwaiting).1
    constructor
    · intro hsettles hhalf'
      have hhalf := settle_halfOpen hhalf'
      by_cases hdecides : Decides name config g.state flight told.ending
      · obtain hne | hwaits := settle_of_decides hhalf hdecides
        · exact absurd hhalf' hne
        · refine .inl (List.append_ne_nil_of_right_ne_nil _ ?_)
          rw [hwaits]
          exact List.cons_ne_nil _ _
      · obtain ⟨-, hused, -⟩ := settle_of_not_decides hhalf hdecides
        by_cases hone : g.tasks.length = 1
        · refine .inr (hused ▸ not_le.mp fun hfull => hdecides ?_)
          exact hsettles flight hwaiting hhalf hone hfull
        · refine .inl (List.append_ne_nil_of_left_ne_nil (List.ne_nil_of_length_pos ?_) _)
          have hlt := (List.getElem?_eq_some_iff.mp hwaiting).1
          omega
    · intro hlive flight' hmem hhalf hone hfull
      obtain rfl := Option.some.inj (hwaiting.symm.trans hmem)
      by_contra hdecides
      obtain ⟨hhalf', hused, hdone⟩ := settle_of_not_decides hhalf hdecides
      obtain hne | hlt := hlive hhalf'
      · refine hne ?_
        have hempty : g.tasks.eraseIdx i = [] := List.eq_nil_of_length_eq_zero (by omega)
        exact List.append_eq_nil_iff.mpr ⟨hempty, hdone⟩
      · exact hfull.not_gt (hused ▸ hlt)

/-! ## Runs -/

theorem construct_new (h : construct name config = .ok b) : b = {} := by
  unfold construct at h
  split at h
  · cases h
  · split at h
    · cases h
    · split at h
      · cases h
      · exact (Except.ok.inj h).symm

theorem settles_iff_permits (hpermitted : 1 ≤ config.permittedNumberOfCallsInHalfOpenState)
    (hthreshold : 1 ≤ config.successThreshold) (hnew : construct name config = .ok b)
    (acts : List (Act Protect (Told ε))) :
    Along (machine (breaker name config)) (Settles name config) ⟨b, []⟩ acts ↔
      ∀ mid, mid <+: acts → Permits config (run (machine (breaker name config)) ⟨b, []⟩ mid) := by
  obtain rfl := construct_new hnew
  have hkept : Kept config ({} : Breaker) := kept_of_closed rfl
  have hkeep : ∀ (g : Circuit) (act : Act Protect (Told ε)), Kept config g.state →
      Kept config (commit (machine (breaker name config)) g act).state :=
    fun g act h => kept_commit hthreshold act h
  refine along_iff_stays (J := fun g : Circuit => Kept config g.state) hkeep
    (fun g act h hpermits => ?_) hkept ((permits_iff_live hpermitted hkept).mpr
      fun hhalf => absurd hhalf (by decide))
  rw [permits_iff_live hpermitted (hkeep g act h)]
  have hlive := (permits_iff_live hpermitted h).mp hpermits
  cases act with
  | call p told => exact iff_of_true trivial (live_call hpermitted hlive p told)
  | resume i told => exact settles_iff_live hlive i told

/-! ## Periods on trial with enough permits -/

/-- While the breaker is half open, no outcome is left uncounted. -/
def Counted (name : String) (config : CircuitBreakerConfig ε) (g : Circuit) :
    Act Protect (Told ε) → Prop
  | .call _ _ => True
  | .resume i told => ∀ flight ∈ g.tasks[i]?, g.state.state = .halfOpen →
    told.ending = .returned ∨ Decides name config g.state flight told.ending

/-- The calls in flight and the permits that are left are enough for the successes that are
missing. -/
def Supplied (config : CircuitBreakerConfig ε) (g : Circuit) : Prop :=
  g.state.state = .halfOpen → config.successThreshold ≤
    g.state.consecutiveSuccesses + g.tasks.length +
      (config.permittedNumberOfCallsInHalfOpenState - g.state.permittedCallsInHalfOpen)

/-- A call that is permitted takes a permit, or begins a period on trial or comes while none is. -/
theorem supplied_isCallPermitted (hle : config.successThreshold ≤
    config.permittedNumberOfCallsInHalfOpenState) (h : Supplied config g)
    (hpermit : (isCallPermitted config now g.state).1 = true) (flight : Flight) :
    Supplied config ⟨(isCallPermitted config now g.state).2, g.tasks ++ [flight]⟩ := by
  have hcount : (0 : ℚ) ≤ g.tasks.length := Nat.cast_nonneg _
  intro hhalf
  rw [List.length_append, List.length_singleton]
  cases hstate : g.state.state with
  | closed =>
    simp only [isCallPermitted, hstate] at hhalf
    cases hhalf
  | opened =>
    simp only [isCallPermitted, hstate] at hpermit ⊢
    split at hpermit
    · rename_i hwait
      rw [if_pos hwait, permitHalfOpenCall, if_pos ((permitHalfOpenCall_fst _).mp hpermit)]
      simp only [transitionToHalfOpen]
      push_cast
      linarith
    · cases hpermit
  | halfOpen =>
    have hsupplied := h hstate
    simp only [isCallPermitted, hstate] at hpermit ⊢
    rw [permitHalfOpenCall, if_pos ((permitHalfOpenCall_fst _).mp hpermit)]
    push_cast
    linarith

theorem supplied_call (hle : config.successThreshold ≤
    config.permittedNumberOfCallsInHalfOpenState)
    (hpermitted : 1 ≤ config.permittedNumberOfCallsInHalfOpenState) (h : Supplied config g)
    (p : Protect) (told : Told ε) :
    Supplied config (commit (machine (breaker name config)) g (.call p told)) := by
  rw [commit_called (t := (protect name config p told.now g.state).1)
    (s := (protect name config p told.now g.state).2) rfl]
  unfold protect
  dsimp only
  split
  · rename_i hpermit
    exact supplied_isCallPermitted hle h hpermit _
  · rename_i hrejected
    dsimp only
    rw [isCallPermitted_rejected hpermitted hrejected, Turn.tasks, List.append_nil]
    exact h

/-- A success takes the place of its call in flight, and a failure that counts ends the period. -/
theorem supplied_resume (h : Supplied config g) (i : Nat) (told : Told ε)
    (hcounted : Counted name config g (.resume i told)) :
    Supplied config (commit (machine (breaker name config)) g (.resume i told)) := by
  cases hwaiting : g.tasks[i]? with
  | none =>
    simp only [commit, machine, hwaiting]
    exact h
  | some flight =>
    have hlt := (List.getElem?_eq_some_iff.mp hwaiting).1
    have hlength : (g.tasks.eraseIdx i).length + 1 = g.tasks.length := by
      rw [List.length_eraseIdx_of_lt hlt]
      omega
    rw [commit_resumed (t := (settle name config flight told g.state).1)
      (s := (settle name config flight told g.state).2) hwaiting rfl]
    intro hhalf'
    have hhalf := settle_halfOpen hhalf'
    have hsupplied := h hhalf
    rw [← hlength] at hsupplied
    dsimp only at hhalf' ⊢
    by_cases hdecides : Decides name config g.state flight told.ending
    · obtain hne | hwaits := settle_of_decides hhalf hdecides
      · exact absurd hhalf' hne
      · rw [hwaits, List.length_append]
        exact hsupplied
    · have hreturned := (hcounted flight hwaiting hhalf).resolve_right hdecides
      have hshort : ¬config.successThreshold ≤ (g.state.consecutiveSuccesses + 1 : Nat) := by
        rwa [hreturned] at hdecides
      obtain ⟨-, hused, hsuccesses⟩ := recordSuccess_short hhalf hshort
      simp only [settle, hreturned]
      rw [hused, hsuccesses, Turn.tasks, List.append_nil]
      push_cast at hsupplied ⊢
      linarith

theorem settles_of_supplied (h : Supplied config g) (i : Nat) (told : Told ε)
    (hcounted : Counted name config g (.resume i told)) :
    Settles name config g (.resume i told) := by
  intro flight hwaiting hhalf hone hfull
  obtain hreturned | hdecides := hcounted flight hwaiting hhalf
  · have hsupplied := h hhalf
    rw [hone] at hsupplied
    rw [hreturned, Decides]
    push_cast at hsupplied ⊢
    linarith
  · exact hdecides

/-- With a permit for each success that is needed, a breaker that counts every outcome of a call on
trial never rejects for ever. -/
theorem permits_of_counted (hpermitted : 1 ≤ config.permittedNumberOfCallsInHalfOpenState)
    (hthreshold : 1 ≤ config.successThreshold)
    (hle : config.successThreshold ≤ config.permittedNumberOfCallsInHalfOpenState)
    (hnew : construct name config = .ok b) {acts : List (Act Protect (Told ε))}
    (hcounted : Along (machine (breaker name config)) (Counted name config) ⟨b, []⟩ acts) :
    ∀ mid, mid <+: acts → Permits config (run (machine (breaker name config)) ⟨b, []⟩ mid) := by
  refine (settles_iff_permits hpermitted hthreshold hnew acts).mp ?_
  obtain rfl := construct_new hnew
  refine along_of_invariant (I := Supplied config) (fun g act h hcounted => ?_)
    (fun hhalf => absurd hhalf (by decide)) hcounted fun g act h hcounted => ?_
  · cases act with
    | call p told => exact supplied_call hle hpermitted h p told
    | resume i told => exact supplied_resume h i told hcounted
  · cases act with
    | call p told => trivial
    | resume i told => exact settles_of_supplied h i told hcounted

/-- A breaker never rejects for ever, exactly while the last call in flight of a half open period
whose permits are used up changes its state. -/
theorem circuit_run (name : String) (config : CircuitBreakerConfig ε) (b : Breaker)
    (hpermitted : 1 ≤ config.permittedNumberOfCallsInHalfOpenState)
    (hthreshold : 1 ≤ config.successThreshold) (hnew : construct name config = .ok b)
    (acts : List (Act Protect (Told ε))) :
    Along (machine (breaker name config)) (Settles name config) ⟨b, []⟩ acts ↔
      ∀ mid, mid <+: acts → Permits config (run (machine (breaker name config)) ⟨b, []⟩ mid) :=
  settles_iff_permits hpermitted hthreshold hnew acts

/-- Where calls of an aborted request are not held against the service. -/
def ignoring : CircuitBreakerConfig String where
  failureThreshold := 1
  ignoreFailures := some fun
    | .other "AbortError" => true
    | _ => false

def call (now : ℚ) : Act Protect (Told String) := .call ⟨false, none⟩ ⟨now, .returned⟩

def ends (now : ℚ) (ending : Ending String) : Act Protect (Told String) := .resume 0 ⟨now, ending⟩

/-- A failure opens the breaker, and after its wait two calls on trial succeed. -/
def recovering : List (Act Protect (Told String)) :=
  [call 0, ends 10 (.threw (.other "Error")), call 70000, ends 70010 .returned, call 70020,
    ends 70030 .returned]

theorem recovering_permits : construct "stripe-api" ignoring = .ok {} ∧
    ∀ mid, mid <+: recovering →
      Permits ignoring (run (machine (breaker "stripe-api" ignoring)) ⟨{}, []⟩ mid) := by
  have hnew : construct "stripe-api" ignoring = .ok {} := by decide +kernel
  exact ⟨hnew, (circuit_run "stripe-api" ignoring {} (by norm_num [ignoring])
    (by norm_num [ignoring]) hnew recovering).mp (by decide +kernel)⟩

/-- Three calls on trial are aborted. -/
def aborted : List (Act Protect (Told String)) :=
  [call 0, ends 10 (.threw (.other "Error")), call 70000, ends 70010 (.threw (.other "AbortError")),
    call 70020, ends 70030 (.threw (.other "AbortError")), call 70040,
    ends 70050 (.threw (.other "AbortError"))]

theorem aborted_stuck : ¬∀ (name : String) (config : CircuitBreakerConfig String) (b : Breaker),
    1 ≤ config.permittedNumberOfCallsInHalfOpenState → 1 ≤ config.successThreshold →
    construct name config = .ok b → ∀ (acts mid : List (Act Protect (Told String))),
      mid <+: acts → Permits config (run (machine (breaker name config)) ⟨b, []⟩ mid) := by
  intro hall
  have hpermitted : 1 ≤ ignoring.permittedNumberOfCallsInHalfOpenState := by norm_num [ignoring]
  have hthreshold : 1 ≤ ignoring.successThreshold := by norm_num [ignoring]
  have hnew : construct "stripe-api" ignoring = .ok {} := by decide +kernel
  have hsettles := (settles_iff_permits hpermitted hthreshold hnew aborted).mpr
    (hall "stripe-api" ignoring {} hpermitted hthreshold hnew aborted)
  revert hsettles
  decide +kernel

end CircuitBreaker
