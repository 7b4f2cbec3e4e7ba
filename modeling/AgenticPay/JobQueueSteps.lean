import AgenticPay.JobQueue

/-!
# What a turn of the job queue does

A turn adds a job, takes one back from the dead letters, or takes one a step further: it starts,
completes, fails and waits again, or is buried. Of the tasks that wait only those count that have an
attempt under way: started, with an outcome still to come.
-/
namespace JobQueue

open Records Awaits Dates Transaction

/-- The job of an attempt that has started and has no outcome yet. -/
def Waiting.underWay? : Waiting → Option JobId
  | .emitting _ .started a => some a.jobId
  | .emitting _ (.failed _) a => some a.jobId
  | .emitting _ .completed _ => none
  | .emitting _ .closed _ => none
  | .handling a => some a.jobId
  | .returning _ => none
  | .ended .. => none

def underWay (tasks : List Waiting) : List JobId := tasks.filterMap Waiting.underWay?

theorem underWay_append (tasks tasks' : List Waiting) :
    underWay (tasks ++ tasks') = underWay tasks ++ underWay tasks' := List.filterMap_append

/-! ## Conditions -/

def toldIn : Act Call Told → Told
  | .call _ told => told
  | .resume _ told => told

/-- The sink returns from the event of a completed job. -/
def Heard (g : Queue) : Act Call Told → Prop
  | .call .. => True
  | .resume i told => ∀ task ∈ g.tasks[i]?,
    match task with
    | .emitting _ .completed _ => told.sink = none
    | _ => True

variable (policy : RetryPolicy)

/-- The delay before the next attempt of a job can be computed. -/
def BacksOff (told : Told) (job : JobRecord) : Prop :=
  canRetry job.attempts policy = true →
    (computeBackoffDelayMs job.attempts policy told.random).toOption.isSome = true

instance (told : Told) (job : JobRecord) : Decidable (BacksOff policy told job) :=
  inferInstanceAs (Decidable (_ → _))

/-- The sink returns from an event up to the outcome of the attempt, and what follows a failure can
be computed. -/
def Returns (told : Told) (s : State) : Waiting → Prop
  | .emitting _ .started _ => told.sink = none
  | .emitting _ .completed _ => told.sink = none
  | .emitting _ (.failed _) a =>
    told.sink = none ∧ ∀ job ∈ s.jobs.get a.jobId, BacksOff policy told job
  | .emitting _ .closed _ => True
  | .handling _ => True
  | .returning _ => True
  | .ended .. => True

instance (told : Told) (s : State) (task : Waiting) : Decidable (Returns policy told s task) :=
  match task with
  | .emitting _ .started _ => inferInstanceAs (Decidable (told.sink = none))
  | .emitting _ .completed _ => inferInstanceAs (Decidable (told.sink = none))
  | .emitting _ (.failed _) a => inferInstanceAs (Decidable
      (told.sink = none ∧ ∀ job ∈ s.jobs.get a.jobId, BacksOff policy told job))
  | .emitting _ .closed _ => isTrue trivial
  | .handling _ => isTrue trivial
  | .returning _ => isTrue trivial
  | .ended .. => isTrue trivial

/-- No sink cuts the attempt short that the act goes on with. -/
def Sheltered (g : Queue) : Act Call Told → Prop
  | .call .. => True
  | .resume i told => ∀ task ∈ g.tasks[i]?, Returns policy told g.state task

instance (g : Queue) (act : Act Call Told) : Decidable (Sheltered policy g act) :=
  match act with
  | .call .. => isTrue trivial
  | .resume i told =>
    inferInstanceAs (Decidable (∀ task ∈ g.tasks[i]?, Returns policy told g.state task))

/-! ## Events -/

def eventOf : Turn Waiting (Except String Response) → Option JobQueueEvent
  | .waits (.returning event) => some event
  | .waits (.emitting event ..) => some event
  | .waits (.handling _) => none
  | .waits (.ended ..) => none
  | .done _ => none

/-- The event that is emitted in a turn. -/
def eventIn (g : Queue) (act : Act Call Told) : Option JobQueueEvent :=
  (machine (queue policy) act g).toOption.bind fun r => eventOf r.1

/-- The job whose handler resolves in a turn. -/
def resolvedIn (g : Queue) : Act Call Told → Option JobId
  | .call .. => none
  | .resume i told => g.tasks[i]?.bind fun task =>
    match task, told.handler with
    | .handling a, none => some a.jobId
    | _, _ => none

/-! ## Turns -/

/-- The store with the jobs that are under way. -/
structure View where
  state : State
  underWay : List JobId

def view (g : Queue) : View := ⟨g.state, underWay g.tasks⟩

abbrev Mark := Option (JobQueueEventType × JobId)

def Mark.of (event : Option JobQueueEvent) : Mark := event.map fun e => (e.type, e.jobId)

/-- One turn, with the job whose handler resolves and the event that is emitted in it. Unless it is
sheltered, it may lose an attempt. -/
inductive Turned (Q : Prop) : View → Option JobId → Mark → View → Prop
  | same {s : State} {f f' : List JobId} {names : List String} (flight : f'.Perm f) :
      Turned Q ⟨s, f⟩ none none ⟨{ s with handlers := names }, f'⟩
  | lost {s : State} {f f' : List JobId} {id : JobId} (cut : ¬ Q) (flight : f.Perm (id :: f')) :
      Turned Q ⟨s, f⟩ none none ⟨s, f'⟩
  | enqueued {s : State} {f : List JobId} {now : Int} {id : JobId} {name : String}
      (fresh : s.jobs.get id = none) :
      Turned Q ⟨s, f⟩ none (some (.enqueued, id))
        ⟨{ s with
          jobs := s.jobs.set (newJob policy now id name), totalEnqueued := s.totalEnqueued + 1 }, f⟩
  | dropped {s : State} {f : List JobId} {id : JobId} (unknown : s.jobs.get id = none) :
      Turned Q ⟨s, f⟩ none none ⟨{ s with deadLetters := s.deadLetters.eraseP (·.job.id = id) }, f⟩
  | requeued {s : State} {f : List JobId} {now : Int} {entry : DeadLetterEntry} {job : JobRecord}
      (dead : entry ∈ s.deadLetters) (entryOf : entry.job.id = job.id)
      (found : s.jobs.get job.id = some job) :
      Turned Q ⟨s, f⟩ none (some (.enqueued, job.id))
        ⟨{ s with
          deadLetters := s.deadLetters.eraseP (·.job.id = job.id)
          jobs := s.jobs.set (requeued now job) }, f⟩
  | unhandled {s : State} {f f' : List JobId} {now failedAt : Int} {reason : String}
      {job : JobRecord} (found : s.jobs.get job.id = some job) (pending : job.state = .pending)
      (flight : f'.Perm f) :
      Turned Q ⟨s, f⟩ none (some (.deadLettered, job.id))
        ⟨s.bury (buried now reason job) failedAt reason, f'⟩
  | started {s : State} {f f' : List JobId} {now : Int} {job : JobRecord}
      (found : s.jobs.get job.id = some job) (pending : job.state = .pending)
      (flight : f'.Perm (job.id :: f)) :
      Turned Q ⟨s, f⟩ none (some (.started, job.id))
        ⟨{ s with jobs := s.jobs.set (started now job) }, f'⟩
  | completed {s : State} {f f' : List JobId} {now : Int} {job : JobRecord}
      (found : s.jobs.get job.id = some job) (flight : f.Perm (job.id :: f')) :
      Turned Q ⟨s, f⟩ (some job.id) (some (.completed, job.id))
        ⟨{ s with
          jobs := s.jobs.set (completed now job), totalCompleted := s.totalCompleted + 1 }, f'⟩
  | failed {s : State} {f f' : List JobId} {now : Int} {message : String} {job : JobRecord}
      (found : s.jobs.get job.id = some job) (busy : job.id ∈ f) (flight : f'.Perm f) :
      Turned Q ⟨s, f⟩ none (some (.failed, job.id))
        ⟨{ s with
          jobs := s.jobs.set (failed now message job)
          totalFailedAttempts := s.totalFailedAttempts + 1 }, f'⟩
  | rescheduled {s : State} {f f' : List JobId} {next : Option Int} {job : JobRecord} {mark : Mark}
      (found : s.jobs.get job.id = some job) (left : canRetry job.attempts policy = true)
      (marked : mark = none ∨ mark = some (.retrying, job.id)) (flight : f.Perm (job.id :: f')) :
      Turned Q ⟨s, f⟩ none mark
        ⟨{ s with jobs := s.jobs.set { job with state := .pending, nextAttemptAt := next } }, f'⟩
  | exhausted {s : State} {f f' : List JobId} {now failedAt : Int} {reason : String}
      {job : JobRecord} (found : s.jobs.get job.id = some job)
      (spent : canRetry job.attempts policy = false) (flight : f.Perm (job.id :: f')) :
      Turned Q ⟨s, f⟩ none (some (.deadLettered, job.id))
        ⟨s.bury (buried now reason job) failedAt reason, f'⟩

/-- What a turn leaves of the store and of what is under way. -/
def Ends.view (base : List Waiting) (ends : Ends) : View :=
  ⟨ends.2, underWay (base ++ ends.1.tasks)⟩

/-- A turn that ends so does what one turn may do. -/
def Does (Q : Prop) (v : View) (resolved : Option JobId) (base : List Waiting) (ends : Ends) :
    Prop :=
  Turned policy Q v resolved (Mark.of (eventOf ends.1)) (ends.view base)

variable {policy} {Q : Prop} {s : State} {g : Queue} {told : Told} {base : List Waiting}
  {f : List JobId} {job : JobRecord} {a : Attempt} {act : Act Call Told} {caller : Caller}
  {task : Waiting} {now : Int}

/-! ## What the calls and attempts do -/

theorem view_waits (task : Waiting) :
    Ends.view base (.waits task, s) = ⟨s, underWay base ++ underWay [task]⟩ := by
  rw [Ends.view, underWay_append, Turn.tasks]

theorem view_idle (h : task.underWay? = none) :
    Ends.view base (.waits task, s) = ⟨s, underWay base⟩ := by
  rw [view_waits, underWay, underWay, List.filterMap_cons_none h, List.filterMap_nil,
    List.append_nil]

theorem view_busy {id : JobId} (h : task.underWay? = some id) :
    Ends.view base (.waits task, s) = ⟨s, underWay base ++ [id]⟩ := by
  rw [view_waits, underWay, underWay, List.filterMap_cons_some h, List.filterMap_nil]

theorem done_does {r : Except String Response} (hf : (underWay base).Perm f) :
    Does policy Q ⟨s, f⟩ none base (.done r, s) := by
  rw [Does, Ends.view, Turn.tasks, List.append_nil]
  exact .same hf

theorem ended_does {r : Except String Unit} (hf : (underWay base).Perm f) :
    Does policy Q ⟨s, f⟩ none base (.waits (.ended r a), s) := by
  rw [Does, view_idle rfl]
  exact .same hf

theorem lost_does {r : Except String Unit} (hq : ¬ Q) (hf : f.Perm (a.jobId :: underWay base)) :
    Does policy Q ⟨s, f⟩ none base (.waits (.ended r a), s) := by
  rw [Does, view_idle rfl]
  exact .lost hq hf

theorem registerHandler_does (name : String) (hf : (underWay base).Perm f) :
    Does policy Q ⟨s, f⟩ none base (registerHandler name s) := by
  rw [registerHandler]
  split
  · exact done_does hf
  · rw [Does, Ends.view, Turn.tasks, List.append_nil]
    exact .same hf

theorem enqueue_does (name : String) (hfresh : s.jobs.get told.uuid = none) :
    Does policy Q ⟨s, underWay base⟩ none base (enqueue policy told name s) := by
  rw [enqueue]
  split
  · exact done_does (.refl _)
  · rw [Does, view_idle rfl]
    exact .enqueued hfresh

theorem requeueDeadLetter_does (jobId : JobId) :
    Does policy Q ⟨s, underWay base⟩ none base (requeueDeadLetter told jobId s) := by
  rw [requeueDeadLetter]
  cases hfind : s.deadLetters.find? (·.job.id = jobId) with
  | none => exact done_does (.refl _)
  | some entry =>
    dsimp only
    cases hget : s.jobs.get jobId with
    | none =>
      rw [Does, Ends.view, Turn.tasks, List.append_nil]
      exact .dropped hget
    | some job =>
      obtain rfl := Table.key_of_get hget
      have hentry := List.find?_some hfind
      rw [Does, view_idle rfl]
      exact .requeued (List.mem_of_find?_eq_some hfind) (of_decide_eq_true hentry) hget

theorem runAttempt_does (caller : Caller) (hget : s.jobs.get job.id = some job)
    (hpending : job.state = .pending) (hf : (underWay base).Perm f) :
    Does policy Q ⟨s, f⟩ none base (runAttempt told job caller s) := by
  rw [runAttempt]
  split
  · rw [deadLetter, Does, view_idle rfl]
    exact .unhandled hget hpending hf
  · rw [Does, view_busy rfl]
    exact .started hget hpending ((List.perm_append_singleton _ _).trans (hf.cons _))

theorem nextEligible_some {exclude : List JobId} (h : nextEligible now exclude s = some job) :
    s.jobs.get job.id = some job ∧ job.state = .pending := by
  have htest := List.find?_some h
  rw [Bool.and_eq_true, Bool.and_eq_true] at htest
  exact ⟨Table.get_of_mem (List.mem_of_find?_eq_some h), of_decide_eq_true htest.1.1⟩

theorem pass_does (p : Pass) (hf : (underWay base).Perm f) :
    Does policy Q ⟨s, f⟩ none base (pass told p s) := by
  rw [pass]
  split
  · cases hnext : nextEligible p.now p.seen s with
    | none => exact done_does hf
    | some job =>
      obtain ⟨hget, hpending⟩ := nextEligible_some hnext
      exact runAttempt_does _ hget hpending hf
  · exact done_does hf

theorem processNext_does (hf : (underWay base).Perm f) :
    Does policy Q ⟨s, f⟩ none base (processNext told now s) := by
  rw [processNext]
  cases hnext : nextEligible now [] s with
  | none => exact done_does hf
  | some job =>
    obtain ⟨hget, hpending⟩ := nextEligible_some hnext
    exact runAttempt_does _ hget hpending hf

theorem goOn_does (hf : (underWay base).Perm f) :
    Does policy Q ⟨s, f⟩ none base (goOn told a s) := by
  rw [goOn]
  cases a.caller with
  | processNext now => exact done_does hf
  | drain p => exact pass_does _ hf

theorem succeed_does (hget : s.jobs.get job.id = some job) (hid : job.id = a.jobId)
    (hf : f.Perm (a.jobId :: underWay base)) :
    Does policy Q ⟨s, f⟩ (some a.jobId) base (succeed told a job s) := by
  rw [succeed, Does, view_idle rfl]
  show Turned policy Q ⟨s, f⟩ (some a.jobId) (some (.completed, a.jobId)) _
  rw [← hid] at hf ⊢
  exact .completed hget hf

theorem fail_does {message : String} (hget : s.jobs.get job.id = some job)
    (hid : job.id = a.jobId) (hf : f.Perm (a.jobId :: underWay base)) :
    Does policy Q ⟨s, f⟩ none base (fail told a message job s) := by
  rw [fail, Does, view_busy rfl]
  show Turned policy Q ⟨s, f⟩ none (some (.failed, a.jobId)) _
  rw [← hid] at hf ⊢
  exact .failed hget (hf.mem_iff.mpr List.mem_cons_self)
    ((List.perm_append_singleton _ _).trans hf.symm)

theorem retry_does {message : String} (hget : s.jobs.get job.id = some job)
    (hid : job.id = a.jobId) (hf : f.Perm (a.jobId :: underWay base))
    (hback : Q → BacksOff policy told job) :
    Does policy Q ⟨s, f⟩ none base (retry policy told a message job s) := by
  rw [retry]
  split
  next hleft =>
    cases hdelay : computeBackoffDelayMs job.attempts policy told.random with
    | error thrown =>
      refine lost_does (fun hq => ?_) hf
      have hsome := hback hq hleft
      rw [hdelay] at hsome
      contradiction
    | ok delay =>
      rw [← hid] at hf
      dsimp only
      cases toIsoString (a.caller.now + delay) with
      | error thrown =>
        rw [Does, view_idle rfl]
        exact .rescheduled hget hleft (.inl rfl) hf
      | ok next =>
        rw [Does, view_idle rfl]
        exact .rescheduled hget hleft (.inr (by rw [hid]; rfl)) hf
  next hspent =>
    rw [← hid] at hf
    rw [deadLetter, Does, view_idle rfl]
    exact .exhausted hget (Bool.eq_false_iff.mpr hspent) hf

/-! ## Turns of the queue -/

theorem withJob_does {k : JobRecord → State → Ends} {r : Option JobId}
    (hfound : (s.jobs.get a.jobId).isSome = true)
    (h : ∀ job, s.jobs.get job.id = some job → job.id = a.jobId →
      Does policy Q ⟨s, f⟩ r base (k job s)) :
    Does policy Q ⟨s, f⟩ r base (withJob a s k) := by
  obtain ⟨job, hget⟩ := Option.isSome_iff_exists.mp hfound
  have hid := Table.key_of_get hget
  rw [withJob, hget]
  exact h job (hid.symm ▸ hget) hid

theorem emitted_does {event : JobQueueEvent} {stage : Stage}
    (hf : (underWay (.emitting event stage a :: base)).Perm f)
    (hfound : ∀ id ∈ f, (s.jobs.get id).isSome = true)
    (hheard : stage = .completed → told.sink = none)
    (hq : Q → Returns policy told s (.emitting event stage a)) :
    Does policy Q ⟨s, f⟩ none base (emitted policy told s a stage) := by
  cases stage with
  | started =>
    rw [emitted]
    cases hsink : told.sink with
    | some thrown =>
      refine lost_does (fun h => ?_) hf.symm
      rw [Returns, hsink] at hq
      exact absurd (hq h) (Option.some_ne_none _)
    | none =>
      rw [Does, view_busy rfl]
      exact .same ((List.perm_append_singleton _ _).trans hf)
  | completed =>
    rw [emitted, hheard rfl]
    exact ended_does hf
  | failed message =>
    rw [emitted]
    cases hsink : told.sink with
    | some thrown =>
      refine lost_does (fun h => ?_) hf.symm
      rw [Returns, hsink] at hq
      exact absurd (hq h).1 (Option.some_ne_none _)
    | none =>
      refine withJob_does (hfound _ (hf.subset List.mem_cons_self)) fun job hget hid => ?_
      refine retry_does hget hid hf.symm fun h => (hq h).2 job ?_
      rwa [← hid]
  | closed =>
    rw [emitted]
    cases told.sink with
    | some thrown => exact ended_does hf
    | none => exact ended_does hf

/-- A task that is resumed does what one turn may do. -/
theorem resume_does {i : Nat} (hwaiting : g.tasks[i]? = some task)
    (hfound : ∀ id ∈ underWay g.tasks, (g.state.jobs.get id).isSome = true)
    (hheard : Heard g (.resume i told)) (hq : Q → Returns policy told g.state task) :
    Does policy Q (view g) (resolvedIn g (.resume i told)) (g.tasks.eraseIdx i)
      (resume policy told g.state task) := by
  obtain ⟨hlt, hget⟩ := List.getElem?_eq_some_iff.mp hwaiting
  have hperm : (underWay (task :: g.tasks.eraseIdx i)).Perm (underWay g.tasks) :=
    hget ▸ (List.getElem_cons_eraseIdx_perm hlt).filterMap _
  rw [resolvedIn, hwaiting, Option.bind_some]
  cases task with
  | returning event =>
    rw [resume]
    cases told.sink with
    | some thrown => exact done_does hperm
    | none => exact done_does hperm
  | emitting event stage a =>
    refine emitted_does hperm hfound (fun hstage => ?_) hq
    obtain rfl := hstage
    exact hheard _ hwaiting
  | handling a =>
    have hsome := hfound a.jobId (hperm.subset List.mem_cons_self)
    rw [resume]
    cases told.handler with
    | some message =>
      exact withJob_does hsome fun job hget hid => fail_does hget hid hperm.symm
    | none => exact withJob_does hsome fun job hget hid => succeed_does hget hid hperm.symm
  | ended result a =>
    cases result with
    | error thrown => exact done_does hperm
    | ok u => exact goOn_does hperm

theorem request_does {c : Call} {ends : Ends} (h : request policy told s c = some ends) :
    Does policy Q ⟨s, underWay base⟩ none base ends := by
  cases c with
  | registerHandler name =>
    obtain rfl := Option.some.inj h
    exact registerHandler_does name (.refl _)
  | enqueue name =>
    rw [request] at h
    split_ifs at h with hfresh
    obtain rfl := Option.some.inj h
    exact enqueue_does name hfresh
  | requeueDeadLetter jobId =>
    obtain rfl := Option.some.inj h
    exact requeueDeadLetter_does jobId
  | drain now maxJobs =>
    obtain rfl := Option.some.inj h
    exact pass_does _ (.refl _)
  | processNext now =>
    obtain rfl := Option.some.inj h
    exact processNext_does (.refl _)

/-- A committed act is one turn, unless the sink throws at a job that has been completed. -/
theorem commit_turned (hfound : ∀ id ∈ underWay g.tasks, (g.state.jobs.get id).isSome = true)
    (hheard : Heard g act) :
    Turned policy (Sheltered policy g act) (view g) (resolvedIn g act)
      (Mark.of (eventIn policy g act)) (view (commit (machine (queue policy)) g act)) := by
  cases act with
  | call c told =>
    cases hcall : request policy told g.state c with
    | none =>
      have hmachine : machine (queue policy) (.call c told) g = .error () := by
        simp only [machine, queue, hcall]
      rw [eventIn, commit, hmachine]
      exact .same (.refl _)
    | some ends =>
      have hmachine : machine (queue policy) (.call c told) g =
          .ok (ends.1, ⟨ends.2, g.tasks ++ ends.1.tasks⟩) := by
        simp only [machine, queue, hcall]
      rw [eventIn, commit, hmachine]
      exact request_does hcall
  | resume i told =>
    cases hwaiting : g.tasks[i]? with
    | none =>
      have hmachine : machine (queue policy) (.resume i told) g = .error () := by
        simp only [machine, hwaiting]
      rw [eventIn, commit, hmachine, resolvedIn, hwaiting]
      exact .same (.refl _)
    | some task =>
      have hmachine : machine (queue policy) (.resume i told) g =
          .ok ((resume policy told g.state task).1, ⟨(resume policy told g.state task).2,
            g.tasks.eraseIdx i ++ (resume policy told g.state task).1.tasks⟩) := by
        simp only [machine, queue, hwaiting]
      rw [eventIn, commit, hmachine]
      exact resume_does hwaiting hfound hheard fun hq => hq task hwaiting

end JobQueue
