import AgenticPay.JobQueueRuns

/-!
# Sinks that throw

What the sink throws at an event goes through the attempt that the event belongs to. As long as it
throws at none of the events up to the outcome of an attempt, every attempt comes to its outcome.
-/
namespace JobQueue

open Records Awaits Transaction

variable (policy : RetryPolicy)

/-- No job is left in the state of an attempt that has ended, and none that has used up its attempts
is lost. -/
structure Settled (g : Queue) : Prop where
  ended : ∀ job ∈ g.state.jobs, job.state = .processing → job.id ∈ underWay g.tasks
  exhausted : ∀ job ∈ g.state.jobs, 0 < job.attempts → policy.maxAttempts ≤ job.attempts →
    job.state ≠ .processing → job.state ≠ .completed → entriesOf job.id g.state = 1

instance (g : Queue) : Decidable (Settled policy g) :=
  have : Decidable (∀ job ∈ g.state.jobs, job.state = .processing → job.id ∈ underWay g.tasks) :=
    inferInstanceAs (Decidable (∀ job ∈ g.state.jobs.records, _ → _))
  have : Decidable (∀ job ∈ g.state.jobs, 0 < job.attempts → policy.maxAttempts ≤ job.attempts →
      job.state ≠ .processing → job.state ≠ .completed → entriesOf job.id g.state = 1) :=
    inferInstanceAs (Decidable (∀ job ∈ g.state.jobs.records, _ → _ → _ → _ → _))
  decidable_of_iff (_ ∧ _) ⟨fun h => ⟨h.1, h.2⟩, fun h => ⟨h.1, h.2⟩⟩

/-- A job whose handler resolves is completed, and a completed job is never run again. -/
structure Resolves (g : Queue) (act : Act Call Told) : Prop where
  resolved : ∀ id ∈ resolvedIn g act,
    ∃ job ∈ (commit (machine (queue policy)) g act).state.jobs.get id, job.state = .completed
  kept : ∀ job ∈ g.state.jobs, job.state = .completed →
    job ∈ (commit (machine (queue policy)) g act).state.jobs ∧
      job.id ∉ underWay (commit (machine (queue policy)) g act).tasks

instance (g : Queue) (act : Act Call Told) : Decidable (Resolves policy g act) :=
  have : Decidable (∀ job ∈ g.state.jobs, job.state = .completed →
      job ∈ (commit (machine (queue policy)) g act).state.jobs ∧
        job.id ∉ underWay (commit (machine (queue policy)) g act).tasks) :=
    inferInstanceAs (Decidable (∀ job ∈ g.state.jobs.records, _ →
      job ∈ (commit (machine (queue policy)) g act).state.jobs.records ∧ _))
  decidable_of_iff (_ ∧ _) ⟨fun h => ⟨h.1, h.2⟩, fun h => ⟨h.1, h.2⟩⟩

variable {policy} {Q : Prop} {s : State} {f' : List JobId} {v v' : View} {mark : Mark}
  {r : Option JobId} {g : Queue} {act : Act Call Told} {job b : JobRecord}

theorem heard_of_sheltered (h : Sheltered policy g act) : Heard g act := by
  cases act with
  | call c told => trivial
  | resume i told =>
    intro task htask
    have hreturns := h task htask
    split
    · exact hreturns
    · trivial

/-- Every job that is being processed has an attempt under way. -/
def Attended (v : View) : Prop :=
  ∀ job ∈ v.state.jobs, job.state = .processing → job.id ∈ v.underWay

/-- The attempts that are under way are the same, other than those of the job that is set. -/
theorem attended_set (h : Attended v) (hb : b.state = .processing → b.id ∈ f')
    (hothers : ∀ id ∈ v.underWay, id ≠ b.id → id ∈ f') :
    ∀ job ∈ v.state.jobs.set b, job.state = .processing → job.id ∈ f' := by
  intro job hjob hstate
  obtain rfl | ⟨hmem, hne⟩ := Table.mem_set.mp hjob
  · exact hb hstate
  · exact hothers job.id (h job hmem hstate) hne

theorem others_left {f f' : List JobId} {id : JobId} (h : f.Perm (id :: f')) :
    ∀ k ∈ f, k ≠ id → k ∈ f' :=
  fun _ hk hne => (List.mem_cons.mp (h.subset hk)).resolve_left hne

theorem attended_turned (hq : Q) (ht : Turned policy Q v r mark v') (h : Attended v) :
    Attended v' := by
  cases ht with
  | same flight => exact fun job hjob hstate => flight.mem_iff.mpr (h job hjob hstate)
  | lost cut flight => exact absurd hq cut
  | dropped unknown => exact h
  | enqueued fresh => exact attended_set h nofun fun _ hid _ => hid
  | requeued dead entryOf found => exact attended_set h nofun fun _ hid _ => hid
  | unhandled found pending flight =>
    exact attended_set h nofun fun _ hid _ => flight.mem_iff.mpr hid
  | started found pending flight =>
    exact attended_set h (fun _ => flight.mem_iff.mpr List.mem_cons_self)
      fun _ hid _ => flight.mem_iff.mpr (List.mem_cons_of_mem _ hid)
  | completed found flight => exact attended_set h nofun (others_left flight)
  | failed found busy flight =>
    exact attended_set h (fun _ => flight.mem_iff.mpr busy)
      fun _ hid _ => flight.mem_iff.mpr hid
  | rescheduled found left marked flight => exact attended_set h nofun (others_left flight)
  | exhausted found spent flight => exact attended_set h nofun (others_left flight)

theorem resolved_turned {id : JobId} (ht : Turned policy Q v r mark v') (hr : id ∈ r) :
    ∃ job ∈ v'.state.jobs.get id, job.state = .completed := by
  cases ht with
  | @completed s f f' now job found flight =>
    obtain rfl := Option.some.inj hr
    exact ⟨completed now job, Table.get_set_self _ (completed now job), rfl⟩
  | same | lost | enqueued | dropped | requeued | unhandled | started | failed | rescheduled
  | exhausted => exact absurd hr (Option.not_mem_none _)

theorem exhausted_entry (h : Sound policy v) (hjob : job ∈ v.state.jobs) (hrun : 0 < job.attempts)
    (hspent : policy.maxAttempts ≤ job.attempts) (hprocessing : job.state ≠ .processing)
    (hcompleted : job.state ≠ .completed) : entriesOf job.id v.state = 1 := by
  rw [h.entries, isDead, Table.get_of_mem hjob, Option.any_some]
  cases hstate : job.state with
  | dead => rfl
  | processing => exact absurd hstate hprocessing
  | completed => exact absurd hstate hcompleted
  | failed => exact absurd hstate (h.unfailed job hjob)
  | pending =>
    obtain hzero | hleft := h.left job hjob hstate
    · omega
    · have hlt := canRetry_lt hleft
      omega

/-- In every run in which no sink cuts an attempt short, a job whose handler has resolved is
completed for good, none stays in an attempt that has ended, and none is lost. -/
theorem sheltered_run {acts : List (Act Call Told)}
    (h : Along (machine (queue policy)) (Sheltered policy) initial acts) :
    Settled policy (run (machine (queue policy)) initial acts) ∧
      Along (machine (queue policy)) (Resolves policy) initial acts := by
  have hstep : ∀ g act, Sound policy (view g) ∧ Attended (view g) → Sheltered policy g act →
      Sound policy (view (commit (machine (queue policy)) g act)) ∧
        Attended (view (commit (machine (queue policy)) g act)) := by
    intro g act hg hsheltered
    have hturned := commit_spec hg.1 (heard_of_sheltered hsheltered)
    exact ⟨sound_turned hg.1 hturned, attended_turned hsheltered hturned hg.2⟩
  have hstart : Sound policy (view initial) ∧ Attended (view initial) :=
    ⟨start_sound, fun _ hjob => absurd hjob (Table.not_mem_empty _)⟩
  constructor
  · obtain ⟨hsound, hattended⟩ := run_invariant
      (I := fun g => Sound policy (view g) ∧ Attended (view g)) hstep hstart h
    exact ⟨hattended, fun job hjob => exhausted_entry hsound hjob⟩
  · refine along_of_invariant (I := fun g => Sound policy (view g) ∧ Attended (view g)) hstep
      hstart h fun g act hg hsheltered => ?_
    have hheard := heard_of_sheltered hsheltered
    exact ⟨fun id hid => resolved_turned (commit_spec hg.1 hheard) hid,
      (commit_completes hg.1 hheard).kept⟩

/-- An attempt of a job, with what its handler rejects with and the sink throws at the outcome. -/
def attemptOf (handler sink : Option String) : List (Act Call Told) :=
  [.call (.registerHandler "mail") ⟨0, "", 0, none, none⟩,
    .call (.enqueue "mail") ⟨1, "a", 0, none, none⟩, .resume 0 ⟨1, "", 0, none, none⟩,
    .call (.drain none none) ⟨2, "", 0, none, none⟩, .resume 0 ⟨2, "", 0, none, none⟩,
    .resume 0 ⟨3, "", 0, handler, none⟩, .resume 0 ⟨3, "", 0, none, sink⟩,
    .resume 0 ⟨3, "", 0, none, none⟩]

theorem attemptOf_run :
    Settled defaultRetryPolicy
        (run (machine (queue defaultRetryPolicy)) initial (attemptOf (some "refused") none)) ∧
      Along (machine (queue defaultRetryPolicy)) (Resolves defaultRetryPolicy) initial
        (attemptOf (some "refused") none) :=
  sheltered_run (by decide +kernel)

/-- A sink that throws at a completed job puts it back in the queue, and one that throws at a failed
job leaves it in an attempt that has ended. -/
theorem sinks_go_wrong :
    ¬ Along (machine (queue defaultRetryPolicy)) (Resolves defaultRetryPolicy) initial
        (attemptOf none (some "down")) ∧
      ¬ Settled { defaultRetryPolicy with maxAttempts := 1 }
        (run (machine (queue { defaultRetryPolicy with maxAttempts := 1 })) initial
          (attemptOf (some "refused") (some "down"))) := by
  decide +kernel

end JobQueue
