import AgenticPay.Transaction
import AgenticPay.JobQueueSteps

/-!
# Runs of the job queue

As long as the sink returns from the event of a completed job, every turn leaves the jobs, the
counters and the dead letters in accord: no job has two attempts under way, a job that is completed
stays so, and exactly the dead jobs have a dead letter, one each.
-/
namespace JobQueue

open Records Awaits Transaction

def entriesOf (id : JobId) (s : State) : Nat := s.deadLetters.countP (·.job.id = id)

def isDead (id : JobId) (s : State) : Bool := (s.jobs.get id).any (·.state = .dead)

/-- The number of attempts of each job that have been started since it was last enqueued. -/
def counted (since : JobId → Nat) : Mark → JobId → Nat
  | some (.enqueued, id) => Function.update since id 0
  | some (.started, id) => Function.update since id (since id + 1)
  | some (.completed, _) | some (.failed, _) | some (.retrying, _)
  | some (.deadLettered, _) => since
  | none => since

variable (policy : RetryPolicy)

abbrev watched : System (Act Call Told) (Queue × (JobId → Nat)) Unit
    (Turn Waiting (Except String Response)) :=
  watching (machine (queue policy)) fun g act _ since =>
    counted since (Mark.of (eventIn policy g act))

structure Sound (v : View) : Prop where
  alone : v.underWay.Nodup
  processing : ∀ id ∈ v.underWay, ∃ job ∈ v.state.jobs.get id, job.state = .processing
  left : ∀ job ∈ v.state.jobs, job.state = .pending →
    job.attempts = 0 ∨ canRetry job.attempts policy = true
  bounded : 1 ≤ policy.maxAttempts → ∀ job ∈ v.state.jobs, job.attempts ≤ policy.maxAttempts
  unfailed : ∀ job ∈ v.state.jobs, job.state ≠ .failed
  entries : ∀ id, entriesOf id v.state = if isDead id v.state = true then 1 else 0
  enqueued : v.state.totalEnqueued = v.state.jobs.records.length
  completed : v.state.totalCompleted = countOf .completed v.state

/-- The jobs, the counters and the dead letters are in accord. -/
structure Orderly (since : JobId → Nat) (g : Queue) : Prop where
  alone : (underWay g.tasks).Nodup
  bounded : 1 ≤ policy.maxAttempts → ∀ job ∈ g.state.jobs, since job.id ≤ policy.maxAttempts
  dead : ∀ job ∈ g.state.jobs, job.state = .dead ↔ entriesOf job.id g.state = 1
  once : ∀ id, entriesOf id g.state ≤ 1
  enqueued : (metrics g.state).pending + (metrics g.state).processing +
    (metrics g.state).completed + (metrics g.state).dead = (metrics g.state).totalEnqueued
  completed : (metrics g.state).totalCompleted = (metrics g.state).completed

/-- A job is completed only when its handler has resolved, and it is never run again. -/
structure Completes (g : Queue) (act : Act Call Told) : Prop where
  resolved : ∀ job ∈ (commit (machine (queue policy)) g act).state.jobs, job.state = .completed →
    job ∈ g.state.jobs ∨ resolvedIn g act = some job.id
  kept : ∀ job ∈ g.state.jobs, job.state = .completed →
    job ∈ (commit (machine (queue policy)) g act).state.jobs ∧
      job.id ∉ underWay (commit (machine (queue policy)) g act).tasks

variable {policy} {Q : Prop} {s s' : State} {f f' : List JobId} {v v' : View} {mark : Mark}
  {r : Option JobId} {g : Queue} {act : Act Call Told} {job b : JobRecord} {id : JobId}
  {since : JobId → Nat}

/-! ## What is counted -/

theorem entries_erase_self {entries : List DeadLetterEntry} {entry : DeadLetterEntry}
    (hmem : entry ∈ entries) (hid : entry.job.id = id) :
    (entries.eraseP (·.job.id = id)).countP (·.job.id = id) + 1 =
      entries.countP (·.job.id = id) := by
  obtain ⟨e, before, after, -, he, rfl, herase⟩ :=
    List.exists_of_eraseP (p := (·.job.id = id)) hmem (decide_eq_true hid)
  rw [herase, List.countP_append, List.countP_append, List.countP_cons, if_pos he, add_assoc]

theorem entries_erase_ne {entries : List DeadLetterEntry} {k : JobId} (hne : k ≠ id) :
    (entries.eraseP (·.job.id = id)).countP (·.job.id = k) = entries.countP (·.job.id = k) := by
  by_cases hany : ∃ e ∈ entries, e.job.id = id
  · obtain ⟨entry, hmem, hid⟩ := hany
    obtain ⟨e, before, after, -, he, rfl, herase⟩ :=
      List.exists_of_eraseP (p := (·.job.id = id)) hmem (decide_eq_true hid)
    have hnot : ¬ decide (e.job.id = k) = true := fun h =>
      hne ((of_decide_eq_true h).symm.trans (of_decide_eq_true he))
    rw [herase, List.countP_append, List.countP_append, List.countP_cons, if_neg hnot, add_zero]
  · rw [List.eraseP_of_forall_not fun e he h => hany ⟨e, he, of_decide_eq_true h⟩]

theorem entriesOf_bury (job : JobRecord) (failedAt : Int) (reason : String) (k : JobId) :
    entriesOf k (s.bury job failedAt reason) = entriesOf k s + if job.id = k then 1 else 0 := by
  rw [entriesOf, State.bury, List.countP_append, List.countP_singleton, entriesOf]
  simp only [decide_eq_true_eq]

theorem set_found_length (hfound : s.jobs.get b.id = some job) :
    (s.jobs.set b).records.length = s.jobs.records.length := by
  rw [Table.set_found hfound, Table.replace, List.length_map]

theorem total_counts {t : Table JobRecord.id} (h : ∀ job ∈ t, job.state ≠ .failed) :
    Records.total (fun job => if job.state = .pending then 1 else 0) t +
        Records.total (fun job => if job.state = .processing then 1 else 0) t +
        Records.total (fun job => if job.state = .completed then 1 else 0) t +
        Records.total (fun job => if job.state = .dead then 1 else 0) t =
      t.records.length := by
  replace h : ∀ job ∈ t.records, job.state ≠ .failed := h
  rw [Records.total, Records.total, Records.total, Records.total]
  generalize t.records = records at h ⊢
  induction records with
  | nil => rfl
  | cons job rest ih =>
    have hrest := ih fun job hmem => h job (List.mem_cons_of_mem _ hmem)
    have hjob := h job List.mem_cons_self
    have hone : (if job.state = .pending then 1 else 0) +
        (if job.state = .processing then 1 else 0) +
        (if job.state = .completed then 1 else 0) +
        (if job.state = .dead then 1 else 0) = 1 := by
      cases hstate : job.state with
      | failed => exact absurd hstate hjob
      | pending => rfl
      | processing => rfl
      | completed => rfl
      | dead => rfl
    simp only [List.map_cons, List.sum_cons, List.length_cons]
    omega

/-! ## A job that is taken a step further -/

/-- What a step makes of a job, and of the attempts that are under way. -/
structure Further (policy : RetryPolicy) (v : View) (job b : JobRecord) (f' : List JobId) :
    Prop where
  found : v.state.jobs.get b.id = some job
  alone : f'.Nodup
  processing : b.id ∈ f' → b.state = .processing
  others : ∀ id ∈ f', id ≠ b.id → id ∈ v.underWay
  left : b.state = .pending → b.attempts = 0 ∨ canRetry b.attempts policy = true
  bounded : 1 ≤ policy.maxAttempts → b.attempts ≤ policy.maxAttempts
  unfailed : b.state ≠ .failed

theorem sound_further (h : Sound policy v) (hnew : Further policy v job b f')
    (hjobs : s'.jobs = v.state.jobs.set b) (henqueued : s'.totalEnqueued = v.state.totalEnqueued)
    (hcompleted : s'.totalCompleted + (if job.state = .completed then 1 else 0) =
      v.state.totalCompleted + if b.state = .completed then 1 else 0)
    (hentries : ∀ id, id ≠ b.id → entriesOf id s' = entriesOf id v.state)
    (hentry : entriesOf b.id s' = if b.state = .dead then 1 else 0) :
    Sound policy ⟨s', f'⟩ where
  alone := hnew.alone
  processing := by
    intro id hid
    show ∃ job ∈ s'.jobs.get id, _
    rw [hjobs]
    by_cases he : id = b.id
    · obtain rfl := he
      exact ⟨b, Table.get_set_self _ _, hnew.processing hid⟩
    · rw [Table.get_set_ne he]
      exact h.processing id (hnew.others id hid he)
  left := by
    show ∀ job ∈ s'.jobs, _
    rw [hjobs]
    exact Table.forall_set hnew.left h.left
  bounded := by
    intro hmax
    show ∀ job ∈ s'.jobs, _
    rw [hjobs]
    exact Table.forall_set (hnew.bounded hmax) (h.bounded hmax)
  unfailed := by
    show ∀ job ∈ s'.jobs, _
    rw [hjobs]
    exact Table.forall_set hnew.unfailed h.unfailed
  entries := by
    intro id
    rw [isDead, hjobs]
    by_cases he : id = b.id
    · obtain rfl := he
      rw [Table.get_set_self, hentry]
      simp only [Option.any_some, decide_eq_true_eq]
    · rw [Table.get_set_ne he, hentries id he]
      exact h.entries id
  enqueued := by
    show s'.totalEnqueued = s'.jobs.records.length
    rw [henqueued, hjobs, set_found_length hnew.found]
    exact h.enqueued
  completed := by
    have hcount := total_set_found (fun job : JobRecord => if job.state = .completed then 1 else 0)
      hnew.found
    have hbefore := h.completed
    rw [countOf] at hbefore
    show s'.totalCompleted = countOf .completed s'
    rw [countOf, hjobs]
    omega

theorem entriesOf_alive (h : Sound policy v) (hfound : v.state.jobs.get job.id = some job)
    (halive : job.state ≠ .dead) : entriesOf job.id v.state = 0 := by
  rw [h.entries, isDead, hfound, Option.any_some, decide_eq_false halive]
  rfl

/-- A job that is buried had no dead letter. -/
theorem sound_bury {now failedAt : Int} {reason : String} (h : Sound policy v)
    (hfound : v.state.jobs.get job.id = some job) (halone : f'.Nodup) (hout : job.id ∉ f')
    (hothers : ∀ id ∈ f', id ∈ v.underWay)
    (hstate : job.state = .pending ∨ job.state = .processing) :
    Sound policy ⟨v.state.bury (buried now reason job) failedAt reason, f'⟩ := by
  have halive : job.state ≠ .dead := by
    rintro hdead
    rw [hdead] at hstate
    simp at hstate
  have hmem : job ∈ v.state.jobs := (Table.get_some hfound).1
  refine sound_further h (b := buried now reason job)
    ⟨hfound, halone, fun hin => absurd hin hout, fun id hin _ => hothers id hin,
      fun hpending => by contradiction, fun hmax => h.bounded hmax job hmem, nofun⟩ rfl rfl ?_ ?_ ?_
  · obtain hstate | hstate := hstate
    · rw [hstate]
      rfl
    · rw [hstate]
      rfl
  · intro id hne
    rw [entriesOf_bury, if_neg (Ne.symm hne), add_zero]
  · rw [entriesOf_bury, if_pos rfl]
    show entriesOf job.id v.state + 1 = 1
    rw [entriesOf_alive h hfound halive]

theorem not_underWay (h : Sound policy v) (hfound : v.state.jobs.get job.id = some job)
    (hstate : job.state ≠ .processing) : job.id ∉ v.underWay := by
  intro hmem
  obtain ⟨same, hget, hprocessing⟩ := h.processing _ hmem
  rw [hfound] at hget
  obtain rfl := Option.some.inj hget
  exact hstate hprocessing

theorem Sound.idle (h : Sound policy v) (hnodup : f'.Nodup) (hsub : f' ⊆ v.underWay) :
    Sound policy ⟨v.state, f'⟩ :=
  ⟨hnodup, fun id hid => h.processing id (hsub hid), h.left, h.bounded, h.unfailed, h.entries,
    h.enqueued, h.completed⟩

/-- The attempt of a job comes to its outcome. -/
theorem ends_underWay (h : Sound policy v) (hfound : v.state.jobs.get job.id = some job)
    (hflight : v.underWay.Perm (job.id :: f')) :
    job.state = .processing ∧ f'.Nodup ∧ job.id ∉ f' ∧ ∀ id ∈ f', id ∈ v.underWay := by
  obtain ⟨same, hget, hprocessing⟩ := h.processing _ (hflight.mem_iff.mpr List.mem_cons_self)
  rw [hfound] at hget
  obtain rfl := Option.some.inj hget
  obtain ⟨hout, hnodup⟩ := List.nodup_cons.mp (hflight.nodup_iff.mp h.alone)
  exact ⟨hprocessing, hnodup, hout, fun id hid =>
    hflight.mem_iff.mpr (List.mem_cons_of_mem _ hid)⟩

theorem canRetry_lt {attempts : Nat} (h : canRetry attempts policy = true) :
    (attempts : Int) < policy.maxAttempts := of_decide_eq_true h

theorem sound_enqueued (now : Int) (name : String) (h : Sound policy v)
    (hfresh : v.state.jobs.get id = none) :
    Sound policy ⟨{ v.state with
      jobs := v.state.jobs.set (newJob policy now id name)
      totalEnqueued := v.state.totalEnqueued + 1 }, v.underWay⟩ where
  alone := h.alone
  processing := by
    intro other hother
    obtain ⟨job, hget, hstate⟩ := h.processing other hother
    refine ⟨job, (Table.get_set_ne ?_).trans hget, hstate⟩
    rintro rfl
    exact absurd (hfresh.symm.trans hget) (Option.some_ne_none _).symm
  left := Table.forall_set (fun _ => .inl rfl) h.left
  bounded := fun hmax => Table.forall_set (zero_le_one.trans hmax) (h.bounded hmax)
  unfailed := Table.forall_set nofun h.unfailed
  entries := by
    intro other
    refine (h.entries other).trans ?_
    rw [isDead, isDead]
    by_cases he : other = (newJob policy now id name).id
    · rw [he, Table.get_set_self, Option.any_some]
      obtain rfl : other = id := he
      show (if ((v.state.jobs.get other).any _) = true then 1 else 0) = 0
      rw [hfresh]
      rfl
    · rw [Table.get_set_ne he]
  enqueued := by
    show v.state.totalEnqueued + 1 = _
    rw [Table.set_fresh hfresh, List.length_append, h.enqueued, List.length_singleton]
  completed := by
    show v.state.totalCompleted = Records.total _ _
    rw [total_set_fresh _ hfresh]
    exact h.completed

theorem sound_requeued {entry : DeadLetterEntry} (now : Int) (h : Sound policy v)
    (hdead : entry ∈ v.state.deadLetters) (hentry : entry.job.id = job.id)
    (hfound : v.state.jobs.get job.id = some job) :
    Sound policy ⟨{ v.state with
      deadLetters := v.state.deadLetters.eraseP (·.job.id = job.id)
      jobs := v.state.jobs.set (requeued now job) }, v.underWay⟩ := by
  have herase := entries_erase_self hdead hentry
  have hone := h.entries job.id
  have hstate : job.state = .dead := by
    by_contra halive
    have hnone := entriesOf_alive h hfound halive
    rw [entriesOf] at hnone
    omega
  have hout : job.id ∉ v.underWay := not_underWay h hfound (by rw [hstate]; nofun)
  refine sound_further h (b := requeued now job)
    ⟨hfound, h.alone, fun hin => absurd hin hout, fun id hin _ => hin, fun _ => .inl rfl,
      fun hmax => zero_le_one.trans hmax, nofun⟩ rfl rfl ?_ (fun id hne => ?_) ?_
  · rw [hstate]
    rfl
  · exact entries_erase_ne hne
  · show (v.state.deadLetters.eraseP (·.job.id = job.id)).countP (·.job.id = job.id) = 0
    rw [entriesOf] at hone
    split at hone <;> omega

theorem sound_turned (h : Sound policy v) (ht : Turned policy Q v r mark v') : Sound policy v' := by
  cases ht with
  | same flight =>
    have hidle := h.idle (flight.nodup_iff.mpr h.alone) flight.subset
    exact ⟨hidle.alone, hidle.processing, hidle.left, hidle.bounded, hidle.unfailed, hidle.entries,
      hidle.enqueued, hidle.completed⟩
  | lost cut flight =>
    have hnodup := flight.nodup_iff.mp h.alone
    exact h.idle (List.nodup_cons.mp hnodup).2 fun id hid =>
      flight.mem_iff.mpr (List.mem_cons_of_mem _ hid)
  | enqueued fresh => exact sound_enqueued _ _ h fresh
  | @dropped s f id unknown =>
    have hnone : s.deadLetters.countP (·.job.id = id) = 0 := by
      refine (h.entries id).trans ?_
      rw [isDead, unknown]
      rfl
    rw [List.eraseP_of_forall_not (List.countP_eq_zero.mp hnone)]
    exact h
  | requeued dead entryOf found => exact sound_requeued _ h dead entryOf found
  | unhandled found pending flight =>
    refine sound_bury h found (flight.nodup_iff.mpr h.alone) (fun hin => ?_)
      (fun id hid => flight.subset hid) (.inl pending)
    exact not_underWay h found (by rw [pending]; nofun) (flight.subset hin)
  | @started s f f' now job found pending flight =>
    have hout : job.id ∉ f := not_underWay h found (by rw [pending]; nofun)
    have hnone := entriesOf_alive h found (by rw [pending]; nofun)
    refine sound_further h (b := started now job)
      ⟨found, flight.nodup_iff.mpr (List.nodup_cons.mpr ⟨hout, h.alone⟩), fun _ => rfl,
        fun id hid hne => ?_, nofun, fun hmax => ?_, nofun⟩ rfl rfl ?_ (fun id hne => rfl) hnone
    · exact (List.mem_cons.mp (flight.subset hid)).resolve_left hne
    · obtain hzero | hleft := h.left job (Table.get_some found).1 pending
      · show ((job.attempts + 1 : Nat) : Int) ≤ _
        rwa [hzero]
      · exact canRetry_lt hleft
    · rw [pending]
      rfl
  | @completed s f f' now job found flight =>
    obtain ⟨hstate, hnodup, hout, hothers⟩ := ends_underWay h found flight
    have hnone := entriesOf_alive h found (by rw [hstate]; nofun)
    refine sound_further h (b := completed now job)
      ⟨found, hnodup, fun hin => absurd hin hout, fun id hid _ => hothers id hid, nofun,
        fun hmax => h.bounded hmax job (Table.get_some found).1, nofun⟩ rfl rfl ?_
      (fun id hne => rfl) hnone
    rw [hstate]
    rfl
  | @failed s f f' now message job found busy flight =>
    have hmem := (Table.get_some found).1
    refine sound_further h (b := failed now message job)
      ⟨found, flight.nodup_iff.mpr h.alone, fun hin => ?_, fun id hid _ => flight.subset hid,
        fun hpending => h.left job hmem hpending, fun hmax => h.bounded hmax job hmem,
        h.unfailed job hmem⟩ rfl rfl rfl (fun id hne => rfl) ?_
    · by_contra hstate
      exact not_underWay h found hstate busy
    · refine (h.entries job.id).trans ?_
      rw [isDead, found, Option.any_some]
      simp only [decide_eq_true_eq]
      rfl
  | @rescheduled s f f' next job _ found left marked flight =>
    obtain ⟨hstate, hnodup, hout, hothers⟩ := ends_underWay h found flight
    have hnone := entriesOf_alive h found (by rw [hstate]; nofun)
    refine sound_further h (b := { job with state := .pending, nextAttemptAt := next })
      ⟨found, hnodup, fun hin => absurd hin hout, fun id hid _ => hothers id hid,
        fun _ => .inr left, fun hmax => h.bounded hmax job (Table.get_some found).1, nofun⟩ rfl rfl
      ?_ (fun id hne => rfl) hnone
    rw [hstate]
    rfl
  | exhausted found spent flight =>
    obtain ⟨hstate, hnodup, hout, hothers⟩ := ends_underWay h found flight
    exact sound_bury h found hnodup hout hothers (.inr hstate)

/-! ## What a turn leaves as it was -/

/-- A job that is completed stays as it is. -/
theorem completed_kept (h : Sound policy v) (ht : Turned policy Q v r mark v')
    (hjob : job ∈ v.state.jobs) (hstate : job.state = .completed) : job ∈ v'.state.jobs := by
  have hget := Table.get_of_mem hjob
  have hother : ∀ {b old : JobRecord}, v.state.jobs.get b.id = some old →
      old.state ≠ .completed → job ∈ v.state.jobs.set b := by
    intro b old hold hne
    refine Table.mem_set.mpr (.inr ⟨hjob, fun he => hne ?_⟩)
    rw [← he, hget] at hold
    obtain rfl := Option.some.inj hold
    exact hstate
  cases ht with
  | same flight => exact hjob
  | lost cut flight => exact hjob
  | dropped unknown => exact hjob
  | @enqueued s f now id name fresh =>
    exact Table.mem_set_fresh fresh hjob
  | @requeued s f now entry old dead entryOf found =>
    refine hother (b := requeued now old) found fun hcompleted => ?_
    have hnone := entriesOf_alive h found (by rw [hcompleted]; nofun)
    exact List.countP_eq_zero.mp hnone entry dead (decide_eq_true entryOf)
  | @unhandled s f f' now failedAt reason old found pending flight =>
    exact hother (b := buried now reason old) found (by rw [pending]; nofun)
  | @started s f f' now old found pending flight =>
    exact hother (b := started now old) found (by rw [pending]; nofun)
  | @completed s f f' now old found flight =>
    have hstate := (ends_underWay h found flight).1
    exact hother (b := completed now old) found (by rw [hstate]; nofun)
  | @failed s f f' now message old found busy flight =>
    refine hother (b := failed now message old) found fun hcompleted => ?_
    exact not_underWay h found (by rw [hcompleted]; nofun) busy
  | @rescheduled s f f' next old _ found left marked flight =>
    have hstate := (ends_underWay h found flight).1
    exact hother (b := { old with state := .pending, nextAttemptAt := next }) found
      (by rw [hstate]; nofun)
  | @exhausted s f f' now failedAt reason old found spent flight =>
    have hstate := (ends_underWay h found flight).1
    exact hother (b := buried now reason old) found (by rw [hstate]; nofun)

/-- A job is completed in no turn but that in which its handler resolves. -/
theorem completed_resolved (h : Sound policy v) (ht : Turned policy Q v r mark v')
    (hjob : job ∈ v'.state.jobs) (hstate : job.state = .completed) :
    job ∈ v.state.jobs ∨ r = some job.id := by
  have hother : ∀ {b : JobRecord}, job ∈ v.state.jobs.set b → b.state ≠ .completed →
      job ∈ v.state.jobs := by
    intro b hmem hne
    obtain rfl | ⟨hmem, -⟩ := Table.mem_set.mp hmem
    · exact absurd hstate hne
    · exact hmem
  cases ht with
  | same flight => exact .inl hjob
  | lost cut flight => exact .inl hjob
  | dropped unknown => exact .inl hjob
  | enqueued fresh => exact .inl (hother hjob nofun)
  | requeued dead entryOf found => exact .inl (hother hjob nofun)
  | unhandled found pending flight => exact .inl (hother hjob nofun)
  | started found pending flight => exact .inl (hother hjob nofun)
  | completed found flight =>
    obtain rfl | ⟨hmem, -⟩ := Table.mem_set.mp hjob
    · exact .inr rfl
    · exact .inl hmem
  | @failed s f f' now message old found busy flight =>
    refine .inl (hother hjob fun hcompleted => ?_)
    have hne : old.state ≠ .processing := by rw [show old.state = _ from hcompleted]; nofun
    exact not_underWay h found hne busy
  | rescheduled found left marked flight => exact .inl (hother hjob nofun)
  | exhausted found spent flight => exact .inl (hother hjob nofun)

/-- The attempts of each job are those that have been started since it was last enqueued. -/
def Counts (since : JobId → Nat) (s : State) : Prop := ∀ job ∈ s.jobs, since job.id = job.attempts

theorem Counts.set (h : Counts since s) (hfound : s.jobs.get b.id = some job)
    (hattempts : b.attempts = job.attempts) (hjobs : s'.jobs = s.jobs.set b) :
    Counts since s' := by
  obtain ⟨hmem, hid⟩ := Table.get_some hfound
  have hnew : since b.id = b.attempts := by
    rw [hattempts, ← hid]
    exact h job hmem
  rw [Counts, hjobs]
  exact Table.forall_set hnew h

theorem Counts.update (h : Counts since s) (hjobs : s'.jobs = s.jobs.set b) :
    Counts (Function.update since b.id b.attempts) s' := by
  intro other hother
  obtain rfl | ⟨hmem, hne⟩ := Table.mem_set.mp (hjobs ▸ hother)
  · exact Function.update_self ..
  · rw [Function.update_of_ne hne]
    exact h other hmem

theorem counts_turned (ht : Turned policy Q v r mark v') (h : Counts since v.state) :
    Counts (counted since mark) v'.state := by
  cases ht with
  | same flight => exact h
  | lost cut flight => exact h
  | dropped unknown => exact h
  | @enqueued s f now id name fresh => exact h.update (b := newJob policy now id name) rfl
  | @requeued s f now entry old dead entryOf found =>
    exact h.update (b := requeued now old) rfl
  | @unhandled s f f' now failedAt reason old found pending flight =>
    exact h.set (b := buried now reason old) found rfl rfl
  | @started s f f' now old found pending flight =>
    have hsince := h old (Table.get_some found).1
    rw [counted, hsince]
    exact h.update (b := started now old) rfl
  | @completed s f f' now old found flight => exact h.set (b := completed now old) found rfl rfl
  | @failed s f f' now message old found busy flight =>
    exact h.set (b := failed now message old) found rfl rfl
  | @rescheduled s f f' next old _ found left marked flight =>
    have hsame : counted since mark = since := by
      obtain rfl | rfl := marked
      · rfl
      · rfl
    rw [hsame]
    exact h.set (b := { old with state := .pending, nextAttemptAt := next }) found rfl rfl
  | @exhausted s f f' now failedAt reason old found spent flight =>
    exact h.set (b := buried now reason old) found rfl rfl

/-! ## Runs -/

theorem start_sound : Sound policy (view initial) where
  alone := List.nodup_nil
  processing := fun _ h => absurd h List.not_mem_nil
  left := fun _ h => absurd h (Table.not_mem_empty _)
  bounded := fun _ _ h => absurd h (Table.not_mem_empty _)
  unfailed := fun _ h => absurd h (Table.not_mem_empty _)
  entries := fun _ => rfl
  enqueued := rfl
  completed := rfl

theorem commit_spec (h : Sound policy (view g)) (hheard : Heard g act) :
    Turned policy (Sheltered policy g act) (view g) (resolvedIn g act)
      (Mark.of (eventIn policy g act)) (view (commit (machine (queue policy)) g act)) := by
  refine commit_turned (fun id hid => ?_) hheard
  obtain ⟨job, hget, -⟩ := h.processing id hid
  exact Option.isSome_iff_exists.mpr ⟨job, hget⟩

theorem commit_sound (h : Sound policy (view g)) (hheard : Heard g act) :
    Sound policy (view (commit (machine (queue policy)) g act)) :=
  sound_turned h (commit_spec h hheard)

theorem Sound.orderly (h : Sound policy (view g)) (hcounts : Counts since g.state) :
    Orderly policy since g where
  alone := h.alone
  bounded := by
    intro hmax job hjob
    rw [hcounts job hjob]
    exact h.bounded hmax job hjob
  dead := by
    intro job hjob
    have hentries : entriesOf job.id g.state = if isDead job.id g.state = true then 1 else 0 :=
      h.entries job.id
    rw [isDead, Table.get_of_mem hjob, Option.any_some] at hentries
    rw [hentries]
    by_cases hdead : job.state = .dead
    · simp [hdead]
    · simp [hdead]
  once := by
    intro id
    rw [show entriesOf id g.state = _ from h.entries id]
    split <;> decide
  enqueued := (total_counts h.unfailed).trans h.enqueued.symm
  completed := h.completed

theorem commit_completes (h : Sound policy (view g)) (hheard : Heard g act) :
    Completes policy g act where
  resolved := fun _ hjob hstate => completed_resolved h (commit_spec h hheard) hjob hstate
  kept := by
    intro job hjob hstate
    have hkept := completed_kept h (commit_spec h hheard) hjob hstate
    refine ⟨hkept, ?_⟩
    exact not_underWay (commit_sound h hheard) (Table.get_of_mem hkept) (by rw [hstate]; nofun)

theorem heard_of_silent (h : (toldIn act).sink = none) : Heard g act := by
  cases act with
  | call c told => trivial
  | resume i told =>
    intro task _
    split
    · exact h
    · trivial

/-- Two passes overlap: the job of the first fails and is put off, that of the second completes. -/
def twoPasses : List (Act Call Told) :=
  [.call (.registerHandler "mail") ⟨0, "", 0, none, none⟩,
    .call (.enqueue "mail") ⟨1, "a", 0, none, none⟩, .resume 0 ⟨1, "", 0, none, none⟩,
    .call (.enqueue "mail") ⟨2, "b", 0, none, none⟩, .resume 0 ⟨2, "", 0, none, none⟩,
    .call (.drain none none) ⟨3, "", 0, none, none⟩, .resume 0 ⟨3, "", 0, none, none⟩,
    .call (.drain none none) ⟨4, "", 0, none, none⟩, .resume 1 ⟨4, "", 0, none, none⟩,
    .resume 1 ⟨5, "", 0, none, none⟩, .resume 0 ⟨6, "", 0, some "refused", none⟩,
    .resume 1 ⟨6, "", 0, none, none⟩, .resume 1 ⟨6, "", 0, none, none⟩]

end JobQueue
