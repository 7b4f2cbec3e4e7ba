import AgenticPay.RecurringBilling

/-!
# What a turn of the recurring billing service does

A turn adds a schedule, writes back a copy that a call has changed, adds an invoice for a copy that
a sweep has read, or writes back a copy that has been billed. The turns are required to find the
schedule in the store as it was when it was copied.
-/
namespace Recurring

open Records Awaits Transaction

/-- The copy that has an invoice already and is still to be written back. -/
def Waiting.underWay? : Waiting → Option RecurringSchedule
  | .billing _ schedule _ => some schedule
  | .reading .. => none
  | .publishing _ => none
  | .finding _ => none
  | .generated _ => none

def underWay (tasks : List Waiting) : List RecurringSchedule :=
  tasks.filterMap Waiting.underWay?

theorem underWay_append (tasks tasks' : List Waiting) :
    underWay (tasks ++ tasks') = underWay tasks ++ underWay tasks' := List.filterMap_append

/-! ## Conditions -/

/-- The schedule is stored as it was copied. -/
def IsCurrent (s : State) (copy : RecurringSchedule) : Prop :=
  s.schedules.get copy.id = some copy

instance (s : State) (copy : RecurringSchedule) : Decidable (IsCurrent s copy) :=
  inferInstanceAs (Decidable (s.schedules.get copy.id = some copy))

/-- The next run is computed from the time of the call. -/
def Operation.recomputes : Operation → Bool
  | .resumeSchedule => true
  | .reschedule _ => true
  | .pauseSchedule => false
  | .cancelSchedule => false

/-- No next run is computed from a time before the last one. -/
def Later (now : Int) (operation : Operation) (copy : RecurringSchedule) : Prop :=
  operation.recomputes = true → ∀ last ∈ copy.lastRunAt, last ≤ now

instance (now : Int) (operation : Operation) (copy : RecurringSchedule) :
    Decidable (Later now operation copy) :=
  inferInstanceAs (Decidable (_ → ∀ last ∈ copy.lastRunAt, last ≤ now))

/-- The copy that a sweep bills next is current, and no other sweep has an invoice of the schedule
under way. -/
def Bills (g : Service) (rest : List RecurringSchedule) : Prop :=
  ∀ copy ∈ rest.find? (·.nextRunAt.isSome), IsCurrent g.state copy ∧
    ∀ other ∈ underWay g.tasks, other.id ≠ copy.id

instance (g : Service) (rest : List RecurringSchedule) : Decidable (Bills g rest) :=
  inferInstanceAs (Decidable (∀ copy ∈ rest.find? (·.nextRunAt.isSome), IsCurrent g.state copy ∧
    ∀ other ∈ underWay g.tasks, other.id ≠ copy.id))

variable (host : Host) (config : RecurringBillingConfig)
  (P : Int → Operation → RecurringSchedule → Prop)

/-- The call that succeeds when a task is resumed, with the copy that it changes. -/
def changeIn (told : Told) : Waiting → Option (Operation × RecurringSchedule)
  | .reading tenantId _ operation found =>
    (found.filter (·.tenantId = tenantId)).bind fun copy =>
      (perform host config told.now copy operation).toOption.map fun _ => (operation, copy)
  | .publishing _ => none
  | .finding _ => none
  | .billing .. => none
  | .generated _ => none

/-- The call that succeeds in a turn. -/
def changeOf (g : Service) : Act Call Told → Option (Operation × RecurringSchedule)
  | .call .. => none
  | .resume i told => g.tasks[i]?.bind (changeIn host config told)

/-- What a task comes to when it is resumed rests on current copies, and what a call changes is as
required. -/
def Goes (told : Told) (g : Service) : Waiting → Prop
  | .reading tenantId _ operation found =>
    ∀ copy ∈ found.filter (·.tenantId = tenantId),
      (perform host config told.now copy operation).toOption.isSome = true →
        IsCurrent g.state copy ∧ P told.now operation copy
  | .finding sweep => Bills g sweep.rest
  | .generated sweep => told.throws = none → Bills g sweep.rest
  | .billing _ copy _ => IsCurrent g.state copy
  | .publishing _ => True

instance [∀ now operation copy, Decidable (P now operation copy)] (told : Told) (g : Service)
    (task : Waiting) : Decidable (Goes host config P told g task) :=
  match task with
  | .reading tenantId _ operation found =>
    inferInstanceAs (Decidable (∀ copy ∈ found.filter (·.tenantId = tenantId),
      (perform host config told.now copy operation).toOption.isSome = true →
        IsCurrent g.state copy ∧ P told.now operation copy))
  | .finding sweep => inferInstanceAs (Decidable (Bills g sweep.rest))
  | .generated sweep => inferInstanceAs (Decidable (told.throws = none → Bills g sweep.rest))
  | .billing _ copy _ => inferInstanceAs (Decidable (IsCurrent g.state copy))
  | .publishing _ => isTrue trivial

/-- No turn rests on a copy that is not current, and what a call changes is as required. -/
def Undisturbed (g : Service) : Act Call Told → Prop
  | .call .. => True
  | .resume i told => ∀ task ∈ g.tasks[i]?, Goes host config P told g task

instance [∀ now operation copy, Decidable (P now operation copy)] (g : Service)
    (act : Act Call Told) : Decidable (Undisturbed host config P g act) :=
  match act with
  | .call .. => isTrue trivial
  | .resume i told =>
    inferInstanceAs (Decidable (∀ task ∈ g.tasks[i]?, Goes host config P told g task))

/-! ## Turns -/

/-- The store with the copies that are under way. -/
structure View where
  state : State
  underWay : List RecurringSchedule

def view (g : Service) : View := ⟨g.state, underWay g.tasks⟩

/-- One turn, with the call that succeeds in it. -/
inductive Turned : View → Option (Operation × RecurringSchedule) → View → Prop
  | same {s : State} {f f' : List RecurringSchedule} (flight : f'.Perm f) :
      Turned ⟨s, f⟩ none ⟨s, f'⟩
  | created {s : State} {f : List RecurringSchedule} {now : Int} {id : ScheduleId}
      {input : CreateRecurringScheduleInput} {wanted : NormalizedRecurringSchedule}
      (fresh : s.schedules.get id = none)
      (valid : validateRecurringSchedule host config now input = .ok wanted) :
      Turned ⟨s, f⟩ none ⟨s.update (newSchedule host now id wanted), f⟩
  | changed {s : State} {f f' : List RecurringSchedule} {now : Int} {operation : Operation}
      {copy saved : RecurringSchedule} (current : IsCurrent s copy) (meets : P now operation copy)
      (performed : perform host config now copy operation = .ok saved) (flight : f'.Perm f) :
      Turned ⟨s, f⟩ (some (operation, copy)) ⟨s.update saved, f'⟩
  | invoiced {s : State} {f f' : List RecurringSchedule} {now dueAt : Int}
      {copy : RecurringSchedule} (current : IsCurrent s copy)
      (free : ∀ other ∈ f, other.id ≠ copy.id) (active : copy.status = .active)
      (due : copy.nextRunAt = some dueAt) (flight : f'.Perm (copy :: f)) :
      Turned ⟨s, f⟩ none ⟨s.createInvoice (invoiceOf now copy dueAt), f'⟩
  | advanced {s : State} {f f' : List RecurringSchedule} {now dueAt : Int}
      {copy : RecurringSchedule} (current : IsCurrent s copy) (flight : f.Perm (copy :: f'))
      (active : copy.status = .active) (due : copy.nextRunAt = some dueAt) :
      Turned ⟨s, f⟩ none ⟨s.update (advanced host now copy dueAt), f'⟩

/-! ## What a call makes of a schedule -/

/-- What no change of a schedule touches, other than that it is billed. -/
structure Kept (schedule saved : RecurringSchedule) : Prop where
  id : saved.id = schedule.id
  maxRuns : saved.maxRuns = schedule.maxRuns
  runCount : saved.runCount = schedule.runCount
  lastRunAt : saved.lastRunAt = schedule.lastRunAt
  startAt : saved.startAt = schedule.startAt
  endAt : saved.endAt = schedule.endAt

/-- A next run that is computed anew. -/
structure Recomputed (host : Host) (now : Int) (schedule saved : RecurringSchedule) : Prop where
  left : saved.status = .active → runsExhausted schedule = false
  next : ∀ next ∈ saved.nextRunAt, saved.status = .active ∧
    host.nextRunAfter saved.cronExpression saved.timezone now = some next ∧
      ∀ endAt ∈ schedule.endAt, next ≤ endAt

variable {host config P} {s s' : State} {g : Service} {told : Told} {now : Int} {sweep : Sweep}
  {rest : List RecurringSchedule} {base : List Waiting} {act : Act Call Told}
  {schedule saved : RecurringSchedule} {operation : Operation}
  {input : CreateRecurringScheduleInput} {wanted : NormalizedRecurringSchedule}

theorem validated (h : validateRecurringSchedule host config now input = .ok wanted) :
    validateCadence host config input.cronExpression input.preset input.timezone =
        .ok (wanted.cronExpression, wanted.timezone) ∧
      validateEnd wanted.startAt input.endAt = .ok wanted.endAt ∧
      validateRuns input.maxRuns = .ok wanted.maxRuns := by
  rw [validateRecurringSchedule] at h
  split_ifs at h
  obtain ⟨amount, -, h⟩ := bind_returns h
  obtain ⟨currency, -, h⟩ := bind_returns h
  obtain ⟨cadence, hcadence, h⟩ := bind_returns h
  obtain ⟨startAt, -, h⟩ := bind_returns h
  obtain ⟨endAt, hend, h⟩ := bind_returns h
  obtain ⟨maxRuns, hruns, h⟩ := bind_returns h
  cases h
  exact ⟨hcadence, hend, hruns⟩

theorem validateEnd_again {startAt : Int} {endAt endAt' : Option Int}
    (h : validateEnd startAt (endAt.map .at) = .ok endAt') : endAt' = endAt := by
  cases endAt with
  | none => exact (Except.ok.inj h).symm
  | some e =>
    rw [Option.map_some, validateEnd] at h
    split_ifs at h
    exact (Except.ok.inj h).symm

theorem validateRuns_ok {given : Option ℚ} {maxRuns : Option Nat}
    (h : validateRuns given = .ok maxRuns) : ∀ m ∈ maxRuns, 0 < m := by
  match given with
  | none =>
    obtain rfl := Except.ok.inj h
    exact fun _ hmem => absurd hmem (Option.not_mem_none _)
  | some runs =>
    rw [validateRuns] at h
    split_ifs at h with hbad
    obtain rfl := Except.ok.inj h
    intro m hm
    rw [← Option.some.inj hm]
    have hone : (1 : ℚ) ≤ runs := not_lt.mp fun hlt => hbad (.inr hlt)
    have hpos : 0 < runs.num := Rat.num_pos.mpr (lt_of_lt_of_le one_pos hone)
    omega

theorem filter_all_some {next : Option Int} {endAt : Option Int} {left : Bool} {n : Int}
    (h : n ∈ next.filter fun next => endAt.all (next ≤ ·) && left) :
    next = some n ∧ (∀ e ∈ endAt, n ≤ e) ∧ left = true := by
  obtain ⟨hnext, hall⟩ := Option.filter_eq_some_iff.mp h
  obtain ⟨hend, hleft⟩ := Bool.and_eq_true_iff.mp hall
  refine ⟨hnext, fun e he => ?_, hleft⟩
  rw [Option.mem_def.mp he] at hend
  exact of_decide_eq_true hend

theorem recomputed_kept (host : Host) (now : Int) (endAt : Option Int)
    (schedule : RecurringSchedule) : Kept schedule (recomputed host now endAt schedule) :=
  ⟨rfl, rfl, rfl, rfl, rfl, rfl⟩

theorem recomputed_spec (host : Host) (now : Int) (schedule : RecurringSchedule) :
    Recomputed host now schedule (recomputed host now schedule.endAt schedule) := by
  have hstatus : ∀ next, next ∈ (recomputed host now schedule.endAt schedule).nextRunAt →
      (recomputed host now schedule.endAt schedule).status = .active ∧
        runsExhausted schedule = false ∧
        host.nextRunAfter schedule.cronExpression schedule.timezone now = some next ∧
          ∀ endAt ∈ schedule.endAt, next ≤ endAt := by
    intro next hnext
    obtain ⟨hsome, hend, hleft⟩ := filter_all_some hnext
    refine ⟨?_, by simpa using hleft, hsome, hend⟩
    rw [recomputed] at hnext ⊢
    dsimp only at hnext ⊢
    rw [hnext]
    rfl
  refine ⟨fun hactive => ?_, fun next hnext => ?_⟩
  · cases hnext : (recomputed host now schedule.endAt schedule).nextRunAt with
    | some next => exact (hstatus next hnext).2.1
    | none =>
      rw [recomputed] at hactive hnext
      dsimp only at hactive hnext
      rw [hnext] at hactive
      contradiction
  · obtain ⟨hactive, -, hsome, hend⟩ := hstatus next hnext
    exact ⟨hactive, hsome, hend⟩

/-- What the four calls make of the schedule that they change. -/
inductive Performed (host : Host) (now : Int) (schedule saved : RecurringSchedule) :
    Operation → Prop
  | paused (active : schedule.status = .active) (status : saved.status = .paused)
      (next : saved.nextRunAt = schedule.nextRunAt) :
      Performed host now schedule saved .pauseSchedule
  | resumed (paused : schedule.status = .paused) (spec : Recomputed host now schedule saved) :
      Performed host now schedule saved .resumeSchedule
  | cancelled (status : saved.status = .cancelled) (next : saved.nextRunAt = none) :
      Performed host now schedule saved .cancelSchedule
  | rescheduled {input : RescheduleInput} (spec : Recomputed host now schedule saved) :
      Performed host now schedule saved (.reschedule input)

theorem perform_spec (h : perform host config now schedule operation = .ok saved) :
    schedule.status ≠ .cancelled ∧ Kept schedule saved ∧
      Performed host now schedule saved operation := by
  cases operation with
  | pauseSchedule =>
    rw [perform, pauseSchedule] at h
    split_ifs at h with hactive
    cases h
    have hactive := not_not.mp hactive
    exact ⟨by rw [hactive]; decide, ⟨rfl, rfl, rfl, rfl, rfl, rfl⟩, .paused hactive rfl rfl⟩
  | resumeSchedule =>
    rw [perform, resumeSchedule] at h
    split_ifs at h with hpaused
    cases h
    have hpaused := not_not.mp hpaused
    exact ⟨by rw [hpaused]; decide, recomputed_kept _ _ _ _,
      .resumed hpaused (recomputed_spec host now schedule)⟩
  | cancelSchedule =>
    rw [perform, cancelSchedule] at h
    split_ifs at h with hcancelled
    cases h
    exact ⟨hcancelled, ⟨rfl, rfl, rfl, rfl, rfl, rfl⟩, .cancelled rfl rfl⟩
  | reschedule input =>
    rw [perform, reschedule] at h
    split_ifs at h with hcancelled
    obtain ⟨request, hvalid, h⟩ := bind_returns h
    have hend : request.endAt = schedule.endAt := validateEnd_again (validated hvalid).2.1
    rw [hend] at h
    cases h
    refine ⟨hcancelled, ⟨rfl, rfl, rfl, rfl, rfl, rfl⟩, .rescheduled ?_⟩
    have hspec := recomputed_spec host now { schedule with
      cronExpression := request.cronExpression, timezone := request.timezone }
    exact ⟨hspec.left, hspec.next⟩

theorem advanced_billed (host : Host) (now : Int) (schedule : RecurringSchedule) (dueAt : Int) :
    (advanced host now schedule dueAt).id = schedule.id ∧
      (advanced host now schedule dueAt).maxRuns = schedule.maxRuns ∧
      (advanced host now schedule dueAt).runCount = schedule.runCount + 1 ∧
      (advanced host now schedule dueAt).lastRunAt = some dueAt ∧
      (advanced host now schedule dueAt).startAt = schedule.startAt ∧
      (advanced host now schedule dueAt).endAt = schedule.endAt := by
  rw [advanced]
  dsimp only
  split <;> exact ⟨rfl, rfl, rfl, rfl, rfl, rfl⟩

/-- A billed schedule goes on after the run that it is billed for, or it is completed. -/
theorem advanced_next (host : Host) (now : Int) (schedule : RecurringSchedule) (dueAt : Int) :
    ((advanced host now schedule dueAt).status = .completed ∧
        (advanced host now schedule dueAt).nextRunAt = none) ∨
      (advanced host now schedule dueAt).status = schedule.status ∧
        (∀ m ∈ schedule.maxRuns, schedule.runCount + 1 < m) ∧
        ∃ next, (advanced host now schedule dueAt).nextRunAt = some next ∧
          host.nextRunAfter schedule.cronExpression schedule.timezone dueAt = some next ∧
          ∀ endAt ∈ schedule.endAt, next ≤ endAt := by
  rw [advanced]
  dsimp only
  split
  next => exact .inl ⟨rfl, rfl⟩
  next next hnext =>
    obtain ⟨hsome, hend, hleft⟩ := filter_all_some hnext
    refine .inr ⟨rfl, fun m hm => ?_, next, rfl, hsome, hend⟩
    have hnot : runsExhausted { schedule with
        runCount := schedule.runCount + 1, lastRunAt := some dueAt, updatedAt := now } = false := by
      simpa using hleft
    rw [runsExhausted, Option.mem_def.mp hm] at hnot
    simpa using hnot

/-- The copies of a task are of schedules that were due. -/
def Due : Waiting → Prop
  | .billing sweep schedule invoice =>
    schedule.nextRunAt = some invoice.dueAt ∧
      (schedule.status = .active ∧ ∀ copy ∈ sweep.rest, copy.status = .active)
  | .finding sweep => ∀ copy ∈ sweep.rest, copy.status = .active
  | .generated sweep => ∀ copy ∈ sweep.rest, copy.status = .active
  | .reading .. => True
  | .publishing _ => True

theorem findDue_active (host : Host) (before : Int) (s : State) :
    ∀ copy ∈ findDue host before s, copy.status = .active := by
  intro copy hcopy
  rw [findDue, List.mem_mergeSort, List.mem_filter] at hcopy
  exact (of_decide_eq_true hcopy.2).1

/-- The loop comes to the first copy with a next run, or to its end. -/
theorem nextInvoice_cases (sweep : Sweep) (s : State) (rest : List RecurringSchedule) :
    (rest.find? (·.nextRunAt.isSome) = none ∧ nextInvoice sweep s rest =
        (.done (.ok (.swept sweep.processed sweep.invoices sweep.completedScheduleIds)), s)) ∨
      ∃ copy left dueAt, rest.find? (·.nextRunAt.isSome) = some copy ∧
        (copy :: left).Sublist rest ∧ copy.nextRunAt = some dueAt ∧ nextInvoice sweep s rest =
          (.waits (.billing { sweep with rest := left } copy (invoiceOf sweep.now copy dueAt)),
            s.createInvoice (invoiceOf sweep.now copy dueAt)) := by
  induction rest with
  | nil => exact .inl ⟨rfl, rfl⟩
  | cons first rest ih =>
    cases hnext : first.nextRunAt with
    | some dueAt =>
      refine .inr ⟨first, rest, dueAt, ?_, .refl _, hnext, ?_⟩
      · rw [List.find?_cons, hnext]
        rfl
      · rw [nextInvoice, hnext]
    | none =>
      rw [List.find?_cons, hnext, nextInvoice, hnext]
      obtain hnone | ⟨copy, left, dueAt, hfind, hsub, hdue, he⟩ := ih
      · exact .inl hnone
      · exact .inr ⟨copy, left, dueAt, hfind, hsub.cons first, hdue, he⟩

/-- What a turn leaves of the store and of what is under way. -/
def Ends.view (base : List Waiting) (ends : Ends) : View :=
  ⟨ends.2, underWay (base ++ ends.1.tasks)⟩

theorem view_waits {task : Waiting} (h : task.underWay? = none) :
    Ends.view base (.waits task, s) = ⟨s, underWay base⟩ := by
  rw [Ends.view, underWay_append, Turn.tasks, underWay, underWay, List.filterMap_cons, h]
  rw [List.filterMap_nil, List.append_nil]

theorem done_turned {f : List RecurringSchedule} {r : Except Failure Response}
    (hf : (underWay base).Perm f) :
    Turned host config P ⟨s, f⟩ none (Ends.view base (.done r, s)) := by
  rw [Ends.view, Turn.tasks, List.append_nil]
  exact .same hf

theorem nextInvoice_turned {f : List RecurringSchedule} (hf : (underWay base).Perm f)
    (hrest : ∀ copy ∈ rest, copy.status = .active)
    (hbills : ∀ copy ∈ rest.find? (·.nextRunAt.isSome), IsCurrent s copy ∧
      ∀ other ∈ f, other.id ≠ copy.id) :
    Turned host config P ⟨s, f⟩ none (Ends.view base (nextInvoice sweep s rest)) ∧
      ∀ task ∈ (nextInvoice sweep s rest).1.tasks, Due task := by
  obtain ⟨_, he⟩ | ⟨copy, left, dueAt, hfind, hsub, hdue, he⟩ := nextInvoice_cases sweep s rest
  · rw [he]
    exact ⟨done_turned hf, fun _ h => absurd h List.not_mem_nil⟩
  · obtain ⟨hcurrent, hfree⟩ := hbills copy hfind
    have hmem := hsub.subset List.mem_cons_self
    rw [he]
    constructor
    · rw [Ends.view, underWay_append]
      exact .invoiced hcurrent hfree (hrest copy hmem) hdue
        ((List.perm_append_singleton _ _).trans (hf.cons copy))
    · intro task htask
      obtain rfl := List.mem_singleton.mp htask
      exact ⟨hdue, hrest copy hmem, fun c hc => hrest c (hsub.subset (List.mem_cons_of_mem _ hc))⟩

theorem change_turned {f : List RecurringSchedule} {tenantId : String} (scheduleId : ScheduleId)
    {found : Option RecurringSchedule} (hf : (underWay base).Perm f)
    (hgoes : Goes host config P told ⟨s, base⟩ (.reading tenantId scheduleId operation found)) :
    Turned host config P ⟨s, f⟩
        (changeIn host config told (.reading tenantId scheduleId operation found))
        (Ends.view base (change host config told tenantId scheduleId operation found s)) ∧
      ∀ task ∈ (change host config told tenantId scheduleId operation found s).1.tasks,
        Due task := by
  rw [change, changeIn]
  cases hfound : found.filter (·.tenantId = tenantId) with
  | none => exact ⟨done_turned hf, fun _ h => absurd h List.not_mem_nil⟩
  | some copy =>
    rw [Option.bind_some]
    dsimp only
    cases hperform : perform host config told.now copy operation with
    | error failure => exact ⟨done_turned hf, fun _ h => absurd h List.not_mem_nil⟩
    | ok saved =>
      obtain ⟨hcurrent, hmeets⟩ := hgoes copy hfound (by rw [hperform]; rfl)
      constructor
      · dsimp only
        rw [view_waits rfl]
        exact .changed hcurrent hmeets hperform hf
      · intro task htask
        obtain rfl := List.mem_singleton.mp htask
        trivial

/-- A task that is resumed moves the store as a turn does. -/
theorem resume_turned {i : Nat} {task : Waiting} (hwaiting : g.tasks[i]? = some task)
    (hdue : Due task) (hgoes : Goes host config P told g task) :
    Turned host config P (view g) (changeOf host config g (.resume i told))
        (Ends.view (g.tasks.eraseIdx i) (resume host config told g.state task)) ∧
      ∀ next ∈ (resume host config told g.state task).1.tasks, Due next := by
  obtain ⟨hlt, hget⟩ := List.getElem?_eq_some_iff.mp hwaiting
  have hperm : (underWay (task :: g.tasks.eraseIdx i)).Perm (underWay g.tasks) :=
    hget ▸ (List.getElem_cons_eraseIdx_perm hlt).filterMap _
  rw [changeOf, hwaiting, Option.bind_some]
  cases task with
  | reading tenantId scheduleId operation found => exact change_turned scheduleId hperm hgoes
  | publishing saved =>
    rw [resume]
    split
    · exact ⟨done_turned hperm, fun _ h => absurd h List.not_mem_nil⟩
    · exact ⟨done_turned hperm, fun _ h => absurd h List.not_mem_nil⟩
  | finding sweep => exact nextInvoice_turned hperm hdue hgoes
  | billing sweep copy invoice =>
    obtain ⟨hnext, hactive, hrest⟩ := hdue
    constructor
    · refine .advanced hgoes (hperm.symm.trans ?_) hactive hnext
      rw [underWay_append]
      show (copy :: underWay (g.tasks.eraseIdx i)).Perm
        (copy :: (underWay (g.tasks.eraseIdx i) ++ []))
      rw [List.append_nil]
    · intro next htask
      obtain rfl := List.mem_singleton.mp htask
      exact hrest
  | generated sweep =>
    rw [resume]
    split
    · exact ⟨done_turned hperm, fun _ h => absurd h List.not_mem_nil⟩
    next hthrows => exact nextInvoice_turned hperm hdue (hgoes hthrows)

theorem request_turned {c : Call} {ends : Ends}
    (h : request host config told g.state c = some ends) :
    Turned host config P (view g) none (Ends.view g.tasks ends) ∧
      ∀ task ∈ ends.1.tasks, Due task := by
  cases c with
  | createSchedule input =>
    rw [request] at h
    split_ifs at h with hfresh
    obtain rfl := Option.some.inj h
    rw [createSchedule]
    split
    next => exact ⟨done_turned .rfl, fun _ h => absurd h List.not_mem_nil⟩
    next request hvalid =>
      constructor
      · dsimp only
        rw [view_waits rfl]
        exact .created hfresh hvalid
      · intro task htask
        obtain rfl := List.mem_singleton.mp htask
        trivial
  | change tenantId scheduleId operation =>
    obtain rfl := Option.some.inj h
    constructor
    · rw [view_waits rfl]
      exact .same .rfl
    · intro task htask
      obtain rfl := List.mem_singleton.mp htask
      trivial
  | runDue instant =>
    obtain rfl := Option.some.inj h
    rw [runDue]
    split
    · exact ⟨done_turned .rfl, fun _ h => absurd h List.not_mem_nil⟩
    next now _ =>
      constructor
      · dsimp only
        rw [view_waits rfl]
        exact .same .rfl
      · intro task htask
        obtain rfl := List.mem_singleton.mp htask
        exact findDue_active host now g.state

/-- A turn that rests on current copies moves the store as above, and keeps the copies due. -/
theorem commit_turned (hdue : ∀ task ∈ g.tasks, Due task) (h : Undisturbed host config P g act) :
    Turned host config P (view g) (changeOf host config g act)
        (view (commit (machine (service host config)) g act)) ∧
      ∀ task ∈ (commit (machine (service host config)) g act).tasks, Due task := by
  cases act with
  | call c told =>
    cases hcall : request host config told g.state c with
    | none =>
      have he : commit (machine (service host config)) g (.call c told) = g := by
        simp only [commit, machine, service, hcall]
      rw [he]
      exact ⟨.same .rfl, hdue⟩
    | some ends =>
      obtain ⟨hturned, hnew⟩ := request_turned (P := P) hcall
      rw [commit_called (t := ends.1) (s := ends.2) hcall]
      refine ⟨hturned, fun task htask => ?_⟩
      rcases List.mem_append.mp htask with hold | hlast
      · exact hdue task hold
      · exact hnew task hlast
  | resume i told =>
    cases hwaiting : g.tasks[i]? with
    | none =>
      have he : commit (machine (service host config)) g (.resume i told) = g := by
        simp only [commit, machine, hwaiting]
      rw [he, changeOf, hwaiting]
      exact ⟨.same .rfl, hdue⟩
    | some task =>
      obtain ⟨hturned, hnew⟩ := resume_turned hwaiting
        (hdue task (List.mem_of_getElem? hwaiting)) (h task hwaiting)
      rw [commit_resumed hwaiting rfl]
      refine ⟨hturned, fun task htask => ?_⟩
      rcases List.mem_append.mp htask with hold | hlast
      · exact hdue task (List.eraseIdx_subset hold)
      · exact hnew task hlast

/-- What every turn keeps is kept along a run of turns that rest on current copies. -/
theorem run_turned {I : View → Prop} {acts : List (Act Call Told)}
    (hturn : ∀ v c v', Turned host config P v c v' → I v → I v') (hg : I (view g))
    (hdue : ∀ task ∈ g.tasks, Due task)
    (h : Along (machine (service host config)) (Undisturbed host config P) g acts) :
    I (view (run (machine (service host config)) g acts)) := by
  have hend := run_invariant (I := fun g => I (view g) ∧ ∀ task ∈ g.tasks, Due task)
    (fun g act hi hq => ?_) ⟨hg, hdue⟩ h
  · exact hend.1
  · obtain ⟨hturned, hnew⟩ := commit_turned hi.2 hq
    exact ⟨hturn _ _ _ hturned hi.1, hnew⟩

end Recurring
