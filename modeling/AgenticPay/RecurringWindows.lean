import AgenticPay.Transaction
import AgenticPay.RecurringSweeps

/-!
# The window of a schedule

In a sequential run, with a clock that does not go back, the invoices of a schedule lie between its
start and its end, and none is made while it is paused, as long as no call puts the next run before
the start and no paused schedule is given a new cadence.
-/
namespace Recurring

open Records Awaits Transaction

/-- The latest instant so far, and the schedules that have been paused and not resumed since. -/
structure Watch where
  clock : Int
  paused : ScheduleId → Bool

def timeOf : Act Call Told → Int
  | .call _ told => told.now
  | .resume _ told => told.now

/-- The latest instant that a turn tells: a sweep may be given one of its own. -/
def latest : Act Call Told → Int
  | .call (.runDue (some (.at instant))) told => max told.now instant
  | .call _ told => told.now
  | .resume _ told => told.now

def pausedAfter (paused : ScheduleId → Bool) :
    Option (Operation × RecurringSchedule) → ScheduleId → Bool
  | some (.pauseSchedule, copy) => Function.update paused copy.id true
  | some (.resumeSchedule, copy) => Function.update paused copy.id false
  | some (.cancelSchedule, _) => paused
  | some (.reschedule _, _) => paused
  | none => paused

variable (host : Host) (config : RecurringBillingConfig)

def Watch.after (w : Watch) (g : Service) (act : Act Call Told) : Watch where
  clock := latest act
  paused := pausedAfter w.paused (changeOf host config g act)

abbrev watched : System (Act Call Told) (Service × Watch) Unit
    (Turn Waiting (Except Failure Response)) :=
  watching (machine (service host config)) fun g act _ w => w.after host config g act

/-! ## Conditions -/

/-- The cron expression and the time zone that the next run is computed from. -/
def cadenceOf (copy : RecurringSchedule) : Operation → String × String
  | .reschedule input =>
    (resolveCronExpression config (rescheduleRequest input copy).cronExpression none,
      input.timezone.getD copy.timezone)
  | .pauseSchedule => (copy.cronExpression, copy.timezone)
  | .resumeSchedule => (copy.cronExpression, copy.timezone)
  | .cancelSchedule => (copy.cronExpression, copy.timezone)

/-- No next run is put before the start, and no paused schedule is given a new cadence. -/
def Opens (now : Int) (operation : Operation) (copy : RecurringSchedule) : Prop :=
  match operation with
  | .pauseSchedule => True
  | .cancelSchedule => True
  | .resumeSchedule =>
    ∀ next ∈ host.nextRunAfter copy.cronExpression copy.timezone now, copy.startAt ≤ next
  | .reschedule input =>
    copy.status ≠ .paused ∧
      ∀ next ∈ host.nextRunAfter (cadenceOf config copy (.reschedule input)).1
        (cadenceOf config copy (.reschedule input)).2 now, copy.startAt ≤ next

instance (now : Int) (operation : Operation) (copy : RecurringSchedule) :
    Decidable (Opens host config now operation copy) :=
  match operation with
  | .pauseSchedule => isTrue trivial
  | .cancelSchedule => isTrue trivial
  | .resumeSchedule => inferInstanceAs (Decidable (∀ next ∈ host.nextRunAfter copy.cronExpression
      copy.timezone now, copy.startAt ≤ next))
  | .reschedule input => inferInstanceAs (Decidable (copy.status ≠ .paused ∧
      ∀ next ∈ host.nextRunAfter (cadenceOf config copy (.reschedule input)).1
        (cadenceOf config copy (.reschedule input)).2 now, copy.startAt ≤ next))

/-- The turn is part of a sequential run, its time is not before any earlier one, and a call that
succeeds in it opens no wrong window. -/
def InTurn (p : Service × Watch) (act : Act Call Told) : Prop :=
  p.2.clock ≤ timeOf act ∧
    match act with
    | .call .. => p.1.tasks.length = 0
    | .resume .. => ∀ c ∈ changeOf host config p.1 act, Opens host config (timeOf act) c.1 c.2

instance (p : Service × Watch) (act : Act Call Told) : Decidable (InTurn host config p act) :=
  match act with
  | .call .. => inferInstanceAs (Decidable (_ ∧ p.1.tasks.length = 0))
  | .resume i told => inferInstanceAs (Decidable (_ ∧
      ∀ c ∈ changeOf host config p.1 (.resume i told),
        Opens host config (timeOf (.resume i told)) c.1 c.2))

/-- What is required of the calls that change a schedule. -/
def Required (now : Int) (operation : Operation) (copy : RecurringSchedule) : Prop :=
  Later now operation copy ∧ Opens host config now operation copy

variable {host config} {s s' : State} {p : Service × Watch} {act : Act Call Told} {v v' : View}
  {c : Option (Operation × RecurringSchedule)} {now clock clock' : Int} {told : Told}
  {rest : List RecurringSchedule} {copy saved schedule : RecurringSchedule} {sweep : Sweep}

/-! ## Sequential runs -/

/-- The copies are current, each of another schedule, and due by now. -/
structure Pending (s : State) (clock : Int) (rest : List RecurringSchedule) : Prop where
  distinct : (rest.map (·.id)).Nodup
  current : ∀ copy ∈ rest, IsCurrent s copy
  due : ∀ copy ∈ rest, ∀ next ∈ copy.nextRunAt, next ≤ clock

/-- What a task waits with is still so. -/
def Untouched (s : State) (clock : Int) : Waiting → Prop
  | .reading _ _ _ found => ∀ copy ∈ found, IsCurrent s copy
  | .publishing _ => True
  | .finding sweep => Pending s clock sweep.rest
  | .billing sweep copy _ => Pending s clock (copy :: sweep.rest)
  | .generated sweep => Pending s clock sweep.rest

structure Alone (p : Service × Watch) : Prop where
  one : p.1.tasks.length ≤ 1
  untouched : ∀ task ∈ p.1.tasks, Untouched p.1.state p.2.clock task
  last : ∀ schedule ∈ p.1.state.schedules, ∀ last ∈ schedule.lastRunAt, last ≤ p.2.clock

theorem eq_of_length_le_one {tasks : List Waiting} {i : Nat} {task : Waiting}
    (h : tasks.length ≤ 1) (hi : tasks[i]? = some task) :
    tasks = [task] ∧ tasks.eraseIdx i = [] := by
  obtain ⟨hlt, rfl⟩ := List.getElem?_eq_some_iff.mp hi
  obtain ⟨only, rfl⟩ := List.length_eq_one_iff.mp (by omega : tasks.length = 1)
  obtain rfl : i = 0 := by simpa using hlt
  exact ⟨rfl, rfl⟩

/-- The turns of a sequential run rest on current copies. -/
theorem Alone.undisturbed (h : Alone p) (hturn : InTurn host config p act) :
    Undisturbed host config (Required host config) p.1 act := by
  cases act with
  | call => trivial
  | resume i told =>
    intro task hwaiting
    obtain ⟨htasks, -⟩ := eq_of_length_le_one h.one hwaiting
    have huntouched := h.untouched task (List.mem_of_getElem? hwaiting)
    have hbills : ∀ sweep : Sweep, Pending p.1.state p.2.clock sweep.rest →
        task.underWay? = none → Bills p.1 sweep.rest := by
      intro sweep hpending hnone copy hfind
      refine ⟨hpending.current copy (List.mem_of_find?_eq_some hfind), fun other hother => ?_⟩
      rw [htasks, underWay, List.filterMap_cons, hnone] at hother
      exact absurd hother List.not_mem_nil
    cases task with
    | reading tenantId scheduleId operation found =>
      intro copy hfound hsucceeds
      have hcurrent := huntouched copy (Option.filter_eq_some_iff.mp hfound).1
      refine ⟨hcurrent, fun _ last hlast => ?_, ?_⟩
      · exact (h.last copy (Table.get_some hcurrent).1 last hlast).trans hturn.1
      · refine hturn.2 (operation, copy) ?_
        obtain ⟨saved, hsaved⟩ := Option.isSome_iff_exists.mp hsucceeds
        rw [changeOf, hwaiting, Option.bind_some, changeIn, hfound, Option.bind_some, hsaved]
        rfl
    | publishing => trivial
    | finding sweep => exact hbills sweep huntouched rfl
    | billing sweep copy invoice => exact huntouched.current copy List.mem_cons_self
    | generated sweep => exact fun _ => hbills sweep huntouched rfl

theorem tasks_length (turn : Turn Waiting (Except Failure Response)) : turn.tasks.length ≤ 1 := by
  cases turn with
  | done result => exact Nat.zero_le 1
  | waits task => exact Nat.le_refl 1

/-- No last run lies past the clock. -/
def Past (clock : Int) (s : State) : Prop :=
  ∀ schedule ∈ s.schedules, ∀ last ∈ schedule.lastRunAt, last ≤ clock

theorem Past.update (h : Past clock s) (hsaved : ∀ last ∈ saved.lastRunAt, last ≤ clock) :
    Past clock (s.update saved) := Table.forall_set hsaved h

theorem pending_findDue (host : Host) (now : Int) (s : State) :
    Pending s now (findDue host now s) := by
  have hperm := List.mergeSort_perm (s.schedules.records.filter (isDue now ·)) fun a b =>
    a.nextRunAt.getD 0 < b.nextRunAt.getD 0 ||
      (a.nextRunAt.getD 0 = b.nextRunAt.getD 0 && host.localeLe a.id b.id)
  have hdue : ∀ copy ∈ findDue host now s, copy ∈ s.schedules ∧ isDue now copy := by
    intro copy hcopy
    obtain ⟨hmem, hisDue⟩ := List.mem_filter.mp (hperm.mem_iff.mp hcopy)
    exact ⟨hmem, of_decide_eq_true hisDue⟩
  refine ⟨?_, fun copy hcopy => Table.get_of_mem (hdue copy hcopy).1, ?_⟩
  · exact (hperm.map _).nodup_iff.mpr (s.schedules.nodup.sublist (List.filter_sublist.map _))
  · intro copy hcopy next hnext
    obtain ⟨-, nextRunAt, hsome, hle⟩ := (hdue copy hcopy).2
    rw [← Option.some.inj (hsome.symm.trans hnext)]
    exact hle

theorem Pending.later (h : Pending s clock rest) (hle : clock ≤ clock') : Pending s clock' rest :=
  ⟨h.distinct, h.current, fun copy hcopy next hnext => (h.due copy hcopy next hnext).trans hle⟩

theorem Pending.sublist {left : List RecurringSchedule} (h : Pending s clock rest)
    (hsub : left.Sublist rest) : Pending s clock left :=
  ⟨h.distinct.sublist (hsub.map _), fun copy hcopy => h.current copy (hsub.subset hcopy),
    fun copy hcopy => h.due copy (hsub.subset hcopy)⟩

/-- The other copies are current after one has been written back. -/
theorem Pending.tail (h : Pending s clock (copy :: rest)) (hid : saved.id = copy.id) :
    Pending (s.update saved) clock rest := by
  obtain ⟨hnotin, hdistinct⟩ := List.nodup_cons.mp h.distinct
  refine ⟨hdistinct, fun other hother => ?_, fun other hother => ?_⟩
  · have hne : other.id ≠ saved.id := by
      rw [hid]
      intro he
      exact hnotin (List.mem_map.mpr ⟨other, hother, he⟩)
    exact (Table.get_set_ne hne).trans (h.current other (List.mem_cons_of_mem _ hother))
  · exact h.due other (List.mem_cons_of_mem _ hother)

theorem nextInvoice_untouched (sweep : Sweep) (h : Pending s clock rest) :
    (∀ task ∈ (nextInvoice sweep s rest).1.tasks,
        Untouched (nextInvoice sweep s rest).2 clock task) ∧
      (nextInvoice sweep s rest).2.schedules = s.schedules := by
  obtain ⟨_, he⟩ | ⟨copy, left, dueAt, hfind, hsub, hdue, he⟩ := nextInvoice_cases sweep s rest
  · rw [he]
    exact ⟨fun _ h => absurd h List.not_mem_nil, rfl⟩
  · rw [he]
    refine ⟨fun task htask => ?_, rfl⟩
    obtain rfl := List.mem_singleton.mp htask
    have hleft := h.sublist hsub
    exact ⟨hleft.distinct, hleft.current, hleft.due⟩

theorem request_untouched {call : Call} {ends : Ends}
    (h : request host config told s call = some ends) (hpast : Past (latest (.call call told)) s) :
    (∀ task ∈ ends.1.tasks, Untouched ends.2 (latest (.call call told)) task) ∧
      Past (latest (.call call told)) ends.2 := by
  cases call with
  | createSchedule input =>
    rw [request] at h
    split_ifs at h
    obtain rfl := Option.some.inj h
    rw [createSchedule]
    split
    · exact ⟨fun _ h => absurd h List.not_mem_nil, hpast⟩
    · refine ⟨fun task htask => ?_, hpast.update fun _ hlast => absurd hlast
        (Option.not_mem_none _)⟩
      obtain rfl := List.mem_singleton.mp htask
      trivial
  | change tenantId scheduleId operation =>
    obtain rfl := Option.some.inj h
    refine ⟨fun task htask => ?_, hpast⟩
    obtain rfl := List.mem_singleton.mp htask
    intro copy hcopy
    rw [IsCurrent, Table.key_of_get hcopy]
    exact hcopy
  | runDue instant =>
    obtain rfl := Option.some.inj h
    rw [runDue]
    split
    · exact ⟨fun _ h => absurd h List.not_mem_nil, hpast⟩
    next now hnow =>
      refine ⟨fun task htask => ?_, hpast⟩
      obtain rfl := List.mem_singleton.mp htask
      have hle : now ≤ latest (.call (.runDue instant) told) := by
        cases instant with
        | none =>
          obtain rfl := DateInput.at.inj hnow
          exact le_rfl
        | some input =>
          obtain rfl := hnow
          exact le_max_right _ _
      exact (pending_findDue host now s).later hle

theorem resume_untouched (host : Host) (config : RecurringBillingConfig) (told : Told)
    {task : Waiting} (h : Untouched s clock task) (hdue : Due task)
    (hpast : Past clock s) :
    (∀ next ∈ (resume host config told s task).1.tasks,
        Untouched (resume host config told s task).2 clock next) ∧
      Past clock (resume host config told s task).2 := by
  have hloop : ∀ sweep : Sweep, Pending s clock sweep.rest →
      (∀ task ∈ (nextInvoice sweep s sweep.rest).1.tasks,
          Untouched (nextInvoice sweep s sweep.rest).2 clock task) ∧
        Past clock (nextInvoice sweep s sweep.rest).2 := by
    intro sweep hpending
    obtain ⟨htasks, hsame⟩ := nextInvoice_untouched sweep hpending
    refine ⟨htasks, ?_⟩
    rw [Past, hsame]
    exact hpast
  cases task with
  | reading tenantId scheduleId operation found =>
    rw [resume, change]
    split
    next => exact ⟨fun _ h => absurd h List.not_mem_nil, hpast⟩
    next copy hfound =>
      split
      next => exact ⟨fun _ h => absurd h List.not_mem_nil, hpast⟩
      next saved hperform =>
        have hcurrent := h copy (Option.filter_eq_some_iff.mp hfound).1
        refine ⟨fun next hnext => ?_, hpast.update ?_⟩
        · obtain rfl := List.mem_singleton.mp hnext
          trivial
        · rw [(perform_spec hperform).2.1.lastRunAt]
          exact hpast copy (Table.get_some hcurrent).1
  | publishing saved =>
    rw [resume]
    split <;> exact ⟨fun _ h => absurd h List.not_mem_nil, hpast⟩
  | finding sweep => exact hloop sweep h
  | billing sweep copy invoice =>
    obtain ⟨hid, -, -, hlast, -, -⟩ := advanced_billed host sweep.now copy invoice.dueAt
    refine ⟨fun next hnext => ?_, hpast.update ?_⟩
    · obtain rfl := List.mem_singleton.mp hnext
      exact h.tail hid
    · rw [hlast]
      intro last hmem
      rw [← Option.some.inj hmem]
      exact h.due copy List.mem_cons_self invoice.dueAt hdue.1
  | generated sweep =>
    rw [resume]
    split
    · exact ⟨fun _ h => absurd h List.not_mem_nil, hpast⟩
    · exact hloop sweep h

theorem Untouched.later {task : Waiting} (h : Untouched s clock task) (hle : clock ≤ clock') :
    Untouched s clock' task := by
  cases task with
  | reading => exact h
  | publishing => trivial
  | finding sweep => exact Pending.later h hle
  | billing sweep copy invoice => exact Pending.later h hle
  | generated sweep => exact Pending.later h hle

theorem timeOf_le_latest (act : Act Call Told) : timeOf act ≤ latest act := by
  cases act with
  | call call told =>
    match call with
    | .runDue (some (.at instant)) => exact le_max_left _ _
    | .runDue (some .invalid) => exact le_rfl
    | .runDue none => exact le_rfl
    | .createSchedule _ => exact le_rfl
    | .change .. => exact le_rfl
  | resume => exact le_rfl

theorem Alone.commit (h : Alone p) (hdue : ∀ task ∈ p.1.tasks, Due task)
    (hturn : InTurn host config p act) :
    Alone (Transaction.commit (watched host config) p act) := by
  obtain he | ⟨-, he⟩ := commit_watching (machine (service host config))
    (fun g act _ (w : Watch) => w.after host config g act) p act
  · have hle : p.2.clock ≤ latest act := hturn.1.trans (timeOf_le_latest act)
    have hpast : Past (latest act) p.1.state := fun schedule hmem last hlast =>
      (h.last schedule hmem last hlast).trans hle
    rw [he]
    obtain hmoves | hsame := commit_moves (service host config) p.1 act
    · generalize Transaction.commit (machine (service host config)) p.1 act = g' at hmoves
      cases hmoves with
      | @called call told t s hcalled =>
        have htasks : p.1.tasks = [] := List.length_eq_zero_iff.mp hturn.2
        have hcalled : request host config told p.1.state call = some (t, s) := hcalled
        obtain ⟨huntouched, hlast⟩ := request_untouched hcalled hpast
        rw [htasks]
        exact ⟨tasks_length t, huntouched, hlast⟩
      | @resumed i told task t s hwaiting hresumed =>
        obtain ⟨htasks, herase⟩ := eq_of_length_le_one h.one hwaiting
        have hmem := List.mem_of_getElem? hwaiting
        have hresume : resume host config told p.1.state task = (t, s) := hresumed
        have hends := resume_untouched host config told ((h.untouched task hmem).later hle)
          (hdue task hmem) hpast
        rw [hresume] at hends
        rw [herase]
        exact ⟨tasks_length t, hends.1, hends.2⟩
    · rw [hsame]
      exact ⟨h.one, fun task hmem => (h.untouched task hmem).later hle, hpast⟩
  · rw [he]
    exact h

/-! ## Windows -/

/-- The instant lies between the start and the end of the schedule. -/
def Within (schedule : RecurringSchedule) (instant : Int) : Prop :=
  schedule.startAt ≤ instant ∧ ∀ endAt ∈ schedule.endAt, instant ≤ endAt

instance (schedule : RecurringSchedule) (instant : Int) : Decidable (Within schedule instant) :=
  inferInstanceAs (Decidable (_ ∧ ∀ endAt ∈ schedule.endAt, instant ≤ endAt))

structure Windowed (s : State) : Prop where
  next : ∀ schedule ∈ s.schedules, ∀ next ∈ schedule.nextRunAt, Within schedule next
  invoices : ∀ schedule ∈ s.schedules, ∀ invoice ∈ s.invoices schedule.id,
    Within schedule invoice.dueAt

theorem Within.kept {instant : Int} (h : Within schedule instant)
    (hstart : saved.startAt = schedule.startAt) (hend : saved.endAt = schedule.endAt) :
    Within saved instant :=
  ⟨hstart ▸ h.1, hend ▸ h.2⟩

/-- A schedule is written back within its window. -/
theorem Windowed.update (h : Windowed s) (hcurrent : IsCurrent s copy) (hid : saved.id = copy.id)
    (hstart : saved.startAt = copy.startAt) (hend : saved.endAt = copy.endAt)
    (hnext : ∀ next ∈ saved.nextRunAt, Within saved next) : Windowed (s.update saved) where
  next := Table.forall_set hnext h.next
  invoices := by
    intro schedule hmem invoice hinvoice
    rcases Table.mem_set.mp hmem with rfl | ⟨hold, _⟩
    · rw [hid] at hinvoice
      exact (h.invoices copy (Table.get_some hcurrent).1 invoice hinvoice).kept hstart hend
    · exact h.invoices schedule hold invoice hinvoice

theorem newSchedule_within {id : ScheduleId} {wanted : NormalizedRecurringSchedule}
    (hnext : ∀ cron zone t next, host.nextRunAfter cron zone t = some next → t < next) :
    ∀ next ∈ (newSchedule host now id wanted).nextRunAt,
      Within (newSchedule host now id wanted) next := by
  intro next hmem
  obtain ⟨hsome, hend⟩ := Option.filter_eq_some_iff.mp hmem
  have hafter := hnext _ _ _ _ hsome
  refine ⟨?_, fun endAt he => ?_⟩
  · show wanted.startAt ≤ next
    split_ifs at hafter with hlt <;> omega
  · rw [show wanted.endAt = some endAt from he] at hend
    exact of_decide_eq_true hend

theorem validateCadence_ok {cron zone : Option String} {cadence : String × String}
    {preset : Option BillingPreset}
    (h : validateCadence host config cron preset zone = .ok cadence) :
    cadence = (resolveCronExpression config cron preset, zone.getD config.defaultTimezone) := by
  rw [validateCadence] at h
  split_ifs at h
  exact (Except.ok.inj h).symm

/-- The next run of a schedule that a call has changed lies within its window. -/
theorem performed_within {operation : Operation} (h : ∀ next ∈ copy.nextRunAt, Within copy next)
    (hopens : Opens host config now operation copy)
    (hperform : perform host config now copy operation = .ok saved) :
    ∀ next ∈ saved.nextRunAt, Within saved next := by
  obtain ⟨-, hkept, hspec⟩ := perform_spec hperform
  intro next hmem
  cases hspec with
  | paused _ _ hsame => exact (h next (hsame ▸ hmem)).kept hkept.startAt hkept.endAt
  | resumed paused spec =>
    obtain ⟨-, hafter, hend⟩ := spec.next next hmem
    have hcadence : saved.cronExpression = copy.cronExpression ∧
        saved.timezone = copy.timezone := by
      rw [perform, resumeSchedule, if_neg (not_not.mpr paused)] at hperform
      cases hperform
      exact ⟨rfl, rfl⟩
    rw [hcadence.1, hcadence.2] at hafter
    refine ⟨?_, hkept.endAt ▸ hend⟩
    rw [hkept.startAt]
    exact hopens next hafter
  | cancelled _ hnone => exact absurd hmem (by simp [hnone])
  | @rescheduled input spec =>
    obtain ⟨-, hafter, hend⟩ := spec.next next hmem
    have hcadence : (saved.cronExpression, saved.timezone) =
        cadenceOf config copy (.reschedule input) := by
      rw [perform, reschedule] at hperform
      split_ifs at hperform
      obtain ⟨wanted, hvalid, hsaved⟩ := bind_returns hperform
      cases hsaved
      exact validateCadence_ok (validated hvalid).1
    refine ⟨?_, hkept.endAt ▸ hend⟩
    rw [hkept.startAt]
    refine hopens.2 next ?_
    rw [← hcadence]
    exact hafter

theorem Turned.windowed
    (hnext : ∀ cron zone t next, host.nextRunAfter cron zone t = some next → t < next)
    (h : Turned host config (Required host config) v c v') (hcounted : Counted v)
    (hv : Windowed v.state) : Windowed v'.state := by
  cases h with
  | same => exact hv
  | @created s f now id input wanted fresh valid =>
    have hnone : s.invoices id = [] := hcounted.unknown id fresh
    constructor
    · exact Table.forall_set (newSchedule_within hnext) hv.next
    · intro schedule hmem invoice hinvoice
      rcases Table.mem_set.mp hmem with rfl | ⟨hold, _⟩
      · have hin : invoice ∈ s.invoices id := hinvoice
        rw [hnone] at hin
        exact absurd hin List.not_mem_nil
      · exact hv.invoices schedule hold invoice hinvoice
  | changed current meets performed =>
    obtain ⟨-, hkept, -⟩ := perform_spec performed
    exact hv.update current hkept.id hkept.startAt hkept.endAt
      (performed_within (hv.next _ (Table.get_some current).1) meets.2 performed)
  | @invoiced s f f' now dueAt copy current _ _ due =>
    refine ⟨hv.next, fun schedule hmem invoice hinvoice => ?_⟩
    dsimp only at hinvoice hmem
    by_cases he : schedule.id = copy.id
    · obtain rfl : schedule = copy := Table.key_injective hmem (Table.get_some current).1 he
      rw [show schedule.id = (invoiceOf now schedule dueAt).scheduleId from rfl,
        State.invoices_createInvoice_self] at hinvoice
      rcases List.mem_append.mp hinvoice with hold | hnew
      · exact hv.invoices schedule hmem invoice hold
      · rw [List.mem_singleton.mp hnew]
        exact hv.next schedule hmem dueAt due
    · rw [State.invoices_createInvoice_ne he] at hinvoice
      exact hv.invoices schedule hmem invoice hinvoice
  | @advanced s f f' now dueAt copy current _ _ due =>
    obtain ⟨hid, -, -, -, hstart, hend⟩ := advanced_billed host now copy dueAt
    refine hv.update current hid hstart hend fun next hmem => ?_
    obtain ⟨-, hnone⟩ | ⟨-, -, later, hsome, hafter, hle⟩ := advanced_next host now copy dueAt
    · exact absurd hmem (by simp [hnone])
    · obtain rfl := Option.some.inj (hsome.symm.trans hmem)
      have hwithin := hv.next copy (Table.get_some current).1 dueAt due
      refine ⟨?_, hend ▸ hle⟩
      rw [hstart]
      exact hwithin.1.trans (hnext _ _ _ _ hafter).le

/-! ## Pauses -/

/-- What is paused and not resumed is paused or cancelled in the store. -/
def Halted (paused : ScheduleId → Bool) (s : State) : Prop :=
  ∀ id, paused id = true → ∃ schedule, s.schedules.get id = some schedule ∧
    (schedule.status = .paused ∨ schedule.status = .cancelled)

variable {paused : ScheduleId → Bool}

theorem Halted.not_active (h : Halted paused s) (hcurrent : IsCurrent s copy)
    (hactive : copy.status = .active) : paused copy.id = false := by
  by_contra hpaused
  obtain ⟨schedule, hstored, hstatus⟩ := h copy.id (by simpa using hpaused)
  obtain rfl := Option.some.inj (hcurrent.symm.trans hstored)
  rcases hstatus with h | h <;> rw [hactive] at h <;> contradiction

theorem Halted.update (h : Halted paused s)
    (hsaved : paused saved.id = true → saved.status = .paused ∨ saved.status = .cancelled) :
    Halted paused (s.update saved) := by
  intro id hpaused
  by_cases he : id = saved.id
  · rw [he] at hpaused ⊢
    exact ⟨saved, Table.get_set_self _ _, hsaved hpaused⟩
  · obtain ⟨schedule, hstored, hstatus⟩ := h id hpaused
    exact ⟨schedule, (Table.get_set_ne he).trans hstored, hstatus⟩

theorem Halted.switch {value : Bool} (h : Halted paused s) (hid : saved.id = copy.id)
    (hsaved : value = true → saved.status = .paused) :
    Halted (Function.update paused copy.id value) (s.update saved) := by
  intro id hpaused
  by_cases he : id = copy.id
  · rw [he, Function.update_self] at hpaused
    rw [he, ← hid]
    exact ⟨saved, Table.get_set_self _ _, .inl (hsaved hpaused)⟩
  · rw [Function.update_of_ne he] at hpaused
    obtain ⟨schedule, hstored, hstatus⟩ := h id hpaused
    exact ⟨schedule, (Table.get_set_ne (hid ▸ he)).trans hstored, hstatus⟩

theorem Turned.halted (h : Turned host config (Required host config) v c v')
    (hv : Halted paused v.state) : Halted (pausedAfter paused c) v'.state := by
  cases h with
  | same => exact hv
  | @created s f now id input wanted fresh =>
    refine hv.update fun hpaused => ?_
    obtain ⟨schedule, hstored, -⟩ := hv id hpaused
    exact absurd (fresh.symm.trans hstored) (by simp)
  | @changed s f f' now operation copy saved current meets performed =>
    obtain ⟨-, hkept, hspec⟩ := perform_spec performed
    cases hspec with
    | paused _ status => exact hv.switch hkept.id fun _ => status
    | resumed => exact hv.switch hkept.id fun h => by contradiction
    | cancelled status => exact hv.update fun _ => .inr status
    | rescheduled =>
      refine hv.update fun hpaused => ?_
      rw [hkept.id] at hpaused
      obtain ⟨schedule, hstored, hstatus⟩ := hv copy.id hpaused
      obtain rfl := Option.some.inj (current.symm.trans hstored)
      rcases hstatus with h | h
      · exact absurd h meets.2.1
      · exact absurd h (perform_spec performed).1
  | invoiced => exact hv
  | @advanced s f f' now dueAt copy current _ active =>
    refine hv.update fun hpaused => ?_
    rw [(advanced_billed host now copy dueAt).1, hv.not_active current active] at hpaused
    contradiction

/-- No schedule is billed in the turn that is paused. -/
def BillsNothingPaused (host : Host) (config : RecurringBillingConfig) (p : Service × Watch)
    (act : Act Call Told) : Prop :=
  ∀ id, p.2.paused id = true →
    (Transaction.commit (machine (service host config)) p.1 act).state.invoices id =
      p.1.state.invoices id

theorem Turned.pauses (h : Turned host config (Required host config) v c v')
    (hv : Halted paused v.state) :
    ∀ id, paused id = true → v'.state.invoices id = v.state.invoices id := by
  intro id hpaused
  cases h with
  | same | created | changed | advanced => rfl
  | @invoiced s f f' now dueAt copy current _ active =>
    refine State.invoices_createInvoice_ne ?_
    rintro rfl
    have hnot : paused copy.id = false := hv.not_active current active
    exact absurd (hpaused.symm.trans hnot) (by decide)

/-! ## Runs -/

structure Sequential (p : Service × Watch) : Prop where
  alone : Alone p
  due : ∀ task ∈ p.1.tasks, Due task
  counted : Counted (view p.1)
  windowed : Windowed p.1.state
  halted : Halted p.2.paused p.1.state

theorem Sequential.commit
    (hnext : ∀ cron zone t next, host.nextRunAfter cron zone t = some next → t < next)
    (h : Sequential p) (hturn : InTurn host config p act) :
    Sequential (Transaction.commit (watched host config) p act) := by
  have halone := h.alone.commit h.due hturn
  obtain ⟨hturned, hdue⟩ := commit_turned h.due (h.alone.undisturbed hturn)
  obtain he | ⟨-, he⟩ := commit_watching (machine (service host config))
    (fun g act _ (w : Watch) => w.after host config g act) p act
  · rw [he] at halone ⊢
    exact ⟨halone, hdue, hturned.counted hnext (fun _ _ _ h => h.1) h.counted,
      hturned.windowed hnext h.counted h.windowed, hturned.halted h.halted⟩
  · rw [he]
    exact h

def watchedFrom (began : Int) : Service × Watch := (initial, ⟨began, fun _ => false⟩)

theorem sequential_start (began : Int) : Sequential (watchedFrom began) where
  alone := ⟨Nat.zero_le 1, fun _ h => absurd h List.not_mem_nil,
    fun _ h => absurd h (Table.not_mem_empty _)⟩
  due := fun _ h => absurd h List.not_mem_nil
  counted := counted_initial
  windowed := ⟨fun _ h => absurd h (Table.not_mem_empty _),
    fun _ h => absurd h (Table.not_mem_empty _)⟩
  halted := by
    intro id h
    contradiction

/-- In every sequential run in which no next run is put before the start and no paused schedule is
given a new cadence, the due instants of a schedule increase, lie within its window and are no more
than it allows, and it is not billed while it is paused. -/
theorem windows_run (host : Host) (config : RecurringBillingConfig)
    (hnext : ∀ cron zone t next, host.nextRunAfter cron zone t = some next → t < next)
    (began : Int) (acts : List (Act Call Told))
    (h : Along (watched host config) (InTurn host config) (watchedFrom began) acts) :
    (∀ schedule ∈ (run (machine (service host config)) initial acts).state.schedules,
        BilledOnce (run (machine (service host config)) initial acts).state schedule ∧
          ∀ invoice ∈ (run (machine (service host config)) initial acts).state.invoices
            schedule.id, Within schedule invoice.dueAt) ∧
      Along (watched host config) (BillsNothingPaused host config) (watchedFrom began) acts := by
  have hstep : ∀ p act, Sequential p → InTurn host config p act →
      Sequential (Transaction.commit (watched host config) p act) :=
    fun p act hp hturn => hp.commit hnext hturn
  constructor
  · have hend := run_invariant hstep (sequential_start began) h
    have hrun : (run (watched host config) (watchedFrom began) acts).1 =
        run (machine (service host config)) initial acts := run_watching_fst _ _
    intro schedule hmem
    rw [← hrun] at hmem ⊢
    exact ⟨hend.counted.billedOnce hmem, hend.windowed.invoices schedule hmem⟩
  · refine along_of_invariant hstep (sequential_start began) h fun p act hp hturn => ?_
    obtain ⟨hturned, -⟩ := commit_turned hp.due (hp.alone.undisturbed hturn)
    exact hturned.pauses hp.halted

/-- A call that changes the schedule, up to its end. -/
def calls (operation : Operation) (now : Int) : List (Act Call Told) :=
  [.call (.change "t-1" "s-1" operation) (tells now), goesOn 0 now, goesOn 0 now]

/-- A sweep with one due schedule, up to its end. -/
def sweeps (now : Int) : List (Act Call Told) :=
  [sweepsAt now, goesOn 0 now, goesOn 0 now, goesOn 0 now]

/-- A schedule of every hour from some time on. -/
def everyHourFrom (startAt : Int) : List (Act Call Told) :=
  [.call (.createSchedule (hourly (some (.at startAt)) none)) (tells 1), goesOn 0 1]

/-- A schedule is billed, paused over the next run and resumed. -/
def pausedForAnHour : List (Act Call Told) :=
  everyHourFrom 7200000 ++ sweeps 7200000 ++ calls .pauseSchedule 7200001 ++
    [sweepsAt 10800000, goesOn 0 10800000] ++ calls .resumeSchedule 10800001 ++ sweeps 14400000

theorem pausedForAnHour_run :
    (∀ schedule ∈ (run (machine (service hours defaultConfig)) initial
          pausedForAnHour).state.schedules,
        BilledOnce (run (machine (service hours defaultConfig)) initial pausedForAnHour).state
            schedule ∧
          ∀ invoice ∈ (run (machine (service hours defaultConfig)) initial
            pausedForAnHour).state.invoices schedule.id, Within schedule invoice.dueAt) ∧
      Along (watched hours defaultConfig) (BillsNothingPaused hours defaultConfig) (watchedFrom 0)
        pausedForAnHour :=
  windows_run hours defaultConfig hours_next 0 pausedForAnHour (by decide +kernel)

/-- A schedule that starts after ten hours is paused and resumed before. -/
def resumedBeforeStart : List (Act Call Told) :=
  everyHourFrom 36000000 ++ calls .pauseSchedule 2 ++ calls .resumeSchedule 3 ++ sweeps 3600000

/-- A paused schedule is given a new cadence, and a sweep has found it. -/
def rescheduledWhilePaused : List (Act Call Told) :=
  everyHourFrom 1 ++ calls .pauseSchedule 2 ++ calls (.reschedule ⟨none, some .hourly, none⟩) 3 ++
    [sweepsAt 3600000]

/-- An invoice falls due before the start, and one is made for a schedule that is paused. -/
theorem windows_go_wrong :
    ((run (machine (service hours defaultConfig)) initial resumedBeforeStart).state.invoices
          "s-1").map (·.dueAt) = [3600000] ∧
      ((run (machine (service hours defaultConfig)) initial
        resumedBeforeStart).state.schedules.get "s-1").map (·.startAt) = some 36000000 ∧
      (run (watched hours defaultConfig) (watchedFrom 0) rescheduledWhilePaused).2.paused "s-1" =
        true ∧
      ((run (machine (service hours defaultConfig)) initial
        rescheduledWhilePaused).state.invoices "s-1").length = 0 ∧
      ((run (machine (service hours defaultConfig)) initial
        (rescheduledWhilePaused ++ [goesOn 0 3600000])).state.invoices "s-1").length = 1 := by
  decide +kernel

end Recurring
