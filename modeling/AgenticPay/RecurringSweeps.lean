import AgenticPay.RecurringTurns

/-!
# Sweeps and other calls at the same time

A sweep bills a copy of a schedule and writes the copy back later. As long as every turn finds the
schedule in the store as it was copied, and no two sweeps have an invoice of one schedule under way,
a schedule is billed once for each run and no more often than it may be, and what is cancelled stays
cancelled.
-/
namespace Recurring

open Records Awaits Transaction

/-- The due instants of the invoices increase, and there are no more than the schedule allows. -/
structure BilledOnce (s : State) (schedule : RecurringSchedule) : Prop where
  increasing : ((s.invoices schedule.id).map (·.dueAt)).Pairwise (· < ·)
  runs : ∀ m ∈ schedule.maxRuns, (s.invoices schedule.id).length ≤ m

/-- The invoices are those that the schedule has counted. -/
structure Numbered (schedule : RecurringSchedule) (invoices : List RecurringInvoice) : Prop where
  count : invoices.length = schedule.runCount
  increasing : (invoices.map (·.dueAt)).Pairwise (· < ·)
  last : ∀ invoice ∈ invoices, ∃ last ∈ schedule.lastRunAt, invoice.dueAt ≤ last

/-- What a schedule says of its runs fits together. -/
structure Orderly (schedule : RecurringSchedule) : Prop where
  runs : ∀ m ∈ schedule.maxRuns, schedule.runCount ≤ m
  left : schedule.status = .active → ∀ m ∈ schedule.maxRuns, schedule.runCount < m
  next : ∀ next ∈ schedule.nextRunAt, ∀ last ∈ schedule.lastRunAt, last < next

/-- A copy is under way: its invoice comes after those that the stored schedule has counted. -/
structure Raced (s : State) (copy schedule : RecurringSchedule) : Prop where
  stored : s.schedules.get copy.id = some schedule
  maxRuns : copy.maxRuns = schedule.maxRuns
  runCount : copy.runCount = schedule.runCount
  lastRunAt : copy.lastRunAt = schedule.lastRunAt
  left : ∀ m ∈ copy.maxRuns, copy.runCount < m
  invoices : ∃ counted invoice, s.invoices copy.id = counted ++ [invoice] ∧
    Numbered schedule counted ∧ copy.nextRunAt = some invoice.dueAt ∧
      ∀ last ∈ copy.lastRunAt, last < invoice.dueAt

structure Counted (v : View) : Prop where
  alone : (v.underWay.map (·.id)).Nodup
  orderly : ∀ schedule ∈ v.state.schedules, Orderly schedule
  numbered : ∀ schedule ∈ v.state.schedules, schedule.id ∉ v.underWay.map (·.id) →
    Numbered schedule (v.state.invoices schedule.id)
  raced : ∀ copy ∈ v.underWay, ∃ schedule, Raced v.state copy schedule
  unknown : ∀ id, v.state.schedules.get id = none → v.state.invoices id = []

variable {host : Host} {config : RecurringBillingConfig} {v v' : View} {s : State}
  {c : Option (Operation × RecurringSchedule)}
  {f f' : List RecurringSchedule} {now dueAt : Int}
  {schedule saved copy other : RecurringSchedule} {invoices : List RecurringInvoice}
  {id : ScheduleId} {operation : Operation}

/-! ## One schedule -/

theorem Numbered.concat {invoice : RecurringInvoice} (h : Numbered schedule invoices)
    (hafter : ∀ last ∈ schedule.lastRunAt, last < invoice.dueAt) :
    ((invoices ++ [invoice]).map (·.dueAt)).Pairwise (· < ·) := by
  rw [List.map_append, List.pairwise_append]
  refine ⟨h.increasing, List.pairwise_singleton _ _, ?_⟩
  intro a ha b hb
  obtain ⟨earlier, hearlier, rfl⟩ := List.mem_map.mp ha
  obtain ⟨last, hlast, hle⟩ := h.last earlier hearlier
  rw [List.mem_singleton.mp hb]
  exact hle.trans_lt (hafter last hlast)

theorem Numbered.kept (h : Numbered schedule invoices) (hkept : Kept schedule saved) :
    Numbered saved invoices :=
  ⟨h.count.trans hkept.runCount.symm, h.increasing, hkept.lastRunAt ▸ h.last⟩

/-- The invoice of a schedule that has been billed is counted. -/
theorem Numbered.advanced {invoice : RecurringInvoice} (h : Numbered schedule invoices)
    (hafter : ∀ last ∈ schedule.lastRunAt, last < invoice.dueAt) :
    Numbered (advanced host now schedule invoice.dueAt) (invoices ++ [invoice]) := by
  obtain ⟨-, -, hcount, hlast, -, -⟩ := advanced_billed host now schedule invoice.dueAt
  refine ⟨?_, h.concat hafter, fun i hi => ⟨invoice.dueAt, hlast, ?_⟩⟩
  · rw [hcount, List.length_append, h.count]
    rfl
  · rcases List.mem_append.mp hi with hold | hnew
    · obtain ⟨last, hmem, hle⟩ := h.last i hold
      exact hle.trans (hafter last hmem).le
    · rw [List.mem_singleton.mp hnew]

theorem runsExhausted_eq_false : runsExhausted schedule = false ↔
    ∀ m ∈ schedule.maxRuns, schedule.runCount < m := by
  rw [runsExhausted]
  cases schedule.maxRuns with
  | none => simp
  | some m => simp

theorem Orderly.performed (h : Orderly schedule)
    (hnext : ∀ cron zone t next, host.nextRunAfter cron zone t = some next → t < next)
    (hlater : Later now operation schedule)
    (hperform : perform host config now schedule operation = .ok saved) : Orderly saved := by
  obtain ⟨-, hkept, hspec⟩ := perform_spec hperform
  have hruns : ∀ m ∈ saved.maxRuns, saved.runCount ≤ m := by
    rw [hkept.maxRuns, hkept.runCount]
    exact h.runs
  have hrecomputed : operation.recomputes = true → Recomputed host now schedule saved →
      Orderly saved := by
    intro hrecomputes hspec
    refine ⟨hruns, fun hactive => ?_, fun next hmem last hlast => ?_⟩
    · rw [hkept.maxRuns, hkept.runCount]
      exact runsExhausted_eq_false.mp (hspec.left hactive)
    · rw [hkept.lastRunAt] at hlast
      exact (hlater hrecomputes last hlast).trans_lt (hnext _ _ _ _ (hspec.next next hmem).2.1)
  cases hspec with
  | paused active status next =>
    refine ⟨hruns, fun hactive => ?_, ?_⟩
    · rw [status] at hactive
      contradiction
    · rw [next, hkept.lastRunAt]
      exact h.next
  | resumed _ spec => exact hrecomputed rfl spec
  | cancelled status next =>
    refine ⟨hruns, fun hactive => ?_, fun _ hmem => ?_⟩
    · rw [status] at hactive
      contradiction
    · rw [next] at hmem
      contradiction
  | rescheduled spec => exact hrecomputed rfl spec

theorem orderly_advanced
    (hnext : ∀ cron zone t next, host.nextRunAfter cron zone t = some next → t < next)
    (hleft : ∀ m ∈ schedule.maxRuns, schedule.runCount < m) :
    Orderly (advanced host now schedule dueAt) := by
  obtain ⟨-, hmax, hcount, hlast, -, -⟩ := advanced_billed host now schedule dueAt
  have hruns : ∀ m ∈ (advanced host now schedule dueAt).maxRuns,
      (advanced host now schedule dueAt).runCount ≤ m := by
    rw [hmax, hcount]
    exact hleft
  obtain ⟨hstatus, hnone⟩ | ⟨-, hless, next, hsome, hafter, -⟩ :=
    advanced_next host now schedule dueAt
  · refine ⟨hruns, fun hactive => ?_, fun _ hmem => ?_⟩
    · rw [hstatus] at hactive
      contradiction
    · rw [hnone] at hmem
      contradiction
  · refine ⟨hruns, fun _ => ?_, fun n hn last hmem => ?_⟩
    · rw [hmax, hcount]
      exact hless
    · rw [hsome] at hn
      rw [hlast] at hmem
      rw [← Option.some.inj hn, ← Option.some.inj hmem]
      exact hnext _ _ _ _ hafter

theorem orderly_newSchedule {wanted : NormalizedRecurringSchedule}
    (hruns : ∀ m ∈ wanted.maxRuns, 0 < m) : Orderly (newSchedule host now id wanted) :=
  ⟨fun m hm => (hruns m hm).le, fun _ => hruns, fun _ _ _ hlast => absurd hlast
    (Option.not_mem_none _)⟩

/-! ## The store -/

theorem State.invoices_createInvoice_self (s : State) (invoice : RecurringInvoice) :
    (s.createInvoice invoice).invoices invoice.scheduleId =
      s.invoices invoice.scheduleId ++ [invoice] := Function.update_self ..

theorem State.invoices_createInvoice_ne {invoice : RecurringInvoice} (h : id ≠ invoice.scheduleId) :
    (s.createInvoice invoice).invoices id = s.invoices id := Function.update_of_ne h _ _

theorem Raced.elsewhere (h : Raced s other schedule) (hne : other.id ≠ saved.id) :
    Raced (s.update saved) other schedule :=
  ⟨(Table.get_set_ne hne).trans h.stored, h.maxRuns, h.runCount, h.lastRunAt, h.left, h.invoices⟩

theorem Raced.kept (h : Raced s other copy) (hkept : Kept copy saved) (he : other.id = saved.id) :
    Raced (s.update saved) other saved where
  stored := by rw [he]; exact Table.get_set_self _ _
  maxRuns := h.maxRuns.trans hkept.maxRuns.symm
  runCount := h.runCount.trans hkept.runCount.symm
  lastRunAt := h.lastRunAt.trans hkept.lastRunAt.symm
  left := h.left
  invoices := by
    obtain ⟨counted, invoice, hinvoices, hnumbered, hdue, hlast⟩ := h.invoices
    exact ⟨counted, invoice, hinvoices, hnumbered.kept hkept, hdue, hlast⟩

theorem Counted.created {wanted : NormalizedRecurringSchedule} (h : Counted ⟨s, f⟩)
    (hfresh : s.schedules.get id = none) (hruns : ∀ m ∈ wanted.maxRuns, 0 < m) :
    Counted ⟨s.update (newSchedule host now id wanted), f⟩ where
  alone := h.alone
  orderly := Table.forall_set (orderly_newSchedule hruns) h.orderly
  numbered := by
    intro schedule hmem hnot
    rcases Table.mem_set.mp hmem with rfl | ⟨hold, _⟩
    · have hnone : s.invoices id = [] := h.unknown id hfresh
      show Numbered _ (s.invoices id)
      rw [hnone]
      exact ⟨rfl, List.Pairwise.nil, fun _ hi => absurd hi List.not_mem_nil⟩
    · exact h.numbered schedule hold hnot
  raced := by
    intro other hother
    obtain ⟨schedule, hraced⟩ := h.raced other hother
    refine ⟨schedule, hraced.elsewhere ?_⟩
    rintro rfl
    exact absurd (hfresh.symm.trans hraced.stored) (by simp)
  unknown := by
    intro other hnone
    by_cases he : other = id
    · rw [he]
      exact h.unknown id hfresh
    · exact h.unknown other ((Table.get_set_ne he).symm.trans hnone)

theorem Counted.changed (h : Counted ⟨s, f⟩) (hcurrent : IsCurrent s copy)
    (hkept : Kept copy saved) (horderly : Orderly saved) (hperm : f'.Perm f) :
    Counted ⟨s.update saved, f'⟩ where
  alone := (hperm.map _).nodup_iff.mpr h.alone
  orderly := Table.forall_set horderly h.orderly
  numbered := by
    intro schedule hmem hnot
    have hnot' : schedule.id ∉ f.map (·.id) := fun hin => hnot ((hperm.map _).mem_iff.mpr hin)
    rcases Table.mem_set.mp hmem with rfl | ⟨hold, _⟩
    · rw [hkept.id] at hnot' ⊢
      exact (h.numbered copy (Table.get_some hcurrent).1 hnot').kept hkept
    · exact h.numbered schedule hold hnot'
  raced := by
    intro other hother
    obtain ⟨schedule, hraced⟩ := h.raced other (hperm.mem_iff.mp hother)
    by_cases he : other.id = saved.id
    · have hstored := hraced.stored
      rw [he, hkept.id] at hstored
      obtain rfl := Option.some.inj (hcurrent.symm.trans hstored)
      exact ⟨saved, hraced.kept hkept he⟩
    · exact ⟨schedule, hraced.elsewhere he⟩
  unknown := by
    intro other hnone
    have hne : other ≠ saved.id := by
      rintro rfl
      exact absurd ((Table.get_set_self s.schedules saved).symm.trans hnone) (by simp)
    exact h.unknown other ((Table.get_set_ne hne).symm.trans hnone)

theorem Counted.invoiced (h : Counted ⟨s, f⟩) (hcurrent : IsCurrent s copy)
    (hfree : ∀ other ∈ f, other.id ≠ copy.id) (hactive : copy.status = .active)
    (hdue : copy.nextRunAt = some dueAt) (hperm : f'.Perm (copy :: f)) :
    Counted ⟨s.createInvoice (invoiceOf now copy dueAt), f'⟩ := by
  have horderly := h.orderly copy (Table.get_some hcurrent).1
  have hnotin : copy.id ∉ f.map (·.id) := by
    intro hmem
    obtain ⟨other, hother, he⟩ := List.mem_map.mp hmem
    exact hfree other hother he
  refine ⟨?_, h.orderly, ?_, ?_, ?_⟩
  · exact (hperm.map _).nodup_iff.mpr (List.nodup_cons.mpr ⟨hnotin, h.alone⟩)
  · intro schedule hmem hnot
    have hnot' : schedule.id ∉ (copy :: f).map (·.id) :=
      fun hin => hnot ((hperm.map _).mem_iff.mpr hin)
    dsimp only
    rw [State.invoices_createInvoice_ne (List.ne_of_not_mem_cons hnot')]
    exact h.numbered schedule hmem (List.not_mem_of_not_mem_cons hnot')
  · intro other hother
    rcases List.mem_cons.mp (hperm.mem_iff.mp hother) with rfl | hin
    · refine ⟨other, hcurrent, rfl, rfl, rfl, horderly.left hactive, _, _,
        State.invoices_createInvoice_self s _, h.numbered other (Table.get_some hcurrent).1 hnotin,
        hdue, ?_⟩
      exact horderly.next dueAt hdue
    · obtain ⟨schedule, hraced⟩ := h.raced other hin
      refine ⟨schedule, hraced.stored, hraced.maxRuns, hraced.runCount, hraced.lastRunAt,
        hraced.left, ?_⟩
      rw [State.invoices_createInvoice_ne (hfree other hin)]
      exact hraced.invoices
  · intro other hnone
    have hne : other ≠ copy.id := by
      rintro rfl
      exact absurd (hcurrent.symm.trans hnone) (by simp)
    dsimp only
    rw [State.invoices_createInvoice_ne hne]
    exact h.unknown other hnone

theorem Counted.advanced
    (hnext : ∀ cron zone t next, host.nextRunAfter cron zone t = some next → t < next)
    (h : Counted ⟨s, f⟩) (hcurrent : IsCurrent s copy) (hperm : f.Perm (copy :: f'))
    (hdue : copy.nextRunAt = some dueAt) :
    Counted ⟨s.update (advanced host now copy dueAt), f'⟩ := by
  have halone : ((copy :: f').map (·.id)).Nodup := (hperm.map _).nodup_iff.mp h.alone
  obtain ⟨hnotin, hrest⟩ := List.nodup_cons.mp halone
  have hid : (Recurring.advanced host now copy dueAt).id = copy.id :=
    (advanced_billed host now copy dueAt).1
  obtain ⟨stored, hraced⟩ := h.raced copy (hperm.mem_iff.mpr List.mem_cons_self)
  obtain rfl := Option.some.inj (hcurrent.symm.trans hraced.stored)
  obtain ⟨counted, invoice, hinvoices, hnumbered, hnextRun, hlast⟩ := hraced.invoices
  obtain rfl := Option.some.inj (hdue.symm.trans hnextRun)
  refine ⟨hrest, ?_, ?_, ?_, ?_⟩
  · exact Table.forall_set (orderly_advanced hnext hraced.left) h.orderly
  · intro schedule hmem hnot
    rcases Table.mem_set.mp hmem with rfl | ⟨hold, hne⟩
    · rw [hid]
      show Numbered _ (s.invoices copy.id)
      rw [hinvoices]
      exact hnumbered.advanced hlast
    · rw [hid] at hne
      refine h.numbered schedule hold fun hin => ?_
      rcases List.mem_cons.mp ((hperm.map _).mem_iff.mp hin) with he | hin
      · exact hne he
      · exact hnot hin
  · intro other hother
    obtain ⟨schedule, hotherRaced⟩ :=
      h.raced other (hperm.mem_iff.mpr (List.mem_cons_of_mem _ hother))
    refine ⟨schedule, hotherRaced.elsewhere ?_⟩
    rw [hid]
    intro he
    exact hnotin (List.mem_map.mpr ⟨other, hother, he⟩)
  · intro other hnone
    have hne : other ≠ (Recurring.advanced host now copy invoice.dueAt).id := by
      rintro rfl
      exact absurd ((Table.get_set_self s.schedules _).symm.trans hnone) (by simp)
    exact h.unknown other ((Table.get_set_ne hne).symm.trans hnone)

theorem Turned.counted {P : Int → Operation → RecurringSchedule → Prop}
    (hnext : ∀ cron zone t next, host.nextRunAfter cron zone t = some next → t < next)
    (hlater : ∀ now operation copy, P now operation copy → Later now operation copy)
    (h : Turned host config P v c v') (hv : Counted v) : Counted v' := by
  cases h with
  | same flight =>
    exact ⟨(flight.map _).nodup_iff.mpr hv.alone, hv.orderly,
      fun schedule hmem hnot => hv.numbered schedule hmem fun hin =>
        hnot ((flight.map _).mem_iff.mpr hin),
      fun copy hcopy => hv.raced copy (flight.mem_iff.mp hcopy), hv.unknown⟩
  | created fresh valid => exact hv.created fresh (validateRuns_ok (validated valid).2.2)
  | changed current meets performed flight =>
    have horderly := hv.orderly _ (Table.get_some current).1
    exact hv.changed current (perform_spec performed).2.1
      (horderly.performed hnext (hlater _ _ _ meets) performed) flight
  | invoiced current free active due flight => exact hv.invoiced current free active due flight
  | advanced current flight _ due => exact hv.advanced hnext current flight due

theorem Counted.billedOnce (h : Counted v) (hmem : schedule ∈ v.state.schedules) :
    BilledOnce v.state schedule := by
  have horderly := h.orderly schedule hmem
  by_cases hin : schedule.id ∈ v.underWay.map (·.id)
  · obtain ⟨copy, hcopy, he⟩ := List.mem_map.mp hin
    obtain ⟨stored, hraced⟩ := h.raced copy hcopy
    obtain rfl : schedule = stored :=
      Option.some.inj ((Table.get_of_mem hmem).symm.trans (he ▸ hraced.stored))
    obtain ⟨counted, invoice, hinvoices, hnumbered, -, hlast⟩ := hraced.invoices
    rw [he] at hinvoices
    refine ⟨?_, fun m hm => ?_⟩
    · rw [hinvoices]
      exact hnumbered.concat (hraced.lastRunAt ▸ hlast)
    · have hleft := hraced.left m (hraced.maxRuns.symm ▸ hm)
      rw [hinvoices, List.length_append, hnumbered.count, ← hraced.runCount]
      exact hleft
  · have hnumbered := h.numbered schedule hmem hin
    refine ⟨hnumbered.increasing, fun m hm => ?_⟩
    rw [hnumbered.count]
    exact horderly.runs m hm

theorem counted_initial : Counted (view initial) where
  alone := List.nodup_nil
  orderly := fun _ h => absurd h (Table.not_mem_empty _)
  numbered := fun _ h => absurd h (Table.not_mem_empty _)
  raced := fun _ h => absurd h List.not_mem_nil
  unknown := fun _ _ => rfl

/-! ## Cancelled schedules -/

theorem Turned.cancelled {P : Int → Operation → RecurringSchedule → Prop}
    (h : Turned host config P v c v')
    (hmem : schedule ∈ v.state.schedules) (hcancelled : schedule.status = .cancelled) :
    schedule ∈ v'.state.schedules := by
  -- a copy that is written back is of another schedule
  have hother : ∀ {s : State} {copy saved : RecurringSchedule}, schedule ∈ s.schedules →
      IsCurrent s copy → copy.status ≠ .cancelled → saved.id = copy.id →
        schedule ∈ (s.update saved).schedules := by
    intro s copy saved hmem hcurrent hnot hid
    refine Table.mem_set.mpr (.inr ⟨hmem, fun he => hnot ?_⟩)
    rw [Table.key_injective (Table.get_some hcurrent).1 hmem (hid.symm.trans he.symm)]
    exact hcancelled
  cases h with
  | same => exact hmem
  | @created s f now id input wanted fresh =>
    exact Table.mem_set_fresh fresh hmem
  | changed current _ performed =>
    obtain ⟨hnot, hkept, -⟩ := perform_spec performed
    exact hother hmem current hnot hkept.id
  | invoiced => exact hmem
  | @advanced s f f' now dueAt copy current _ active _ =>
    exact hother hmem current (by simp [active]) (advanced_billed host now copy dueAt).1

variable {g : Service} {act : Act Call Told}

/-- A schedule that has been cancelled stays as it is, and what a call returns as cancelled is. -/
def StaysCancelled (host : Host) (config : RecurringBillingConfig) (g : Service)
    (act : Act Call Told) : Prop :=
  (∀ schedule ∈ g.state.schedules, schedule.status = .cancelled →
      schedule ∈ (commit (machine (service host config)) g act).state.schedules) ∧
    ∀ saved g', machine (service host config) act g = .ok (.done (.ok (.schedule saved)), g') →
      saved.status = .cancelled → saved ∈ g'.state.schedules

/-- The schedules that calls are about to return as cancelled are cancelled. -/
def Announced (g : Service) : Prop :=
  ∀ saved, .publishing saved ∈ g.tasks → saved.status = .cancelled → saved ∈ g.state.schedules

theorem publishing_request {told : Told} {c : Call} {ends : Ends}
    (h : request host config told g.state c = some ends) (hmem : .publishing saved ∈ ends.1.tasks) :
    saved ∈ ends.2.schedules := by
  cases c with
  | createSchedule input =>
    rw [request] at h
    split_ifs at h
    obtain rfl := Option.some.inj h
    rw [createSchedule] at hmem ⊢
    split at hmem
    next => exact absurd hmem List.not_mem_nil
    next wanted hvalid =>
      obtain rfl : saved = _ := by simpa [Turn.tasks] using hmem
      exact Table.mem_set.mpr (.inl rfl)
  | change tenantId scheduleId operation =>
    obtain rfl := Option.some.inj h
    exact absurd hmem (by simp [Turn.tasks])
  | runDue instant =>
    obtain rfl := Option.some.inj h
    rw [runDue] at hmem
    split at hmem <;> exact absurd hmem (by simp [Turn.tasks])

theorem publishing_resume {told : Told} {task : Waiting}
    (hmem : .publishing saved ∈ (resume host config told s task).1.tasks) :
    saved ∈ (resume host config told s task).2.schedules := by
  have hloop : ∀ sweep : Sweep,
      .publishing saved ∉ (nextInvoice sweep s sweep.rest).1.tasks := by
    intro sweep hin
    obtain ⟨_, he⟩ | ⟨copy, left, dueAt, _, _, _, he⟩ := nextInvoice_cases sweep s sweep.rest <;>
      simp [he, Turn.tasks] at hin
  cases task with
  | reading tenantId scheduleId operation found =>
    rw [resume, change] at hmem ⊢
    split at hmem
    next => exact absurd hmem List.not_mem_nil
    next copy hfound =>
      cases hperform : perform host config told.now copy operation with
      | error failure =>
        rw [hperform] at hmem
        exact absurd hmem List.not_mem_nil
      | ok changed =>
        rw [hperform] at hmem
        obtain rfl : saved = changed := by simpa [Turn.tasks] using hmem
        exact Table.mem_set.mpr (.inl rfl)
  | publishing other =>
    rw [resume] at hmem
    split at hmem <;> exact absurd hmem List.not_mem_nil
  | finding sweep => exact absurd hmem (hloop sweep)
  | billing sweep copy invoice => exact absurd hmem (by simp [resume, billed, Turn.tasks])
  | generated sweep =>
    rw [resume] at hmem
    split at hmem
    · exact absurd hmem List.not_mem_nil
    · exact absurd hmem (hloop sweep)

theorem Announced.commit {P : Int → Operation → RecurringSchedule → Prop} (h : Announced g)
    (hturned : Turned host config P (view g) (changeOf host config g act)
      (view (Transaction.commit (machine (service host config)) g act))) :
    Announced (Transaction.commit (machine (service host config)) g act) := by
  obtain hmoves | he := commit_moves (service host config) g act
  · generalize Transaction.commit (machine (service host config)) g act = g' at hmoves hturned
    intro saved hmem hcancelled
    cases hmoves with
    | @called c told t s hcalled =>
      rcases List.mem_append.mp hmem with hold | hnew
      · exact hturned.cancelled (h saved hold hcancelled) hcancelled
      · have he : request host config told g.state c = some (t, s) := hcalled
        exact publishing_request he hnew
    | @resumed i told task t s hwaiting hresumed =>
      have he : resume host config told g.state task = (t, s) := hresumed
      rcases List.mem_append.mp hmem with hold | hnew
      · exact hturned.cancelled (h saved (List.eraseIdx_subset hold) hcancelled) hcancelled
      · have hresume : .publishing saved ∈ (resume host config told g.state task).1.tasks →
            saved ∈ (resume host config told g.state task).2.schedules := publishing_resume
        rw [he] at hresume
        exact hresume hnew
  · rw [he]
    exact h

theorem request_waits {told : Told} {c : Call} {ends : Ends}
    (h : request host config told g.state c = some ends) :
    ends.1 ≠ .done (.ok (.schedule saved)) := by
  cases c with
  | createSchedule input =>
    rw [request] at h
    split_ifs at h
    obtain rfl := Option.some.inj h
    rw [createSchedule]
    split <;> simp
  | change tenantId scheduleId operation =>
    obtain rfl := Option.some.inj h
    simp
  | runDue instant =>
    obtain rfl := Option.some.inj h
    rw [runDue]
    split <;> simp

theorem resume_returns {told : Told} {task : Waiting}
    (h : (resume host config told s task).1 = .done (.ok (.schedule saved))) :
    task = .publishing saved ∧ (resume host config told s task).2 = s := by
  have hloop : ∀ sweep : Sweep,
      (nextInvoice sweep s sweep.rest).1 ≠ .done (.ok (.schedule saved)) := by
    intro sweep hdone
    obtain ⟨_, he⟩ | ⟨copy, left, dueAt, _, _, _, he⟩ := nextInvoice_cases sweep s sweep.rest <;>
      simp [he] at hdone
  cases task with
  | reading tenantId scheduleId operation found =>
    rw [resume, change] at h
    split at h
    · simp at h
    · split at h <;> simp at h
  | publishing other =>
    rw [resume] at h ⊢
    split at h
    next => simp at h
    next hthrows =>
      simp only [Turn.done.injEq, Except.ok.injEq, Response.schedule.injEq] at h
      exact ⟨by rw [h], rfl⟩
  | finding sweep => exact absurd h (hloop sweep)
  | billing sweep copy invoice => simp [resume, billed] at h
  | generated sweep =>
    rw [resume] at h
    split at h
    · simp at h
    · exact absurd h (hloop sweep)

/-- A call that returns a schedule has waited for its publisher. -/
theorem returned_publishing {g' : Service} (h : machine (service host config) act g =
      .ok (.done (.ok (.schedule saved)), g')) :
    .publishing saved ∈ g.tasks ∧ g'.state = g.state := by
  cases act with
  | call c told =>
    cases hcall : request host config told g.state c with
    | none => simp [machine, service, hcall] at h
    | some ends =>
      simp only [machine, service, hcall, Except.ok.injEq, Prod.mk.injEq] at h
      exact absurd h.1 (request_waits hcall)
  | resume i told =>
    cases hwaiting : g.tasks[i]? with
    | none => simp [machine, hwaiting] at h
    | some task =>
      simp only [machine, hwaiting, service, Except.ok.injEq, Prod.mk.injEq] at h
      obtain ⟨rfl, hsame⟩ := resume_returns h.1
      exact ⟨List.mem_of_getElem? hwaiting, by rw [← h.2, hsame]⟩

/-! ## Runs -/

/-- In every order of calls and waits in which every turn rests on current copies, each schedule is
billed once for a due instant and no more often than it may be, and what is cancelled stays so. -/
theorem sweeps_run (host : Host) (config : RecurringBillingConfig)
    (hnext : ∀ cron zone t next, host.nextRunAfter cron zone t = some next → t < next)
    (acts : List (Act Call Told))
    (h : Along (machine (service host config)) (Undisturbed host config Later) initial acts) :
    (∀ schedule ∈ (run (machine (service host config)) initial acts).state.schedules,
        BilledOnce (run (machine (service host config)) initial acts).state schedule) ∧
      Along (machine (service host config)) (StaysCancelled host config) initial acts := by
  constructor
  · intro schedule hmem
    have hend := run_turned (I := Counted)
      (fun _ _ _ hturned hv => hturned.counted hnext (fun _ _ _ h => h) hv) counted_initial
      (fun _ h => absurd h List.not_mem_nil) h
    exact hend.billedOnce hmem
  · refine along_of_invariant (I := fun g => Announced g ∧ ∀ task ∈ g.tasks, Due task)
      (fun g act hi hq => ?_) ?_ h (fun g act hi hq => ?_)
    · obtain ⟨hturned, hdue⟩ := commit_turned hi.2 hq
      exact ⟨hi.1.commit hturned, hdue⟩
    · exact ⟨fun _ h => absurd h List.not_mem_nil, fun _ h => absurd h List.not_mem_nil⟩
    · obtain ⟨hturned, -⟩ := commit_turned hi.2 hq
      refine ⟨fun schedule hmem hcancelled => hturned.cancelled hmem hcancelled, ?_⟩
      intro saved g' hreturned hcancelled
      obtain ⟨hmem, hsame⟩ := returned_publishing hreturned
      rw [hsame]
      exact hi.1 saved hmem hcancelled

/-! ## Every hour -/

/-- The zone UTC, with the cron expression of every hour. -/
def hours : Host where
  toUpperCase := fun text => text
  showNumber := fun _ => ""
  localeLe := fun a b => decide (a ≤ b)
  knowsTimezone := fun zone => zone = "UTC"
  parsesCron := fun cron zone => cron = "0 * * * *" && zone = "UTC"
  nextRunAfter := fun cron zone after =>
    if cron = "0 * * * *" ∧ zone = "UTC" then some ((after / 3600000 + 1) * 3600000) else none

theorem hours_next : ∀ cron zone t next, hours.nextRunAfter cron zone t = some next → t < next := by
  intro cron zone t next h
  rw [hours] at h
  dsimp only at h
  split_ifs at h
  have hnext := Option.some.inj h
  omega

def defaultConfig : RecurringBillingConfig where
  supportedCurrencies := ["USD", "EUR", "GBP", "XLM", "USDC"]
  minAmount := 1 / 100
  maxAmount := 1000000
  defaultCurrency := "USD"
  defaultTimezone := "UTC"
  defaultPreset := .monthly

def tells (now : Int) : Told := ⟨now, "s-1", none⟩

/-- A schedule of every hour, from some time on and for so many runs. -/
def hourly (startAt : Option DateInput) (maxRuns : Option ℚ) : CreateRecurringScheduleInput where
  tenantId := "t-1"
  customerId := "c-1"
  amount := some 10
  currency := none
  cronExpression := none
  preset := some .hourly
  timezone := none
  startAt := startAt
  endAt := none
  maxRuns := maxRuns

def everyHour (maxRuns : Option ℚ) : Act Call Told :=
  .call (.createSchedule (hourly none maxRuns)) (tells 1)

def sweepsAt (now : Int) : Act Call Told := .call (.runDue none) (tells now)

def cancels (now : Int) : Act Call Told :=
  .call (.change "t-1" "s-1" .cancelSchedule) (tells now)

def goesOn (i : Nat) (now : Int) : Act Call Told := .resume i (tells now)

/-- Two sweeps, one after the other, and then the schedule is cancelled. -/
def sweepsInTurn : List (Act Call Told) :=
  [everyHour (some 3), goesOn 0 1, sweepsAt 3600000, goesOn 0 3600000, goesOn 0 3600000,
    goesOn 0 3600000, sweepsAt 7200000, goesOn 0 7200000, goesOn 0 7200000, goesOn 0 7200000,
    cancels 7200001, goesOn 0 7200001, goesOn 0 7200001, sweepsAt 10800000, goesOn 0 10800000]

theorem sweepsInTurn_run :
    (∀ schedule ∈ (run (machine (service hours defaultConfig)) initial
          sweepsInTurn).state.schedules,
        BilledOnce (run (machine (service hours defaultConfig)) initial sweepsInTurn).state
          schedule) ∧
      Along (machine (service hours defaultConfig)) (StaysCancelled hours defaultConfig) initial
        sweepsInTurn :=
  sweeps_run hours defaultConfig hours_next sweepsInTurn (by decide +kernel)

/-- Two sweeps read the schedule before either writes it back. -/
def sweepsAtOnce : List (Act Call Told) :=
  [everyHour (some 1), goesOn 0 1, sweepsAt 3600000, sweepsAt 3600000, goesOn 0 3600000,
    goesOn 0 3600000]

/-- The schedule is cancelled while a sweep waits for its invoice. -/
def cancelledMeanwhile : List (Act Call Told) :=
  [everyHour none, goesOn 0 1, sweepsAt 3600000, goesOn 0 3600000, cancels 3600000,
    goesOn 1 3600000, goesOn 1 3600000]

/-- One run is billed twice, although one is all that is allowed, and a schedule whose cancellation
has been returned is active again. -/
theorem sweeps_go_wrong :
    ((run (machine (service hours defaultConfig)) initial sweepsAtOnce).state.invoices "s-1").map
        (·.dueAt) = [3600000, 3600000] ∧
      ((run (machine (service hours defaultConfig)) initial sweepsAtOnce).state.schedules.get
        "s-1").bind (·.maxRuns) = some 1 ∧
      ((run (machine (service hours defaultConfig)) initial
        cancelledMeanwhile).state.schedules.get "s-1").map (·.status) = some .cancelled ∧
      ((run (machine (service hours defaultConfig)) initial
        (cancelledMeanwhile ++ [goesOn 0 3600000])).state.schedules.get "s-1").map (·.status) =
          some .active := by
  decide +kernel

end Recurring
