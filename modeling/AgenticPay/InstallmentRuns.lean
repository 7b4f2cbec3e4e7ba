import AgenticPay.Installments
import Mathlib.Data.List.Perm.Subperm

/-!
# Runs of payments in installments

A call writes back the whole copy that it has read. In a run in which nobody has written the plan in
between, an installment is paid once and stays so, a cancelled plan stays cancelled, and a plan is
completed when all its installments are paid.
-/
namespace Installments

open Awaits Records Transaction

abbrev Service := Config State Waiting

/-- A plan is completed when all its installments are paid. -/
def Sound (plan : InstallmentPlan) : Prop :=
  plan.status = .completed ↔ allPaid plan.installments = true

instance (plan : InstallmentPlan) : Decidable (Sound plan) := inferInstanceAs (Decidable (_ ↔ _))

/-- A plan as it is created. -/
structure Opened (plan : InstallmentPlan) : Prop where
  active : plan.status = .active
  nonempty : plan.installments ≠ []
  scheduled : ∀ i ∈ plan.installments, i.status = .scheduled

instance (plan : InstallmentPlan) : Decidable (Opened plan) :=
  decidable_of_iff (plan.status = .active ∧ plan.installments ≠ [] ∧
      ∀ i ∈ plan.installments, i.status = .scheduled)
    ⟨fun h => ⟨h.1, h.2.1, h.2.2⟩, fun h => ⟨h.1, h.2, h.3⟩⟩

/-! ## Payments and cancellations -/

/-- The payment that is written, and whose call has not succeeded yet. -/
def Waiting.payment? : Waiting → Option Payment
  | .publishing (.payInstallment index paymentId _) saved _ => some ⟨saved.id, index, paymentId⟩
  | _ => none

def Waiting.cancellation? : Waiting → Option PlanId
  | .publishing .cancelPlan saved _ => some saved.id
  | _ => none

def payments (g : Service) : List Payment :=
  g.state.payments ++ g.tasks.filterMap Waiting.payment?

def cancellations (g : Service) : List PlanId :=
  g.state.cancellations ++ g.tasks.filterMap Waiting.cancellation?

/-- The installment is paid with the payment. -/
def Holds (plan : InstallmentPlan) (p : Payment) : Prop :=
  ∃ i ∈ findInstallment p.index plan, i.status = .paid ∧ i.paymentId = p.paymentId

def Payment.key (p : Payment) : PlanId × Int := (p.planId, p.index)

/-- Every payment is in its plan, no installment is paid twice, every plan that was cancelled is so
still, and a plan is completed when all its installments are paid. -/
structure Settled (g : Service) : Prop where
  paid : ∀ p ∈ payments g, ∃ plan ∈ g.state.plans.get p.planId, Holds plan p
  once : ((payments g).map Payment.key).Nodup
  cancelled : ∀ planId ∈ cancellations g,
    ∃ plan ∈ g.state.plans.get planId, plan.status = .cancelled
  completed : ∀ plan ∈ g.state.plans, Sound plan

/-! ## Conditions -/

/-- The plan is stored as it was copied. -/
def IsCurrent (s : State) (copy : InstallmentPlan) : Prop := s.plans.get copy.id = some copy

instance (s : State) (copy : InstallmentPlan) : Decidable (IsCurrent s copy) :=
  inferInstanceAs (Decidable (s.plans.get copy.id = some copy))

/-- The copy that the sweep writes next is current. -/
def Sweep.Current (s : State) (sweep : Sweep) : Prop :=
  ∀ copy ∈ sweep.rest.find? fun plan =>
    (plan.installments.filter (isOverdue sweep.reference)).length ≠ 0, IsCurrent s copy

instance (s : State) (sweep : Sweep) : Decidable (sweep.Current s) :=
  inferInstanceAs (Decidable (∀ copy ∈ sweep.rest.find? fun plan =>
    (plan.installments.filter (isOverdue sweep.reference)).length ≠ 0, IsCurrent s copy))

/-- What is written back is a change of what is stored. -/
def Waiting.Current (told : Told) (s : State) : Waiting → Prop
  | .reading tenantId _ operation found => ∀ copy ∈ found.filter (·.tenantId = tenantId),
    (perform told.now operation copy).isOk = true → IsCurrent s copy
  | .publishing .. => True
  | .sweeping sweep => sweep.Current s
  | .publishingOverdue sweep => told.throws = none → sweep.Current s

instance (told : Told) (s : State) : (task : Waiting) → Decidable (task.Current told s)
  | .reading tenantId _ operation found =>
    inferInstanceAs (Decidable (∀ copy ∈ found.filter (·.tenantId = tenantId),
      (perform told.now operation copy).isOk = true → IsCurrent s copy))
  | .publishing .. => isTrue trivial
  | .sweeping sweep => inferInstanceAs (Decidable (sweep.Current s))
  | .publishingOverdue sweep => inferInstanceAs (Decidable (told.throws = none → sweep.Current s))

def Undisturbed (g : Service) : Act Call Told → Prop
  | .call .. => True
  | .resume i told => ∀ task ∈ g.tasks[i]?, task.Current told g.state

instance (g : Service) : (act : Act Call Told) → Decidable (Undisturbed g act)
  | .call .. => isTrue trivial
  | .resume i told => inferInstanceAs (Decidable (∀ task ∈ g.tasks[i]?, task.Current told g.state))

variable {copy saved plan : InstallmentPlan} {now index reference : Int} {paymentId : Option String}
  {l : List Installment} {i : Installment} {f : Installment → Installment} {p : Payment}
  {g g' : Service} {told : Told}

/-! ## Installments of a plan -/

theorem find?_changeFirst_self (hf : ∀ i, (f i).index = i.index) :
    (changeFirst index f l).find? (·.index = index) = (l.find? (·.index = index)).map f := by
  induction l with
  | nil => rfl
  | cons i rest ih =>
    rw [changeFirst]
    split
    next h => simp [hf, h]
    next h => simp [h, ih]

theorem find?_changeFirst_ne {other : Int} (hf : ∀ i, (f i).index = i.index) (h : other ≠ index) :
    (changeFirst index f l).find? (·.index = other) = l.find? (·.index = other) := by
  induction l with
  | nil => rfl
  | cons i rest ih =>
    rw [changeFirst]
    split
    next he => simp [hf, he, h.symm]
    next he =>
      rw [List.find?_cons, List.find?_cons, ih]

theorem find?_map (hf : ∀ i, (f i).index = i.index) :
    (l.map f).find? (·.index = index) = (l.find? (·.index = index)).map f := by
  rw [List.find?_map]
  simp only [Function.comp_def, hf]

theorem not_allPaid (hmem : i ∈ l) (h : i.status ≠ .paid) : ¬ allPaid l = true :=
  fun hall => h (of_decide_eq_true (List.all_eq_true.mp hall i hmem))

/-- Some installment is not paid. -/
theorem exists_unpaid (h : ¬ allPaid l = true) : ∃ i ∈ l, i.status ≠ .paid := by
  by_contra hall
  refine h (List.all_eq_true.mpr fun i hi => decide_eq_true ?_)
  by_contra hne
  exact hall ⟨i, hi, hne⟩

/-- What is written in the place of a copy: payments stay, a cancelled plan stays cancelled, and the
plan is sound if the copy was. -/
structure Follows (copy saved : InstallmentPlan) : Prop where
  id : saved.id = copy.id
  paid : ∀ index, ∀ i ∈ findInstallment index copy, i.status = .paid →
    i ∈ findInstallment index saved
  cancelled : copy.status = .cancelled → saved.status = .cancelled
  sound : Sound copy → Sound saved

/-- The payment is one of an installment that was not paid. -/
def Pays (copy saved : InstallmentPlan) (p : Payment) : Prop :=
  p.planId = saved.id ∧ (∀ i ∈ findInstallment p.index copy, i.status ≠ .paid) ∧ Holds saved p

/-- One installment that was not paid is changed. -/
theorem find_changeFirst {target : Installment} (hf : ∀ i, (f i).index = i.index)
    (htarget : findInstallment index copy = some target) (hunpaid : target.status ≠ .paid)
    (hsaved : saved.installments = changeFirst index f copy.installments) :
    (∀ other, ∀ i ∈ findInstallment other copy, i.status = .paid →
        i ∈ findInstallment other saved) ∧ findInstallment index saved = some (f target) := by
  have hself : findInstallment index saved = some (f target) := by
    rw [findInstallment, hsaved, find?_changeFirst_self hf, ← findInstallment, htarget]
    rfl
  refine ⟨fun other i hi hpaid => ?_, hself⟩
  by_cases he : other = index
  · rw [he, htarget] at hi
    obtain rfl := Option.some.inj hi
    exact absurd hpaid hunpaid
  · rwa [findInstallment, hsaved, find?_changeFirst_ne hf he]

theorem follows_payInstallment {paidAt : Option (Option Int)}
    (h : payInstallment now index paymentId paidAt copy = .ok saved) :
    Follows copy saved ∧ Pays copy saved ⟨saved.id, index, paymentId⟩ := by
  rw [payInstallment] at h
  split_ifs at h with hcancelled hcompleted
  split at h
  next => contradiction
  next target htarget =>
    split_ifs at h with hpaid hvoided
    split at h
    next => contradiction
    next date hdate =>
      have hsaved := (Except.ok.inj h).symm
      obtain ⟨hkeep, hself⟩ := find_changeFirst (f := collected date paymentId) (fun _ => rfl)
        htarget hpaid (congrArg InstallmentPlan.installments hsaved)
      subst hsaved
      refine ⟨⟨rfl, hkeep, fun hstatus => absurd hstatus hcancelled, fun _ => ?_⟩, rfl,
        fun i hi => ?_, _, hself, rfl, rfl⟩
      · rw [Sound]
        dsimp only
        split
        next hall => exact iff_of_true rfl hall
        next hall => exact iff_of_false hcompleted hall
      · rw [htarget] at hi
        obtain rfl := Option.some.inj hi
        exact hpaid

theorem follows_markInstallmentFailed {reason : String}
    (h : markInstallmentFailed now index reason copy = .ok saved) : Follows copy saved := by
  rw [markInstallmentFailed] at h
  split_ifs at h with hended
  split at h
  next => contradiction
  next target htarget =>
    split_ifs at h with hpaid
    have hsaved := (Except.ok.inj h).symm
    obtain ⟨hkeep, hself⟩ := find_changeFirst (f := failed reason) (fun _ => rfl) htarget hpaid
      (congrArg InstallmentPlan.installments hsaved)
    subst hsaved
    refine ⟨rfl, hkeep, id, fun _ => iff_of_false (fun hstatus => hended (.inr hstatus)) ?_⟩
    exact not_allPaid (List.mem_of_find?_eq_some hself) nofun

/-- All installments are changed, none that is paid. -/
theorem find_map (hf : ∀ i, (f i).index = i.index) (hkeep : ∀ i, i.status = .paid → f i = i)
    (hsaved : saved.installments = copy.installments.map f) (index : Int) :
    ∀ i ∈ findInstallment index copy, i.status = .paid → i ∈ findInstallment index saved := by
  intro i hi hpaid
  have hfound : findInstallment index copy = some i := hi
  rw [findInstallment, hsaved, find?_map hf, ← findInstallment, hfound]
  exact congrArg some (hkeep i hpaid)

theorem voided_paid (h : i.status = .paid) : voided i = i := by
  rw [voided, if_neg]
  rw [h]
  rintro (h | h | h) <;> contradiction

theorem voided_index (i : Installment) : (voided i).index = i.index := by
  rw [voided]
  split <;> rfl

theorem voided_unpaid (h : i.status ≠ .paid) : (voided i).status ≠ .paid := by
  rw [voided]
  split
  · exact nofun
  · exact h

theorem follows_cancelPlan (h : cancelPlan now copy = .ok saved) :
    Follows copy saved ∧ saved.status = .cancelled := by
  rw [cancelPlan] at h
  split_ifs at h with hcompleted hcancelled
  obtain rfl := Except.ok.inj h
  refine ⟨⟨rfl, find_map voided_index (fun _ => voided_paid) rfl, fun _ => rfl,
    fun hsound => iff_of_false nofun ?_⟩, rfl⟩
  -- a plan that is not completed has an installment that is not paid, and keeps it
  obtain ⟨i, hi, hunpaid⟩ := exists_unpaid fun hall => hcompleted (hsound.mpr hall)
  exact not_allPaid (List.mem_map_of_mem hi) (voided_unpaid hunpaid)

theorem isOverdue_status (h : isOverdue reference i = true) : i.status = .scheduled := by
  rw [isOverdue, Bool.and_eq_true] at h
  exact of_decide_eq_true h.1

theorem flag_paid (h : i.status = .paid) : flag reference i = i := by
  rw [flag, if_neg]
  exact fun hoverdue => absurd ((isOverdue_status hoverdue).symm.trans h) nofun

theorem flag_index (i : Installment) : (flag reference i).index = i.index := by
  rw [flag]
  split <;> rfl

theorem follows_flagged (h : (copy.installments.filter (isOverdue reference)).length ≠ 0) :
    Follows copy (flagged now reference copy) := by
  refine ⟨rfl, find_map flag_index (fun _ => flag_paid) rfl, id, fun hsound => ?_⟩
  obtain ⟨i, hi⟩ := List.exists_mem_of_length_pos (Nat.pos_of_ne_zero h)
  obtain ⟨hmem, hoverdue⟩ := List.mem_filter.mp hi
  have hunpaid : i.status ≠ .paid := isOverdue_status hoverdue ▸ nofun
  have hdue : (flag reference i).status ≠ .paid := by
    rw [flag, if_pos hoverdue]
    exact nofun
  exact iff_of_false (fun hstatus => not_allPaid hmem hunpaid (hsound.mp hstatus))
    (not_allPaid (List.mem_map_of_mem hmem) hdue)

/-! ## Turns -/

/-- A turn leaves the plans as they are, or it writes one whose copy is current. A payment that it
adds is one of an installment that was not paid. -/
inductive Turned (g g' : Service) : Prop
  | kept (plans : g'.state.plans = g.state.plans) (payments : (payments g').Subperm (payments g))
      (cancellations : cancellations g' ⊆ cancellations g)
  | written {copy saved : InstallmentPlan} {new : Option Payment} (current : IsCurrent g.state copy)
      (follows : Follows copy saved) (plans : g'.state.plans = g.state.plans.set saved)
      (pays : ∀ p ∈ new, Pays copy saved p)
      (payments : (payments g').Subperm (new.toList ++ payments g))
      (cancellations : ∀ planId ∈ cancellations g', planId ∈ cancellations g ∨
        planId = saved.id ∧ saved.status = .cancelled)

theorem nodup_keys {l l' : List Payment} (h : l.Subperm l') (hnodup : (l'.map Payment.key).Nodup) :
    (l.map Payment.key).Nodup := by
  obtain ⟨mid, hperm, hsub⟩ := h
  exact (hperm.map _).nodup_iff.mp (hnodup.sublist (hsub.map _))

theorem settled_kept (h : Settled g) (hplans : g'.state.plans = g.state.plans)
    (hpayments : (payments g').Subperm (payments g))
    (hcancellations : cancellations g' ⊆ cancellations g) : Settled g' where
  paid p hp := by
    rw [hplans]
    exact h.paid p (hpayments.subset hp)
  once := nodup_keys hpayments h.once
  cancelled planId hmem := by
    rw [hplans]
    exact h.cancelled planId (hcancellations hmem)
  completed := by
    rw [hplans]
    exact h.completed

/-- What the stored plan holds, what is written in its place holds. -/
theorem paid_set (hcurrent : IsCurrent g.state copy) (hfollows : Follows copy saved)
    (h : ∃ plan ∈ g.state.plans.get p.planId, Holds plan p) :
    ∃ plan ∈ (g.state.plans.set saved).get p.planId, Holds plan p := by
  obtain ⟨plan, hget, i, hfound, hpaid, hid⟩ := h
  rw [Table.get_set]
  split
  next he =>
    rw [he, hfollows.id, hcurrent] at hget
    obtain rfl := Option.some.inj hget
    exact ⟨saved, rfl, i, hfollows.paid p.index i hfound hpaid, hpaid, hid⟩
  next => exact ⟨plan, hget, i, hfound, hpaid, hid⟩

/-- An installment that was not paid has no payment yet. -/
theorem unpaid_fresh (h : Settled g) (hcurrent : IsCurrent g.state copy)
    (hfollows : Follows copy saved) (hpays : Pays copy saved p) :
    p.key ∉ (payments g).map Payment.key := by
  intro hmem
  obtain ⟨q, hq, hkey⟩ := List.mem_map.mp hmem
  obtain ⟨hplanId, hindex⟩ := Prod.mk.inj hkey
  obtain ⟨plan, hget, i, hfound, hpaid, -⟩ := h.paid q hq
  rw [hplanId, hpays.1, hfollows.id, hcurrent] at hget
  obtain rfl := Option.some.inj hget
  rw [hindex] at hfound
  exact hpays.2.1 i hfound hpaid

theorem settled_written {new : Option Payment} (h : Settled g) (hcurrent : IsCurrent g.state copy)
    (hfollows : Follows copy saved) (hplans : g'.state.plans = g.state.plans.set saved)
    (hpays : ∀ p ∈ new, Pays copy saved p)
    (hpayments : (payments g').Subperm (new.toList ++ payments g))
    (hcancellations : ∀ planId ∈ cancellations g', planId ∈ cancellations g ∨
      planId = saved.id ∧ saved.status = .cancelled) : Settled g' where
  paid p hp := by
    rw [hplans]
    obtain hnew | hold := List.mem_append.mp (hpayments.subset hp)
    · obtain ⟨hplanId, -, hholds⟩ := hpays p (Option.mem_toList.mp hnew)
      rw [hplanId, Table.get_set_self]
      exact ⟨saved, rfl, hholds⟩
    · exact paid_set hcurrent hfollows (h.paid p hold)
  once := by
    refine nodup_keys hpayments ?_
    cases new with
    | none => exact h.once
    | some p => exact List.nodup_cons.mpr ⟨unpaid_fresh h hcurrent hfollows (hpays p rfl), h.once⟩
  cancelled planId hmem := by
    rw [hplans, Table.get_set]
    split
    next he =>
      refine ⟨saved, rfl, ?_⟩
      obtain hold | ⟨-, hstatus⟩ := hcancellations planId hmem
      · obtain ⟨plan, hget, hstatus⟩ := h.cancelled planId hold
        rw [he, hfollows.id, hcurrent] at hget
        obtain rfl := Option.some.inj hget
        exact hfollows.cancelled hstatus
      · exact hstatus
    next hne =>
      obtain hold | ⟨he, -⟩ := hcancellations planId hmem
      · exact h.cancelled planId hold
      · exact absurd he hne
  completed := by
    rw [hplans]
    exact Table.forall_set
      (hfollows.sound (h.completed copy (Table.get_some hcurrent).1)) h.completed

theorem settled_turned (h : Settled g) (hturned : Turned g g') : Settled g' := by
  cases hturned with
  | kept plans payments cancellations => exact settled_kept h plans payments cancellations
  | written current follows plans pays payments cancellations =>
    exact settled_written h current follows plans pays payments cancellations

/-- What waits beside a task that is resumed. -/
theorem filterMap_eraseIdx {β : Type*} {tasks : List Waiting} {n : Nat} {task : Waiting}
    {x : Option β} (pick : Waiting → Option β) (h : tasks[n]? = some task) (hx : pick task = x) :
    (x.toList ++ (tasks.eraseIdx n).filterMap pick).Perm (tasks.filterMap pick) := by
  obtain ⟨hlt, hget⟩ := List.getElem?_eq_some_iff.mp h
  have hperm := (List.getElem_cons_eraseIdx_perm hlt).filterMap pick
  rw [hget, List.filterMap_cons, hx] at hperm
  cases x with
  | none => exact hperm
  | some _ => exact hperm

/-- The service when a turn has ended, its task taken away before it. -/
def Ends.config (base : List Waiting) (ends : Ends) : Service := ⟨ends.2, base ++ ends.1.tasks⟩

/-- Nothing is written, and what then waits has written nothing. -/
theorem turned_kept {base : List Waiting} {ends : Ends} (hbase : base.Sublist g.tasks)
    (hstate : ends.2 = g.state)
    (hpayment : ∀ task ∈ ends.1.tasks, task.payment? = none)
    (hcancellation : ∀ task ∈ ends.1.tasks, task.cancellation? = none) :
    Turned g (ends.config base) := by
  have hpay : ends.1.tasks.filterMap Waiting.payment? = [] :=
    List.filterMap_eq_nil_iff.mpr hpayment
  have hcancel : ends.1.tasks.filterMap Waiting.cancellation? = [] :=
    List.filterMap_eq_nil_iff.mpr hcancellation
  refine .kept ?_ ?_ ?_
  · rw [Ends.config, hstate]
  · rw [Ends.config, payments, payments, hstate, List.filterMap_append, hpay, List.append_nil]
    exact ((hbase.filterMap _).append_left _).subperm
  · rw [Ends.config, cancellations, cancellations, hstate, List.filterMap_append, hcancel,
      List.append_nil]
    exact ((hbase.filterMap _).append_left _).subset

theorem turned_done {base : List Waiting} {s : State} {r : Except Error Response}
    (hbase : base.Sublist g.tasks) (hstate : s = g.state) :
    Turned g (Ends.config base (.done r, s)) :=
  turned_kept hbase hstate (fun _ h => absurd h List.not_mem_nil)
    (fun _ h => absurd h List.not_mem_nil)

theorem filterMap_one {β : Type*} (pick : Waiting → Option β) (task : Waiting) :
    [task].filterMap pick = (pick task).toList := by
  cases h : pick task with
  | none => simp [h]
  | some x => simp [h]

/-- A plan is written in the place of its copy. -/
theorem turned_written {base : List Waiting} {task : Waiting} (hbase : base.Sublist g.tasks)
    (hcurrent : IsCurrent g.state copy) (hfollows : Follows copy saved)
    (hpays : ∀ p ∈ task.payment?, Pays copy saved p)
    (hcancels : ∀ planId ∈ task.cancellation?, planId = saved.id ∧ saved.status = .cancelled) :
    Turned g (Ends.config base
      (.waits task, { g.state with plans := g.state.plans.set saved })) := by
  refine .written hcurrent hfollows rfl hpays ?_ fun planId hmem => ?_
  · rw [Ends.config, payments, payments, Turn.tasks, List.filterMap_append, filterMap_one,
      ← List.append_assoc]
    have hold := (hbase.filterMap Waiting.payment?).append_left g.state.payments
    exact List.perm_append_comm.subperm.trans ((List.subperm_append_left _).mpr hold.subperm)
  · rw [Ends.config, cancellations, Turn.tasks, List.filterMap_append, filterMap_one,
      ← List.append_assoc] at hmem
    obtain hold | hnew := List.mem_append.mp hmem
    · exact .inl (((hbase.filterMap _).append_left _).subset hold)
    · exact .inr (hcancels planId (Option.mem_toList.mp hnew))

/-- The payment or the cancellation that was written comes to be one that has succeeded. -/
theorem turned_succeeded {n : Nat} {operation : Operation} {events : List EventType}
    {r : Except Error Response} (h : g.tasks[n]? = some (.publishing operation saved events)) :
    Turned g (Ends.config (g.tasks.eraseIdx n) (.done r, succeeded operation saved g.state)) := by
  have hpayment := filterMap_eraseIdx Waiting.payment? h rfl
  have hcancellation := filterMap_eraseIdx Waiting.cancellation? h rfl
  cases operation with
  | payInstallment index paymentId paidAt =>
    refine .kept rfl ?_ ?_
    · rw [Ends.config, payments, payments, Turn.tasks, List.append_nil, succeeded,
        List.append_assoc]
      exact (hpayment.append_left _).subperm
    · rw [Ends.config, cancellations, cancellations, Turn.tasks, List.append_nil, succeeded]
      exact (hcancellation.append_left _).subset
  | markInstallmentFailed index reason => exact turned_done (List.eraseIdx_sublist _ _) rfl
  | cancelPlan =>
    refine .kept rfl ?_ ?_
    · rw [Ends.config, payments, payments, Turn.tasks, List.append_nil, succeeded]
      exact (hpayment.append_left _).subperm
    · rw [Ends.config, cancellations, cancellations, Turn.tasks, List.append_nil, succeeded,
        List.append_assoc]
      exact (hcancellation.append_left _).subset

theorem turned_sweepNext {base : List Waiting} {result : SweepResult} {rest : List InstallmentPlan}
    (hbase : base.Sublist g.tasks)
    (hcurrent : Sweep.Current g.state ⟨reference, rest, result⟩) :
    Turned g (Ends.config base (sweepNext told reference result rest g.state)) := by
  induction rest with
  | nil => exact turned_done hbase rfl
  | cons plan rest ih =>
    rw [sweepNext]
    split
    next hzero =>
      refine ih fun copy hcopy => hcurrent copy ?_
      rw [List.find?_cons_of_neg (by simpa using hzero)]
      exact hcopy
    next hcount =>
      have hfirst : IsCurrent g.state plan :=
        hcurrent plan (List.find?_cons_of_pos (by simpa using hcount))
      exact turned_written hbase hfirst (follows_flagged hcount) nofun nofun

theorem turned_change {base : List Waiting} {tenantId : String} {planId : PlanId}
    {operation : Operation} {found : Option InstallmentPlan} (hbase : base.Sublist g.tasks)
    (hcurrent : (Waiting.reading tenantId planId operation found).Current told g.state) :
    Turned g (Ends.config base (change told tenantId planId operation found g.state)) := by
  rw [change]
  split
  next => exact turned_done hbase rfl
  next plan hfound =>
    split
    next => exact turned_done hbase rfl
    next saved hsaved =>
      have hcopy : IsCurrent g.state plan := hcurrent plan hfound (by rw [hsaved]; rfl)
      cases operation with
      | payInstallment index paymentId paidAt =>
        obtain ⟨hfollows, hpays⟩ := follows_payInstallment hsaved
        refine turned_written hbase hcopy hfollows (fun p hp => ?_) nofun
        obtain rfl := Option.some.inj hp
        exact hpays
      | markInstallmentFailed index reason =>
        exact turned_written hbase hcopy (follows_markInstallmentFailed hsaved) nofun nofun
      | cancelPlan =>
        obtain ⟨hfollows, hstatus⟩ := follows_cancelPlan hsaved
        refine turned_written hbase hcopy hfollows nofun fun planId hp => ?_
        obtain rfl := Option.some.inj hp
        exact ⟨rfl, hstatus⟩

theorem turned_call (c : Call) : Turned g (Ends.config g.tasks (call c g.state)) := by
  cases c with
  | change tenantId planId operation =>
    refine turned_kept (List.Sublist.refl _) rfl (fun task h => ?_) (fun task h => ?_)
    · obtain rfl := List.mem_singleton.mp h
      rfl
    · obtain rfl := List.mem_singleton.mp h
      rfl
  | sweepOverdue tenantId reference =>
    cases reference with
    | none => exact turned_done (List.Sublist.refl _) rfl
    | some reference =>
      refine turned_kept (List.Sublist.refl _) rfl (fun task h => ?_) (fun task h => ?_)
      · obtain rfl := List.mem_singleton.mp h
        rfl
      · obtain rfl := List.mem_singleton.mp h
        rfl

/-- A task goes on with what it has written. -/
theorem turned_waits_on {n : Nat} {task task' : Waiting} (h : g.tasks[n]? = some task)
    (hpayment : task.payment? = task'.payment?)
    (hcancellation : task.cancellation? = task'.cancellation?) :
    Turned g (Ends.config (g.tasks.eraseIdx n) (.waits task', g.state)) := by
  have hpay := filterMap_eraseIdx Waiting.payment? h hpayment
  have hcancel := filterMap_eraseIdx Waiting.cancellation? h hcancellation
  refine .kept rfl ?_ ?_
  · rw [Ends.config, payments, payments, Turn.tasks, List.filterMap_append, filterMap_one]
    exact ((List.perm_append_comm.trans hpay).append_left _).subperm
  · rw [Ends.config, cancellations, cancellations, Turn.tasks, List.filterMap_append, filterMap_one]
    exact ((List.perm_append_comm.trans hcancel).append_left _).subset

theorem turned_resume {n : Nat} {task : Waiting} (h : g.tasks[n]? = some task)
    (hcurrent : task.Current told g.state) :
    Turned g (Ends.config (g.tasks.eraseIdx n) (resume task told g.state)) := by
  have hbase : (g.tasks.eraseIdx n).Sublist g.tasks := List.eraseIdx_sublist _ _
  cases task with
  | reading tenantId planId operation found => exact turned_change hbase hcurrent
  | publishing operation saved events =>
    dsimp only [resume]
    split
    next => exact turned_done hbase rfl
    next => exact turned_waits_on h (by cases operation <;> rfl) (by cases operation <;> rfl)
    next => exact turned_succeeded h
  | sweeping sweep => exact turned_sweepNext hbase hcurrent
  | publishingOverdue sweep =>
    rw [resume]
    split
    next => exact turned_done hbase rfl
    next hnone => exact turned_sweepNext hbase (hcurrent hnone)

theorem settled_commit {act : Act Call Told} (h : Settled g) (hq : Undisturbed g act) :
    Settled (commit (machine service) g act) := by
  obtain hmoves | he := commit_moves service g act
  · generalize commit (machine service) g act = g' at hmoves
    cases hmoves with
    | @called c told t s hcalled =>
      have hcall : call c g.state = (t, s) := Option.some.inj hcalled
      have hturned : Turned g (Ends.config g.tasks (call c g.state)) := turned_call c
      rw [hcall] at hturned
      exact settled_turned h hturned
    | @resumed n told task t s waiting hresumed =>
      have hresume : resume task told g.state = (t, s) := hresumed
      have hturned := turned_resume waiting (hq task waiting)
      rw [hresume] at hturned
      exact settled_turned h hturned
  · rwa [he]

/-! ## Runs -/

/-- The repository with plans as they were created. -/
def opened (plans : Table InstallmentPlan.id) : Service := ⟨⟨plans, [], []⟩, []⟩

theorem opened_sound (h : Opened plan) : Sound plan := by
  obtain ⟨i, hi⟩ := List.exists_mem_of_ne_nil _ h.nonempty
  refine iff_of_false (h.active ▸ nofun) (not_allPaid hi ?_)
  rw [h.scheduled i hi]
  exact nofun

theorem settled_opened {plans : Table InstallmentPlan.id} (h : ∀ plan ∈ plans, Opened plan) :
    Settled (opened plans) where
  paid _ hp := absurd hp List.not_mem_nil
  once := List.nodup_nil
  cancelled _ hp := absurd hp List.not_mem_nil
  completed plan hmem := opened_sound (h plan hmem)

/-- What has succeeded is not forgotten. -/
def Grows (s s' : State) : Prop :=
  s.payments <+: s'.payments ∧ s.cancellations <+: s'.cancellations

theorem Grows.of_eq {s s' : State} (hpayments : s'.payments = s.payments)
    (hcancellations : s'.cancellations = s.cancellations) : Grows s s' :=
  ⟨hpayments ▸ List.prefix_rfl, hcancellations ▸ List.prefix_rfl⟩

theorem grows_sweepNext (told : Told) (reference : Int) (result : SweepResult)
    (rest : List InstallmentPlan) (s : State) :
    Grows s (sweepNext told reference result rest s).2 := by
  induction rest with
  | nil => exact .of_eq rfl rfl
  | cons plan rest ih =>
    rw [sweepNext]
    split
    · exact ih
    · exact .of_eq rfl rfl

theorem grows_succeeded (operation : Operation) (saved : InstallmentPlan) (s : State) :
    Grows s (succeeded operation saved s) := by
  cases operation with
  | payInstallment index paymentId paidAt => exact ⟨List.prefix_append _ _, List.prefix_rfl⟩
  | markInstallmentFailed index reason => exact .of_eq rfl rfl
  | cancelPlan => exact ⟨List.prefix_rfl, List.prefix_append _ _⟩

theorem grows_resume (task : Waiting) (told : Told) (s : State) :
    Grows s (resume task told s).2 := by
  cases task with
  | reading tenantId planId operation found =>
    dsimp only [resume, change]
    split
    · exact .of_eq rfl rfl
    · split <;> exact .of_eq rfl rfl
  | publishing operation saved events =>
    dsimp only [resume]
    split
    · exact .of_eq rfl rfl
    · exact .of_eq rfl rfl
    · exact grows_succeeded operation saved s
  | sweeping sweep => exact grows_sweepNext ..
  | publishingOverdue sweep =>
    dsimp only [resume]
    split
    · exact .of_eq rfl rfl
    · exact grows_sweepNext ..

theorem grows_call (c : Call) (s : State) : Grows s (call c s).2 := by
  cases c with
  | change tenantId planId operation => exact .of_eq rfl rfl
  | sweepOverdue tenantId reference => cases reference <;> exact .of_eq rfl rfl

theorem grows_commit (g : Service) (act : Act Call Told) :
    Grows g.state (commit (machine service) g act).state := by
  obtain hmoves | he := commit_moves service g act
  · generalize commit (machine service) g act = g' at hmoves
    cases hmoves with
    | @called c told t s hcalled =>
      have hcall : call c g.state = (t, s) := Option.some.inj hcalled
      have hgrows := grows_call c g.state
      rwa [hcall] at hgrows
    | @resumed n told task t s waiting hresumed =>
      have hresume : resume task told g.state = (t, s) := hresumed
      have hgrows := grows_resume task told g.state
      rwa [hresume] at hgrows
  · rw [he]
    exact .of_eq rfl rfl

theorem grows_run (g : Service) (acts : List (Act Call Told)) :
    Grows g.state (run (machine service) g acts).state := by
  refine run_preserves (I := fun g' : Service => Grows g.state g'.state) (fun g' act h => ?_)
    (.of_eq rfl rfl) acts
  have hstep := grows_commit g' act
  exact ⟨h.1.trans hstep.1, h.2.trans hstep.2⟩

/-- In every run whose writes find the plans as they were copied: at any time what has succeeded is
settled, and it is not forgotten later. -/
theorem installments_run {plans : Table InstallmentPlan.id} {acts more : List (Act Call Told)}
    (hopened : ∀ plan ∈ plans, Opened plan)
    (h : Along (machine service) Undisturbed (opened plans) (acts ++ more)) :
    Settled (run (machine service) (opened plans) (acts ++ more)) ∧
      Grows (run (machine service) (opened plans) acts).state
        (run (machine service) (opened plans) (acts ++ more)).state := by
  refine ⟨run_invariant (fun _ _ => settled_commit) (settled_opened hopened) h, ?_⟩
  rw [run_append]
  exact grows_run _ more

/-! ## Two payments of one plan -/

def twoInstallments : Table InstallmentPlan.id :=
  (∅ : Table InstallmentPlan.id).set ⟨"plan", "tenant", .active,
    [⟨1, 100, .scheduled, none, none, none⟩, ⟨2, 200, .scheduled, none, none, none⟩], 0⟩

def payTwo : List (Act Call Told) :=
  [.call (.change "tenant" "plan" (.payInstallment 1 (some "first") none)) ⟨10, none⟩,
    .call (.change "tenant" "plan" (.payInstallment 2 (some "second") none)) ⟨10, none⟩]

/-- Two calls one after the other. -/
def inTurn : List (Act Call Told) :=
  [.call (.change "tenant" "plan" (.payInstallment 1 (some "first") none)) ⟨10, none⟩,
    .resume 0 ⟨10, none⟩, .resume 0 ⟨10, none⟩,
    .call (.change "tenant" "plan" (.payInstallment 2 (some "second") none)) ⟨10, none⟩,
    .resume 0 ⟨10, none⟩, .resume 0 ⟨10, none⟩, .resume 0 ⟨10, none⟩]

/-- Two calls that both have read the plan before either writes it, and the ends of both. -/
def overlapping : List (Act Call Told) :=
  payTwo ++
    [.resume 0 ⟨11, none⟩, .resume 0 ⟨12, none⟩, .resume 0 ⟨13, none⟩, .resume 0 ⟨13, none⟩]

theorem inTurn_settled :
    Settled (run (machine service) (opened twoInstallments) (inTurn ++ [])) ∧
      Grows (run (machine service) (opened twoInstallments) inTurn).state
        (run (machine service) (opened twoInstallments) (inTurn ++ [])).state :=
  installments_run (by decide +kernel) (by decide +kernel)

/-- The second payment undoes the first. -/
theorem overlapping_unsettled :
    ¬ Settled (run (machine service) (opened twoInstallments) overlapping) := by
  intro h
  have hfirst : (⟨"plan", 1, some "first"⟩ : Payment) ∈
      (run (machine service) (opened twoInstallments) overlapping).state.payments := by
    decide +kernel
  obtain ⟨plan, hget, i, hfound, hpaid, -⟩ := h.paid _ (List.mem_append_left _ hfirst)
  have hlost : ∀ plan ∈ (run (machine service) (opened twoInstallments) overlapping).state.plans.get
      "plan", ∀ i ∈ findInstallment 1 plan, i.status = .scheduled := by
    decide +kernel
  exact absurd ((hlost plan hget i hfound).symm.trans hpaid) nofun

end Installments
