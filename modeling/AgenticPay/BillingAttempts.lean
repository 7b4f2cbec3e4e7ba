import AgenticPay.BillingDunningRuns
import Mathlib.Data.List.Flatten

/-!
# Each retry is attempted once

A run in progress holds the invoices that it is still to process, and they stay open and retried
while nothing else settles them. Each failure makes the next retry the one that is attempted, so the
attempts of an invoice are for different retries.
-/
namespace Billing

open Transaction Awaits

variable {host : Host} {env : Env} {told : Told} {s s' : State} {id : InvoiceId} {n : Nat}
  {invoice new : Invoice} {dunning : DunningState} {c : Call} {success : Bool} {d : Desk}
  {g : Config Desk DunningRun} {run : DunningRun} {rest : List InvoiceId}

/-! ## One invoice -/

/-- The invoice is open, and the retry is the one that comes next. -/
def Retried (s : State) (id : InvoiceId) (n : Nat) : Prop :=
  ∃ invoice dunning, s.invoice? id = some invoice ∧ invoice.status = .opened ∧
    invoice.retrying? = some dunning ∧ dunning.retriesAttempted = n

def Closed (s : State) (id : InvoiceId) : Prop :=
  ∃ invoice, s.invoice? id = some invoice ∧ invoice.status ≠ .opened

/-- The call is about the invoice. -/
def Concerns (c : Call) (id : InvoiceId) : Prop :=
  match c with
  | .recordPaymentAttempt id' _ | .markInvoicePaid id' | .voidInvoice id' => id' = id
  | _ => False

theorem invoice?_congr (h : s'.invoices = s.invoices) : s'.invoice? id = s.invoice? id := by
  rw [State.invoice?, State.invoice?, h]

theorem invoice?_setInvoice_ne (h : id ≠ new.id) :
    (s.setInvoice new).invoice? id = s.invoice? id := by
  rw [State.invoice?, State.invoice?, setInvoice_invoices]
  induction s.invoices with
  | nil => rfl
  | cons first rest ih =>
    rw [List.map_cons, List.find?_cons, List.find?_cons, ih]
    by_cases hfirst : first.id = new.id
    · have hne : first.id ≠ id := fun he => h (he.symm.trans hfirst)
      simp [hfirst, h.symm]
    · rw [if_neg hfirst]

theorem releasedState_invoices : (releasedState s new).invoices = (s.setInvoice new).invoices :=
  releasedState_frame (f := State.invoices) fun _ _ => rfl

theorem startDunning_invoices : (startDunning env s invoice).1.id = invoice.id ∧
    (startDunning env s invoice).2.invoices =
      (s.setInvoice (startDunning env s invoice).1).invoices := by
  rw [startDunning]
  dsimp only
  split
  next => exact ⟨rfl, rfl⟩
  next => split_ifs <;> exact ⟨rfl, rfl⟩

theorem failRetry_invoices : (failRetry env s invoice dunning).1.id = invoice.id ∧
    (failRetry env s invoice dunning).2.invoices =
      (s.setInvoice (failRetry env s invoice dunning).1).invoices := by
  rw [failRetry]
  dsimp only
  split
  next => exact ⟨rfl, rfl⟩
  next =>
    split
    next => exact ⟨rfl, rfl⟩
    next => split_ifs <;> exact ⟨rfl, rfl⟩

/-- A call writes the invoice that it is about, and leaves all others as they are. -/
theorem Served.invoice_kept (h : Served host env s c s') (hfound : s.invoice? id = some invoice)
    (hc : ¬ Concerns c id) : s'.invoice? id = some invoice := by
  have hset : ∀ {id' new}, ¬ id' = id → s'.invoices = (s.setInvoice new).invoices →
      new.id = id' → s'.invoice? id = some invoice := by
    intro id' new hne hinvoices hid
    rw [invoice?_congr hinvoices, invoice?_setInvoice_ne (fun he => hne (hid.symm.trans he.symm)),
      hfound]
  have hraised : ∀ {new}, s'.invoices = s.invoices ++ [new] → s'.invoice? id = some invoice := by
    intro new hinvoices
    rw [State.invoice?] at hfound ⊢
    rw [hinvoices, List.find?_append, hfound, Option.some_or]
  cases h with
  | settled resolved notTrialing prorated immediate created =>
    exact hraised (congrArg State.invoices (createInvoice_ok created).state)
  | closed found planFound created =>
    exact hraised (congrArg State.invoices (createInvoice_ok created).state)
  | invoiced found planFound created =>
    exact hraised (congrArg State.invoices (createInvoice_ok created).state)
  | paid found payable | voided found unpaid | collected found payable =>
    exact hset hc releasedState_invoices ((endRetries_id _).trans (invoice_found found).2)
  | failed found payable first =>
    exact hset hc startDunning_invoices.2 (startDunning_invoices.1.trans (invoice_found found).2)
  | failedAgain found payable retrying =>
    exact hset hc failRetry_invoices.2 (failRetry_invoices.1.trans (invoice_found found).2)
  | planned | offered | withdrawn | redeemed | undiscounted | subscribed | subscribedWith
  | cancelled | switched | rescheduled | repeated | metered | configured => exact hfound

/-- The invoice that is written is found. -/
theorem invoice?_written (hfound : s.invoice? id = some invoice) (hid : new.id = invoice.id)
    (hinvoices : s'.invoices = (s.setInvoice new).invoices) : s'.invoice? id = some new := by
  obtain rfl := (invoice_found hfound).2
  rw [invoice?_congr hinvoices, ← hid]
  refine invoice?_setInvoice ?_
  rw [hid, hfound]
  exact Option.some_ne_none _

theorem endRetries_status (status : DunningStatus) :
    (endRetries invoice status).status = invoice.status := by
  rw [endRetries]
  split <;> rfl

theorem retrying?_some (h : dunning.status = .retrying) :
    { invoice with dunning := some dunning }.retrying? = some dunning := by
  simp [Invoice.retrying?, h]

theorem failRetry_status (hnext : nextRetryAt dunning.startedAt dunning.retryScheduleDays
    (dunning.retriesAttempted + 1) = none) :
    (failRetry env s invoice dunning).1.status = .uncollectible := by
  rw [failRetry]
  dsimp only
  split
  next next hsome => exact absurd (hnext.symm.trans hsome) (Option.some_ne_none next).symm
  next =>
    split
    next => rfl
    next => split_ifs <;> rfl

/-- A failure leads to the next retry, or it was the last one. -/
theorem failRetry_retried (hfound : s.invoice? id = some invoice)
    (hopen : invoice.status = .opened) (hretrying : invoice.retrying? = some dunning) :
    Retried (failRetry env s invoice dunning).2 id (dunning.retriesAttempted + 1) ∨
      (LastRetry s id ∧ Closed (failRetry env s invoice dunning).2 id) := by
  have hwritten : (failRetry env s invoice dunning).2.invoice? id =
      some (failRetry env s invoice dunning).1 :=
    invoice?_written hfound failRetry_invoices.1 failRetry_invoices.2
  have hstatus : dunning.status = .retrying :=
    of_decide_eq_true (Option.filter_eq_some_iff.mp hretrying).2
  cases hnext : nextRetryAt dunning.startedAt dunning.retryScheduleDays
      (dunning.retriesAttempted + 1) with
  | some next =>
    left
    have hmade : (failRetry env s invoice dunning).1 = { invoice with
        dunning := some { countAttempt env dunning false with nextRetryAt := some next } } := by
      simp [failRetry, countAttempt, hnext]
    rw [hmade] at hwritten
    exact ⟨_, _, hwritten, hopen, retrying?_some hstatus, rfl⟩
  | none =>
    right
    refine ⟨?_, _, hwritten, ?_⟩
    · intro invoice' hinvoice' dunning' hdunning'
      obtain rfl := Option.some.inj (hfound.symm.trans hinvoice')
      obtain rfl := Option.some.inj (hretrying.symm.trans hdunning')
      exact hnext
    · rw [failRetry_status hnext]
      decide

theorem closed_of_released {status : InvoiceStatus} {dunning : Option DunningState}
    {ended : DunningStatus} (hfound : s.invoice? id = some invoice) (hstatus : status ≠ .opened) :
    Closed (releasedState s (endRetries { invoice with status, dunning } ended)) id := by
  have hid : (endRetries { invoice with status, dunning } ended).id = invoice.id :=
    endRetries_id _
  refine ⟨_, invoice?_written hfound hid releasedState_invoices, ?_⟩
  rwa [endRetries_status]

/-- A call that is about an invoice settles it, or it is a failed attempt. -/
theorem Served.concerned (h : Served host env s c s') (hc : Concerns c id) :
    (Closed s' id ∧ Settles s id c) ∨ (c = .recordPaymentAttempt id false ∧
      ∃ invoice, s.invoice? id = some invoice ∧ invoice.status = .opened ∧
        (invoice.retrying? = none ∨ ∃ dunning, invoice.retrying? = some dunning ∧
          s' = (failRetry env s invoice dunning).2)) := by
  cases h with
  | @paid id' invoice found =>
    obtain rfl : id' = id := hc
    exact .inl ⟨closed_of_released found (by decide), rfl⟩
  | @voided id' invoice found =>
    obtain rfl : id' = id := hc
    exact .inl ⟨closed_of_released found (by decide), rfl⟩
  | @collected id' invoice found =>
    obtain rfl : id' = id := hc
    exact .inl ⟨closed_of_released found (by decide), rfl, .inl rfl⟩
  | @failed id' invoice found payable first =>
    obtain rfl : id' = id := hc
    exact .inr ⟨rfl, invoice, found, payable, .inl first⟩
  | @failedAgain id' invoice dunning found payable retrying =>
    obtain rfl : id' = id := hc
    exact .inr ⟨rfl, invoice, found, payable, .inr ⟨dunning, retrying, rfl⟩⟩
  | planned | offered | withdrawn | redeemed | undiscounted | subscribed | subscribedWith
  | cancelled | switched | settled | rescheduled | repeated | metered | invoiced | closed
  | configured => exact absurd hc not_false

/-- What a call does to an invoice that is retried: nothing, a further failure, or it settles it. -/
theorem Served.retried (h : Served host env s c s') (hr : Retried s id n) :
    (Retried s' id n ∧ ¬ Concerns c id) ∨ (Retried s' id (n + 1) ∧ Concerns c id) ∨
      (Closed s' id ∧ Settles s id c) := by
  obtain ⟨invoice, dunning, hfound, hopen, hretrying, rfl⟩ := hr
  by_cases hc : Concerns c id
  · right
    obtain hsettled | ⟨rfl, invoice', found, _, hfails⟩ := h.concerned hc
    · exact .inr hsettled
    obtain rfl := Option.some.inj (hfound.symm.trans found)
    obtain first | ⟨dunning', retrying, rfl⟩ := hfails
    · rw [first] at hretrying
      contradiction
    · obtain rfl := Option.some.inj (hretrying.symm.trans retrying)
      obtain hnext | ⟨hlast, hclosed⟩ := failRetry_retried found hopen hretrying
      · exact .inl ⟨hnext, hc⟩
      · exact .inr ⟨hclosed, rfl, .inr hlast⟩
  · exact .inl ⟨⟨invoice, dunning, h.invoice_kept hfound hc, hopen, hretrying, rfl⟩, hc⟩

/-- An invoice is never opened again. -/
theorem Served.stays_closed (h : Served host env s c s') (hr : Closed s id) : Closed s' id := by
  obtain ⟨invoice, hfound, hclosed⟩ := hr
  by_cases hc : Concerns c id
  · obtain hsettled | ⟨_, invoice', found, payable, _⟩ := h.concerned hc
    · exact hsettled.1
    · obtain rfl := Option.some.inj (hfound.symm.trans found)
      exact absurd payable hclosed
  · exact ⟨invoice, h.invoice_kept hfound hc, hclosed⟩

/-! ## The outcome of an attempt -/

theorem retrying?_dunning (h : invoice.retrying? = some dunning) :
    invoice.dunning = some dunning := (Option.filter_eq_some_iff.mp h).1

theorem attemptOn_retried (h : Retried s id n) : attemptOn s id = ⟨id, n, .opened⟩ := by
  obtain ⟨invoice, dunning, hfound, hopen, hretrying, rfl⟩ := h
  rw [attemptOn, hfound]
  dsimp only
  rw [retrying?_dunning hretrying, hopen]
  rfl

theorem markInvoicePaid_returns (hfound : s.invoice? id = some invoice)
    (hopen : invoice.status = .opened) :
    ∃ updated s', markInvoicePaid id s = .ok (updated, s') ∧ updated.id = id := by
  obtain ⟨_, rfl⟩ := invoice_found hfound
  have hid : (endRetries { invoice with status := .paid } .recovered).id = invoice.id :=
    endRetries_id _
  refine ⟨endRetries { invoice with status := .paid } .recovered,
    releasedState s (endRetries { invoice with status := .paid } .recovered), ?_, hid⟩
  rw [markInvoicePaid, findInvoice_ok.mpr hfound]
  show (validateAs (invoice.status = .opened ∨ invoice.status = .uncollectible) _ _ >>= _) = _
  rw [validateAs, if_pos (.inl hopen)]
  rfl

/-- An outcome is recorded for an invoice that is retried. -/
theorem recordPaymentAttempt_returns (env : Env) (success : Bool) (h : Retried s id n) :
    ∃ updated s', recordPaymentAttempt env id success s = .ok (updated, s') ∧ updated.id = id := by
  obtain ⟨invoice, dunning, hfound, hopen, hretrying, rfl⟩ := h
  rw [recordPaymentAttempt, findInvoice_ok.mpr hfound]
  show ∃ updated s', (if invoice.status ≠ .opened then _ else _) = _ ∧ _
  rw [if_neg (not_not.mpr hopen), hretrying]
  have hid := (invoice_found hfound).2
  cases success with
  | false => exact ⟨_, _, rfl, failRetry_invoices.1.trans hid⟩
  | true =>
    have hattempted : (s.setInvoice { invoice with
        dunning := some (countAttempt env dunning true) }).invoice? id =
          some { invoice with dunning := some (countAttempt env dunning true) } :=
      invoice?_written hfound rfl rfl
    exact markInvoicePaid_returns hattempted hopen

theorem invoice?_of_mem (hi : Indexed s) (hmem : invoice ∈ s.invoices) :
    s.invoice? invoice.id = some invoice := by
  cases hfind : s.invoice? invoice.id with
  | none => exact absurd (decide_eq_true rfl) (List.find?_eq_none.mp hfind invoice hmem)
  | some found =>
    obtain ⟨hfound, hid⟩ := invoice_found hfind
    rw [List.inj_on_of_nodup_map hi.invoices hfound hmem hid]

theorem dueInvoices_retried (hi : Indexed s) (h : id ∈ dueInvoices env s) :
    ∃ n, Retried s id n := by
  obtain ⟨invoice, hdue, rfl⟩ := List.mem_map.mp h
  obtain ⟨hmem, hdue⟩ := List.mem_filter.mp hdue
  obtain ⟨hopen, dunning, hretrying, _⟩ := of_decide_eq_true hdue
  exact ⟨_, invoice, dunning, invoice?_of_mem hi hmem, hopen, hretrying, rfl⟩

theorem dueInvoices_nodup (hi : Indexed s) : (dueInvoices env s).Nodup :=
  (List.filter_sublist.map _).nodup hi.invoices

/-! ## The runs in progress -/

/-- The result of a run lists what it has processed. -/
def Tallies (due rest : List InvoiceId) (result : DunningRunResult) : Prop :=
  ∃ processed, due = processed ++ rest ∧ result.processed = processed.length ∧
    ∀ id ∈ processed, id ∈ result.recovered ∨ id ∈ result.failed ∨ id ∈ result.exhausted

/-- The attempt has been for a retry before the next one, or it is waited for. -/
def Past (s : State) (tasks : List DunningRun) (a : Attempt) : Prop :=
  Closed s a.invoiceId ∨ ∃ n, Retried s a.invoiceId n ∧ a.retry ≤ n ∧
    (a.retry = n → ∃ run ∈ tasks, run.invoiceId = a.invoiceId)

/-- The invoices of the runs in progress are apart from one another and still retried. -/
structure Steady (tasks : List DunningRun) (d : Desk) : Prop where
  indexed : Indexed d.service
  apart : (tasks.flatMap DunningRun.held).Nodup
  held : ∀ run ∈ tasks, ∀ id ∈ run.held, ∃ n, Retried d.service id n
  tallies : ∀ run ∈ tasks, Tallies run.due run.held run.result
  past : ∀ a ∈ d.attempts, Past d.service tasks a
  collected : Collected d

variable {tasks : List DunningRun} {due : List InvoiceId} {result : DunningRunResult}

theorem Retried.unique {m : Nat} (h : Retried s id n) (h' : Retried s id m) : n = m := by
  obtain ⟨invoice, dunning, hfound, _, hretrying, rfl⟩ := h
  obtain ⟨invoice', dunning', hfound', _, hretrying', rfl⟩ := h'
  obtain rfl := Option.some.inj (hfound.symm.trans hfound')
  rw [Option.some.inj (hretrying.symm.trans hretrying')]

theorem Retried.not_closed (h : Retried s id n) : ¬ Closed s id := by
  rintro ⟨invoice, hfound, hclosed⟩
  obtain ⟨invoice', _, hfound', hopen, _⟩ := h
  obtain rfl := Option.some.inj (hfound.symm.trans hfound')
  exact hclosed hopen

theorem Tallies.count {updated : Invoice} (h : Tallies due (updated.id :: rest) result) :
    Tallies due rest (result.count updated) := by
  obtain ⟨processed, rfl, hlength, hlisted⟩ := h
  refine ⟨processed ++ [updated.id], by simp, ?_, fun id hmem => ?_⟩
  · rw [DunningRunResult.count]
    split_ifs <;> simp [hlength]
  · rw [DunningRunResult.count]
    rcases List.mem_append.mp hmem with hold | hnew
    · have := hlisted id hold
      split_ifs <;> simp only [List.mem_append] <;> tauto
    · obtain rfl := List.mem_singleton.mp hnew
      split_ifs <;> simp

theorem mem_held_of_task (h : run ∈ tasks) : run.invoiceId ∈ tasks.flatMap DunningRun.held :=
  List.mem_flatMap.mpr ⟨run, h, List.mem_cons_self⟩

/-- The loop goes on with an invoice that no run is waiting for, or the run has ended. -/
theorem attemptNext_steady (h : Steady tasks d)
    (hapart : (rest ++ tasks.flatMap DunningRun.held).Nodup)
    (hrest : ∀ id ∈ rest, ∃ n, Retried d.service id n) (htallies : Tallies due rest result) :
    Steady (tasks ++ (attemptNext due rest result d).1.tasks)
      (attemptNext due rest result d).2 := by
  cases rest with
  | nil =>
    have hcollected : Collected { d with finished := d.finished ++ [⟨due, some result⟩] } := by
      refine ⟨h.collected.once, h.collected.unsettled, fun f hf => ?_⟩
      rcases List.mem_append.mp hf with hold | hnew
      · exact h.collected.processed f hold
      · rw [List.mem_singleton.mp hnew]
        obtain ⟨processed, rfl, hlength, hlisted⟩ := htallies
        refine ⟨result, rfl, by simpa using hlength, by simpa using hlisted⟩
    rw [attemptNext]
    simp only [Turn.tasks, List.append_nil]
    exact ⟨h.indexed, h.apart, h.held, h.tallies, h.past, hcollected⟩
  | cons id rest =>
    obtain ⟨n, hn⟩ := hrest id List.mem_cons_self
    have hattempt := attemptOn_retried hn
    obtain ⟨hrestNodup, htasksNodup, hdisjoint⟩ := List.nodup_append'.mp hapart
    have hcollected : Collected
        { d with attempts := d.attempts ++ [attemptOn d.service id] } := by
      refine ⟨?_, fun a ha => ?_, h.collected.processed⟩
      · rw [hattempt, List.map_append, List.map_singleton]
        refine h.collected.once.append (List.nodup_singleton _) ?_
        rw [List.disjoint_singleton]
        intro hmem
        obtain ⟨a, ha, he⟩ := List.mem_map.mp hmem
        obtain ⟨hid, hretry⟩ : a.invoiceId = id ∧ a.retry = n := Prod.mk.inj he
        -- an earlier attempt for this retry is still waited for
        rcases h.past a ha with hclosed | ⟨m, hm, _, hwaited⟩
        · exact hn.not_closed (hid ▸ hclosed)
        · obtain ⟨run, hrun, he⟩ := hwaited (hretry.trans (hn.unique (hid ▸ hm)))
          exact hdisjoint List.mem_cons_self (hid ▸ he ▸ mem_held_of_task hrun)
      · rcases List.mem_append.mp ha with hold | hnew
        · exact h.collected.unsettled a hold
        · rw [List.mem_singleton.mp hnew, hattempt]
          exact ⟨InvoiceStatus.noConfusion, InvoiceStatus.noConfusion⟩
    rw [attemptNext]
    refine ⟨h.indexed, ?_, ?_, ?_, ?_, hcollected⟩
    · rw [Turn.tasks, List.flatMap_append, List.flatMap_singleton]
      exact htasksNodup.append hrestNodup (fun _ h h' => hdisjoint h' h)
    · intro run hrun
      rcases List.mem_append.mp hrun with hold | hnew
      · exact h.held run hold
      · rw [List.mem_singleton.mp hnew]
        exact hrest
    · intro run hrun
      rcases List.mem_append.mp hrun with hold | hnew
      · exact h.tallies run hold
      · rw [List.mem_singleton.mp hnew]
        exact htallies
    · intro a ha
      rcases List.mem_append.mp ha with hold | hnew
      · obtain hclosed | ⟨m, hm, hle, hwaited⟩ := h.past a hold
        · exact .inl hclosed
        · refine .inr ⟨m, hm, hle, fun he => ?_⟩
          obtain ⟨run, hrun, hid⟩ := hwaited he
          exact ⟨run, List.mem_append_left _ hrun, hid⟩
      · rw [List.mem_singleton.mp hnew, hattempt]
        exact .inr ⟨n, hn, le_rfl, fun _ =>
          ⟨_, List.mem_append_right _ (List.mem_singleton_self _), rfl⟩⟩

/-! ## The turns -/

variable {tasks' : List DunningRun} {a : Attempt}

theorem Settles.concerns (h : Settles s id c) : Concerns c id := by
  cases c with
  | markInvoicePaid | voidInvoice => exact h
  | recordPaymentAttempt => exact h.1
  | _ => exact absurd h not_false

/-- An attempt that a call is made after is past, when the runs that are left are all but those for
the invoice that the call is about. -/
theorem Past.served (hp : Past s tasks a) (h : Served host env s c s')
    (hleft : ∀ run ∈ tasks, ¬ Concerns c run.invoiceId → run ∈ tasks') : Past s' tasks' a := by
  obtain hclosed | ⟨n, hn, hle, hwaited⟩ := hp
  · exact .inl (h.stays_closed hclosed)
  · obtain ⟨hn', hc⟩ | ⟨hn', _⟩ | ⟨hclosed, _⟩ := h.retried hn
    · refine .inr ⟨n, hn', hle, fun he => ?_⟩
      obtain ⟨run, hrun, hid⟩ := hwaited he
      exact ⟨run, hleft run hrun (hid ▸ hc), hid⟩
    · refine .inr ⟨n + 1, hn', Nat.le_succ_of_le hle, fun he => ?_⟩
      omega
    · exact .inl hclosed

/-- A call that settles none of the invoices that are held leaves the runs steady. -/
theorem Steady.served (h : Steady tasks d) (hs : Served host env d.service c s')
    (hi : Indexed s') (hsub : tasks'.Sublist tasks)
    (hleft : ∀ run ∈ tasks, ¬ Concerns c run.invoiceId → run ∈ tasks')
    (hheld : ∀ run ∈ tasks', ∀ id ∈ run.held, ¬ Settles d.service id c) :
    Steady tasks' { d with service := s' } where
  indexed := hi
  apart := (hsub.flatMap _).nodup h.apart
  held := by
    intro run hrun id hid
    obtain ⟨n, hn⟩ := h.held run (hsub.subset hrun) id hid
    obtain ⟨hn', _⟩ | ⟨hn', _⟩ | ⟨_, hsettles⟩ := hs.retried hn
    · exact ⟨n, hn'⟩
    · exact ⟨n + 1, hn'⟩
    · exact absurd hsettles (hheld run hrun id hid)
  tallies := fun run hrun => h.tallies run (hsub.subset hrun)
  past := fun a ha => (h.past a ha).served hs hleft
  collected := ⟨h.collected.once, h.collected.unsettled, h.collected.processed⟩

theorem recordPaymentAttempt_indexed (h : Served host env s (.recordPaymentAttempt id success) s')
    (hi : Indexed s) : Indexed s' := by
  cases h with
  | collected found payable => exact releasedState_collects.indexed hi
  | failed found payable first => exact (startDunning_collects env s _).indexed hi
  | failedAgain found payable retrying => exact (failRetry_collects env s _ _).indexed hi

/-- The outcome is recorded, and the run goes on with what is left. -/
theorem resumeDunning_steady (host : Host) (told : Told) {i : Nat} (h : Steady tasks d)
    (hwaiting : tasks[i]? = some run) :
    Steady (tasks.eraseIdx i ++ (resumeDunning run told d).1.tasks)
      (resumeDunning run told d).2 := by
  obtain ⟨hi, rfl⟩ := List.getElem?_eq_some_iff.mp hwaiting
  set run := tasks[i]
  have hperm : (run :: tasks.eraseIdx i).Perm tasks := List.getElem_cons_eraseIdx_perm hi
  have hrun : run ∈ tasks := List.getElem_mem hi
  have hapart : (run.held ++ (tasks.eraseIdx i).flatMap DunningRun.held).Nodup :=
    (hperm.flatMap_right DunningRun.held).nodup_iff.mpr h.apart
  obtain ⟨hid, hapart⟩ := List.nodup_cons.mp hapart
  obtain ⟨n, hn⟩ := h.held run hrun run.invoiceId List.mem_cons_self
  obtain ⟨updated, s', hrecorded, hupdated⟩ :=
    recordPaymentAttempt_returns told.env told.success hn
  have hserved : Served host told.env d.service
      (.recordPaymentAttempt run.invoiceId told.success) s' :=
    recordPaymentAttempt_served hrecorded
  have hne : ∀ {id}, id ∈ run.rest ++ (tasks.eraseIdx i).flatMap DunningRun.held →
      ¬ Concerns (.recordPaymentAttempt run.invoiceId told.success) id :=
    fun hmem he => hid (he ▸ hmem)
  have hsteady : Steady (tasks.eraseIdx i) { d with service := s' } := by
    refine h.served hserved (recordPaymentAttempt_indexed hserved h.indexed)
      (List.eraseIdx_sublist ..) ?_ ?_
    · intro other hother hc
      rcases List.mem_cons.mp (hperm.mem_iff.mpr hother) with rfl | hleft
      · exact absurd rfl hc
      · exact hleft
    · intro other hother id hmem hsettles
      exact hne (List.mem_append_right _ (List.mem_flatMap.mpr ⟨other, hother, hmem⟩))
        hsettles.concerns
  rw [resumeDunning, hrecorded]
  refine attemptNext_steady hsteady hapart ?_ ?_
  · intro id hmem
    obtain ⟨m, hm⟩ := h.held run hrun id (List.mem_cons_of_mem _ hmem)
    have hc := hne (List.mem_append_left _ hmem)
    obtain ⟨hm', _⟩ | ⟨_, hc'⟩ | ⟨_, hsettles⟩ := hserved.retried hm
    · exact ⟨m, hm'⟩
    · exact absurd hc' hc
    · exact absurd hsettles.concerns hc
  · have htallies := h.tallies run hrun
    rw [DunningRun.held, ← hupdated] at htallies
    exact htallies.count

/-- A run starts with invoices that are apart from those of all others. -/
theorem processDunning_steady (attempter : Bool) (h : Steady tasks d)
    (hapart : ∀ id ∈ dueInvoices env d.service, ∀ run ∈ tasks, id ∉ run.held) :
    Steady (tasks ++ (processDunning env attempter d).1.tasks)
      (processDunning env attempter d).2 := by
  rw [processDunning]
  split_ifs
  · refine attemptNext_steady h ?_ (fun id hmem => dueInvoices_retried h.indexed hmem)
      ⟨[], rfl, rfl, fun id hmem => absurd hmem List.not_mem_nil⟩
    refine (dueInvoices_nodup h.indexed).append h.apart fun id hdue hmem => ?_
    obtain ⟨run, hrun, hheld⟩ := List.mem_flatMap.mp hmem
    exact hapart id hdue run hrun hheld
  · rwa [Turn.tasks, List.append_nil]

theorem request_steady {request' : Request} {t : Turn DunningRun (Except Failure Response)}
    {d' : Desk} (h : Steady g.tasks g.state) (hq : Undisturbed g (.call request' told))
    (hcall : request host told request' g.state = some (t, d')) :
    Steady (g.tasks ++ t.tasks) d' := by
  cases request' with
  | processDunning attempter =>
    have he : processDunning told.env attempter g.state = (t, d') := Option.some.inj hcall
    have hsteady := processDunning_steady attempter h hq
    rwa [he] at hsteady
  | serve c =>
    rw [request] at hcall
    split at hcall
    next result s hserved =>
      cases hcall
      rw [Turn.tasks, List.append_nil]
      have hcommit : commit (service host) g.state.service (told.env, c) = s :=
        commit_of_ok hserved
      obtain ⟨hfresh, hs⟩ | hs := service_cases host g.state.service (told.env, c)
      · rw [hcommit] at hs
        exact h.served hs (hs.indexed hfresh h.indexed) (List.Sublist.refl _)
          (fun run hrun _ => hrun) hq
      · rw [hcommit] at hs
        subst hs
        exact h
    next =>
      cases hcall
      rwa [Turn.tasks, List.append_nil]
    next => contradiction

theorem steady_commit (a : Act Request Told) (h : Steady g.tasks g.state)
    (hq : Undisturbed g a) : Steady (commit (machine (Billing.dunning host)) g a).tasks
      (commit (machine (Billing.dunning host)) g a).state := by
  obtain hmoves | he := commit_moves (Billing.dunning host) g a
  · generalize commit (machine (Billing.dunning host)) g a = g' at hmoves
    cases hmoves with
    | called hcalled => exact request_steady h hq hcalled
    | @resumed i told run t s hwaiting hresumed =>
      have hsteady := resumeDunning_steady host told h hwaiting
      have he : resumeDunning run told g.state = (t, s) := hresumed
      rwa [he] at hsteady
  · rwa [he]

theorem desk_steady : Steady desk.tasks desk.state where
  indexed := start_indexed
  apart := List.nodup_nil
  held := fun _ h => absurd h List.not_mem_nil
  tallies := fun _ h => absurd h List.not_mem_nil
  past := fun _ h => absurd h List.not_mem_nil
  collected := ⟨List.nodup_nil, fun _ h => absurd h List.not_mem_nil,
    fun _ h => absurd h List.not_mem_nil⟩

/-- While no invoice of a run in progress is settled or found due elsewhere, each retry is attempted
once, on an invoice that is not settled, and the runs process all that they have found due. -/
theorem collected_of_undisturbed (host : Host) (acts : List (Act Request Told))
    (h : Along (machine (Billing.dunning host)) Undisturbed desk acts) :
    Collected (Transaction.run (machine (Billing.dunning host)) desk acts).state := by
  have hsteady : Steady (Transaction.run (machine (Billing.dunning host)) desk acts).tasks
      (Transaction.run (machine (Billing.dunning host)) desk acts).state :=
    run_invariant (I := fun g => Steady g.tasks g.state)
      (fun _ a hg hq => steady_commit a hg hq) desk_steady h
  exact hsteady.collected

def toldOn (day : Int) (uuid : String) (success : Bool) : Told := ⟨⟨day * dayMs, uuid⟩, success⟩

/-- Two invoices fail, and their first retries are due on day 61. -/
def failing : List (Act Request Told) :=
  (joins ++ [atDay 30 "4" (.closeBillingPeriod "sub_3"),
    atDay 60 "5" (.closeBillingPeriod "sub_3"),
    atDay 60 "6" (.recordPaymentAttempt "inv_4" false),
    atDay 60 "7" (.recordPaymentAttempt "inv_5" false)]).map
      fun a => .call (.serve a.2) ⟨a.1, false⟩

/-- A run of its own, with a failure and a success. -/
def retriesAlone : List (Act Request Told) := failing ++
  [.call (.processDunning true) (toldOn 61 "8" false), .resume 0 (toldOn 61 "9" false),
    .resume 0 (toldOn 61 "10" true)]

theorem retriesAlone_collected :
    (Transaction.run (machine (Billing.dunning capitals)) desk retriesAlone).state.attempts =
        [⟨"inv_4", 0, .opened⟩, ⟨"inv_5", 0, .opened⟩] ∧
      Collected (Transaction.run (machine (Billing.dunning capitals)) desk retriesAlone).state := by
  have hrun : (Transaction.run (machine (Billing.dunning capitals)) desk
        retriesAlone).state.attempts = [⟨"inv_4", 0, .opened⟩, ⟨"inv_5", 0, .opened⟩] ∧
      Along (machine (Billing.dunning capitals)) Undisturbed desk retriesAlone := by
    decide +kernel
  exact ⟨hrun.1, collected_of_undisturbed capitals retriesAlone hrun.2⟩

/-- Two runs find the same invoices due. -/
def retriesTwice : List (Act Request Told) := failing ++
  [.call (.processDunning true) (toldOn 61 "8" false),
    .call (.processDunning true) (toldOn 61 "9" false)]

/-- The second invoice is paid while the first one is waited for. -/
def retriesPaid : List (Act Request Told) := failing ++
  [.call (.processDunning true) (toldOn 61 "8" false),
    .call (.serve (.markInvoicePaid "inv_5")) (toldOn 61 "9" false),
    .resume 0 (toldOn 61 "10" false), .resume 0 (toldOn 61 "11" true)]

/-- A retry is attempted twice, and an invoice that is paid is attempted, which ends the run. -/
theorem disturbed_not_collected :
    (Transaction.run (machine (Billing.dunning capitals)) desk retriesTwice).state.attempts =
        [⟨"inv_4", 0, .opened⟩, ⟨"inv_4", 0, .opened⟩] ∧
      (Transaction.run (machine (Billing.dunning capitals)) desk retriesPaid).state.attempts =
        [⟨"inv_4", 0, .opened⟩, ⟨"inv_5", 0, .paid⟩] ∧
      (Transaction.run (machine (Billing.dunning capitals)) desk retriesPaid).state.finished =
        [⟨["inv_4", "inv_5"], none⟩] ∧
      ¬ ∀ (host : Host) (acts : List (Act Request Told)),
        Collected (Transaction.run (machine (Billing.dunning host)) desk acts).state := by
  have hrun : (Transaction.run (machine (Billing.dunning capitals)) desk
        retriesTwice).state.attempts = [⟨"inv_4", 0, .opened⟩, ⟨"inv_4", 0, .opened⟩] ∧
      (Transaction.run (machine (Billing.dunning capitals)) desk retriesPaid).state.attempts =
        [⟨"inv_4", 0, .opened⟩, ⟨"inv_5", 0, .paid⟩] ∧
      (Transaction.run (machine (Billing.dunning capitals)) desk retriesPaid).state.finished =
        [⟨["inv_4", "inv_5"], none⟩] := by
    decide +kernel
  refine ⟨hrun.1, hrun.2.1, hrun.2.2, fun hall => ?_⟩
  have honce := (hall capitals retriesTwice).once
  rw [hrun.1] at honce
  exact absurd honce (by decide)

end Billing
