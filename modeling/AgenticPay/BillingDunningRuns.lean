import AgenticPay.Awaits
import AgenticPay.BillingCoverage

/-!
# Runs of dunning

A run finds the invoices that are due, and waits for the attempter for one after the other. In
between all calls of the service are made, and other runs are started. Kept beside the service are
the attempts that the attempter has been called for, and how the runs have ended.
-/
namespace Billing

open Transaction Awaits

structure DunningRunResult where
  processed : Nat
  recovered : List InvoiceId
  failed : List InvoiceId
  exhausted : List InvoiceId
  deriving DecidableEq

/-- A call of the attempter: the retry that it is for, and the status that the invoice has then. -/
structure Attempt where
  invoiceId : InvoiceId
  retry : Nat
  status : InvoiceStatus
  deriving DecidableEq

/-- A run that waits for the attempter, with all that it has found due. -/
structure DunningRun where
  due : List InvoiceId
  invoiceId : InvoiceId
  rest : List InvoiceId
  result : DunningRunResult
  deriving DecidableEq

structure Finished where
  due : List InvoiceId
  outcome : Option DunningRunResult
  deriving DecidableEq

structure Desk where
  service : State
  attempts : List Attempt
  finished : List Finished

inductive Request where
  | serve (c : Call)
  | processDunning (attempter : Bool)

/-- What a turn is told, with the outcome of the attempt that it has waited for. -/
structure Told where
  env : Env
  success : Bool

inductive Response where
  | served (result : Result)
  | processed (result : DunningRunResult)

abbrev Ends := Turn DunningRun (Except Failure Response) × Desk

/-- An invoice whose next retry has come. -/
def Invoice.Due (now : Int) (invoice : Invoice) : Prop :=
  invoice.status = .opened ∧ ∃ dunning ∈ invoice.retrying?,
    ∃ retryAt ∈ dunning.nextRetryAt, retryAt ≤ now

instance (now : Int) (invoice : Invoice) : Decidable (invoice.Due now) :=
  inferInstanceAs (Decidable (_ ∧ ∃ dunning ∈ invoice.retrying?,
    ∃ retryAt ∈ dunning.nextRetryAt, retryAt ≤ now))

def dueInvoices (env : Env) (s : State) : List InvoiceId :=
  (s.invoices.filter (·.Due env.now)).map (·.id)

def attemptOn (s : State) (id : InvoiceId) : Attempt :=
  match s.invoice? id with
  | none => ⟨id, 0, .draft⟩  -- no invoice is ever removed
  | some invoice =>
    ⟨id, (invoice.dunning.map (·.retriesAttempted)).getD 0, invoice.status⟩

/-- The turn of the loop for what is still to be attempted. -/
def attemptNext (due rest : List InvoiceId) (result : DunningRunResult) (d : Desk) : Ends :=
  match rest with
  | [] => (.done (.ok (.processed result)),
      { d with finished := d.finished ++ [⟨due, some result⟩] })
  | id :: rest => (.waits ⟨due, id, rest, result⟩,
      { d with attempts := d.attempts ++ [attemptOn d.service id] })

/-- `processDunning`, up to the first attempt. -/
def processDunning (env : Env) (attempter : Bool) (d : Desk) : Ends :=
  if attempter = true then
    attemptNext (dueInvoices env d.service) (dueInvoices env d.service) ⟨0, [], [], []⟩ d
  else
    (.done (.error (conflict "No payment attempter is configured for dunning retries")), d)

def DunningRunResult.count (result : DunningRunResult) (updated : Invoice) : DunningRunResult :=
  if updated.status = .paid then
    { result with
      processed := result.processed + 1, recovered := result.recovered ++ [updated.id] }
  else if updated.dunning.map (·.status) = some .exhausted then
    { result with
      processed := result.processed + 1, exhausted := result.exhausted ++ [updated.id] }
  else
    { result with processed := result.processed + 1, failed := result.failed ++ [updated.id] }

/-- The attempter has answered. An attempter that throws has failed, and one that throws at once is
a run that is resumed at once. -/
def resumeDunning (run : DunningRun) (told : Told) (d : Desk) : Ends :=
  match recordPaymentAttempt told.env run.invoiceId told.success d.service with
  | .error failure => (.done (.error failure),
      { d with finished := d.finished ++ [⟨run.due, none⟩] })
  | .ok (updated, s) =>
    attemptNext run.due run.rest (run.result.count updated) { d with service := s }

variable (host : Host)

def request (told : Told) : Request → Desk → Option Ends
  | .serve c, d =>
    match service host (told.env, c) d.service with
    | .ok (result, s) => some (.done (.ok (.served result)), { d with service := s })
    | .error (some failure) => some (.done (.error failure), d)
    | .error none => none
  | .processDunning attempter, d => some (processDunning told.env attempter d)

def dunning : Program Request Told Desk DunningRun (Except Failure Response) where
  call := fun c told d => request host told c d
  resume := resumeDunning

def desk : Config Desk DunningRun := ⟨⟨start, [], []⟩, []⟩

/-! ## What is to hold of every interleaving -/

/-- Each retry has been attempted once at most, on invoices that were not settled, and each run that
has ended has processed all that it had found due. -/
structure Collected (d : Desk) : Prop where
  once : (d.attempts.map fun a => (a.invoiceId, a.retry)).Nodup
  unsettled : ∀ a ∈ d.attempts, a.status ≠ .paid ∧ a.status ≠ .void
  processed : ∀ f ∈ d.finished, ∃ result, f.outcome = some result ∧
    result.processed = f.due.length ∧
      ∀ id ∈ f.due, id ∈ result.recovered ∨ id ∈ result.failed ∨ id ∈ result.exhausted

/-- The invoices that a run is still to record an outcome for. -/
def DunningRun.held (run : DunningRun) : List InvoiceId := run.invoiceId :: run.rest

/-- A failure now would be the last one. -/
def LastRetry (s : State) (id : InvoiceId) : Prop :=
  ∀ invoice ∈ s.invoice? id, ∀ dunning ∈ invoice.retrying?,
    nextRetryAt dunning.startedAt dunning.retryScheduleDays (dunning.retriesAttempted + 1) = none

instance (s : State) (id : InvoiceId) : Decidable (LastRetry s id) :=
  inferInstanceAs (Decidable (∀ invoice ∈ s.invoice? id, ∀ dunning ∈ invoice.retrying?,
    nextRetryAt dunning.startedAt dunning.retryScheduleDays (dunning.retriesAttempted + 1) = none))

/-- The call pays or voids the invoice, or gives it up. -/
def Settles (s : State) (id : InvoiceId) : Call → Prop
  | .markInvoicePaid id' | .voidInvoice id' => id' = id
  | .recordPaymentAttempt id' success => id' = id ∧ (success = true ∨ LastRetry s id)
  | _ => False

instance (s : State) (id : InvoiceId) : (c : Call) → Decidable (Settles s id c)
  | .markInvoicePaid id' | .voidInvoice id' => inferInstanceAs (Decidable (id' = id))
  | .recordPaymentAttempt id' success =>
    inferInstanceAs (Decidable (id' = id ∧ (success = true ∨ LastRetry s id)))
  | .createPlan .. | .createPromoCode .. | .deactivatePromoCode .. | .applyPromoCode ..
  | .removeDiscount .. | .subscribe .. | .cancelSubscription .. | .changePlan ..
  | .recordUsage .. | .generateInvoice .. | .closeBillingPeriod .. | .configureDunning .. =>
    isFalse not_false

/-- No call settles an invoice that a run in progress has found due, and no run finds one due that
another run in progress is still to process. -/
def Undisturbed (g : Config Desk DunningRun) : Act Request Told → Prop
  | .call (.serve c) _ => ∀ run ∈ g.tasks, ∀ id ∈ run.held, ¬ Settles g.state.service id c
  | .call (.processDunning _) told =>
    ∀ id ∈ dueInvoices told.env g.state.service, ∀ run ∈ g.tasks, id ∉ run.held
  | .resume _ _ => True

instance (g : Config Desk DunningRun) : (a : Act Request Told) → Decidable (Undisturbed g a)
  | .call (.serve c) _ => inferInstanceAs (Decidable (∀ run ∈ g.tasks, ∀ id ∈ run.held,
      ¬ Settles g.state.service id c))
  | .call (.processDunning _) told => inferInstanceAs (Decidable (
      ∀ id ∈ dueInvoices told.env g.state.service, ∀ run ∈ g.tasks, id ∉ run.held))
  | .resume _ _ => isTrue trivial

end Billing
