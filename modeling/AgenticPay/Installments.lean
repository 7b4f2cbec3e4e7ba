import AgenticPay.Awaits
import AgenticPay.BillingTypes
import AgenticPay.Records

/-!
# Plans that are paid in installments

A call reads a copy of a plan, changes it and writes the whole plan back when it is resumed, and
then waits for the publisher of events. A sweep reads copies of all plans that are overdue, and goes
on with one after the other. Left out are amounts, currencies and customers, which no call reads,
and the data of events.
-/
namespace Installments

open Awaits Records
open Billing (Failure notFound conflict)

abbrev PlanId := String

inductive InstallmentStatus where
  | scheduled
  | due
  | paid
  | failed
  | cancelled
  deriving DecidableEq

inductive InstallmentPlanStatus where
  | active
  | completed
  | cancelled
  | defaulted
  deriving DecidableEq

structure Installment where
  index : Int
  dueAt : Int
  status : InstallmentStatus
  paidAt : Option Int
  paymentId : Option String
  failureReason : Option String
  deriving DecidableEq

structure InstallmentPlan where
  id : PlanId
  tenantId : String
  status : InstallmentPlanStatus
  installments : List Installment
  updatedAt : Int
  deriving DecidableEq

/-- An installment and the payment that a call has recorded for it. -/
structure Payment where
  planId : PlanId
  index : Int
  paymentId : Option String
  deriving DecidableEq

/-- The repository, and beside it the payments and cancellations whose calls have succeeded. -/
structure State where
  plans : Table InstallmentPlan.id
  payments : List Payment
  cancellations : List PlanId

/-- A date that is given may be none that can be read. -/
inductive Operation where
  | payInstallment (installmentIndex : Int) (paymentId : Option String)
      (paidAt : Option (Option Int))
  | markInstallmentFailed (installmentIndex : Int) (reason : String)
  | cancelPlan

inductive Call where
  | change (tenantId : String) (planId : PlanId) (operation : Operation)
  | sweepOverdue (tenantId : String) (reference : Option Int)

inductive EventType where
  | installmentPaid
  | planCompleted
  | installmentFailed
  | planCancelled
  | installmentOverdue
  deriving DecidableEq

structure SweepResult where
  scanned : Nat
  flagged : Nat

inductive Response where
  | plan (plan : InstallmentPlan)
  | swept (result : SweepResult)

/-- The copies that a sweep has still to look at. -/
structure Sweep where
  reference : Int
  rest : List InstallmentPlan
  result : SweepResult

/-- What is waited for: the copy of a plan, the publisher, and the copies of a sweep. -/
inductive Waiting where
  | reading (tenantId : String) (planId : PlanId) (operation : Operation)
      (found : Option InstallmentPlan)
  | publishing (operation : Operation) (saved : InstallmentPlan) (events : List EventType)
  | sweeping (sweep : Sweep)
  | publishingOverdue (sweep : Sweep)

/-- The time, and what the publisher throws. -/
structure Told where
  now : Int
  throws : Option String

inductive Error where
  | failure (failure : Failure)
  | threw (message : String)

abbrev Ends := Turn Waiting (Except Error Response) × State

def validationFailure (message : String) : Failure := ⟨message, 400, "VALIDATION_ERROR"⟩

/-! ## Changes of a plan -/

def findInstallment (index : Int) (plan : InstallmentPlan) : Option Installment :=
  plan.installments.find? (·.index = index)

/-- The installment that `find` gives is changed in its place. -/
def changeFirst (index : Int) (f : Installment → Installment) : List Installment → List Installment
  | [] => []
  | i :: rest => if i.index = index then f i :: rest else i :: changeFirst index f rest

def allPaid (installments : List Installment) : Bool := installments.all (·.status = .paid)

def collected (paidAt : Int) (paymentId : Option String) (i : Installment) : Installment :=
  { i with status := .paid, paidAt := some paidAt, paymentId, failureReason := none }

def payInstallment (now index : Int) (paymentId : Option String) (paidAt : Option (Option Int))
    (plan : InstallmentPlan) : Except Failure InstallmentPlan :=
  if plan.status = .cancelled then
    .error (conflict "Cannot collect an installment on a cancelled plan")
  else if plan.status = .completed then .error (conflict "Plan is already fully paid")
  else
    match findInstallment index plan with
    | none => .error (validationFailure s!"No installment at index {index}")
    | some target =>
      if target.status = .paid then
        .error (conflict s!"Installment {index} has already been paid")
      else if target.status = .cancelled then
        .error (conflict s!"Installment {index} has been cancelled")
      else
        match paidAt.getD (some now) with
        | none => .error (validationFailure "paidAt must be a valid date")
        | some paidAt =>
          let installments := changeFirst index (collected paidAt paymentId) plan.installments
          .ok { plan with
            installments
            status := if allPaid installments then .completed else plan.status
            updatedAt := now }

def statusText : InstallmentPlanStatus → String
  | .active => "active"
  | .completed => "completed"
  | .cancelled => "cancelled"
  | .defaulted => "defaulted"

def failed (reason : String) (i : Installment) : Installment :=
  { i with status := .failed, failureReason := some reason }

def markInstallmentFailed (now index : Int) (reason : String) (plan : InstallmentPlan) :
    Except Failure InstallmentPlan :=
  if plan.status = .cancelled ∨ plan.status = .completed then
    .error (conflict s!"Cannot fail an installment on a {statusText plan.status} plan")
  else
    match findInstallment index plan with
    | none => .error (validationFailure s!"No installment at index {index}")
    | some target =>
      if target.status = .paid then .error (conflict s!"Installment {index} is already paid")
      else .ok { plan with
        installments := changeFirst index (failed reason) plan.installments
        updatedAt := now }

def voided (i : Installment) : Installment :=
  if i.status = .scheduled ∨ i.status = .due ∨ i.status = .failed then
    { i with status := .cancelled }
  else i

def cancelPlan (now : Int) (plan : InstallmentPlan) : Except Failure InstallmentPlan :=
  if plan.status = .completed then .error (conflict "Cannot cancel a completed plan")
  else if plan.status = .cancelled then .error (conflict "Plan is already cancelled")
  else .ok { plan with
    installments := plan.installments.map voided, status := .cancelled, updatedAt := now }

def perform (now : Int) : Operation → InstallmentPlan → Except Failure InstallmentPlan
  | .payInstallment index paymentId paidAt => payInstallment now index paymentId paidAt
  | .markInstallmentFailed index reason => markInstallmentFailed now index reason
  | .cancelPlan => cancelPlan now

def eventsOf (operation : Operation) (saved : InstallmentPlan) : List EventType :=
  match operation with
  | .payInstallment .. =>
    if allPaid saved.installments then [.installmentPaid, .planCompleted] else [.installmentPaid]
  | .markInstallmentFailed .. => [.installmentFailed]
  | .cancelPlan => [.planCancelled]

/-- The call has succeeded. -/
def succeeded (operation : Operation) (saved : InstallmentPlan) (s : State) : State :=
  match operation with
  | .payInstallment index paymentId _ =>
    { s with payments := s.payments ++ [⟨saved.id, index, paymentId⟩] }
  | .markInstallmentFailed .. => s
  | .cancelPlan => { s with cancellations := s.cancellations ++ [saved.id] }

/-! ## Turns -/

def change (told : Told) (tenantId : String) (planId : PlanId) (operation : Operation)
    (found : Option InstallmentPlan) (s : State) : Ends :=
  match found.filter (·.tenantId = tenantId) with
  | none => (.done (.error (.failure (notFound "Installment plan" planId))), s)
  | some plan =>
    match perform told.now operation plan with
    | .error failure => (.done (.error (.failure failure)), s)
    | .ok saved =>
      (.waits (.publishing operation saved (eventsOf operation saved)),
        { s with plans := s.plans.set saved })

def isOverdue (reference : Int) (i : Installment) : Bool :=
  i.status = .scheduled && i.dueAt < reference

def flag (reference : Int) (i : Installment) : Installment :=
  if isOverdue reference i then { i with status := .due } else i

def flagged (now reference : Int) (plan : InstallmentPlan) : InstallmentPlan :=
  { plan with installments := plan.installments.map (flag reference), updatedAt := now }

/-- The first copy with an installment to flag is written back; the others are passed over. -/
def sweepNext (told : Told) (reference : Int) (result : SweepResult) :
    List InstallmentPlan → State → Ends
  | [], s => (.done (.ok (.swept result)), s)
  | plan :: rest, s =>
    let count := (plan.installments.filter (isOverdue reference)).length
    if count = 0 then sweepNext told reference result rest s
    else
      (.waits (.publishingOverdue
          ⟨reference, rest, { result with flagged := result.flagged + count }⟩),
        { s with plans := s.plans.set (flagged told.now reference plan) })

/-- The active plans that have an installment outstanding past its date. -/
def findWithOverdueInstallments (tenantId : String) (before : Int) (s : State) :
    List InstallmentPlan :=
  s.plans.records.filter fun plan =>
    plan.tenantId = tenantId && plan.status = .active && plan.installments.any fun i =>
      (i.status = .scheduled || i.status = .due) && i.dueAt < before

def call (c : Call) (s : State) : Ends :=
  match c with
  | .change tenantId planId operation =>
    (.waits (.reading tenantId planId operation (s.plans.get planId)), s)
  | .sweepOverdue tenantId reference =>
    match reference with
    | none =>
      (.done (.error (.failure (validationFailure "sweep timestamp must be a valid date"))), s)
    | some reference =>
      let plans := findWithOverdueInstallments tenantId reference s
      (.waits (.sweeping ⟨reference, plans, ⟨plans.length, 0⟩⟩), s)

def resume (task : Waiting) (told : Told) (s : State) : Ends :=
  match task with
  | .reading tenantId planId operation found => change told tenantId planId operation found s
  | .publishing operation saved events =>
    match told.throws, events with
    | some message, _ => (.done (.error (.threw message)), s)
    | none, _ :: next :: events => (.waits (.publishing operation saved (next :: events)), s)
    | none, _ => (.done (.ok (.plan saved)), succeeded operation saved s)
  | .sweeping sweep => sweepNext told sweep.reference sweep.result sweep.rest s
  | .publishingOverdue sweep =>
    match told.throws with
    | some message => (.done (.error (.threw message)), s)
    | none => sweepNext told sweep.reference sweep.result sweep.rest s

def service : Program Call Told State Waiting (Except Error Response) where
  call c _ s := some (call c s)
  resume := resume

end Installments
