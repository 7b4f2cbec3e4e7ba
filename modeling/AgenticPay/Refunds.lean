import AgenticPay.Awaits
import AgenticPay.RefundPolicies

/-!
# The refund engine

Records of refunds, which the calls of the engine move from status to status, and the processing of
a refund, which waits for the provider. Beside the records stand the refunds that the provider has
been asked to pay.
-/
namespace Refunds

open Records Awaits

inductive RefundStatus where
  | pending
  | approved
  | rejected
  | processing
  | completed
  | failed
  | cancelled
  deriving DecidableEq

def RefundStatus.text : RefundStatus → String
  | .pending => "pending"
  | .approved => "approved"
  | .rejected => "rejected"
  | .processing => "processing"
  | .completed => "completed"
  | .failed => "failed"
  | .cancelled => "cancelled"

inductive ApprovalStatus where
  | pending
  | approved
  | rejected
  deriving DecidableEq

structure RefundApproval where
  level : ApprovalLevel
  approverId : String
  status : ApprovalStatus
  comment : Option String
  deriving DecidableEq

structure RefundHistoryEntry where
  action : String
  actor : String
  fromStatus : RefundStatus
  toStatus : RefundStatus
  comment : Option String
  deriving DecidableEq

structure RefundRecord where
  id : RefundId
  paymentId : String
  stripeRefundId : Option String
  amount : ℚ
  status : RefundStatus
  decision : RefundDecision
  decisionReasons : List String
  approvedBy : Option String
  failureReason : Option String
  autoProcessed : Bool
  approvals : List RefundApproval
  history : List RefundHistoryEntry
  deriving DecidableEq

abbrev RefundStore := Table RefundRecord.id

structure State where
  policies : PolicyStore
  refunds : RefundStore
  asked : List RefundId

def State.setRefund (s : State) (refund : RefundRecord) : State :=
  { s with refunds := s.refunds.set refund }

def start : State := ⟨∅, ∅, []⟩

/-- What a provider answers, or what it throws. -/
inductive Answer where
  | succeeds (txHash : Option String)
  | fails (error : Option String)
  | throws (message : String)

/-! ## Evaluation -/

def statusOf : RefundDecision → RefundStatus
  | .approved => .approved
  | .rejected => .rejected
  | .manualReview => .pending

def createdAction : RefundDecision → String
  | .approved => "auto_approved"
  | .rejected => "rejected"
  | .manualReview => "pending_review"

def createRefundRecord (id : RefundId) (input : RefundEvaluationInput) (j : Judgement) :
    RefundRecord where
  id := id
  paymentId := input.paymentId
  stripeRefundId := none
  amount := input.requestedAmount
  status := statusOf j.decision
  decision := j.decision
  decisionReasons := [j.reason]
  approvedBy := none
  failureReason := none
  autoProcessed := j.decision = .approved
  approvals := (j.requiredApprovalLevel.map fun level => ⟨level, "", .pending, none⟩).toList
  history := [⟨createdAction j.decision, "system", .pending, statusOf j.decision,
    j.matchedRule.map ("Matched rule: " ++ ·.id)⟩]

/-- Identifiers that are new, the one of the default policy among them. -/
structure Uuids where
  refund : RefundId
  policy : PolicyId

def evaluateRefund (valueText : RuleValue → String) (uuids : Uuids)
    (input : RefundEvaluationInput) (s : State) : Except Failure (Judgement × ℚ × State) :=
  let policy := getRefundPolicy uuids.policy input.workspaceId s.policies
  if policy.requireReason ∧ ¬ hasReason input then
    .error (.app 400 "Refund reason is required by policy" "ERR_REFUND_REASON_REQUIRED")
  else
    let j := judge valueText policy input
    .ok (j, if j.decision = .approved then input.requestedAmount else 0,
      s.setRefund (createRefundRecord uuids.refund input j))

/-! ## Approval workflow -/

def ApprovalLevel.text : ApprovalLevel → String
  | .first => "first"
  | .second => "second"
  | .third => "third"

def findRefund (s : State) (refundId : RefundId) : Except Failure RefundRecord :=
  match s.refunds.get refundId with
  | none => .error (.app 404 "Refund not found" "ERR_REFUND_NOT_FOUND")
  | some refund => .ok refund

def findApproval (refund : RefundRecord) (level : ApprovalLevel) :
    Except Failure RefundApproval :=
  match refund.approvals.find? (·.level = level) with
  | none => .error (.app 400 s!"No {level.text} approval required for this refund"
      "ERR_REFUND_NO_APPROVAL_NEEDED")
  | some approval => .ok approval

/-- The first approval of the level is replaced. -/
def resolveApproval (approval : RefundApproval) : List RefundApproval → List RefundApproval
  | [] => []
  | first :: rest =>
    if first.level = approval.level then approval :: rest
    else first :: resolveApproval approval rest

/-- A refund whose status has changed, with an entry in its history. -/
def RefundRecord.moved (refund : RefundRecord) (status : RefundStatus) (action actor : String)
    (comment : Option String) : RefundRecord :=
  { refund with
    status
    history := refund.history ++ [⟨action, actor, refund.status, status, comment⟩] }

def approved (refund : RefundRecord) (approval : RefundApproval) (approverId : String)
    (comment : Option String) : RefundRecord :=
  let approvals :=
    resolveApproval { approval with status := .approved, approverId, comment } refund.approvals
  if approvals.all (·.status = .approved) then
    { refund with approvals, decision := .approved, approvedBy := some approverId }.moved
      .approved "approved" approverId comment
  else
    { refund with approvals }.moved refund.status "approved" approverId comment

def approveRefund (refundId : RefundId) (approverId : String) (level : ApprovalLevel)
    (comment : Option String) (s : State) : Except Failure (RefundRecord × State) := do
  let refund ← findRefund s refundId
  let approval ← findApproval refund level
  if approval.status ≠ .pending then
    .error (.app 400 s!"Approval at level {level.text} has already been resolved"
      "ERR_REFUND_APPROVAL_RESOLVED")
  else
    return (approved refund approval approverId comment,
      s.setRefund (approved refund approval approverId comment))

def rejected (refund : RefundRecord) (approval : RefundApproval) (approverId : String)
    (comment : Option String) : RefundRecord :=
  { refund with
    approvals :=
      resolveApproval { approval with status := .rejected, approverId, comment } refund.approvals
    decision := .rejected }.moved .rejected "rejected" approverId comment

def rejectRefund (refundId : RefundId) (approverId : String) (level : ApprovalLevel)
    (comment : Option String) (s : State) : Except Failure (RefundRecord × State) := do
  let refund ← findRefund s refundId
  let approval ← findApproval refund level
  return (rejected refund approval approverId comment,
    s.setRefund (rejected refund approval approverId comment))

def cancelRefund (refundId : RefundId) (actor : String) (reason : Option String) (s : State) :
    Except Failure (RefundRecord × State) := do
  let refund ← findRefund s refundId
  if refund.status = .completed ∨ refund.status = .cancelled then
    .error (.app 400 s!"Refund is already {refund.status.text}" "ERR_REFUND_ALREADY_FINALIZED")
  else
    return (refund.moved .cancelled "cancelled" actor reason,
      s.setRefund (refund.moved .cancelled "cancelled" actor reason))

/-! ## Processing -/

/-- What has become of a refund that the provider was asked to pay. -/
def answered (refund : RefundRecord) : Answer → RefundRecord
  | .succeeds txHash =>
    { refund with
      status := .completed
      stripeRefundId := (txHash.filter (· ≠ "")).orElse fun _ => refund.stripeRefundId
      history := refund.history ++
        [⟨"completed", "system", .processing, .completed, refund.failureReason⟩] }
  | .fails error =>
    { refund with
      status := .failed
      failureReason := error
      history := refund.history ++ [⟨"failed", "system", .processing, .failed, error⟩] }
  | .throws message =>
    { refund with
      status := .failed
      failureReason := some message
      history := refund.history ++ [⟨"failed", "system", .processing, .failed, some message⟩] }

/-- How `processRefund` goes on: it waits for the provider, or it has completed the refund without
one. -/
inductive Processing where
  | asks (refund : RefundRecord)
  | completes (refund : RefundRecord)

def startProcessing (provider : Bool) (refund : RefundRecord) : Processing :=
  let refund := refund.moved .processing "processing_started" "system" none
  if provider then .asks refund else .completes (answered refund (.succeeds none))

def processRefund (provider : Bool) (refundId : RefundId) (s : State) :
    Except Failure Processing := do
  let refund ← findRefund s refundId
  if refund.status ≠ .approved then
    .error (.app 400 "Refund must be approved before processing" "ERR_REFUND_NOT_APPROVED")
  else return startProcessing provider refund

def retried (refund : RefundRecord) : RefundRecord :=
  { refund with failureReason := none }.moved .approved "retry" "system" none

def retryFailedRefund (provider : Bool) (refundId : RefundId) (s : State) :
    Except Failure Processing := do
  let refund ← findRefund s refundId
  if refund.status ≠ .failed then
    .error (.app 400 "Only failed refunds can be retried" "ERR_REFUND_NOT_FAILED")
  else processRefund provider refundId (s.setRefund (retried refund))

/-! ## Calls and what waits -/

inductive Call where
  | upsertRefundPolicy (input : PolicyInput)
  | deleteRefundPolicy (policyId : PolicyId)
  | evaluateRefund (input : RefundEvaluationInput)
  | approveRefund (refundId : RefundId) (approverId : String) (level : ApprovalLevel)
      (comment : Option String)
  | rejectRefund (refundId : RefundId) (approverId : String) (level : ApprovalLevel)
      (comment : Option String)
  | cancelRefund (refundId : RefundId) (actor : String) (reason : Option String)
  | processRefund (refundId : RefundId) (provider : Bool)
  | autoProcessApprovedRefunds (provider : Bool)
  | retryFailedRefund (refundId : RefundId) (provider : Bool)

/-- The loop of `autoProcessApprovedRefunds`, with the refunds that are still to be processed. -/
structure Batch where
  provider : Bool
  rest : List RefundId
  processed : Nat
  failed : Nat
  errors : List String

/-- What is waited for: the provider, or a call of `processRefund` that has ended. -/
inductive Waiting where
  | provider (refundId : RefundId) (batch : Option Batch)
  | next (batch : Batch)

inductive Response where
  | policy (policy : RefundPolicy)
  | deleted (found : Bool)
  | evaluated (judgement : Judgement) (amountApproved : ℚ)
  | refund (refund : RefundRecord)
  | processed (processed failed : Nat) (errors : List String)

structure Told where
  uuids : Uuids
  answer : Answer

abbrev Ends := Turn Waiting (Except Failure Response) × State

def Batch.count (batch : Batch) (refundId : RefundId) : Except Failure RefundRecord → Batch
  | .ok _ => { batch with processed := batch.processed + 1 }
  | .error failure =>
    { batch with
      failed := batch.failed + 1
      errors := batch.errors ++ ["Refund " ++ refundId ++ ": " ++ failure.message] }

/-- The end of a call of `processRefund`, on its own or in the loop. -/
def processingEnds (batch : Option Batch) (refundId : RefundId)
    (result : Except Failure RefundRecord) (s : State) : Ends :=
  match batch with
  | none => (.done (result.map .refund), s)
  | some batch => (.waits (.next (batch.count refundId result)), s)

def goOn (batch : Option Batch) (refundId : RefundId) (s : State) :
    Except Failure Processing → Ends
  | .error failure => processingEnds batch refundId (.error failure) s
  | .ok (.completes refund) => processingEnds batch refundId (.ok refund) (s.setRefund refund)
  | .ok (.asks refund) => (.waits (.provider refundId batch),
      { s.setRefund refund with asked := s.asked ++ [refundId] })

def nextRefund (batch : Batch) (s : State) : Ends :=
  match batch.rest with
  | [] => (.done (.ok (.processed batch.processed batch.failed batch.errors)), s)
  | refundId :: rest =>
    goOn (some { batch with rest }) refundId s (processRefund batch.provider refundId s)

def approvedRefunds (s : State) : List RefundId :=
  (s.refunds.records.filter fun r => r.status = .approved ∧ r.autoProcessed).map (·.id)

def autoProcessApprovedRefunds (provider : Bool) (s : State) : Ends :=
  nextRefund ⟨provider, approvedRefunds s, 0, 0, []⟩ s

/-- The end of a call that does not wait. -/
def ended (outcome : Except Failure (RefundRecord × State)) (s : State) : Ends :=
  match outcome with
  | .error failure => (.done (.error failure), s)
  | .ok (refund, s) => (.done (.ok (.refund refund)), s)

variable (valueText : RuleValue → String)

/-- One call, up to its first wait. Identifiers that are not new are no call. -/
def request (told : Told) (s : State) : Call → Option Ends
  | .upsertRefundPolicy input =>
    let (policy, policies) := upsertRefundPolicy told.uuids.policy input s.policies
    some (.done (.ok (.policy policy)), { s with policies })
  | .deleteRefundPolicy policyId =>
    let (found, policies) := deleteRefundPolicy policyId s.policies
    some (.done (.ok (.deleted found)), { s with policies })
  | .evaluateRefund input =>
    if s.refunds.get told.uuids.refund = none then
      match evaluateRefund valueText told.uuids input s with
      | .error failure => some (.done (.error failure), s)
      | .ok (judgement, amountApproved, s) =>
        some (.done (.ok (.evaluated judgement amountApproved)), s)
    else none
  | .approveRefund refundId approverId level comment =>
    some (ended (approveRefund refundId approverId level comment s) s)
  | .rejectRefund refundId approverId level comment =>
    some (ended (rejectRefund refundId approverId level comment s) s)
  | .cancelRefund refundId actor reason => some (ended (cancelRefund refundId actor reason s) s)
  | .processRefund refundId provider =>
    some (goOn none refundId s (processRefund provider refundId s))
  | .autoProcessApprovedRefunds provider => some (autoProcessApprovedRefunds provider s)
  | .retryFailedRefund refundId provider =>
    some (goOn none refundId s (retryFailedRefund provider refundId s))

def thrown : Answer → Except Failure Unit
  | .throws message => .error (.thrown message)
  | _ => .ok ()

/-- The provider has answered. When it throws at once, the refund is resumed at once. -/
def resume (told : Told) (s : State) : Waiting → Ends
  | .next batch => nextRefund batch s
  | .provider refundId batch =>
    match s.refunds.get refundId with
    | none => (.done (.error (.app 404 "Refund not found" "ERR_REFUND_NOT_FOUND")), s)
    | some refund =>  -- no refund is ever removed
      let refund := answered refund told.answer
      processingEnds batch refundId (thrown told.answer >>= fun _ => .ok refund)
        (s.setRefund refund)

def engine : Program Call Told State Waiting (Except Failure Response) where
  call := fun c told s => request valueText told s c
  resume := fun task told s => resume told s task

abbrev Engine := Config State Waiting

def initial : Engine := ⟨start, []⟩

end Refunds
