import AgenticPay.BillingTypes
import AgenticPay.Records
import Mathlib.Data.List.Infix
import Mathlib.Data.List.Sort

/-!
# Refund policies

What is asked for is judged by the rules of a policy in the order of their priority, and by its
thresholds when no rule matches. Amounts are exact numbers. Left out are the dates of creation and
the texts of a record that are kept and read nowhere.
-/
namespace Refunds

open Records

abbrev PolicyId := String
abbrev RefundId := String

inductive RefundDecision where
  | approved
  | manualReview
  | rejected
  deriving DecidableEq

inductive ApprovalLevel where
  | first
  | second
  | third
  deriving DecidableEq

/-- A value of a field of what is asked for. -/
inductive FieldValue where
  | number (value : ℚ)
  | text (value : String)
  | boolean (value : Bool)
  deriving DecidableEq

/-- The value of a rule is what it was configured with. What is `none` is no value of a field. -/
inductive RuleValue where
  | field (value : Option FieldValue)
  | array (values : List (Option FieldValue))
  deriving DecidableEq

inductive Operator where
  | eq
  | neq
  | gt
  | gte
  | lt
  | lte
  | isIn
  | notIn
  | contains
  deriving DecidableEq

def Operator.text : Operator → String
  | .eq => "eq"
  | .neq => "neq"
  | .gt => "gt"
  | .gte => "gte"
  | .lt => "lt"
  | .lte => "lte"
  | .isIn => "in"
  | .notIn => "not_in"
  | .contains => "contains"

inductive RuleOutcome where
  | approve
  | reject
  | manualReview
  deriving DecidableEq

structure PolicyRule where
  id : String
  field : String
  operator : Operator
  value : RuleValue
  outcome : RuleOutcome
  priority : ℚ
  deriving DecidableEq

structure PolicyInput where
  workspaceId : String
  name : String
  fullRefundWindowDays : ℚ
  autoApprovalThreshold : ℚ
  alwaysRefundUnderAmount : ℚ
  maxPartialRefundPct : ℚ
  requireReason : Bool
  firstApprovalThreshold : ℚ
  secondApprovalThreshold : ℚ
  rules : List PolicyRule
  isActive : Bool
  deriving DecidableEq

structure RefundPolicy extends PolicyInput where
  id : PolicyId
  deriving DecidableEq

structure RefundEvaluationInput where
  workspaceId : String
  paymentId : String
  paymentType : String
  amountPaid : ℚ
  requestedAmount : ℚ
  currency : String
  daysSincePayment : ℚ
  reason : Option String
  hasChargeback : Bool
  hasDispute : Bool
  customerTier : Option String
  customerTotalSpent : Option ℚ
  previousRefundCount : Option ℚ
  previousRefundAmount : Option ℚ
  deriving DecidableEq

/-- An `AppError`, or what the provider has thrown. -/
inductive Failure where
  | app (statusCode : Nat) (message code : String)
  | thrown (message : String)
  deriving DecidableEq

def Failure.message : Failure → String
  | .app _ message _ => message
  | .thrown message => message

/-! ## Policies -/

def defaultPolicy (id : PolicyId) (workspaceId : String) : RefundPolicy where
  id := id
  workspaceId := workspaceId
  name := "default"
  fullRefundWindowDays := 30
  autoApprovalThreshold := 100
  alwaysRefundUnderAmount := 25
  maxPartialRefundPct := 100
  requireReason := true
  firstApprovalThreshold := 500
  secondApprovalThreshold := 5000
  rules := []
  isActive := true

abbrev PolicyStore := Table RefundPolicy.id

def upsertRefundPolicy (uuid : PolicyId) (input : PolicyInput) (policies : PolicyStore) :
    RefundPolicy × PolicyStore :=
  let existing := policies.records.find? fun p =>
    p.workspaceId = input.workspaceId ∧ p.name = input.name
  let policy : RefundPolicy := { input with id := (existing.map (·.id)).getD uuid }
  (policy, policies.set policy)

/-- The policy that `evaluateRefund` asks for: no name is given. -/
def getRefundPolicy (uuid : PolicyId) (workspaceId : String) (policies : PolicyStore) :
    RefundPolicy :=
  (policies.records.find? fun p => p.workspaceId = workspaceId ∧ p.isActive).getD
    (defaultPolicy uuid workspaceId)

def deleteRefundPolicy (policyId : PolicyId) (policies : PolicyStore) : Bool × PolicyStore :=
  match policies.get policyId with
  | none => (false, policies)
  | some policy => (true, policies.set { policy with isActive := false })

/-! ## Custom rules -/

def hasReason (input : RefundEvaluationInput) : Bool :=
  input.reason.any (Billing.trim · ≠ "")

def getFieldValue (input : RefundEvaluationInput) : String → Option FieldValue
  | "amount_paid" => some (.number input.amountPaid)
  | "requested_amount" => some (.number input.requestedAmount)
  | "days_since_payment" => some (.number input.daysSincePayment)
  | "payment_type" => some (.text input.paymentType)
  | "customer_tier" => input.customerTier.map .text
  | "customer_total_spent" => input.customerTotalSpent.map .number
  | "previous_refund_count" => input.previousRefundCount.map .number
  | "previous_refund_amount" => input.previousRefundAmount.map .number
  | "has_chargeback" => some (.boolean input.hasChargeback)
  | "has_dispute" => some (.boolean input.hasDispute)
  | "has_reason" => some (.boolean (hasReason input))
  | "reason" => input.reason.map .text
  | "currency" => some (.text input.currency)
  | _ => none

/-- A comparison of two numbers. -/
def compareNumbers (compare : ℚ → ℚ → Bool) : FieldValue → RuleValue → Bool
  | .number value, .field (some (.number bound)) => compare value bound
  | _, _ => false

def evaluateOperator (operator : Operator) (fieldValue : FieldValue) (ruleValue : RuleValue) :
    Bool :=
  match operator with
  | .eq => ruleValue = .field (some fieldValue)
  | .neq => ruleValue ≠ .field (some fieldValue)
  | .gt => compareNumbers (fun value bound => bound < value) fieldValue ruleValue
  | .gte => compareNumbers (fun value bound => bound ≤ value) fieldValue ruleValue
  | .lt => compareNumbers (fun value bound => value < bound) fieldValue ruleValue
  | .lte => compareNumbers (fun value bound => value ≤ bound) fieldValue ruleValue
  | .isIn =>
    match ruleValue with
    | .array values => some fieldValue ∈ values
    | .field _ => false
  | .notIn =>
    match ruleValue with
    | .array values => some fieldValue ∉ values
    | .field _ => false
  | .contains =>
    match fieldValue, ruleValue with
    | .text value, .field (some (.text part)) => part.toList <:+: value.toList
    | _, _ => false

def PolicyRule.matches (rule : PolicyRule) (input : RefundEvaluationInput) : Bool :=
  match getFieldValue input rule.field with
  | none => false
  | some fieldValue => evaluateOperator rule.operator fieldValue rule.value

def outcomeMap : RuleOutcome → RefundDecision
  | .approve => .approved
  | .reject => .rejected
  | .manualReview => .manualReview

def evaluateCustomRules (rules : List PolicyRule) (input : RefundEvaluationInput) :
    Option PolicyRule :=
  (rules.insertionSort fun a b => b.priority ≤ a.priority).find? (·.matches input)

/-! ## The decision -/

/-- What `evaluateRefund` decides, with the approval that is still required. -/
structure Judgement where
  decision : RefundDecision
  reason : String
  requiredApprovalLevel : Option ApprovalLevel
  matchedRule : Option PolicyRule
  deriving DecidableEq

/-- The text of a value of a rule is that of the host. -/
def judgeByRule (valueText : RuleValue → String) (rule : PolicyRule) : Judgement where
  decision := outcomeMap rule.outcome
  reason := "Custom policy rule matched: " ++ rule.id ++ " (" ++ rule.field ++ " " ++
    rule.operator.text ++ " " ++ valueText rule.value ++ ")"
  requiredApprovalLevel := if outcomeMap rule.outcome = .manualReview then some .first else none
  matchedRule := some rule

def judgeByPolicy (policy : RefundPolicy) (input : RefundEvaluationInput) : Judgement :=
  if input.hasChargeback ∨ input.hasDispute then
    ⟨.manualReview, "Chargeback/dispute requires manual review", some .first, none⟩
  else if input.requestedAmount ≤ policy.alwaysRefundUnderAmount then
    ⟨.approved, "Requested amount below always-refund threshold", none, none⟩
  else if input.daysSincePayment ≤ policy.fullRefundWindowDays ∧
      input.requestedAmount ≤ input.amountPaid then
    ⟨.approved, "Within full refund window", none, none⟩
  else if input.amountPaid * policy.maxPartialRefundPct / 100 < input.requestedAmount then
    ⟨.rejected, "Requested amount exceeds partial refund policy", none, none⟩
  else if input.requestedAmount ≤ policy.autoApprovalThreshold then
    ⟨.approved, "Within auto-approval threshold", none, none⟩
  else if input.requestedAmount ≤ policy.firstApprovalThreshold then
    ⟨.manualReview, "Requires first-level approval", some .first, none⟩
  else if input.requestedAmount ≤ policy.secondApprovalThreshold then
    ⟨.manualReview, "Requires second-level approval", some .second, none⟩
  else
    ⟨.manualReview, "Requires third-level approval", some .third, none⟩

def judge (valueText : RuleValue → String) (policy : RefundPolicy)
    (input : RefundEvaluationInput) : Judgement :=
  match evaluateCustomRules policy.rules input with
  | some rule => judgeByRule valueText rule
  | none => judgeByPolicy policy input

/-- An approval is required of what is reviewed, and of nothing else. -/
theorem judge_level (valueText : RuleValue → String) (policy : RefundPolicy)
    (input : RefundEvaluationInput) :
    (judge valueText policy input).requiredApprovalLevel = none ↔
      (judge valueText policy input).decision ≠ .manualReview := by
  rw [judge]
  split
  next rule _ =>
    rw [judgeByRule]
    by_cases h : outcomeMap rule.outcome = .manualReview <;> simp [h]
  next =>
    rw [judgeByPolicy]
    split_ifs <;> simp

end Refunds
