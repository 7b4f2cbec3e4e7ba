import AgenticPay.Records
import Mathlib.Data.Rat.Floor

/-!
# Payouts: data

Amounts are exact numbers and times are milliseconds. A batch is known by a number that stands for
the random identifier it is given, since these do not repeat. Left out are the events, which no
function reads, and the dates that are kept and read nowhere.
-/
namespace Payouts

open Records

abbrev BatchId := Nat
abbrev MerchantId := String
abbrev ScheduleId := String

inductive PayoutScheduleType where
  | daily
  | weekly
  | monthly
  | threshold
  deriving DecidableEq

def PayoutScheduleType.text : PayoutScheduleType → String
  | .daily => "daily"
  | .weekly => "weekly"
  | .monthly => "monthly"
  | .threshold => "threshold"

def dayMs : Nat := 24 * 60 * 60 * 1000

def schedulePeriodMs : PayoutScheduleType → Option Nat
  | .daily => some dayMs
  | .weekly => some (7 * dayMs)
  | .monthly => some (30 * dayMs)
  | .threshold => none

structure PayoutSchedule where
  id : ScheduleId
  merchantId : MerchantId
  scheduleType : PayoutScheduleType
  thresholdAmount : Option ℚ
  preferredAsset : String
  autoApproveLimit : ℚ
  deriving DecidableEq

inductive PayoutStatus where
  | pending
  | executing
  | completed
  | failed
  deriving DecidableEq

def PayoutStatus.text : PayoutStatus → String
  | .pending => "pending"
  | .executing => "executing"
  | .completed => "completed"
  | .failed => "failed"

structure PayoutBatch where
  id : BatchId
  merchantId : MerchantId
  scheduleId : ScheduleId
  cycleKey : String
  status : PayoutStatus
  amount : ℚ
  asset : String
  errorMessage : Option String
  errorCode : Option String
  rejectedBy : Option String
  attempts : Nat
  maxAttempts : Nat
  requiresApproval : Bool
  nextAttemptAt : Option Int
  transactionHash : Option String
  fundsReleased : Bool
  deriving DecidableEq

inductive AuditAction where
  | created
  | approved
  | rejected
  | retried
  | executing
  | settled
  | failed
  | released
  deriving DecidableEq

/-- What an entry is about: a batch, or a schedule that no batch could be made for. -/
inductive Subject where
  | batch (id : BatchId)
  | schedule (id : ScheduleId)
  deriving DecidableEq

structure PayoutAuditEntry where
  subject : Subject
  action : AuditAction
  actorId : String
  details : Option String
  deriving DecidableEq

structure PayoutApprover where
  id : String
  role : String
  deriving DecidableEq

/-! ## Settings -/

structure PayoutEngineOptions where
  approvalThreshold : Option ℚ
  maxAttempts : Option ℚ
  retryBaseMs : Option ℚ
  retryMaxMs : Option ℚ
  maxBatchAmount : Option ℚ
  allowedAssets : Option (List String)

structure Settings where
  approvalThreshold : ℚ
  maxAttempts : Nat
  retryBaseMs : ℚ
  retryMaxMs : ℚ
  maxBatchAmount : ℚ
  allowedAssets : List String
  attempts : 1 ≤ maxAttempts

/-- The environment gives a number, if it gives any. -/
def resolveApprovalThreshold (fromEnv explicit : Option ℚ) : Except String ℚ :=
  let threshold := explicit.getD ((fromEnv.filter (0 < ·)).getD 10000)
  if threshold ≤ 0 then .error "INVALID_PAYOUT_APPROVAL_THRESHOLD" else .ok threshold

def resolvePositiveLimit (value : Option ℚ) (fallback : ℚ) (code : String) : Except String ℚ :=
  match value with
  | none => .ok fallback
  | some value => if value ≤ 0 then .error code else .ok value

def configure (fromEnv : Option ℚ) (options : PayoutEngineOptions) : Except String Settings := do
  let approvalThreshold ← resolveApprovalThreshold fromEnv options.approvalThreshold
  let maxAttempts ← resolvePositiveLimit options.maxAttempts 5 "INVALID_PAYOUT_MAX_ATTEMPTS"
  let maxBatchAmount ←
    resolvePositiveLimit options.maxBatchAmount 1000000 "INVALID_PAYOUT_MAX_BATCH_AMOUNT"
  let retryBaseMs ← resolvePositiveLimit options.retryBaseMs 30000 "INVALID_PAYOUT_RETRY_BASE_MS"
  let retryMaxMs ← resolvePositiveLimit options.retryMaxMs 3600000 "INVALID_PAYOUT_RETRY_MAX_MS"
  let allowedAssets := options.allowedAssets.getD ["USDC", "USDT", "XLM", "EURC"]
  if allowedAssets = [] then .error "INVALID_PAYOUT_ALLOWED_ASSETS"
  else
    return { approvalThreshold, maxAttempts := max 1 maxAttempts.floor.toNat, retryBaseMs
             retryMaxMs := max retryBaseMs retryMaxMs, maxBatchAmount, allowedAssets
             attempts := le_max_left _ _ }

/-! ## Amounts -/

def assetDecimals : String → Nat
  | "XLM" => 7
  | _ => 6

/-- Rounding to nearest, ties away from zero. -/
def roundHalfAway (value : ℚ) : ℚ :=
  if value < 0 then -(⌊-value + 1 / 2⌋ : ℚ) else ⌊value + 1 / 2⌋

/-- A number whose decimals are more than 120 places away is no amount. -/
def IsAmount (value : ℚ) (decimals : Nat) : Prop :=
  (value * 10 ^ (decimals + 120)).den = 1 ∧
    (value = 0 ∨ (value / 10 ^ (121 - decimals)).den ≠ 1)

instance (value : ℚ) (decimals : Nat) : Decidable (IsAmount value decimals) :=
  inferInstanceAs (Decidable (_ ∧ _))

def quantizeNumber (showNumber : ℚ → String) (value : ℚ) (decimals : Nat) : Except String ℚ :=
  if IsAmount value decimals then .ok (roundHalfAway (value * 10 ^ decimals) / 10 ^ decimals)
  else .error ("INVALID_AMOUNT: " ++ showNumber value ++ " is not a valid decimal amount")

theorem quantizeNumber_amount {showNumber : ℚ → String} {value amount : ℚ} {decimals : Nat}
    (h : quantizeNumber showNumber value decimals = .ok amount) : IsAmount value decimals := by
  rw [quantizeNumber] at h
  split_ifs at h with hamount
  exact hamount

/-- An amount that has no more decimals than it may have is left as it is. -/
def Exact (value : ℚ) (decimals : Nat) : Prop :=
  IsAmount value decimals ∧ (value * 10 ^ decimals).den = 1

instance (value : ℚ) (decimals : Nat) : Decidable (Exact value decimals) :=
  inferInstanceAs (Decidable (_ ∧ _))

theorem roundHalfAway_int (n : Int) : roundHalfAway (n : ℚ) = n := by
  have hhalf : ∀ m : Int, ⌊(m : ℚ) + 1 / 2⌋ = m := by
    intro m
    rw [Int.floor_intCast_add]
    norm_num
  rw [roundHalfAway]
  split_ifs
  · have hneg := hhalf (-n)
    rw [Int.cast_neg] at hneg
    rw [hneg, Int.cast_neg, neg_neg]
  · rw [hhalf]

theorem quantizeNumber_exact (showNumber : ℚ → String) {value : ℚ} {decimals : Nat}
    (h : Exact value decimals) : quantizeNumber showNumber value decimals = .ok value := by
  have hpow : (10 : ℚ) ^ decimals ≠ 0 := pow_ne_zero _ (by norm_num)
  have hint : ((value * 10 ^ decimals).num : ℚ) = value * 10 ^ decimals :=
    Rat.coe_int_num_of_den_eq_one h.2
  rw [quantizeNumber, if_pos h.1, ← hint, roundHalfAway_int, hint, mul_div_cancel_right₀ _ hpow]

end Payouts
