import AgenticPay.BillingTypes

/-!
# Recurring billing: data and validation

A schedule says who is billed how much and when: a cron expression with a time zone, from a start to
an optional end, and at most so many times. Times are milliseconds. Left out is what no call reads
(merchants, names, metadata).
-/
namespace Recurring

open Billing (trim)

abbrev ScheduleId := String

inductive BillingPreset where
  | hourly | daily | weekly | monthly | yearly
  deriving DecidableEq

def BillingPreset.text : BillingPreset → String
  | .hourly => "hourly"
  | .daily => "daily"
  | .weekly => "weekly"
  | .monthly => "monthly"
  | .yearly => "yearly"

inductive RecurringScheduleStatus where
  | active | paused | cancelled | completed
  deriving DecidableEq

def RecurringScheduleStatus.text : RecurringScheduleStatus → String
  | .active => "active"
  | .paused => "paused"
  | .cancelled => "cancelled"
  | .completed => "completed"

structure RecurringSchedule where
  id : ScheduleId
  tenantId : String
  customerId : String
  cronExpression : String
  timezone : String
  amount : ℚ
  currency : String
  status : RecurringScheduleStatus
  startAt : Int
  endAt : Option Int
  maxRuns : Option Nat
  runCount : Nat
  lastRunAt : Option Int
  nextRunAt : Option Int
  createdAt : Int
  updatedAt : Int
  deriving DecidableEq

structure RecurringInvoice where
  scheduleId : ScheduleId
  tenantId : String
  amount : ℚ
  currency : String
  periodStart : Int
  dueAt : Int
  createdAt : Int
  deriving DecidableEq

/-- What `new Date` makes of a date that is given. -/
inductive DateInput where
  | at (time : Int)
  | invalid

structure CreateRecurringScheduleInput where
  tenantId : String
  customerId : String
  amount : Option ℚ  -- `none` is no finite number
  currency : Option String
  cronExpression : Option String
  preset : Option BillingPreset
  timezone : Option String
  startAt : Option DateInput
  endAt : Option DateInput
  maxRuns : Option ℚ

structure RescheduleInput where
  cronExpression : Option String
  preset : Option BillingPreset
  timezone : Option String

structure NormalizedRecurringSchedule where
  tenantId : String
  customerId : String
  amount : ℚ
  currency : String
  cronExpression : String
  timezone : String
  startAt : Int
  endAt : Option Int
  maxRuns : Option Nat

structure RecurringBillingConfig where
  supportedCurrencies : List String
  minAmount : ℚ
  maxAmount : ℚ
  defaultCurrency : String
  defaultTimezone : String
  defaultPreset : BillingPreset

/-- An error of the service, or what a publisher has thrown. -/
inductive Failure where
  | service (message : String) (statusCode : Nat) (code : String)
  | thrown (message : String)

def validationFailure (message : String) : Failure := .service message 400 "VALIDATION_ERROR"

def notFoundFailure (resource id : String) : Failure :=
  .service (resource ++ " not found: " ++ id) 404 "NOT_FOUND"

def conflictFailure (message : String) : Failure := .service message 409 "CONFLICT"

/-- What the host knows of texts, time zones and cron expressions. -/
structure Host where
  toUpperCase : String → String
  showNumber : ℚ → String
  localeLe : String → String → Bool
  knowsTimezone : String → Bool
  parsesCron : String → String → Bool
  nextRunAfter : String → String → Int → Option Int

def presetCron : BillingPreset → String
  | .hourly => "0 * * * *"
  | .daily => "0 0 * * *"
  | .weekly => "0 0 * * 0"
  | .monthly => "0 0 1 * *"
  | .yearly => "0 0 1 1 *"

def roundCurrency (value : ℚ) : ℚ := Billing.roundMoney value 2

variable (host : Host) (config : RecurringBillingConfig)

def isValidCronExpression (expression timezone : String) : Bool :=
  expression ≠ "" && host.parsesCron expression timezone

def isValidTimezone (timezone : String) : Bool := timezone ≠ "" && host.knowsTimezone timezone

/-- A text that is given and not empty. -/
def given (text : Option String) : Option String := text.filter (· ≠ "")

def resolveCronExpression (cronExpression : Option String) (preset : Option BillingPreset) :
    String :=
  match given cronExpression with
  | some expression => trim expression
  | none => presetCron (preset.getD config.defaultPreset)

def validateAmount (input : Option ℚ) : Except Failure ℚ :=
  match input.map roundCurrency with
  | none => .error (validationFailure "amount must be a positive number")
  | some amount =>
    if amount ≤ 0 then .error (validationFailure "amount must be a positive number")
    else if amount < config.minAmount then
      .error (validationFailure ("amount must be at least " ++ host.showNumber config.minAmount))
    else if config.maxAmount < amount then
      .error (validationFailure ("amount must not exceed " ++ host.showNumber config.maxAmount))
    else .ok amount

def validateCurrency (input : Option String) : Except Failure String :=
  let currency := host.toUpperCase (input.getD config.defaultCurrency)
  if currency ∈ config.supportedCurrencies then .ok currency
  else .error (validationFailure
    ("currency must be one of: " ++ String.intercalate ", " config.supportedCurrencies))

/-- The cron expression with its time zone. -/
def validateCadence (cronExpression : Option String) (preset : Option BillingPreset)
    (timezone : Option String) : Except Failure (String × String) :=
  let cron := resolveCronExpression config cronExpression preset
  let zone := timezone.getD config.defaultTimezone
  if ¬ isValidTimezone host zone then
    .error (validationFailure ("timezone \"" ++ zone ++ "\" is not a valid IANA zone"))
  else if ¬ isValidCronExpression host cron zone then
    .error (validationFailure ("cronExpression \"" ++ cron ++ "\" is invalid" ++
      if (given cronExpression).isSome then ""
      else " for preset \"" ++ (preset.getD config.defaultPreset).text ++ "\""))
  else .ok (cron, zone)

def validateStart (now : Int) : Option DateInput → Except Failure Int
  | none => .ok now
  | some .invalid => .error (validationFailure "startAt must be a valid date")
  | some (.at time) => .ok time

def validateEnd (startAt : Int) : Option DateInput → Except Failure (Option Int)
  | none => .ok none
  | some .invalid => .error (validationFailure "endAt must be a valid date")
  | some (.at time) =>
    if time < startAt then .error (validationFailure "endAt must be on or after startAt")
    else .ok (some time)

def validateRuns : Option ℚ → Except Failure (Option Nat)
  | none => .ok none
  | some maxRuns =>
    if ¬ Billing.isInteger maxRuns ∨ maxRuns < 1 then
      .error (validationFailure "maxRuns must be a positive integer")
    else .ok (some maxRuns.num.toNat)

def validateRecurringSchedule (now : Int) (input : CreateRecurringScheduleInput) :
    Except Failure NormalizedRecurringSchedule := do
  if input.tenantId = "" then .error (validationFailure "tenantId is required")
  else if input.customerId = "" then .error (validationFailure "customerId is required")
  else
    let amount ← validateAmount host config input.amount
    let currency ← validateCurrency host config input.currency
    let cadence ← validateCadence host config input.cronExpression input.preset input.timezone
    let startAt ← validateStart now input.startAt
    let endAt ← validateEnd startAt input.endAt
    let maxRuns ← validateRuns input.maxRuns
    return {
      tenantId := input.tenantId, customerId := input.customerId, amount, currency
      cronExpression := cadence.1, timezone := cadence.2, startAt, endAt, maxRuns }

end Recurring
