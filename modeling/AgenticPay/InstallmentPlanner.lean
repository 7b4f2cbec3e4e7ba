import AgenticPay.BillingMoney
import AgenticPay.Calendar

/-!
# Installment plans

A financed amount is split over the installments of a plan, and each of them falls
due some periods after the start date. Amounts are exact numbers.
-/
namespace InstallmentPlanner

open Calendar Dates

inductive InstallmentFrequency where
  | weekly | biweekly | monthly
  deriving DecidableEq, Repr

/-- `FREQUENCY_DAYS`, which has no entry for months. -/
def frequencyDays : InstallmentFrequency → Option Int
  | .weekly => some 7
  | .biweekly => some 14
  | .monthly => none

/-- A start date that is given as a date or as a text. -/
inductive StartDate where
  | date (d : JsDate)
  | text (s : String)
  deriving DecidableEq

structure BuildScheduleParams where
  financedAmount : ℚ
  installmentCount : Int
  frequency : InstallmentFrequency
  startDate : StartDate
  deriving DecidableEq

structure InstallmentScheduleEntry where
  index : Nat
  amount : ℚ
  dueAt : Instant
  deriving DecidableEq

def roundCurrency (value : ℚ) : ℚ := Billing.roundMoney value 2

/-- A date moved on by calendar months, on the last day of a month that is too short. -/
def addMonths (date : Instant) (periods : Int) : JsDate := do
  let dayOfMonth := date.getUTCDate
  let first ← date.setUTCDate 1
  let target ← first.setUTCMonth (first.getUTCMonth + periods)
  let last ← dateUtc target.getUTCFullYear (target.getUTCMonth + 1) 0
  target.setUTCDate (min dayOfMonth last.getUTCDate)

def addPeriod (base : JsDate) (frequency : InstallmentFrequency) (periods : Int) : JsDate := do
  let date ← base
  match frequencyDays frequency with
  | some days => date.setUTCDate (date.getUTCDate + days * periods)
  | none => addMonths date periods

/-- The share of the installments but for the last. -/
def baseShare (financed : ℚ) (installmentCount : Int) : ℚ :=
  ((financed / installmentCount * 100).floor : ℚ) / 100

/-- The last installment, which takes what the others leave. -/
def finalShare (financed : ℚ) (installmentCount : Int) : ℚ :=
  let share := baseShare financed installmentCount
  let remainder := roundCurrency (financed - roundCurrency (share * installmentCount))
  roundCurrency (share + remainder)

/-- The loop over the places of the schedule. -/
def scheduleEntries (financed : ℚ) (installmentCount : Int) (frequency : InstallmentFrequency)
    (firstDue : JsDate) : List Nat → Except String (List InstallmentScheduleEntry)
  | [] => .ok []
  | index :: rest => do
    let amount :=
      if (index : Int) = installmentCount then finalShare financed installmentCount
      else baseShare financed installmentCount
    let dueAt ← (addPeriod firstDue frequency (index - 1)).toISOString
    let entries ← scheduleEntries financed installmentCount frequency firstDue rest
    return { index, amount, dueAt } :: entries

/-- The start date as a date, where `parse` reads one from a text. -/
def firstDue (parse : String → JsDate) : StartDate → JsDate
  | .date d => d
  | .text s => parse s

def buildInstallmentSchedule (parse : String → JsDate) (params : BuildScheduleParams) :
    Except String (List InstallmentScheduleEntry) :=
  if params.installmentCount ≤ 0 then .error "installmentCount must be greater than zero"
  else
    let financed := roundCurrency params.financedAmount
    let firstDue := firstDue parse params.startDate
    scheduleEntries financed params.installmentCount params.frequency firstDue
      (List.range' 1 params.installmentCount.toNat)

/-! ## Months -/

/-- The month as the year of two digits makes it. -/
def shownMonth (month : Int) : Int := 12 * makeFullYear (month / 12) + month % 12

/-- Only February of the year 0 is taken for one of another length. -/
theorem monthLength_shown {month : Int} (h : month ≠ 1) :
    monthLength (shownMonth month) = monthLength month := by
  have hplace : shownMonth month % 12 = month % 12 := by
    rw [shownMonth]
    omega
  have hyear : shownMonth month / 12 = makeFullYear (month / 12) := by
    rw [shownMonth]
    omega
  rw [monthLength, monthLength, hplace, hyear]
  by_cases hfebruary : month % 12 = 1
  · have hne : month / 12 ≠ 0 := by omega
    have hleap : Leap (makeFullYear (month / 12)) ↔ Leap (month / 12) := by
      simp only [Leap, makeFullYear]
      split_ifs
      · omega
      · exact Iff.rfl
    rw [hfebruary]
    simp only [hleap]
  · have hnat : (month % 12).toNat ≠ 1 := by omega
    split <;> simp_all

theorem monthLength_one : monthLength (shownMonth 1) = 28 ∧ monthLength 1 = 29 := by
  decide

variable {start t : Instant} {periods : Int} {frequency : InstallmentFrequency}

theorem timeClip_eq_some_iff {time : Int} : timeClip time = some t ↔ t.time = time :=
  ⟨timeClip_some, fun h => timeClip_eq_some h.symm⟩

/-- What `setUTCDate` makes of the parts of a date. -/
theorem setUTCDate_iff {date : Int} : start.setUTCDate date = some t ↔
    t.time = makeDate (monthStart start.month + date - 1) (timeWithinDay start.time) := by
  rw [Instant.setUTCDate, timeClip_eq_some_iff, makeDay_getUTC]

theorem start_range (start : Instant) :
    monthStart start.month ≤ day start.time ∧ day start.time < monthStart (start.month + 1) :=
  monthOf_spec _

theorem getUTCDate_range (start : Instant) :
    1 ≤ start.getUTCDate ∧ start.getUTCDate ≤ monthLength start.month := by
  have h := start_range start
  rw [monthStart_succ] at h
  rw [getUTCDate_eq]
  omega

/-- The day of an instant, from the month and the day of the month. -/
theorem parts_of_day {month date : Int} (hday : day t.time = monthStart month + date - 1)
    (hpos : 1 ≤ date) (hle : date ≤ monthLength month) :
    t.month = month ∧ t.getUTCDate = date := by
  have hmonth : t.month = month := month_eq (by omega) (by rw [monthStart_succ]; omega)
  refine ⟨hmonth, ?_⟩
  rw [getUTCDate_eq, hmonth, hday]
  omega

/-- The first of a month, at the time of day of another date. -/
theorem parts_of_first {month time : Int}
    (h : t.time = makeDate (monthStart month) (timeWithinDay time)) :
    t.month = month ∧ t.getUTCDate = 1 ∧ timeWithinDay t.time = timeWithinDay time := by
  have hday : day t.time = monthStart month + 1 - 1 := by
    rw [day_of_makeDate h, Int.add_sub_cancel]
  have hlength := monthLength_pos month
  obtain ⟨hmonth, hdate⟩ := parts_of_day hday (by omega) (by omega)
  exact ⟨hmonth, hdate, timeWithinDay_of_makeDate h⟩

/-- The last day of a month, as it is asked for. -/
theorem dateUtc_iff (target : Instant) {last : Instant} :
    dateUtc target.getUTCFullYear (target.getUTCMonth + 1) 0 = some last ↔
      last.time = makeDate (monthStart (shownMonth target.month + 1) - 1) 0 := by
  have hmonth : 12 * makeFullYear target.getUTCFullYear + (target.getUTCMonth + 1) =
      shownMonth target.month + 1 := by
    rw [Instant.getUTCMonth, Instant.getUTCFullYear, shownMonth]
    omega
  rw [dateUtc, timeClip_eq_some_iff, makeDay, hmonth, Int.add_zero]

theorem getUTCDate_last {last : Instant} {month : Int}
    (h : last.time = makeDate (monthStart (month + 1) - 1) 0) :
    last.getUTCDate = monthLength month := by
  have hzero : (0 : Int) = timeWithinDay 0 := rfl
  rw [hzero] at h
  have hday := day_of_makeDate h
  have hlength := monthLength_pos month
  rw [monthStart_succ] at hday
  exact (parts_of_day hday (by omega) (by omega)).2

/-- Where a date moved on by months is, and what has to be a date on the way to it. -/
theorem addMonths_iff : addMonths start periods = some t ↔
    ∃ first target last : Instant,
      first.time = makeDate (monthStart start.month) (timeWithinDay start.time) ∧
      target.time = makeDate (monthStart (start.month + periods)) (timeWithinDay start.time) ∧
      last.time = makeDate (monthStart (shownMonth (start.month + periods) + 1) - 1) 0 ∧
      t.time = makeDate (monthStart (start.month + periods) +
        min start.getUTCDate (monthLength (shownMonth (start.month + periods))) - 1)
        (timeWithinDay start.time) := by
  have hfirst : ∀ first : Instant, start.setUTCDate 1 = some first ↔
      first.time = makeDate (monthStart start.month) (timeWithinDay start.time) := by
    intro first
    rw [setUTCDate_iff, Int.add_sub_cancel]
  have htarget : ∀ first target : Instant,
      first.time = makeDate (monthStart start.month) (timeWithinDay start.time) →
      (first.setUTCMonth (first.getUTCMonth + periods) = some target ↔
        target.time =
          makeDate (monthStart (start.month + periods)) (timeWithinDay start.time)) := by
    intro first target h
    obtain ⟨hmonth, hdate, htime⟩ := parts_of_first h
    have hmoved : 12 * first.getUTCFullYear + (first.getUTCMonth + periods) =
        start.month + periods := by
      rw [Instant.getUTCMonth, Instant.getUTCFullYear, hmonth]
      omega
    rw [Instant.setUTCMonth, timeClip_eq_some_iff, makeDay, hmoved, hdate, htime,
      Int.add_sub_cancel]
  have hlast : ∀ target last : Instant,
      target.time = makeDate (monthStart (start.month + periods)) (timeWithinDay start.time) →
      (dateUtc target.getUTCFullYear (target.getUTCMonth + 1) 0 = some last ↔
        last.time = makeDate (monthStart (shownMonth (start.month + periods) + 1) - 1) 0) := by
    intro target last h
    rw [dateUtc_iff, (parts_of_first h).1]
  simp only [addMonths, Option.bind_eq_bind, Option.bind_eq_some_iff]
  constructor
  · rintro ⟨first, h₁, target, h₂, last, h₃, h₄⟩
    rw [hfirst] at h₁
    rw [htarget first target h₁] at h₂
    rw [hlast target last h₂] at h₃
    rw [setUTCDate_iff, getUTCDate_last h₃] at h₄
    obtain ⟨hmonth, -, htime⟩ := parts_of_first h₂
    rw [hmonth, htime] at h₄
    exact ⟨first, target, last, h₁, h₂, h₃, h₄⟩
  · rintro ⟨first, target, last, h₁, h₂, h₃, h₄⟩
    obtain ⟨hmonth, -, htime⟩ := parts_of_first h₂
    refine ⟨first, (hfirst first).mpr h₁, target, (htarget first target h₁).mpr h₂, last,
      (hlast target last h₂).mpr h₃, ?_⟩
    rw [setUTCDate_iff, getUTCDate_last h₃, hmonth, htime]
    exact h₄

end InstallmentPlanner
