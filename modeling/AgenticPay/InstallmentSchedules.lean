import AgenticPay.InstallmentPlanner

/-!
# The schedule of an installment plan

The shares of whole cents add up to the amount, and the due dates are those of the
calendar where the host has them. A date of two digits of the year is one of the
twentieth century to the host, whose first year is no leap year: February of the
year 0 is taken to be a day shorter than it is.
-/
namespace InstallmentPlanner

open Calendar Dates

/-! ## The specification -/

/-- The day some periods after a start date: by days, or the same day of a later month, or the
last one of a month that is shorter. -/
def dueDay (start : Instant) (frequency : InstallmentFrequency) (periods : Nat) : Int :=
  match frequencyDays frequency with
  | some days => day start.time + days * periods
  | none =>
    monthStart (start.month + periods) +
      min start.getUTCDate (monthLength (start.month + periods)) - 1

def dueTime (start : Instant) (frequency : InstallmentFrequency) (periods : Nat) : Int :=
  makeDate (dueDay start frequency periods) (timeWithinDay start.time)

/-- The due date is one that the host has. By months so are the first of the month of the start and
the last of the month that is due, which is not a February of the year 0 for a day it may lack. -/
def Datable (start : Instant) (frequency : InstallmentFrequency) (periods : Nat) : Prop :=
  dueTime start frequency periods ≤ maxTime ∧
    (frequency = .monthly →
      -maxTime ≤ makeDate (monthStart start.month) (timeWithinDay start.time) ∧
      makeDate (monthStart (start.month + periods + 1) - 1) 0 ≤ maxTime ∧
      (start.month + periods = 1 → start.getUTCDate ≤ 28))

structure Sound (cents count : Nat) (start : Instant) (frequency : InstallmentFrequency)
    (es : List InstallmentScheduleEntry) : Prop where
  entries : es.length = count
  amounts : ∀ e ∈ es, ∃ c : Nat, e.amount = (c : ℚ) / 100
  total : (es.map (·.amount)).sum = (cents : ℚ) / 100
  last : ∀ l ∈ es.getLast?, ∀ e ∈ es.dropLast,
    e.amount ≤ l.amount ∧ l.amount - e.amount < (count : ℚ) / 100
  first : ∀ e ∈ es.head?, e.dueAt = start
  increasing : (es.map (·.dueAt.time)).Pairwise (· < ·)
  monthly : frequency = .monthly →
    ∀ e ∈ es, e.dueAt.getUTCDate = min start.getUTCDate (monthLength e.dueAt.month)

/-! ## Due dates -/

variable {start t : Instant} {frequency : InstallmentFrequency} {periods : Nat}

theorem instant_of (time : Int) (hlow : -maxTime ≤ time) (hhigh : time ≤ maxTime) :
    ∃ t : Instant, t.time = time := ⟨⟨time, by omega⟩, rfl⟩

theorem instant_range (t : Instant) : -(maxTime : Int) ≤ t.time ∧ t.time ≤ maxTime := by
  have := t.representable
  omega

/-- The years of two digits are far from the limits of the host. -/
theorem twoDigits_range {month : Int} (hlow : 0 ≤ month / 12) (hhigh : month / 12 ≤ 99) :
    makeDate (monthStart (month + 1) - 1) 0 ≤ maxTime ∧
      -maxTime ≤ makeDate (monthStart (shownMonth month + 1) - 1) 0 ∧
      makeDate (monthStart (shownMonth month + 1) - 1) 0 ≤ maxTime := by
  have hshown : shownMonth month = month + 22800 := by
    rw [shownMonth, makeFullYear, if_pos ⟨hlow, hhigh⟩]
    omega
  have h₁ : monthStart (month + 1) ≤ monthStart 1200 :=
    monthStart_le (by omega)
  have h₂ : monthStart (shownMonth month + 1) ≤ monthStart 24000 :=
    monthStart_le (by omega)
  have h₃ : monthStart 22800 ≤ monthStart (shownMonth month + 1) :=
    monthStart_le (by omega)
  have hs : monthStart 1200 = -683003 ∧ monthStart 24000 = 10957 ∧ monthStart 22800 = -25567 := by
    decide
  simp only [makeDate, msPerDay, maxTime]
  omega

/-- Any other month is the one that is asked for. -/
theorem shownMonth_other {month : Int} (h : ¬ (0 ≤ month / 12 ∧ month / 12 ≤ 99)) :
    shownMonth month = month := by
  rw [shownMonth, makeFullYear, if_neg h]
  omega

theorem dueDay_zero (start : Instant) (frequency : InstallmentFrequency) :
    dueDay start frequency 0 = day start.time := by
  have hrange := getUTCDate_range start
  rw [dueDay]
  cases frequencyDays frequency with
  | some days => simp
  | none =>
    simp only [Int.natCast_zero, Int.add_zero]
    rw [min_eq_left hrange.2, getUTCDate_eq]
    omega

theorem dueTime_zero (start : Instant) (frequency : InstallmentFrequency) :
    dueTime start frequency 0 = start.time := by
  rw [dueTime, dueDay_zero, makeDate_day]

theorem dueDay_lt (start : Instant) (frequency : InstallmentFrequency) (periods : Nat) :
    dueDay start frequency periods < dueDay start frequency (periods + 1) := by
  have hrange := getUTCDate_range start
  have hlength := monthLength_pos (start.month + periods + 1)
  simp only [dueDay, Int.natCast_add, Int.natCast_one, ← Int.add_assoc, monthStart_succ]
  cases frequency <;> simp only [frequencyDays] <;> omega

/-- Due dates come one after the other. -/
theorem dueTime_lt (start : Instant) (frequency : InstallmentFrequency) {i j : Nat} (h : i < j) :
    dueTime start frequency i < dueTime start frequency j := by
  have hstep : ∀ periods,
      dueTime start frequency periods < dueTime start frequency (periods + 1) := by
    intro periods
    have := dueDay_lt start frequency periods
    simp only [dueTime, makeDate, msPerDay]
    omega
  exact strictMono_nat_of_lt_succ hstep h

theorem start_le_dueTime (start : Instant) (frequency : InstallmentFrequency) (periods : Nat) :
    start.time ≤ dueTime start frequency periods := by
  rw [← dueTime_zero start frequency]
  obtain rfl | hpos := Nat.eq_zero_or_pos periods
  · exact Int.le_refl _
  · exact Int.le_of_lt (dueTime_lt start frequency hpos)

/-- By days, the due date is computed as it is. -/
theorem addPeriod_days {days : Int} (h : frequencyDays frequency = some days) :
    addPeriod (some start) frequency periods = some t ↔
      t.time = dueTime start frequency periods := by
  have hday : monthStart start.month + (start.getUTCDate + days * periods) - 1 =
      day start.time + days * periods := by
    rw [getUTCDate_eq]
    omega
  simp only [addPeriod, Option.bind_eq_bind, Option.bind_some, h]
  rw [setUTCDate_iff, hday, dueTime, dueDay, h]

theorem monthly_of_frequencyDays (h : frequencyDays frequency = none) : frequency = .monthly := by
  cases frequency with
  | weekly => cases h
  | biweekly => cases h
  | monthly => rfl

theorem min_shown {date month : Int} (h : month = 1 → date ≤ 28) :
    min date (monthLength (shownMonth month)) = min date (monthLength month) := by
  by_cases hone : month = 1
  · have hle := h hone
    obtain ⟨hshown, hlength⟩ := monthLength_one
    rw [hone, hshown, hlength]
    omega
  · rw [monthLength_shown hone]

/-- By months, everything on the way to a due date that the host has is a date. -/
theorem addMonths_of_datable (h : Datable start .monthly periods) :
    ∃ t, addMonths start periods = some t ∧ t.time = dueTime start .monthly periods := by
  obtain ⟨hdue, hmonthly⟩ := h
  obtain ⟨hfirst, hlast, hfebruary⟩ := hmonthly rfl
  have hstart := start_range start
  have hdate := getUTCDate_range start
  have hbound := instant_range start
  have hday := makeDate_day start
  have hlength := monthLength_pos (start.month + periods)
  have hlater := monthStart_le (show start.month ≤ start.month + periods by omega)
  have hend := monthStart_succ (start.month + periods)
  have htod := timeWithinDay_range start.time
  have hlow := start_le_dueTime start .monthly periods
  simp only [dueTime, dueDay, frequencyDays] at hdue hlow
  simp only [makeDate, msPerDay] at hfirst hlast hday hdue hlow htod
  obtain ⟨first, h₁⟩ := instant_of (makeDate (monthStart start.month)
    (timeWithinDay start.time)) (by simp only [makeDate, msPerDay]; omega)
    (by simp only [makeDate, msPerDay]; omega)
  obtain ⟨target, h₂⟩ := instant_of (makeDate (monthStart (start.month + periods))
    (timeWithinDay start.time)) (by simp only [makeDate, msPerDay]; omega)
    (by simp only [makeDate, msPerDay]; omega)
  have hshown : -(maxTime : Int) ≤
      makeDate (monthStart (shownMonth (start.month + periods) + 1) - 1) 0 ∧
      makeDate (monthStart (shownMonth (start.month + periods) + 1) - 1) 0 ≤ maxTime := by
    by_cases htwo : 0 ≤ (start.month + periods) / 12 ∧ (start.month + periods) / 12 ≤ 99
    · exact (twoDigits_range htwo.1 htwo.2).2
    · rw [shownMonth_other htwo]
      simp only [makeDate, msPerDay]
      omega
  obtain ⟨last, h₃⟩ := instant_of _ hshown.1 hshown.2
  obtain ⟨t, h₄⟩ := instant_of (dueTime start .monthly periods)
    (by simp only [dueTime, dueDay, frequencyDays, makeDate, msPerDay]; omega)
    (by simp only [dueTime, dueDay, frequencyDays, makeDate, msPerDay]; omega)
  refine ⟨t, addMonths_iff.mpr ⟨first, target, last, h₁, h₂, h₃, ?_⟩, h₄⟩
  rw [min_shown hfebruary, h₄]
  rfl

theorem addPeriod_of_datable (h : Datable start frequency periods) :
    ∃ t, addPeriod (some start) frequency periods = some t ∧
      t.time = dueTime start frequency periods := by
  cases hdays : frequencyDays frequency with
  | some days =>
    have hlow := start_le_dueTime start frequency periods
    have hbound := instant_range start
    obtain ⟨t, ht⟩ := instant_of _ (hbound.1.trans hlow) h.1
    exact ⟨t, (addPeriod_days hdays).mpr ht, ht⟩
  | none =>
    obtain rfl := monthly_of_frequencyDays hdays
    exact addMonths_of_datable h

/-- A date by months that falls on the day it is to fall on is a due date that the host has. -/
theorem datable_of_addMonths (h : addMonths start periods = some t)
    (hdate : t.getUTCDate = min start.getUTCDate (monthLength t.month)) :
    Datable start .monthly periods := by
  obtain ⟨first, target, last, h₁, h₂, h₃, h₄⟩ := addMonths_iff.mp h
  have hrange := getUTCDate_range start
  have hshown := monthLength_pos (shownMonth (start.month + periods))
  have hlength := monthLength_pos (start.month + periods)
  have hfebruary : start.month + periods = 1 → start.getUTCDate ≤ 28 := by
    intro hone
    obtain ⟨h28, h29⟩ := monthLength_one
    have hday := day_of_makeDate h₄
    rw [hone, h28] at hday
    obtain ⟨hmonth, hgot⟩ := parts_of_day hday (by omega) (by omega)
    rw [hmonth, hgot, h29] at hdate
    omega
  have hdue : t.time = dueTime start .monthly periods := by
    rw [h₄, min_shown hfebruary]
    rfl
  refine ⟨by rw [← hdue]; exact (instant_range t).2, fun _ => ⟨?_, ?_, hfebruary⟩⟩
  · rw [← h₁]
    exact (instant_range first).1
  · by_cases htwo : 0 ≤ (start.month + periods) / 12 ∧ (start.month + periods) / 12 ≤ 99
    · exact (twoDigits_range htwo.1 htwo.2).1
    · rw [shownMonth_other htwo] at h₃
      rw [← h₃]
      exact (instant_range last).2

theorem datable_of_addPeriod (h : addPeriod (some start) frequency periods = some t)
    (hdate : frequency = .monthly → t.getUTCDate = min start.getUTCDate (monthLength t.month)) :
    Datable start frequency periods := by
  cases hdays : frequencyDays frequency with
  | some days =>
    have ht := (addPeriod_days hdays).mp h
    refine ⟨by rw [← ht]; exact (instant_range t).2, fun hmonthly => ?_⟩
    rw [hmonthly] at hdays
    cases hdays
  | none =>
    obtain rfl := monthly_of_frequencyDays hdays
    exact datable_of_addMonths h (hdate rfl)

/-- A due date by months has the day of the start, or the last day of its month. -/
theorem getUTCDate_due (h : t.time = dueTime start .monthly periods) :
    t.getUTCDate = min start.getUTCDate (monthLength t.month) := by
  have hrange := getUTCDate_range start
  have hlength := monthLength_pos (start.month + periods)
  have hday : day t.time = monthStart (start.month + periods) +
      min start.getUTCDate (monthLength (start.month + periods)) - 1 := day_of_makeDate h
  obtain ⟨hmonth, hdate⟩ := parts_of_day hday (by omega) (by omega)
  rw [hmonth, hdate]

/-! ## Shares -/

section

variable {cents count : Nat}

theorem round_cents (c : Int) : roundCurrency ((c : ℚ) / 100) = (c : ℚ) / 100 := by
  have h := Billing.roundMoney_cents c
  norm_num at h
  exact h

theorem baseShare_cents (cents count : Nat) :
    baseShare ((cents : ℚ) / 100) count = ((cents / count : Nat) : ℚ) / 100 := by
  have he : (cents : ℚ) / 100 / ((count : Int) : ℚ) * 100 = (cents : ℚ) / (count : ℚ) := by
    push_cast
    ring
  rw [baseShare, he]
  have hfloor : ((cents : ℚ) / (count : ℚ)).floor = ((cents / count : Nat) : Int) :=
    Rat.floor_natCast_div_natCast cents count
  rw [hfloor, Int.cast_natCast]

theorem finalShare_cents (cents count : Nat) :
    finalShare ((cents : ℚ) / 100) count = ((cents / count + cents % count : Nat) : ℚ) / 100 := by
  have hdiv := congrArg (Nat.cast (R := ℚ)) (Nat.div_add_mod cents count)
  rw [finalShare]
  simp only [baseShare_cents]
  generalize cents / count = q at *
  generalize cents % count = r at *
  push_cast at hdiv
  have hshare : (q : ℚ) / 100 * ((count : Int) : ℚ) = ((q * count : Int) : ℚ) / 100 := by
    push_cast
    ring
  have hremainder : (cents : ℚ) / 100 - ((q * count : Int) : ℚ) / 100 = ((r : Int) : ℚ) / 100 := by
    push_cast
    linarith
  have hfinal : (q : ℚ) / 100 + ((r : Int) : ℚ) / 100 = (((q + r : Nat) : Int) : ℚ) / 100 := by
    push_cast
    ring
  rw [hshare, round_cents, hremainder, round_cents, hfinal, round_cents, Int.cast_natCast]

end

/-! ## The schedule -/

variable {financed : ℚ} {installmentCount : Int} {due : JsDate} {l : List Nat}
  {es : List InstallmentScheduleEntry}

/-- The amount in a place of the schedule. -/
def amountAt (financed : ℚ) (installmentCount : Int) (index : Nat) : ℚ :=
  if (index : Int) = installmentCount then finalShare financed installmentCount
  else baseShare financed installmentCount

theorem scheduleEntries_ok {dueAt : Nat → Instant}
    (h : ∀ i ∈ l, addPeriod due frequency ((i : Int) - 1) = some (dueAt i)) :
    scheduleEntries financed installmentCount frequency due l =
      .ok (l.map fun i => ⟨i, amountAt financed installmentCount i, dueAt i⟩) := by
  induction l with
  | nil => rfl
  | cons i rest ih =>
    have hrest := ih fun j hj => h j (List.mem_cons_of_mem _ hj)
    rw [scheduleEntries, h i List.mem_cons_self, hrest]
    rfl

/-- A schedule that is returned has a date in each of its places. -/
theorem dates_of_scheduleEntries
    (h : scheduleEntries financed installmentCount frequency due l = .ok es) :
    ∀ i ∈ l, ∃ e ∈ es, addPeriod due frequency ((i : Int) - 1) = some e.dueAt := by
  induction l generalizing es with
  | nil => exact List.forall_mem_nil _
  | cons i rest ih =>
    rw [scheduleEntries] at h
    cases hdate : addPeriod due frequency ((i : Int) - 1) with
    | none => rw [hdate] at h; cases h
    | some t =>
      rw [hdate] at h
      cases hrest : scheduleEntries financed installmentCount frequency due rest with
      | error e => rw [hrest] at h; cases h
      | ok tail =>
        rw [hrest] at h
        obtain rfl := Except.ok.inj h
        intro j hj
        obtain rfl | hj := List.mem_cons.mp hj
        · exact ⟨_, List.mem_cons_self, hdate⟩
        · obtain ⟨e, he, hdue⟩ := ih hrest j hj
          exact ⟨e, List.mem_cons_of_mem _ he, hdue⟩

/-- The schedule of due dates that the host has. -/
def scheduleOf (cents count : Nat) (dueAt : Nat → Instant) : List InstallmentScheduleEntry :=
  (List.range' 1 count).map fun i => ⟨i, amountAt ((cents : ℚ) / 100) count i, dueAt i⟩

theorem amountAt_cents {cents count : Nat} (i : Nat) :
    amountAt ((cents : ℚ) / 100) count i =
      ((cents / count + if i = count then cents % count else 0 : Nat) : ℚ) / 100 := by
  rw [amountAt]
  by_cases hi : i = count
  · rw [if_pos (by omega), if_pos hi, finalShare_cents]
  · rw [if_neg (by omega), if_neg hi, baseShare_cents, Nat.add_zero]

theorem sound_scheduleOf {cents count : Nat} (hcount : 1 ≤ count) {dueAt : Nat → Instant}
    (h : ∀ i ∈ List.range' 1 count, (dueAt i).time = dueTime start frequency (i - 1)) :
    Sound cents count start frequency (scheduleOf cents count dueAt) := by
  obtain ⟨m, rfl⟩ := Nat.exists_eq_add_of_le' hcount
  have hsplit : List.range' 1 (m + 1) = List.range' 1 m ++ [m + 1] := by
    rw [List.range'_concat, Nat.one_mul, Nat.add_comm]
  have hbase : ∀ i ∈ List.range' 1 m, amountAt ((cents : ℚ) / 100) (m + 1 : Nat) i =
      ((cents / (m + 1) : Nat) : ℚ) / 100 := by
    intro i hi
    have := List.mem_range'_1.mp hi
    rw [amountAt_cents, if_neg (by omega), Nat.add_zero]
  have hfinal : amountAt ((cents : ℚ) / 100) (m + 1 : Nat) (m + 1) =
      ((cents / (m + 1) + cents % (m + 1) : Nat) : ℚ) / 100 := by
    rw [amountAt_cents, if_pos rfl]
  constructor
  case entries => rw [scheduleOf, List.length_map, List.length_range']
  case amounts =>
    intro e he
    obtain ⟨i, _, rfl⟩ := List.mem_map.mp he
    exact ⟨_, amountAt_cents i⟩
  case total =>
    have hdiv := congrArg (Nat.cast (R := ℚ)) (Nat.div_add_mod cents (m + 1))
    rw [scheduleOf, List.map_map, hsplit, List.map_append, List.map_singleton, List.sum_append,
      List.sum_singleton]
    have hmap : List.map ((·.amount) ∘ fun i =>
        (⟨i, amountAt ((cents : ℚ) / 100) (m + 1 : Nat) i, dueAt i⟩ : InstallmentScheduleEntry))
        (List.range' 1 m) = List.map (fun _ => ((cents / (m + 1) : Nat) : ℚ) / 100)
          (List.range' 1 m) := List.map_congr_left hbase
    rw [hmap, List.map_const', List.length_range', List.sum_replicate, nsmul_eq_mul]
    simp only [Function.comp, hfinal]
    generalize cents / (m + 1) = q at *
    generalize cents % (m + 1) = r at *
    push_cast at hdiv ⊢
    linarith
  case last =>
    have hlt : ((cents % (m + 1) : Nat) : ℚ) < ((m + 1 : Nat) : ℚ) :=
      Nat.cast_lt.mpr (Nat.mod_lt cents (Nat.succ_pos m))
    have hpos : (0 : ℚ) ≤ ((cents % (m + 1) : Nat) : ℚ) := Nat.cast_nonneg _
    rw [scheduleOf, hsplit, List.map_append, List.map_singleton, List.getLast?_concat,
      List.dropLast_concat]
    intro l hl e he
    obtain rfl := Option.mem_some_iff.mp hl
    obtain ⟨i, hi, rfl⟩ := List.mem_map.mp he
    simp only [hbase i hi, hfinal]
    generalize cents / (m + 1) = q at *
    generalize cents % (m + 1) = r at *
    push_cast at *
    constructor <;> linarith
  case first =>
    rw [scheduleOf, List.range'_succ, List.map_cons, List.head?_cons]
    intro e he
    obtain rfl := Option.mem_some_iff.mp he
    have htime := h 1 (List.mem_range'_1.mpr (by omega))
    rw [dueTime_zero] at htime
    exact Instant.ext htime
  case increasing =>
    rw [scheduleOf, List.map_map, List.pairwise_map]
    refine (List.pairwise_lt_range' 1).imp_of_mem fun {i j} hi hj hlt => ?_
    have hpos := List.mem_range'_1.mp hi
    simp only [Function.comp, h i hi, h j hj]
    exact dueTime_lt start frequency (by omega)
  case monthly =>
    rintro rfl e he
    obtain ⟨i, hi, rfl⟩ := List.mem_map.mp he
    exact getUTCDate_due (h i hi)

/-- A plan of 100 in two months from some date on. -/
def twoMonths (start : Instant) : BuildScheduleParams :=
  { financedAmount := 100, installmentCount := 2, frequency := .monthly,
    startDate := .date (some start) }

/-- The last of January 2028, a leap year. -/
def january2028 : Instant := ⟨1832889600000, by decide⟩

/-- The last of January of the year 0, and the 28th of February after it. -/
def january0 : Instant := ⟨-62164627200000, by decide⟩

def february0 : Instant := ⟨-62162208000000, by decide⟩

end InstallmentPlanner
