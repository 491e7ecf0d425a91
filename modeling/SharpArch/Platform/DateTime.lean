import Mathlib.Data.Nat.Basic
import SharpArch.Foundation.Recurrence

/-!
# Dates

A `System.DateTime` as its year, month, day and time of day, with the two ways of going on that change
the date: by days, and by one month, which moves a day that the month does not have to its last day. Both
throw beyond the last day of the year 9999.

Going on by single months over and over is not going on by many months at once: a day of the month that
was moved stays where it is. After any number of months it is the least of the day one started from and
the lengths of the months that were passed (`day_after_addMonth`).
-/

set_option autoImplicit false
set_option relaxedAutoImplicit false

namespace SharpArch.Platform

open Foundation.Recurrence

def isLeapYear (year : ℕ) : Bool :=
  year % 4 = 0 && (year % 100 ≠ 0 || year % 400 = 0)

/-- `DateTime.DaysInMonth`. -/
def daysInMonth (year month : ℕ) : ℕ :=
  if month = 2 then if isLeapYear year then 29 else 28
  else if month = 4 ∨ month = 6 ∨ month = 9 ∨ month = 11 then 30
  else 31

theorem daysInMonth_mem (year month : ℕ) :
    28 ≤ daysInMonth year month ∧ daysInMonth year month ≤ 31 := by
  unfold daysInMonth
  split_ifs <;> omega

/-- `TimeSpan.TicksPerDay`. -/
def ticksPerDay : ℕ := 864000000000

/-- `System.DateTime`. -/
structure DateTime where
  year : ℕ
  month : ℕ
  day : ℕ
  ticks : ℕ
  year_mem : 1 ≤ year ∧ year ≤ 9999
  month_mem : 1 ≤ month ∧ month ≤ 12
  day_mem : 1 ≤ day ∧ day ≤ daysInMonth year month
  ticks_lt : ticks < ticksPerDay
  deriving DecidableEq

namespace DateTime

/-- How many months there have been before the month of a date. -/
def monthIndex (date : DateTime) : ℕ := date.year * 12 + (date.month - 1)

/-- A number that grows with the date. -/
def stamp (date : DateTime) : ℕ := (date.monthIndex * 31 + (date.day - 1)) * ticksPerDay + date.ticks

theorem stamp_injective : Function.Injective stamp := by
  rintro ⟨year, month, day, ticks, hyear, hmonth, hday, hticks⟩
    ⟨year', month', day', ticks', hyear', hmonth', hday', hticks'⟩ hstamp
  have hlength := (daysInMonth_mem year month).2
  have hlength' := (daysInMonth_mem year' month').2
  simp only [stamp, monthIndex, ticksPerDay] at hstamp hticks hticks'
  obtain ⟨rfl, rfl, rfl, rfl⟩ : year = year' ∧ month = month' ∧ day = day' ∧ ticks = ticks' := by
    omega
  rfl

instance : LinearOrder DateTime := LinearOrder.lift' stamp stamp_injective

theorem lt_iff_stamp (left right : DateTime) : left < right ↔ left.stamp < right.stamp := Iff.rfl

/-- The same time on another day. -/
def onDay (date : DateTime) (year month day : ℕ) (hyear : 1 ≤ year ∧ year ≤ 9999)
    (hmonth : 1 ≤ month ∧ month ≤ 12) (hday : 1 ≤ day ∧ day ≤ daysInMonth year month) :
    DateTime where
  year := year
  month := month
  day := day
  ticks := date.ticks
  year_mem := hyear
  month_mem := hmonth
  day_mem := hday
  ticks_lt := date.ticks_lt

/-- `Date`: the beginning of the day. -/
def date (date : DateTime) : DateTime :=
  { date with ticks := 0, ticks_lt := Nat.succ_pos _ }

/-- The same time on the first days of the month after, on the given day or the last one there is. -/
def inNextMonth (date : DateTime) (day : ℕ) (hday : 1 ≤ day) : Option DateTime :=
  if hmonth : date.month < 12 then
    some (date.onDay date.year (date.month + 1) (min day (daysInMonth date.year (date.month + 1)))
      date.year_mem (by omega) (by have := daysInMonth_mem date.year (date.month + 1); omega))
  else if hyear : date.year < 9999 then
    some (date.onDay (date.year + 1) 1 (min day (daysInMonth (date.year + 1) 1))
      (by omega) (by omega) (by have := daysInMonth_mem (date.year + 1) 1; omega))
  else none

/-- `AddMonths(1)`. Nothing stands for an `ArgumentOutOfRangeException`. -/
def addMonth (date : DateTime) : Option DateTime := date.inNextMonth date.day date.day_mem.1

/-- `AddDays(1)`. -/
def addDay (date : DateTime) : Option DateTime :=
  if hday : date.day < daysInMonth date.year date.month then
    some (date.onDay date.year date.month (date.day + 1) date.year_mem date.month_mem (by omega))
  else date.inNextMonth 1 (Nat.le_refl 1)

/-- `AddDays` of a whole number of days. -/
def addDays (days : ℕ) (date : DateTime) : Option DateTime := after addDay days date

/-- The length of a month by its index. -/
def lengthOfMonth (index : ℕ) : ℕ := daysInMonth (index / 12) (index % 12 + 1)

/-! ### Going on -/

variable {date next : DateTime}

theorem inNextMonth_spec {day : ℕ} {hday : 1 ≤ day} (hnext : date.inNextMonth day hday = some next) :
    next.monthIndex = date.monthIndex + 1 ∧
      next.day = min day (lengthOfMonth (date.monthIndex + 1)) ∧ next.ticks = date.ticks := by
  obtain ⟨hmonth, hmonth'⟩ := date.month_mem
  unfold inNextMonth at hnext
  split_ifs at hnext with hbefore hyear
  · obtain rfl := Option.some.inj hnext
    have hindex : date.monthIndex + 1 = date.year * 12 + date.month := by
      unfold monthIndex
      omega
    refine ⟨by simp only [monthIndex, onDay]; omega, ?_, rfl⟩
    have hyears : (date.monthIndex + 1) / 12 = date.year := by omega
    have hmonths : (date.monthIndex + 1) % 12 + 1 = date.month + 1 := by omega
    rw [lengthOfMonth, hyears, hmonths]
    rfl
  · obtain rfl := Option.some.inj hnext
    have hindex : date.monthIndex + 1 = (date.year + 1) * 12 := by
      unfold monthIndex
      omega
    refine ⟨by simp only [monthIndex, onDay]; omega, ?_, rfl⟩
    have hyears : (date.monthIndex + 1) / 12 = date.year + 1 := by omega
    have hmonths : (date.monthIndex + 1) % 12 + 1 = 1 := by omega
    rw [lengthOfMonth, hyears, hmonths]
    rfl

/-- A date in the month after is later. -/
theorem lt_of_inNextMonth {day : ℕ} {hday : 1 ≤ day} (hnext : date.inNextMonth day hday = some next) :
    date < next := by
  obtain ⟨hindex, -, -⟩ := inNextMonth_spec hnext
  have hdays := date.day_mem.2
  have hlength := (daysInMonth_mem date.year date.month).2
  have hticks := date.ticks_lt
  rw [lt_iff_stamp]
  unfold stamp ticksPerDay at *
  omega

theorem lt_of_addMonth (hnext : date.addMonth = some next) : date < next := lt_of_inNextMonth hnext

theorem lt_of_addDay (hnext : date.addDay = some next) : date < next := by
  unfold addDay at hnext
  split_ifs at hnext with hday
  · obtain rfl := Option.some.inj hnext
    have hday' := date.day_mem.1
    rw [lt_iff_stamp]
    simp only [stamp, monthIndex, onDay, ticksPerDay]
    omega
  · exact lt_of_inNextMonth hnext

theorem lt_of_addDays {days : ℕ} (hnext : addDays (days + 1) date = some next) : date < next := by
  rw [addDays, after_succ] at hnext
  obtain ⟨middle, hmiddle, hlast⟩ := Option.bind_eq_some_iff.mp hnext
  have hincreases : Increases addDay := fun _ _ hday ↦ lt_of_addDay hday
  exact (lt_of_addDay hmiddle).trans_le (le_of_after hincreases hlast)

/-- After a number of months, one at a time, the month is that many months later and the day is the
least of the first one and the lengths of the months since then. -/
theorem day_after_addMonth {count : ℕ} (hnext : after addMonth count date = some next) :
    next.monthIndex = date.monthIndex + count ∧ next.ticks = date.ticks ∧
      next.day = ((List.range count).map fun passed ↦
        lengthOfMonth (date.monthIndex + passed + 1)).foldl min date.day := by
  induction count generalizing next with
  | zero =>
    obtain rfl := Option.some.inj hnext
    exact ⟨rfl, rfl, rfl⟩
  | succ count ih =>
    obtain ⟨middle, hmiddle, hlast⟩ := Option.bind_eq_some_iff.mp hnext
    obtain ⟨hindex, hticks, hday⟩ := ih hmiddle
    obtain ⟨hindex', hday', hticks'⟩ := inNextMonth_spec hlast
    refine ⟨by omega, hticks'.trans hticks, ?_⟩
    rw [hday', hday, hindex, List.range_succ, List.map_append, List.foldl_append]
    rfl

end DateTime

end SharpArch.Platform
