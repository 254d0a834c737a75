import ChudMoney.Lib.Calendar
import ChudMoney.Lib.Grids
import ChudMoney.Lib.MachineInt

/-!
# The periods of the history pass-through

A cursor is floored to a calendar boundary in UTC and moved on one period at
a time.  Months and years are read off chrono's dates, which end where an
instant no longer has one.
-/

namespace ChudMoney.Controllers.Periods

open ChudMoney.Lib.Calendar
open ChudMoney.Lib.Grids
open ChudMoney.Lib.MachineInt

/-- One history window, the only values that the pass-through accepts. -/
inductive Timespan where
  | hour
  | day
  | month
  | year
  deriving DecidableEq, Repr

def hourMs : Int := 3600000

def dayMs : Int := 86400000

/-- `from_timestamp_millis(ms).unwrap_or_default().date_naive()`, as a day. -/
def dateNaive (ms : Int64) : Int :=
  if InChrono (ms.toInt * 1000000) then ms.toInt / dayMs else 0

/-- Midnight UTC on the first of the month, in ms. -/
def ymdMs (year : Int) (month : Nat) : Int64 :=
  if -262143 ≤ year ∧ year ≤ 262142 ∧ 1 ≤ month ∧ month ≤ 12 then
    Int64.ofInt (monthStart year month * dayMs)
  else 0

/-- `ms - ms.rem_euclid(length)`. -/
def floorTo (length : Int) (ms : Int64) : Int64 :=
  ms - Int64.ofInt (ms.toInt % length)

namespace Timespan

def asStr : Timespan → String
  | hour => "HOUR"
  | day => "DAY"
  | month => "MONTH"
  | year => "YEAR"

/-- The same period as a QuestDB `SAMPLE BY` interval. -/
def sampleBy : Timespan → String
  | hour => "1h"
  | day => "1d"
  | month => "1M"
  | year => "1y"

/-- Start of the period containing `ms`. -/
def floor (timespan : Timespan) (ms : Int64) : Int64 :=
  match timespan with
  | hour => floorTo hourMs ms
  | day => floorTo dayMs ms
  | month => ymdMs (yearOf (dateNaive ms)) (monthOf (dateNaive ms))
  | year => ymdMs (yearOf (dateNaive ms)) 1

/-- Start of the period after the one starting at `periodStartMs`. -/
def next (timespan : Timespan) (periodStartMs : Int64) : Int64 :=
  match timespan with
  | hour => periodStartMs + Int64.ofInt hourMs
  | day => periodStartMs + Int64.ofInt dayMs
  | month =>
      let d := dateNaive periodStartMs
      if monthOf d = 12 then ymdMs (yearOf d + 1) 1
      else ymdMs (yearOf d) (monthOf d + 1)
  | year => ymdMs (yearOf (dateNaive periodStartMs) + 1) 1

end Timespan

/-! ## The periods as a grid -/

/-- Periods of one length, counted from the epoch. -/
def everyGrid (length : Int) (positive : 0 < length) : Grid Int where
  floor t := t - t % length
  next t := t + length
  floor_floor t := by
    rw [Int.sub_emod, Int.emod_emod, sub_self, Int.zero_emod, sub_zero]
  floor_le t := by
    have rest := Int.emod_nonneg t positive.ne'
    omega
  lt_next t := by
    have rest := Int.emod_lt_of_pos t positive
    omega
  floor_eq start t aligned later before := by
    have whole : start % length = 0 := by omega
    have rest : t % length = t - start := by
      rw [← Int.emod_eq_of_lt (sub_nonneg.mpr later) (by omega : _ < length),
        Int.sub_emod, whole, sub_zero, Int.emod_emod]
    omega
  floor_next start aligned := by
    rw [Int.add_emod_right]
    omega

theorem dayMs_pos : 0 < dayMs := by
  decide

theorem mul_dayMs_ediv (day : Int) : day * dayMs / dayMs = day :=
  Int.mul_ediv_cancel day dayMs_pos.ne'

theorem mul_dayMs_le_iff {day t : Int} : day * dayMs ≤ t ↔ day ≤ t / dayMs :=
  (Int.le_ediv_iff_mul_le dayMs_pos).symm

theorem lt_mul_dayMs_iff {day t : Int} : t < day * dayMs ↔ t / dayMs < day :=
  (Int.ediv_lt_iff_lt_mul dayMs_pos).symm

/-- The month that starts a month, or the next year. -/
theorem month_of_start (year : Int) {month : Nat} (positive : 1 ≤ month)
    (last : month ≤ 12) :
    yearOf (monthStart year month) = year ∧
      monthOf (monthStart year month) = month :=
  month_eq positive last le_rfl (monthStart_lt_succ year positive last)

/-- Periods that are months of the calendar. -/
def monthGrid : Grid Int where
  floor t := monthStart (yearOf (t / dayMs)) (monthOf (t / dayMs)) * dayMs
  next t := monthStart (yearOf (t / dayMs)) (monthOf (t / dayMs) + 1) * dayMs
  floor_floor t := by
    rcases monthOf_spec (t / dayMs) with ⟨positive, last, -⟩
    have same := month_of_start (yearOf (t / dayMs)) positive last
    rw [mul_dayMs_ediv, same.1, same.2]
  floor_le t := mul_dayMs_le_iff.mpr (monthOf_spec (t / dayMs)).2.2.1
  lt_next t := by
    rcases monthOf_spec (t / dayMs) with ⟨positive, last, -, before⟩
    have same := month_of_start (yearOf (t / dayMs)) positive last
    rw [mul_dayMs_ediv, same.1, same.2]
    exact lt_mul_dayMs_iff.mpr before
  floor_eq start t aligned later before := by
    rcases monthOf_spec (start / dayMs) with ⟨positive, last, -⟩
    rw [← aligned] at later
    have same := month_eq positive last (mul_dayMs_le_iff.mp later)
      (lt_mul_dayMs_iff.mp before)
    rw [same.1, same.2]
    exact aligned
  floor_next start aligned := by
    rcases monthOf_spec (start / dayMs) with ⟨positive, last, -⟩
    rw [mul_dayMs_ediv]
    by_cases december : monthOf (start / dayMs) = 12
    · have same := @month_of_start (yearOf (start / dayMs) + 1) 1 le_rfl
        (by decide)
      rw [december, monthStart_thirteen, ← monthStart_one, same.1, same.2]
    · have same := @month_of_start (yearOf (start / dayMs))
        (monthOf (start / dayMs) + 1) (by omega) (by omega)
      rw [same.1, same.2]

/-- Periods that are years of the calendar. -/
def yearGrid : Grid Int where
  floor t := yearStart (yearOf (t / dayMs)) * dayMs
  next t := yearStart (yearOf (t / dayMs) + 1) * dayMs
  floor_floor t := by
    rw [mul_dayMs_ediv, yearOf_start]
  floor_le t := mul_dayMs_le_iff.mpr (yearOf_spec (t / dayMs)).1
  lt_next t := by
    rw [mul_dayMs_ediv, yearOf_start]
    exact lt_mul_dayMs_iff.mpr (yearOf_spec (t / dayMs)).2
  floor_eq start t aligned later before := by
    rw [← aligned] at later
    rw [yearOf_eq (mul_dayMs_le_iff.mp later) (lt_mul_dayMs_iff.mp before)]
    exact aligned
  floor_next start aligned := by
    rw [mul_dayMs_ediv, yearOf_start]

def Timespan.grid : Timespan → Grid Int
  | hour => everyGrid hourMs (by decide)
  | day => everyGrid dayMs (by decide)
  | month => monthGrid
  | year => yearGrid

/-! ## The code's boundaries are those of the grid -/

/-- The years of chrono's dates. -/
theorem dateNaive_spec {ms : Int64} (inChrono : InChrono (ms.toInt * 1000000)) :
    dateNaive ms = ms.toInt / dayMs ∧ -262143 ≤ yearOf (dateNaive ms) ∧
      yearOf (dateNaive ms) ≤ 262142 := by
  have isDay : dateNaive ms = ms.toInt / dayMs := if_pos inChrono
  have days : yearStart (-262143) ≤ ms.toInt / dayMs ∧
      ms.toInt / dayMs < yearStart 262143 := by
    rw [show yearStart (-262143) = -96465292 by decide,
      show yearStart 262143 = 95026237 by decide]
    unfold dayMs
    constructor <;> omega
  rcases yearOf_spec (ms.toInt / dayMs) with ⟨started, before⟩
  have lower := yearStart_strictMono.lt_iff_lt.mp
    (lt_of_le_of_lt days.1 before)
  have upper := yearStart_strictMono.lt_iff_lt.mp
    (lt_of_le_of_lt started days.2)
  rw [isDay]
  exact ⟨rfl, by omega, by omega⟩

/-- A year that starts in chrono is one of its dates. -/
theorem year_of_start {year : Int}
    (inChrono : InChrono (yearStart year * dayMs * 1000000)) :
    year ≤ 262142 := by
  have days : yearStart year < yearStart 262143 := by
    rw [show yearStart 262143 = 95026237 by decide]
    unfold dayMs at inChrono
    omega
  have upper := yearStart_strictMono.lt_iff_lt.mp days
  omega

/-- A month of chrono's dates starts in chrono. -/
theorem toInt_ymdMs {year : Int} {month : Nat}
    (years : -262143 ≤ year ∧ year ≤ 262142)
    (months : 1 ≤ month ∧ month ≤ 12) :
    (ymdMs year month).toInt = monthStart year month * dayMs := by
  have positive : yearStart (-262143) ≤ yearStart year :=
    yearStart_strictMono.monotone years.1
  have last : yearStart (year + 1) ≤ yearStart 262143 :=
    yearStart_strictMono.monotone (by omega)
  have inYear : yearStart year ≤ monthStart year month ∧
      monthStart year month ≤ yearStart (year + 1) := by
    rw [← monthStart_one, ← monthStart_thirteen]
    exact ⟨monthStart_mono year le_rfl months.1 (by omega),
      monthStart_mono year months.1 (by omega) le_rfl⟩
  rw [show yearStart (-262143) = -96465292 by decide] at positive
  rw [show yearStart 262143 = 95026237 by decide] at last
  rw [ymdMs, if_pos ⟨years.1, years.2, months.1, months.2⟩]
  apply toInt_ofInt_of_fits
  unfold dayMs
  constructor <;> omega

/-- The code floors an instant to the start of its period. -/
theorem toInt_floor (timespan : Timespan) {ms : Int64}
    (inChrono : InChrono (ms.toInt * 1000000)) :
    (timespan.floor ms).toInt = timespan.grid.floor ms.toInt := by
  rcases dateNaive_spec inChrono with ⟨isDay, years⟩
  have every : ∀ length : Int, 0 < length → length ≤ dayMs →
      (floorTo length ms).toInt = ms.toInt - ms.toInt % length := by
    intro length positive short
    have rest := Int.emod_nonneg ms.toInt positive.ne'
    have below := Int.emod_lt_of_pos ms.toInt positive
    unfold dayMs at short
    have exact_ : (Int64.ofInt (ms.toInt % length)).toInt =
        ms.toInt % length := toInt_ofInt_of_fits (by constructor <;> omega)
    rw [floorTo, toInt_sub_of_fits (by rw [exact_]; constructor <;> omega),
      exact_]
  cases timespan with
  | hour => exact every hourMs (by decide) (by decide)
  | day => exact every dayMs (by decide) le_rfl
  | month =>
      rcases monthOf_spec (dateNaive ms) with ⟨first, last, -⟩
      rw [Timespan.floor, toInt_ymdMs years ⟨first, last⟩, isDay]
      rfl
  | year =>
      rw [Timespan.floor, toInt_ymdMs years (by decide), isDay,
        monthStart_one]
      rfl

/-- A day or less after a date is exact. -/
theorem toInt_add_length {ms : Int64} (date : ms.toInt < 8210266876800000)
    {length : Int} (positive : 0 < length) (short : length ≤ dayMs) :
    (ms + Int64.ofInt length).toInt = ms.toInt + length := by
  have below := ms.le_toInt
  unfold dayMs at short
  have exact_ : (Int64.ofInt length).toInt = length :=
    toInt_ofInt_of_fits (by constructor <;> omega)
  rw [toInt_add_of_fits (by rw [exact_]; constructor <;> omega), exact_]

/--
The code moves on to the start of the next period; a month or a year needs
the next one to be in chrono.
-/
theorem toInt_next (timespan : Timespan) {ms : Int64}
    (inChrono : InChrono (ms.toInt * 1000000))
    (later : timespan = .hour ∨ timespan = .day ∨
      InChrono (timespan.grid.next ms.toInt * 1000000)) :
    (timespan.next ms).toInt = timespan.grid.next ms.toInt := by
  rcases dateNaive_spec inChrono with ⟨isDay, years⟩
  have date : ms.toInt < 8210266876800000 := by omega
  cases timespan with
  | hour => exact toInt_add_length date (by decide) (by decide)
  | day => exact toInt_add_length date (by decide) le_rfl
  | month =>
      have inside := later.resolve_left (by decide) |>.resolve_left (by decide)
      rcases monthOf_spec (dateNaive ms) with ⟨first, last, -⟩
      have isNext : Timespan.month.grid.next ms.toInt =
          monthStart (yearOf (dateNaive ms)) (monthOf (dateNaive ms) + 1) *
            dayMs := by
        rw [isDay]
        rfl
      rw [isNext] at inside ⊢
      rw [Timespan.next]
      by_cases december : monthOf (dateNaive ms) = 12
      · rw [december, monthStart_thirteen] at inside ⊢
        rw [if_pos rfl,
          toInt_ymdMs ⟨by omega, year_of_start inside⟩ (by decide),
          monthStart_one]
      · rw [if_neg december, toInt_ymdMs years ⟨by omega, by omega⟩]
  | year =>
      have inside := later.resolve_left (by decide) |>.resolve_left (by decide)
      have isNext : Timespan.year.grid.next ms.toInt =
          yearStart (yearOf (dateNaive ms) + 1) * dayMs := by
        rw [isDay]
        rfl
      rw [isNext] at inside ⊢
      rw [Timespan.next,
        toInt_ymdMs ⟨by omega, year_of_start inside⟩ (by decide),
        monthStart_one]

example : Timespan.month.next (Timespan.month.floor 1798000000000) =
    1798761600000 := by
  decide +kernel

end ChudMoney.Controllers.Periods
