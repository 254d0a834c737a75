import Mathlib

/-!
# The proleptic Gregorian calendar

Days are numbered from 1970-01-01.  A year or a month is known by its first
day, and the year and the month of a day are those that hold it.
-/

namespace ChudMoney.Lib.Calendar

/-- The first day of a year. -/
def yearStart (year : Int) : Int :=
  365 * (year - 1) + (year - 1) / 4 - (year - 1) / 100 + (year - 1) / 400 -
    719162

/-- The year that a day lies in. -/
def yearOf (day : Int) : Int :=
  let guess := (day + 719162) * 400 / 146097 + 1
  if day < yearStart guess then guess - 1
  else if yearStart (guess + 1) ≤ day then guess + 1
  else guess

def isLeap (year : Int) : Bool :=
  year % 4 = 0 && (year % 100 ≠ 0 || year % 400 = 0)

/-- The days of a common year before each month. -/
def daysBefore : List Int :=
  [0, 31, 59, 90, 120, 151, 181, 212, 243, 273, 304, 334, 365]

/-- The first day of a month; the thirteenth starts the next year. -/
def monthStart (year : Int) (month : Nat) : Int :=
  yearStart year + daysBefore.getD (month - 1) 0 +
    if 2 < month ∧ isLeap year then 1 else 0

/-- The month that a day lies in: the number of its year's months begun. -/
def monthOf (day : Int) : Nat :=
  (List.range 12).countP fun month =>
    monthStart (yearOf day) (month + 1) ≤ day

/-- A day lies in its year. -/
theorem yearOf_spec (day : Int) :
    yearStart (yearOf day) ≤ day ∧ day < yearStart (yearOf day + 1) := by
  unfold yearOf yearStart
  dsimp only
  split_ifs <;> constructor <;> omega

theorem yearStart_succ (year : Int) :
    yearStart (year + 1) =
      yearStart year + if isLeap year then 366 else 365 := by
  simp only [yearStart, isLeap, Bool.and_eq_true, Bool.or_eq_true,
    decide_eq_true_eq]
  split_ifs <;> omega

/-- The thirteenth month starts with the next year. -/
theorem monthStart_thirteen (year : Int) :
    monthStart year 13 = yearStart (year + 1) := by
  rw [yearStart_succ, monthStart]
  cases isLeap year with
  | false => simp [daysBefore]
  | true =>
      simp [daysBefore]
      omega

theorem monthStart_one (year : Int) : monthStart year 1 = yearStart year := by
  simp [monthStart, daysBefore]

theorem monthStart_lt_succ (year : Int) {month : Nat} (first : 1 ≤ month)
    (last : month ≤ 12) :
    monthStart year month < monthStart year (month + 1) := by
  have days : ∀ month, 1 ≤ month → month ≤ 12 →
      daysBefore.getD (month - 1) 0 + 27 < daysBefore.getD (month + 1 - 1) 0 := by
    decide
  have step := days month first last
  unfold monthStart
  split_ifs <;> omega

/-- Of rising bounds, a day lies behind those that it is counted against. -/
theorem countP_begun {bound : Nat → Int} {n : Nat} {day : Int}
    (rising : ∀ i < n, bound i ≤ bound (i + 1)) (start : bound 0 ≤ day)
    (stop : day < bound n) :
    ∃ k < n, (List.range n).countP (fun i => bound i ≤ day) = k + 1 ∧
      bound k ≤ day ∧ day < bound (k + 1) := by
  induction n with
  | zero => exact absurd stop (not_lt.mpr start)
  | succ n ih =>
      rw [List.range_succ, List.countP_append]
      by_cases begun : bound n ≤ day
      · refine ⟨n, Nat.lt_succ_self n, ?_, begun, stop⟩
        have all : ∀ i ≤ n, bound i ≤ day := by
          intro i le
          induction le using Nat.decreasingInduction with
          | self => exact begun
          | of_succ i lt later => exact (rising i (by omega)).trans later
        have whole : (List.range n).countP (fun i => bound i ≤ day) = n := by
          conv_rhs => rw [← List.length_range (n := n)]
          rw [List.countP_eq_length]
          intro i member
          exact decide_eq_true (all i (List.mem_range.mp member).le)
        rw [whole]
        simp [begun]
      · rcases ih (fun i lt => rising i (by omega)) (not_le.mp begun) with
          ⟨k, lt, counted, later, before⟩
        refine ⟨k, by omega, ?_, later, before⟩
        rw [counted]
        simp [begun]

/-- A day lies in its month. -/
theorem monthOf_spec (day : Int) :
    1 ≤ monthOf day ∧ monthOf day ≤ 12 ∧
      monthStart (yearOf day) (monthOf day) ≤ day ∧
      day < monthStart (yearOf day) (monthOf day + 1) := by
  have inYear := yearOf_spec day
  have rising : ∀ i < 12, monthStart (yearOf day) (i + 1) ≤
      monthStart (yearOf day) (i + 1 + 1) := by
    intro i lt
    exact (monthStart_lt_succ _ (Nat.succ_pos i) lt).le
  have start : monthStart (yearOf day) (0 + 1) ≤ day := by
    rw [monthStart_one]
    exact inYear.1
  have stop : day < monthStart (yearOf day) (12 + 1) := by
    rw [monthStart_thirteen]
    exact inYear.2
  rcases countP_begun rising start stop with ⟨k, lt, counted, later, before⟩
  rw [monthOf, counted]
  exact ⟨Nat.succ_pos k, lt, later, before⟩

/-! ## There is only one -/

theorem yearStart_strictMono : StrictMono yearStart := by
  apply strictMono_int_of_lt_succ
  intro year
  rw [yearStart_succ]
  split <;> omega

theorem yearOf_eq {day year : Int} (later : yearStart year ≤ day)
    (before : day < yearStart (year + 1)) : yearOf day = year := by
  rcases yearOf_spec day with ⟨started, ends⟩
  have upper :=
    yearStart_strictMono.lt_iff_lt.mp (lt_of_le_of_lt started before)
  have lower := yearStart_strictMono.lt_iff_lt.mp (lt_of_le_of_lt later ends)
  omega

theorem yearOf_start (year : Int) : yearOf (yearStart year) = year :=
  yearOf_eq le_rfl (yearStart_strictMono (Int.lt_succ year))

theorem monthStart_mono (year : Int) {first second : Nat} (positive : 1 ≤ first)
    (le : first ≤ second) (last : second ≤ 13) :
    monthStart year first ≤ monthStart year second := by
  induction second, le using Nat.le_induction with
  | base => exact le_rfl
  | succ month le ih =>
      have step := monthStart_lt_succ year (positive.trans le) (by omega)
      exact (ih (by omega)).trans step.le

theorem month_eq {day year : Int} {month : Nat} (positive : 1 ≤ month)
    (last : month ≤ 12) (later : monthStart year month ≤ day)
    (before : day < monthStart year (month + 1)) :
    yearOf day = year ∧ monthOf day = month := by
  have sameYear : yearOf day = year := by
    apply yearOf_eq
    · rw [← monthStart_one]
      exact (monthStart_mono year le_rfl positive (by omega)).trans later
    · rw [← monthStart_thirteen]
      exact lt_of_lt_of_le before
        (monthStart_mono year (by omega) (by omega) le_rfl)
  refine ⟨sameYear, ?_⟩
  rcases monthOf_spec day with ⟨one, twelve, started, ends⟩
  rw [sameYear] at started ends
  rcases lt_trichotomy (monthOf day) month with lt | same | gt
  · have next : monthOf day + 1 ≤ month := lt
    have le := monthStart_mono year (by omega) next (by omega)
    omega
  · exact same
  · have next : month + 1 ≤ monthOf day := gt
    have le := monthStart_mono year (by omega) next (by omega)
    omega

end ChudMoney.Lib.Calendar
