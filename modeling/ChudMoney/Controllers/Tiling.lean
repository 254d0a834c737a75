import ChudMoney.Controllers.Periods

/-!
# The periods tile time

The floor of an instant is the start of its period, and the next start is the
first one after it.  Moving on from the floor of a start passes each period of
a stretch once and leaves the stretch.

This holds where chrono has a date for an instant and for the start of the
period after its own; the first and the last period of chrono's range are the
only ones that another range would treat otherwise.
-/

namespace ChudMoney.Controllers.Tiling

open ChudMoney.Controllers.Periods
open ChudMoney.Lib.Calendar
open ChudMoney.Lib.Grids
open ChudMoney.Lib.MachineInt

/-- An instant and the next period start lie in chrono's range. -/
structure Dated (timespan : Timespan) (ms : Int64) : Prop where
  instant : InChrono (ms.toInt * 1000000)
  next : InChrono
    (timespan.grid.next (timespan.grid.floor ms.toInt) * 1000000)

/-- The period starting at `p` has an instant of `[startMs, endMs)`. -/
def Meets (timespan : Timespan) (startMs endMs p : Int64) : Prop :=
  ∃ ms, startMs ≤ ms ∧ ms < endMs ∧ timespan.floor ms = p

/-- The first `n` cursors of a loop from `startMs`. -/
def cursors (timespan : Timespan) (startMs : Int64) (n : Nat) : List Int64 :=
  (List.range n).map fun k => timespan.next^[k] (timespan.floor startMs)

/-- After `n` turns a loop over `[startMs, endMs)` is done. -/
structure Visits (timespan : Timespan) (startMs endMs : Int64) (n : Nat) :
    Prop where
  once : (cursors timespan startMs n).Nodup
  all : ∀ p, Meets timespan startMs endMs p → p ∈ cursors timespan startMs n
  before : ∀ p ∈ cursors timespan startMs n, p < endMs
  only : startMs < endMs →
    ∀ p ∈ cursors timespan startMs n, Meets timespan startMs endMs p
  reaches : endMs ≤ timespan.next^[n] (timespan.floor startMs)

/-! ## The periods of dated instants -/

/-- Chrono's first instant starts a period. -/
theorem aligned_first (timespan : Timespan) :
    Aligned timespan.grid (-8334601228800000) := by
  show timespan.grid.floor _ = _
  cases timespan <;> decide +kernel

/-- The period of a dated instant starts at a dated instant. -/
theorem inChrono_floor (timespan : Timespan) {t : Int}
    (inChrono : InChrono (t * 1000000)) :
    InChrono (timespan.grid.floor t * 1000000) := by
  have first : -8334601228800000 ≤ timespan.grid.floor t := by
    have mono := floor_mono timespan.grid
      (show (-8334601228800000 : Int) ≤ t by omega)
    rwa [aligned_first timespan] at mono
  have le := timespan.grid.floor_le t
  constructor <;> omega

namespace Dated

variable {timespan : Timespan} {ms other : Int64}

/-- An instant before a period start of chrono's range is dated. -/
theorem of_lt {start : Int} (inChrono : InChrono (ms.toInt * 1000000))
    (aligned : Aligned timespan.grid start) (last : InChrono (start * 1000000))
    (before : ms.toInt < start) : Dated timespan ms := by
  have le := aligned.next_floor_le before
  have later := timespan.grid.lt_next ms.toInt
  refine ⟨inChrono, ?_⟩
  constructor <;> omega

theorem toInt_floor (dated : Dated timespan ms) :
    (timespan.floor ms).toInt = timespan.grid.floor ms.toInt :=
  Periods.toInt_floor timespan dated.instant

theorem inChrono_floor (dated : Dated timespan ms) :
    InChrono ((timespan.floor ms).toInt * 1000000) := by
  rw [dated.toInt_floor]
  exact Tiling.inChrono_floor timespan dated.instant

theorem toInt_next (dated : Dated timespan ms) :
    (timespan.next (timespan.floor ms)).toInt =
      timespan.grid.next (timespan.grid.floor ms.toInt) := by
  have next := dated.next
  rw [← dated.toInt_floor] at next
  rw [Periods.toInt_next timespan dated.inChrono_floor (Or.inr (Or.inr next)),
    dated.toInt_floor]

theorem aligned (dated : Dated timespan ms) :
    Aligned timespan.grid (timespan.floor ms).toInt := by
  rw [dated.toInt_floor]
  exact timespan.grid.floor_floor ms.toInt

/-- An instant between two starts is in chrono. -/
theorem between (dated : Dated timespan ms)
    (later : timespan.floor ms ≤ other)
    (before : other < timespan.next (timespan.floor ms)) :
    InChrono (other.toInt * 1000000) := by
  have first := dated.inChrono_floor
  have last := dated.next
  rw [Int64.le_iff_toInt_le] at later
  rw [Int64.lt_iff_toInt_lt, dated.toInt_next] at before
  constructor <;> omega

end Dated

/-! ## One period -/

section Period

variable {timespan : Timespan} {ms : Int64}

theorem floor_le (dated : Dated timespan ms) : timespan.floor ms ≤ ms := by
  rw [Int64.le_iff_toInt_le, dated.toInt_floor]
  exact timespan.grid.floor_le ms.toInt

theorem lt_next (dated : Dated timespan ms) :
    ms < timespan.next (timespan.floor ms) := by
  rw [Int64.lt_iff_toInt_lt, dated.toInt_next]
  exact timespan.grid.lt_next ms.toInt

theorem floor_floor (dated : Dated timespan ms) :
    timespan.floor (timespan.floor ms) = timespan.floor ms := by
  apply Int64.toInt_inj.mp
  rw [Periods.toInt_floor timespan dated.inChrono_floor]
  exact dated.aligned

theorem floor_monotone {other : Int64} (dated : Dated timespan ms)
    (otherDated : Dated timespan other) (le : ms ≤ other) :
    timespan.floor ms ≤ timespan.floor other := by
  rw [Int64.le_iff_toInt_le, dated.toInt_floor, otherDated.toInt_floor]
  exact floor_mono timespan.grid (Int64.le_iff_toInt_le.mp le)

theorem floor_next (dated : Dated timespan ms) :
    timespan.floor (timespan.next (timespan.floor ms)) =
      timespan.next (timespan.floor ms) := by
  have next := dated.next
  rw [← dated.toInt_next] at next
  apply Int64.toInt_inj.mp
  rw [Periods.toInt_floor timespan next, dated.toInt_next]
  exact timespan.grid.floor_next _ (timespan.grid.floor_floor ms.toInt)

/-- What lies between two consecutive starts is in the period of the first. -/
theorem floor_between {other : Int64} (dated : Dated timespan ms)
    (later : timespan.floor ms ≤ other)
    (before : other < timespan.next (timespan.floor ms)) :
    timespan.floor other = timespan.floor ms := by
  apply Int64.toInt_inj.mp
  rw [Periods.toInt_floor timespan (dated.between later before)]
  rw [Int64.le_iff_toInt_le] at later
  rw [Int64.lt_iff_toInt_lt, dated.toInt_next, ← dated.toInt_floor] at before
  exact dated.aligned.floor_eq_iff.mpr ⟨later, before⟩

end Period

/-! ## A stretch of periods -/

section Stretch

variable {timespan : Timespan} {startMs endMs : Int64}

/-- The cursors of a loop over dated instants are those of the grid. -/
theorem toInt_iterate (dated : Dated timespan startMs)
    (inside : ∀ ms, startMs ≤ ms → ms < endMs → Dated timespan ms) {n : Nat}
    (before : ∀ k < n, timespan.grid.next^[k]
      (timespan.grid.floor startMs.toInt) < endMs.toInt) :
    ∀ k ≤ n, (timespan.next^[k] (timespan.floor startMs)).toInt =
      timespan.grid.next^[k] (timespan.grid.floor startMs.toInt) := by
  intro k le
  induction k with
  | zero => exact dated.toInt_floor
  | succ k ih =>
      have same := ih (by omega)
      rw [Function.iterate_succ_apply', Function.iterate_succ_apply', ← same]
      -- the first cursor lies before the stretch, every later one inside
      cases k with
      | zero =>
          show (timespan.next (timespan.floor startMs)).toInt =
            timespan.grid.next (timespan.floor startMs).toInt
          rw [dated.toInt_next, dated.toInt_floor]
      | succ k =>
          have later := lt_iterate timespan.grid startMs.toInt k
          have earlier := before (k + 1) (by omega)
          rw [← same] at later earlier
          have cursor := inside _
            (Int64.le_iff_toInt_le.mpr later.le)
            (Int64.lt_iff_toInt_lt.mpr earlier)
          have aligned : Aligned timespan.grid
              (timespan.next^[k + 1] (timespan.floor startMs)).toInt := by
            rw [same]
            exact Aligned.iterate (timespan.grid.floor_floor _) (k + 1)
          have next := cursor.next
          rw [aligned] at next
          exact Periods.toInt_next timespan cursor.instant
            (Or.inr (Or.inr next))

/-- A loop over a stretch of dated instants ends, and visits its periods. -/
theorem exists_visits (dated : Dated timespan startMs)
    (inside : ∀ ms, startMs ≤ ms → ms < endMs → Dated timespan ms) :
    ∃ n, Visits timespan startMs endMs n := by
  rcases exists_iterate_reaches timespan.grid startMs.toInt endMs.toInt with
    ⟨n, reaches, before⟩
  have same := toInt_iterate dated inside before
  have covers := covers_iterate timespan.grid startMs.toInt n
  have mapped : (cursors timespan startMs n).map Int64.toInt =
      (List.range n).map fun k =>
        timespan.grid.next^[k] (timespan.grid.floor startMs.toInt) := by
    rw [cursors, List.map_map]
    apply List.map_congr_left
    intro k member
    exact same k (List.mem_range.mp member).le
  rw [← mapped] at covers
  have earlier : ∀ p ∈ cursors timespan startMs n, p < endMs := by
    intro p member
    rcases List.mem_map.mp member with ⟨k, turn, rfl⟩
    have lt := List.mem_range.mp turn
    rw [Int64.lt_iff_toInt_lt, same k lt.le]
    exact before k lt
  refine ⟨n, ⟨?_, ?_, earlier, ?_, ?_⟩⟩
  · exact List.Nodup.of_map _ (covers.ordered.imp ne_of_lt)
  · rintro p ⟨ms, later, inStretch, rfl⟩
    have at_ := inside ms later inStretch
    have found : (timespan.floor ms).toInt ∈
        (cursors timespan startMs n).map Int64.toInt := by
      rw [covers.mem_iff]
      refine ⟨at_.aligned, ?_, ?_⟩
      · have le := Int64.le_iff_toInt_le.mp (floor_le at_)
        have lt := Int64.lt_iff_toInt_lt.mp inStretch
        omega
      · have le := Int64.le_iff_toInt_le.mp later
        have lt := timespan.grid.lt_next ms.toInt
        rw [at_.toInt_floor]
        omega
    exact (List.mem_map_of_injective fun _ _ => Int64.toInt_inj.mp).mp found
  · intro ordered p member
    have listed := (covers.mem_iff p.toInt).mp (List.mem_map_of_mem member)
    rcases listed with ⟨aligned, -, later⟩
    have isBefore := earlier p member
    by_cases le : startMs ≤ p
    · have at_ := inside p le isBefore
      refine ⟨p, le, isBefore, Int64.toInt_inj.mp ?_⟩
      rw [at_.toInt_floor]
      exact aligned
    · have lt := Int64.not_le.mp le
      refine ⟨startMs, Int64.le_refl _, ordered, Int64.toInt_inj.mp ?_⟩
      rw [dated.toInt_floor]
      exact aligned.floor_eq_iff.mpr
        ⟨(Int64.lt_iff_toInt_lt.mp lt).le, later⟩
  · rw [Int64.le_iff_toInt_le, same n le_rfl]
    exact reaches

end Stretch

/-! ## Tiling -/

/--
Each dated instant lies in one period, periods follow one another without a
gap, and moving on from the start of a stretch visits its periods.
-/
theorem timespan_tiles (timespan : Timespan) :
    (∀ ms, Dated timespan ms →
      timespan.floor ms ≤ ms ∧ ms < timespan.next (timespan.floor ms) ∧
        timespan.floor (timespan.floor ms) = timespan.floor ms ∧
        timespan.floor (timespan.next (timespan.floor ms)) =
          timespan.next (timespan.floor ms) ∧
        ∀ p, timespan.floor ms < p → p < timespan.next (timespan.floor ms) →
          timespan.floor p ≠ p) ∧
    (∀ first second, Dated timespan first → Dated timespan second →
      first ≤ second → timespan.floor first ≤ timespan.floor second) ∧
    ∀ startMs endMs, Dated timespan startMs →
      (∀ ms, startMs ≤ ms → ms < endMs → Dated timespan ms) →
      ∃ n, Visits timespan startMs endMs n := by
  refine ⟨?_, ?_, ?_⟩
  · intro ms dated
    refine ⟨floor_le dated, lt_next dated, floor_floor dated,
      floor_next dated, ?_⟩
    intro p later before isStart
    have same := floor_between dated (Int64.le_of_lt later) before
    rw [isStart] at same
    exact absurd same (Int64.ne_of_lt later).symm
  · intro first second dated otherDated le
    exact floor_monotone dated otherDated le
  · intro startMs endMs dated inside
    exact exists_visits dated inside

/-- The months from September to December 2026. -/
theorem timespan_tiles_autumn :
    Timespan.month.floor 1788737806855 ≤ 1788737806855 ∧
      Timespan.month.floor 1788737806855 ≤
        Timespan.month.floor 1798000000000 ∧
      ∃ n, Visits .month 1788737806855 1798000000000 n := by
  have year : Aligned Timespan.month.grid 1798761600000 := by
    show Timespan.month.grid.floor _ = _
    decide +kernel
  have dated : ∀ ms : Int64, 1788737806855 ≤ ms → ms ≤ 1798000000000 →
      Dated .month ms := by
    intro ms later before
    have first : 1788737806855 ≤ ms.toInt := Int64.le_iff_toInt_le.mp later
    have last : ms.toInt ≤ 1798000000000 := Int64.le_iff_toInt_le.mp before
    apply Dated.of_lt _ year
    · constructor <;> omega
    · omega
    · constructor <;> omega
  have start := dated 1788737806855 (by decide) (by decide)
  refine ⟨((timespan_tiles .month).1 _ start).1, ?_, ?_⟩
  · exact (timespan_tiles .month).2.1 _ _ start
      (dated _ (by decide) (by decide)) (by decide)
  · apply (timespan_tiles .month).2.2 _ _ start
    intro ms later before
    exact dated ms later (Int64.le_of_lt before)

end ChudMoney.Controllers.Tiling
