import Mathlib.Data.Nat.Find
import Mathlib.Logic.Function.Iterate
import Mathlib.Order.MinMax

/-!
# Periods that tile a line

A grid takes a point to the start of its period, and the start of a period to
that of the next.  A list of starts covers a stretch when it holds, in order,
each period that meets the stretch.
-/

namespace ChudMoney.Lib.Grids

/-- Consecutive periods without a gap, each known by its start. -/
structure Grid (T : Type) [LinearOrder T] where
  floor : T → T
  next : T → T
  floor_floor : ∀ t, floor (floor t) = floor t
  floor_le : ∀ t, floor t ≤ t
  lt_next : ∀ t, t < next (floor t)
  floor_eq : ∀ start t, floor start = start → start ≤ t → t < next start →
    floor t = start
  floor_next : ∀ start, floor start = start → floor (next start) = next start

variable {T : Type} [LinearOrder T]

/-- The start of a period. -/
def Aligned (grid : Grid T) (start : T) : Prop :=
  grid.floor start = start

/-- The periods that meet `[lo, hi)`, each once and in order. -/
structure Covers (grid : Grid T) (lo hi : T) (starts : List T) : Prop where
  ordered : starts.Pairwise (· < ·)
  mem_iff : ∀ start, start ∈ starts ↔
    Aligned grid start ∧ start < hi ∧ lo < grid.next start

variable {grid : Grid T} {lo hi start t : T} {starts : List T}

theorem Aligned.lt_next (aligned : Aligned grid start) :
    start < grid.next start := by
  have below := grid.lt_next start
  rwa [aligned] at below

/-- A point lies in the period that it is floored to and in no other. -/
theorem Aligned.floor_eq_iff (aligned : Aligned grid start) :
    grid.floor t = start ↔ start ≤ t ∧ t < grid.next start := by
  constructor
  · rintro rfl
    exact ⟨grid.floor_le t, grid.lt_next t⟩
  · rintro ⟨later, before⟩
    exact grid.floor_eq start t aligned later before

/-- Before the next period there is none but this one and earlier ones. -/
theorem Aligned.lt_next_iff (aligned : Aligned grid start)
    (other : Aligned grid t) : t < grid.next start ↔ t < start ∨ t = start := by
  constructor
  · intro before
    by_cases earlier : t < start
    · exact Or.inl earlier
    · have same := (aligned.floor_eq_iff (t := t)).mpr
        ⟨not_lt.mp earlier, before⟩
      exact Or.inr (other.symm.trans same)
  · rintro (earlier | rfl)
    · exact earlier.trans aligned.lt_next
    · exact aligned.lt_next

/-- No period meets the stretch from a point back to its period's start. -/
theorem covers_floor (grid : Grid T) (lo : T) :
    Covers grid lo (grid.floor lo) [] := by
  constructor
  · exact List.Pairwise.nil
  · intro start
    refine iff_of_false List.not_mem_nil ?_
    rintro ⟨aligned, before, later⟩
    have same := (aligned.floor_eq_iff (t := lo)).mpr
      ⟨before.le.trans (grid.floor_le lo), later⟩
    exact absurd same before.ne'

/-- One period more is covered. -/
theorem Covers.next (covers : Covers grid lo start starts)
    (aligned : Aligned grid start) (meets : lo < grid.next start) :
    Covers grid lo (grid.next start) (starts ++ [start]) := by
  constructor
  · rw [List.pairwise_append]
    refine ⟨covers.ordered, List.pairwise_singleton _ _, ?_⟩
    intro earlier member last isLast
    rw [List.mem_singleton.mp isLast]
    exact ((covers.mem_iff earlier).mp member).2.1
  · intro other
    rw [List.mem_append, List.mem_singleton, covers.mem_iff]
    constructor
    · rintro (⟨otherAligned, before, later⟩ | rfl)
      · exact ⟨otherAligned, before.trans aligned.lt_next, later⟩
      · exact ⟨aligned, aligned.lt_next, meets⟩
    · rintro ⟨otherAligned, before, later⟩
      rcases (aligned.lt_next_iff otherAligned).mp before with earlier | same
      · exact Or.inl ⟨otherAligned, earlier, later⟩
      · exact Or.inr same

/-- A later point does not lie in an earlier period. -/
theorem floor_mono (grid : Grid T) : Monotone grid.floor := by
  intro first second le
  by_contra later
  have before : grid.floor first < grid.next (grid.floor second) :=
    lt_of_le_of_lt ((grid.floor_le first).trans le) (grid.lt_next second)
  have aligned : Aligned grid (grid.floor second) := grid.floor_floor second
  rcases (aligned.lt_next_iff (grid.floor_floor first)).mp before with
    earlier | same
  · exact later earlier.le
  · exact later same.le

/-- A stretch may end anywhere between two starts. -/
theorem Covers.min {bound : T} (covers : Covers grid lo hi starts)
    (below : ∀ start ∈ starts, start < bound) :
    Covers grid lo (min hi bound) starts := by
  constructor
  · exact covers.ordered
  · intro start
    rw [lt_min_iff]
    constructor
    · intro member
      have both := (covers.mem_iff start).mp member
      exact ⟨both.1, ⟨both.2.1, below start member⟩, both.2.2⟩
    · rintro ⟨aligned, both, later⟩
      exact (covers.mem_iff start).mpr ⟨aligned, both.1, later⟩

/-- The next period starts no later than any later start. -/
theorem Aligned.next_floor_le (aligned : Aligned grid start)
    (before : t < start) : grid.next (grid.floor t) ≤ start := by
  by_contra later
  have current : Aligned grid (grid.floor t) := grid.floor_floor t
  rcases (current.lt_next_iff aligned).mp (not_le.mp later) with earlier | same
  · exact absurd (grid.floor_le t) (not_le.mpr (before.trans earlier))
  · exact absurd (grid.floor_le t) (not_le.mpr (same ▸ before))

/-! ## Moving on from period to period -/

theorem Aligned.iterate (aligned : Aligned grid start) (n : Nat) :
    Aligned grid (grid.next^[n] start) := by
  induction n with
  | zero => exact aligned
  | succ n ih =>
      rw [Function.iterate_succ_apply']
      exact grid.floor_next _ ih

/-- The first step already passes the point that was floored. -/
theorem lt_iterate (grid : Grid T) (lo : T) (n : Nat) :
    lo < grid.next^[n + 1] (grid.floor lo) := by
  have aligned : Aligned grid (grid.floor lo) := grid.floor_floor lo
  induction n with
  | zero => exact grid.lt_next lo
  | succ n ih =>
      rw [Function.iterate_succ_apply']
      exact ih.trans (aligned.iterate (n + 1)).lt_next

/-- The periods moved through are those up to where the moves lead. -/
theorem covers_iterate (grid : Grid T) (lo : T) (n : Nat) :
    Covers grid lo (grid.next^[n] (grid.floor lo))
      ((List.range n).map fun k => grid.next^[k] (grid.floor lo)) := by
  have aligned : Aligned grid (grid.floor lo) := grid.floor_floor lo
  induction n with
  | zero => exact covers_floor grid lo
  | succ n ih =>
      have meets := lt_iterate grid lo n
      rw [Function.iterate_succ_apply'] at meets ⊢
      rw [List.range_succ, List.map_append]
      exact ih.next (aligned.iterate n) meets

/-- On the integers the moves pass any bound; up to it all stay below. -/
theorem exists_iterate_reaches (grid : Grid Int) (lo hi : Int) :
    ∃ n, hi ≤ grid.next^[n] (grid.floor lo) ∧
      ∀ k < n, grid.next^[k] (grid.floor lo) < hi := by
  have aligned : Aligned grid (grid.floor lo) := grid.floor_floor lo
  have rising : ∀ n : Nat,
      grid.floor lo + n ≤ grid.next^[n] (grid.floor lo) := by
    intro n
    induction n with
    | zero => simp
    | succ n ih =>
        have step := (aligned.iterate n).lt_next
        rw [Function.iterate_succ_apply']
        push_cast
        omega
  have reaches : ∃ n, hi ≤ grid.next^[n] (grid.floor lo) := by
    refine ⟨(hi - grid.floor lo).toNat, ?_⟩
    have bound := rising (hi - grid.floor lo).toNat
    omega
  refine ⟨Nat.find reaches, Nat.find_spec reaches, ?_⟩
  intro k earlier
  exact not_le.mp (Nat.find_min reaches earlier)

end ChudMoney.Lib.Grids
