import Mathlib

/-!
# Slices of a table by half-open windows

A slice of a table is the list of its rows whose time lies in a half-open
window, oldest first.  Slices of adjacent windows concatenate to the slice of
the window they cover, so a walk over windows that tile a range reads exactly
the rows of the range.
-/

namespace ChudMoney.Lib.Windows

variable {Row T : Type} [LinearOrder T]

/-- `out` is the rows with a time in `[lo, hi)`, oldest first. -/
structure Slice (time : Row → T) (rows : List Row) (lo hi : T)
    (out : List Row) : Prop where
  perm : out.Perm (rows.filter fun row => lo ≤ time row ∧ time row < hi)
  sorted : out.Pairwise fun first second => time first ≤ time second

variable {time : Row → T} {rows : List Row} {lo mid hi : T}

/-- An empty window has no row. -/
theorem Slice.nil (inverted : hi ≤ lo) : Slice time rows lo hi [] := by
  constructor
  · have nothing :
        (rows.filter fun row => lo ≤ time row ∧ time row < hi) = [] := by
      rw [List.filter_eq_nil_iff]
      intro row member inside
      have both := of_decide_eq_true inside
      exact absurd (lt_of_le_of_lt both.1 both.2) (not_lt.mpr inverted)
    rw [nothing]
  · exact List.Pairwise.nil

/-- Every window has its slice. -/
theorem Slice.exists (time : Row → T) (rows : List Row) (lo hi : T) :
    ∃ out, Slice time rows lo hi out := by
  have total : Std.Total fun first second : Row => time first ≤ time second :=
    ⟨fun _ _ => le_total _ _⟩
  have transitive : IsTrans Row fun first second => time first ≤ time second :=
    ⟨fun _ _ _ => le_trans⟩
  refine ⟨(rows.filter fun row => lo ≤ time row ∧ time row < hi).insertionSort
    fun first second => time first ≤ time second, ?_, ?_⟩
  · exact List.perm_insertionSort _ _
  · exact List.pairwise_insertionSort _ _

theorem Slice.mem_bounds {out : List Row} (slice : Slice time rows lo hi out)
    {row : Row} (member : row ∈ out) : lo ≤ time row ∧ time row < hi := by
  have filtered := slice.perm.mem_iff.mp member
  exact of_decide_eq_true (List.mem_filter.mp filtered).2

/-- Slices of adjacent windows make the slice of both. -/
theorem Slice.append {first second : List Row} (below : lo ≤ mid)
    (above : mid ≤ hi) (before : Slice time rows lo mid first)
    (after : Slice time rows mid hi second) :
    Slice time rows lo hi (first ++ second) := by
  constructor
  · have cut := List.filter_append_perm (fun row => decide (time row < mid))
      (rows.filter fun row => lo ≤ time row ∧ time row < hi)
    rw [List.filter_filter, List.filter_filter] at cut
    refine ((before.perm.append after.perm).trans ?_).trans cut
    apply List.Perm.of_eq
    congr 1 <;>
      · apply List.filter_congr
        intro row _
        grind
  · rw [List.pairwise_append]
    refine ⟨before.sorted, after.sorted, ?_⟩
    intro early earlyMember late lateMember
    have end_ := (before.mem_bounds earlyMember).2
    have start := (after.mem_bounds lateMember).1
    exact le_of_lt (lt_of_lt_of_le end_ start)

end ChudMoney.Lib.Windows
