import Mathlib.Data.List.Basic
import Mathlib.Data.List.Infix

/-!
# Cutting a list as soon as a part is full

`chunks` reads a list once and holds what it has read since the last cut; it
cuts as soon as what it holds is full, and once more at the end.  The parts
put together are the list, none is empty, every part but the last is full, and
no part has a shorter nonempty prefix that is full.
-/

namespace ChudMoney.Lib.Chunks

variable {α : Type} (full : List α → Prop) [DecidablePred full]

/-- The parts of `rows`, the first of which starts with what is held. -/
def chunks (held : List α) : List α → List (List α)
  | [] => if held = [] then [] else [held]
  | row :: rows =>
      if full (held ++ [row]) then (held ++ [row]) :: chunks [] rows
      else chunks (held ++ [row]) rows

variable {full}

/-- The parts put together are the list. -/
theorem flatten_chunks (held rows : List α) :
    (chunks full held rows).flatten = held ++ rows := by
  induction rows generalizing held with
  | nil => by_cases empty : held = [] <;> simp [chunks, empty]
  | cons row rows ih =>
      by_cases cut : full (held ++ [row]) <;> simp [chunks, cut, ih]

theorem ne_nil_of_mem_chunks {held rows chunk : List α}
    (member : chunk ∈ chunks full held rows) : chunk ≠ [] := by
  induction rows generalizing held with
  | nil =>
      by_cases empty : held = []
      · simp [chunks, empty] at member
      · simp only [chunks, if_neg empty, List.mem_singleton] at member
        exact member ▸ empty
  | cons row rows ih =>
      rw [chunks] at member
      split at member
      · rcases List.mem_cons.mp member with rfl | later
        · simp
        · exact ih later
      · exact ih member

/-- A part that is followed by another was cut because it was full. -/
theorem full_of_mem_dropLast_chunks {held rows chunk : List α}
    (member : chunk ∈ (chunks full held rows).dropLast) : full chunk := by
  induction rows generalizing held with
  | nil => by_cases empty : held = [] <;> simp [chunks, empty] at member
  | cons row rows ih =>
      rw [chunks] at member
      split at member
      next cut =>
        by_cases last : chunks full [] rows = []
        · simp [last] at member
        · rw [List.dropLast_cons_of_ne_nil last] at member
          rcases List.mem_cons.mp member with rfl | later
          · exact cut
          · exact ih later
      next => exact ih member

/--
No part was full before it was cut, if what is held at the start was not full
at any length.
-/
theorem not_full_of_prefix {held rows chunk short : List α}
    (member : chunk ∈ chunks full held rows)
    (fresh : ∀ first, first <+: held → first ≠ [] → ¬ full first)
    (isPrefix : short <+: chunk) (nonempty : short ≠ [])
    (shorter : short ≠ chunk) : ¬ full short := by
  induction rows generalizing held with
  | nil =>
      by_cases empty : held = []
      · simp [chunks, empty] at member
      · simp only [chunks, if_neg empty, List.mem_singleton] at member
        exact fresh short (member ▸ isPrefix) nonempty
  | cons row rows ih =>
      rw [chunks] at member
      split at member
      next cut =>
        rcases List.mem_cons.mp member with rfl | later
        · rcases List.prefix_concat_iff.mp isPrefix with same | inHeld
          · exact absurd same shorter
          · exact fresh short inHeld nonempty
        · apply ih later
          intro first inNil someRow
          exact absurd (List.prefix_nil.mp inNil) someRow
      next uncut =>
        apply ih member
        intro first inHeld someRow
        rcases List.prefix_concat_iff.mp inHeld with same | before
        · exact same ▸ uncut
        · exact fresh first before someRow

end ChudMoney.Lib.Chunks
