import Mathlib.Data.List.Basic
import Mathlib.Data.List.Induction

/-!
# Tables that keep one row per key

A write replaces the row that has its key, so a table holds of each key the row
written last.
-/

namespace ChudMoney.Lib.Upserts

variable {W K : Type} [DecidableEq K]

/-- Write a row in place of the one with its key. -/
def upsert (key : W → K) (table : List W) (row : W) : List W :=
  (table.filter fun other => key other ≠ key row) ++ [row]

/-- The table after some writes. -/
def store (key : W → K) (writes : List W) : List W :=
  writes.foldl (upsert key) []

variable {key : W → K} {writes batch : List W} {row other : W}

theorem store_concat (writes : List W) (row : W) :
    store key (writes ++ [row]) = upsert key (store key writes) row := by
  simp only [store, List.foldl_append, List.foldl_cons, List.foldl_nil]

theorem mem_upsert {table : List W} :
    other ∈ upsert key table row ↔
      other ∈ table ∧ key other ≠ key row ∨ other = row := by
  simp [upsert]

/-- A row is stored when it was written and its key not again. -/
theorem mem_store_append (writes batch : List W) :
    row ∈ store key (writes ++ batch) ↔
      row ∈ store key batch ∨
        row ∈ store key writes ∧ ∀ later ∈ batch, key later ≠ key row := by
  induction batch using List.reverseRecOn with
  | nil => simp [store]
  | append_singleton batch last ih =>
      rw [← List.append_assoc, store_concat, store_concat, mem_upsert,
        mem_upsert, ih]
      simp only [List.mem_append, List.mem_singleton]
      constructor
      · rintro (⟨isBatch | ⟨isStored, apart⟩, differs⟩ | isLast)
        · exact Or.inl (Or.inl ⟨isBatch, differs⟩)
        · right
          refine ⟨isStored, ?_⟩
          rintro later (isEarlier | rfl)
          · exact apart later isEarlier
          · exact differs.symm
        · exact Or.inl (Or.inr isLast)
      · rintro ((⟨isBatch, differs⟩ | isLast) | ⟨isStored, apart⟩)
        · exact Or.inl ⟨Or.inl isBatch, differs⟩
        · exact Or.inr isLast
        · left
          refine ⟨Or.inr ⟨isStored, ?_⟩, ?_⟩
          · exact fun later member => apart later (Or.inl member)
          · exact (apart last (Or.inr rfl)).symm

theorem mem_of_mem_store (member : row ∈ store key writes) : row ∈ writes := by
  induction writes using List.reverseRecOn with
  | nil => exact member
  | append_singleton writes last ih =>
      rw [store_concat, mem_upsert] at member
      rcases member with ⟨isStored, -⟩ | rfl
      · exact List.mem_append_left _ (ih isStored)
      · exact List.mem_append_right _ (List.mem_singleton_self _)

/-- The last row of a key is stored. -/
theorem mem_store_of_last (before after : List W) (row : W)
    (last : ∀ later ∈ after, key later ≠ key row) :
    row ∈ store key (before ++ row :: after) := by
  rw [List.append_cons, mem_store_append]
  right
  rw [store_concat, mem_upsert]
  exact ⟨Or.inr rfl, last⟩

/-- A stored row is the last one of its key. -/
theorem last_of_mem_store (member : row ∈ store key writes) :
    ∃ before after, writes = before ++ row :: after ∧
      ∀ later ∈ after, key later ≠ key row := by
  induction writes using List.reverseRecOn with
  | nil => cases member
  | append_singleton writes last ih =>
      rw [store_concat, mem_upsert] at member
      rcases member with ⟨isStored, differs⟩ | rfl
      · rcases ih isStored with ⟨before, after, rfl, apart⟩
        refine ⟨before, after ++ [last], by simp, ?_⟩
        intro later member
        rcases List.mem_append.mp member with old | new
        · exact apart later old
        · rw [List.mem_singleton.mp new]
          exact differs.symm
      · exact ⟨writes, [], rfl, by simp⟩

end ChudMoney.Lib.Upserts
