import Mathlib.Data.List.Destutter
import Mathlib.Data.List.Sort

/-!
# Sorting by a key and dropping repeated tags

`sortDedup` sorts a list by a key and keeps the first of each run of elements
with one tag.  Where a tag has one key, the runs are all the elements of a tag,
so each tag is kept exactly once.
-/

namespace ChudMoney.Lib.SortDedup

variable {α K T : Type} [LinearOrder K] [DecidableEq T]
variable {key : α → K} {tag : α → T}

/-- A stable `sort_by` of the key, then `dedup_by` of the tag. -/
def sortDedup (key : α → K) (tag : α → T) (list : List α) : List α :=
  (list.insertionSort fun first second => key first ≤ key second).destutter
    fun first second => tag first ≠ tag second

theorem mem_of_mem_sortDedup {list : List α} {a : α}
    (member : a ∈ sortDedup key tag list) : a ∈ list :=
  (List.mem_insertionSort _).mp ((List.destutter_sublist _ _).subset member)

theorem pairwise_sortDedup (list : List α) :
    (sortDedup key tag list).Pairwise fun first second =>
      key first ≤ key second := by
  have total : Std.Total fun first second : α => key first ≤ key second :=
    ⟨fun _ _ => le_total _ _⟩
  have transitive : IsTrans α fun first second => key first ≤ key second :=
    ⟨fun _ _ _ => le_trans⟩
  exact (List.pairwise_insertionSort _ list).sublist
    (List.destutter_sublist _ _)

omit [LinearOrder K] in
private theorem exists_mem_destutter' (list : List α) (first : α) :
    ∀ a ∈ first :: list,
      ∃ b ∈ list.destutter' (fun left right => tag left ≠ tag right) first,
        tag b = tag a := by
  induction list generalizing first with
  | nil =>
      intro a member
      exact ⟨a, member, rfl⟩
  | cons second list ih =>
      intro a member
      by_cases apart : tag first ≠ tag second
      · rw [List.destutter'_cons, if_pos apart]
        rcases List.mem_cons.mp member with rfl | later
        · exact ⟨a, List.mem_cons_self, rfl⟩
        · rcases ih second a later with ⟨b, kept, same⟩
          exact ⟨b, List.mem_cons_of_mem _ kept, same⟩
      · rw [List.destutter'_cons, if_neg apart]
        rcases List.mem_cons.mp member with rfl | later
        · exact ih a a List.mem_cons_self
        · rcases List.mem_cons.mp later with rfl | later
          · rcases ih first first List.mem_cons_self with ⟨b, kept, same⟩
            exact ⟨b, kept, same.trans (not_not.mp apart)⟩
          · exact ih first a (List.mem_cons_of_mem _ later)

/-- No tag is lost. -/
theorem exists_mem_sortDedup (key : α → K) (tag : α → T) {list : List α}
    {a : α} (member : a ∈ list) :
    ∃ b ∈ sortDedup key tag list, tag b = tag a := by
  have sorted := (List.mem_insertionSort
    fun first second => key first ≤ key second).mpr member
  rw [sortDedup]
  cases listed : list.insertionSort
      fun first second => key first ≤ key second with
  | nil =>
      rw [listed] at sorted
      cases sorted
  | cons first rest =>
      rw [listed] at sorted
      exact exists_mem_destutter' rest first a sorted

omit [DecidableEq T] in
private theorem pairwise_ne_of_isChain {list : List α}
    (tagged : ∀ a ∈ list, ∀ b ∈ list, tag a = tag b ↔ key a = key b)
    (sorted : list.Pairwise fun first second => key first ≤ key second)
    (chain : list.IsChain fun first second => tag first ≠ tag second) :
    list.Pairwise fun first second => tag first ≠ tag second := by
  induction list with
  | nil => exact List.Pairwise.nil
  | cons a rest ih =>
      rw [List.pairwise_cons] at sorted ⊢
      refine ⟨?_, ih ?_ sorted.2 chain.tail⟩
      · intro c later same
        cases rest with
        | nil => cases later
        | cons b rest =>
            have apart := (List.isChain_cons_cons.mp chain).1
            have least : key b ≤ key c := by
              rcases List.mem_cons.mp later with rfl | beyond
              · exact le_rfl
              · exact List.rel_of_pairwise_cons sorted.2 beyond
            have equal := (tagged a (by simp) c (by simp [later])).mp same
            have between := le_antisymm
              (sorted.1 b List.mem_cons_self) (equal ▸ least)
            exact apart ((tagged a (by simp) b (by simp)).mpr between)
      · intro b bLater c cLater
        exact tagged b (List.mem_cons_of_mem a bLater) c
          (List.mem_cons_of_mem a cLater)

/-- Where tags and keys tell the same elements apart, no tag is repeated. -/
theorem nodup_sortDedup {list : List α}
    (tagged : ∀ a ∈ list, ∀ b ∈ list, tag a = tag b ↔ key a = key b) :
    ((sortDedup key tag list).map tag).Nodup := by
  rw [List.Nodup, List.pairwise_map]
  apply pairwise_ne_of_isChain ?_ (pairwise_sortDedup list)
    (List.isChain_destutter _ _)
  intro a first b second
  exact tagged a (mem_of_mem_sortDedup first) b (mem_of_mem_sortDedup second)

end ChudMoney.Lib.SortDedup
