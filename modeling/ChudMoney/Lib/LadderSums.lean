import ChudMoney.Lib.Ladder
import Mathlib

/-!
# Ladders as sums

Changes of a ladder meet at their keys only: what a key holds after a list of
changes depends on the changes of this key alone.  Where no partial sum at a
key is negative, the key holds the sum, and no level when the sum is zero.
-/

namespace ChudMoney.Lib.LadderSums

open ChudMoney.Lib.Ladder

variable {K Q : Type} [DecidableEq K]

/-- The sizes that a list gives for one key, in order. -/
def sizesAt (key : K) (changes : List (K × Q)) : List Q :=
  (changes.filter fun change => change.1 = key).map Prod.snd

theorem sizesAt_append (key : K) (first second : List (K × Q)) :
    sizesAt key (first ++ second) =
      sizesAt key first ++ sizesAt key second := by
  simp [sizesAt]

theorem sizesAt_singleton_self (key : K) (size : Q) :
    sizesAt key [(key, size)] = [size] := by
  simp [sizesAt]

theorem sizesAt_singleton_of_ne {key other : K} (distinct : other ≠ key)
    (size : Q) : sizesAt key [(other, size)] = [] := by
  simp [sizesAt, distinct]

/-! ## Changes meet at their keys only -/

section Locality

variable [Zero Q] [LT Q] [DecidableLT Q] [Add Q]

/-- Make changes one after another. -/
def bumps (ladder : Depth K Q) (changes : List (K × Q)) : Depth K Q :=
  changes.foldl (fun ladder change => bump ladder change.1 change.2) ladder

/-- Add signed changes to what one key holds, one after another. -/
def settle (held : Option Q) (deltas : List Q) : Option Q :=
  deltas.foldl (fun held delta => keep (held.getD 0 + delta)) held

@[simp]
theorem bumps_concat (ladder : Depth K Q) (changes : List (K × Q))
    (change : K × Q) :
    bumps ladder (changes ++ [change]) =
      bump (bumps ladder changes) change.1 change.2 := by
  simp [bumps]

@[simp]
theorem settle_concat (held : Option Q) (deltas : List Q) (delta : Q) :
    settle held (deltas ++ [delta]) =
      keep ((settle held deltas).getD 0 + delta) := by
  simp [settle]

/-- What a key holds depends on the changes of this key alone. -/
theorem bumps_apply (ladder : Depth K Q) (changes : List (K × Q)) (key : K) :
    bumps ladder changes key = settle (ladder key) (sizesAt key changes) := by
  induction changes using List.reverseRecOn with
  | nil => rfl
  | append_singleton changes change ih =>
      rcases change with ⟨other, delta⟩
      rw [bumps_concat, sizesAt_append]
      by_cases same : other = key
      · subst other
        rw [bump_self, sizesAt_singleton_self, settle_concat, ih]
      · rw [bump_of_ne _ _ (Ne.symm same), sizesAt_singleton_of_ne same,
          List.append_nil, ih]

/-- Lists of changes that agree at every key make the same ladder. -/
theorem bumps_congr (ladder : Depth K Q) {changes others : List (K × Q)}
    (same : ∀ key, sizesAt key changes = sizesAt key others) :
    bumps ladder changes = bumps ladder others := by
  funext key
  rw [bumps_apply, bumps_apply, same]

end Locality

/-! ## Levels and changes are summed up -/

section Sums

variable {levels changes : List (K × Int)} {key : K}

theorem keep_getD {size : Int} (nonneg : 0 ≤ size) :
    (keep size).getD 0 = size := by
  unfold keep
  split
  · rfl
  · simp only [Option.getD_none]
    omega

/-- Of levels with distinct keys, each key has its own size. -/
theorem ofLevels_eq_sum (distinct : (levels.map Prod.fst).Nodup) (key : K) :
    ofLevels levels key = keep (sizesAt key levels).sum := by
  induction levels with
  | nil => rfl
  | cons level levels ih =>
      rw [List.map_cons, List.nodup_cons] at distinct
      have front : sizesAt key (level :: levels) =
          sizesAt key [level] ++ sizesAt key levels :=
        sizesAt_append key [level] levels
      rcases level with ⟨other, size⟩
      by_cases same : other = key
      · subst other
        have nothing : ∀ level ∈ levels, level.1 ≠ key :=
          fun level member same =>
            distinct.1 (List.mem_map.mpr ⟨level, member, same⟩)
        have none_ : sizesAt key levels = [] := by
          unfold sizesAt
          rw [List.filter_eq_nil_iff.mpr (by simpa using nothing)]
          rfl
        have alone : ofLevels ((key, size) :: levels) key =
            ofLevels [(key, size)] key :=
          @ofLevels_append_of_forall_ne _ _ _ _ _ _ [(key, size)] levels key
            nothing
        rw [front, sizesAt_singleton_self, none_, alone]
        by_cases positive : 0 < size <;>
          simp [ofLevels, keep, place, positive, empty]
      · have rest : ofLevels ((other, size) :: levels) key =
            ofLevels levels key :=
          @ofLevels_append_of_forall_ne_left _ _ _ _ _ _ [(other, size)]
            levels key (by simpa using same)
        rw [front, sizesAt_singleton_of_ne same, rest, ih distinct.2]
        rfl

/-- The sum of what a list of levels and a list of changes give a key. -/
def total (levels changes : List (K × Int)) (key : K) : Int :=
  (sizesAt key levels).sum + (sizesAt key changes).sum

/-- No sum up to any change is negative, at any key. -/
def Nonnegative (levels changes : List (K × Int)) : Prop :=
  ∀ past, past <+: changes → ∀ key, 0 ≤ total levels past key

theorem Nonnegative.prefix (nonnegative : Nonnegative levels changes)
    {past : List (K × Int)} (before : past <+: changes) :
    Nonnegative levels past :=
  fun earlier isPrefix => nonnegative earlier (isPrefix.trans before)

theorem total_concat_self (delta : Int) :
    total levels (changes ++ [(key, delta)]) key =
      total levels changes key + delta := by
  unfold total
  rw [sizesAt_append, sizesAt_singleton_self, List.sum_append,
    List.sum_singleton, Int.add_assoc]

theorem total_concat_of_ne {other : K} (distinct : other ≠ key) (delta : Int) :
    total levels (changes ++ [(other, delta)]) key =
      total levels changes key := by
  unfold total
  rw [sizesAt_append, sizesAt_singleton_of_ne distinct, List.append_nil]

/-- A ladder of levels and changes holds at each key what they sum up to. -/
theorem bumps_eq_total (distinct : (levels.map Prod.fst).Nodup)
    (nonnegative : Nonnegative levels changes) (key : K) :
    bumps (ofLevels levels) changes key = keep (total levels changes key) := by
  induction changes using List.reverseRecOn generalizing key with
  | nil =>
      rw [bumps, List.foldl_nil, ofLevels_eq_sum distinct]
      simp [total, sizesAt]
  | append_singleton changes change ih =>
      have before := nonnegative.prefix (List.prefix_append changes [change])
      rcases change with ⟨other, delta⟩
      rw [bumps_concat]
      by_cases same : other = key
      · subst other
        rw [bump_self, ih before, total_concat_self,
          keep_getD (before changes (List.prefix_refl _) key)]
      · rw [bump_of_ne _ _ (Ne.symm same), ih before,
          total_concat_of_ne same]

end Sums

end ChudMoney.Lib.LadderSums
