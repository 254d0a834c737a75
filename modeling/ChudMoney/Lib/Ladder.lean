import Mathlib.Data.List.Basic
import Mathlib.Data.List.Induction
import Mathlib.Data.List.Sort
import Mathlib.Logic.Function.Basic
import Mathlib.Order.Basic

/-!
# Ladders of resting sizes and their event logs

A ladder maps each key (say a side and a price) to the size resting there, if
any.  It changes in two ways: it is reset to a list of levels, or one signed
change is added at one key.  A size that is not positive is no level.

The second half is about an append-only log of these changes.  A reset is
written as one entry per level, all bearing the mark of the reset, and a
change as one entry bearing its order.  `replay` reads the ladder back from
the entries alone: it starts again at the latest group of level entries and
adds the changes after it in their order.
-/

namespace ChudMoney.Lib.Ladder

variable {K Q R : Type}

/-- The size resting at each key that holds a level. -/
abbrev Depth (K Q : Type) := K → Option Q

/-- The ladder with no level. -/
def empty : Depth K Q := fun _ => none

section Operations

variable [DecidableEq K] [Zero Q] [LT Q] [DecidableLT Q]

/-- A size as a level: absent unless it is positive. -/
def keep (size : Q) : Option Q :=
  if 0 < size then some size else none

/-- Put a level on the ladder. -/
def place (ladder : Depth K Q) (level : K × Q) : Depth K Q :=
  Function.update ladder level.1 (some level.2)

/--
The ladder of a list of levels.  A level whose size is not positive is
skipped, and a later level at a key replaces an earlier one.
-/
def ofLevels (levels : List (K × Q)) : Depth K Q :=
  (levels.filter fun level => 0 < level.2).foldl place empty

/-- Add a signed change at one key. -/
def bump [Add Q] (ladder : Depth K Q) (key : K) (delta : Q) : Depth K Q :=
  Function.update ladder key (keep ((ladder key).getD 0 + delta))

@[simp]
theorem ofLevels_nil : ofLevels ([] : List (K × Q)) = empty :=
  rfl

@[simp]
theorem bump_self [Add Q] (ladder : Depth K Q) (key : K) (delta : Q) :
    bump ladder key delta key = keep ((ladder key).getD 0 + delta) := by
  simp [bump]

theorem bump_of_ne [Add Q] (ladder : Depth K Q) {key other : K}
    (delta : Q) (distinct : other ≠ key) :
    bump ladder key delta other = ladder other := by
  simp [bump, distinct]

/-- What a list of levels puts at one key: its last positive size there. -/
theorem ofLevels_apply (levels : List (K × Q)) (key : K) :
    ofLevels levels key =
      ((levels.filter fun level => level.1 = key ∧ 0 < level.2).getLast?).map
        Prod.snd := by
  induction levels using List.reverseRecOn with
  | nil => rfl
  | append_singleton levels level ih =>
      rw [ofLevels] at ih ⊢
      by_cases positive : 0 < level.2
      · by_cases same : level.1 = key
        · simp [List.filter_append, positive, place, same]
        · simp [List.filter_append, positive, place, same, Ne.symm same, ih]
      · simp [List.filter_append, positive, ih]

theorem ofLevels_append_of_forall_ne {first second : List (K × Q)} {key : K}
    (apart : ∀ level ∈ second, level.1 ≠ key) :
    ofLevels (first ++ second) key = ofLevels first key := by
  have nothing :
      (second.filter fun level => level.1 = key ∧ 0 < level.2) = [] := by
    rw [List.filter_eq_nil_iff]
    intro level member
    simp [apart level member]
  simp only [ofLevels_apply, List.filter_append, nothing, List.append_nil]

theorem ofLevels_append_of_forall_ne_left {first second : List (K × Q)}
    {key : K} (apart : ∀ level ∈ first, level.1 ≠ key) :
    ofLevels (first ++ second) key = ofLevels second key := by
  have nothing :
      (first.filter fun level => level.1 = key ∧ 0 < level.2) = [] := by
    rw [List.filter_eq_nil_iff]
    intro level member
    simp [apart level member]
  simp only [ofLevels_apply, List.filter_append, nothing, List.nil_append]

/-- Renaming the keys of a list of levels by an injection. -/
theorem ofLevels_map_key {J : Type} [DecidableEq J] {rename : J → K}
    (injective : Function.Injective rename) (levels : List (J × Q)) (key : J) :
    ofLevels (levels.map fun level => (rename level.1, level.2)) (rename key) =
      ofLevels levels key := by
  simp [ofLevels_apply, List.filter_map, Function.comp_def,
    injective.eq_iff, List.getLast?_map]

/-! ## Reading the sizes in another unit -/

variable [Zero R] [LT R] [DecidableLT R]

/-- Read every size of a ladder through `read`. -/
def mapSize (read : Q → R) (ladder : Depth K Q) : Depth K R :=
  fun key => (ladder key).map read

omit [Zero Q] [LT Q] [DecidableLT Q] [DecidableEq K] [Zero R] [LT R]
  [DecidableLT R] in
@[simp]
theorem mapSize_empty (read : Q → R) :
    mapSize read (empty : Depth K Q) = empty :=
  rfl

omit [Zero Q] [LT Q] [DecidableLT Q] [Zero R] [LT R] [DecidableLT R] in
theorem mapSize_update (read : Q → R) (ladder : Depth K Q) (key : K)
    (size : Option Q) :
    mapSize read (Function.update ladder key size) =
      Function.update (mapSize read ladder) key (size.map read) := by
  funext other
  by_cases same : other = key
  · subst other
    simp [mapSize]
  · simp [mapSize, same]

/-- A reading that agrees on which sizes are positive reads level lists. -/
theorem mapSize_ofLevels {read : Q → R}
    (positive : ∀ size, 0 < read size ↔ 0 < size)
    (levels : List (K × Q)) :
    mapSize read (ofLevels levels) =
      ofLevels (levels.map fun level => (level.1, read level.2)) := by
  have fold : ∀ (kept : List (K × Q)) (ladder : Depth K Q),
      mapSize read (kept.foldl place ladder) =
        (kept.map fun level => (level.1, read level.2)).foldl place
          (mapSize read ladder) := by
    intro kept
    induction kept with
    | nil => intro ladder; rfl
    | cons level kept ih =>
        intro ladder
        simp only [List.foldl_cons, List.map_cons, ih, place,
          mapSize_update, Option.map_some]
  have filtered :
      ((levels.map fun level => (level.1, read level.2)).filter
          fun level => 0 < level.2) =
        (levels.filter fun level => 0 < level.2).map
          fun level => (level.1, read level.2) := by
    simp [List.filter_map, Function.comp_def, positive]
  simp only [ofLevels, filtered, fold, mapSize_empty]

/-- A reading that is exact on one sum reads the change that makes it. -/
theorem mapSize_bump [Add Q] [Add R] {read : Q → R}
    (positive : ∀ size, 0 < read size ↔ 0 < size)
    (zero : read 0 = 0) (ladder : Depth K Q) (key : K) (delta : Q)
    (exact : read ((ladder key).getD 0 + delta) =
      read ((ladder key).getD 0) + read delta) :
    mapSize read (bump ladder key delta) =
      bump (mapSize read ladder) key (read delta) := by
  have total :
      (mapSize read ladder key).getD 0 = read ((ladder key).getD 0) := by
    cases held : ladder key <;> simp [mapSize, held, zero]
  rw [bump, mapSize_update, bump, total, ← exact]
  congr 1
  by_cases rests : 0 < (ladder key).getD 0 + delta
  · simp [keep, rests, (positive _).mpr rests]
  · simp [keep, rests, mt (positive _).mp rests]

end Operations

/-! ## Reading the keys in another unit -/

section Keys

variable {J : Type}

/--
Read a ladder under other keys: `locate` finds the key that a new key stands
for, if there is one.
-/
def expand (locate : J → Option K) (ladder : Depth K Q) : Depth J Q :=
  fun key => (locate key).bind ladder

@[simp]
theorem expand_empty (locate : J → Option K) :
    expand locate (empty : Depth K Q) = empty := by
  funext key
  cases located : locate key <;> simp [expand, located, empty]

variable [DecidableEq K] [DecidableEq J] [Zero Q] [LT Q] [DecidableLT Q]
variable {locate : J → Option K} {rename : K → J}

theorem expand_ofLevels
    (located : ∀ key old, locate key = some old ↔ rename old = key)
    (levels : List (K × Q)) :
    expand locate (ofLevels levels) =
      ofLevels (levels.map fun level => (rename level.1, level.2)) := by
  funext key
  cases found : locate key with
  | some old =>
      have same : rename old = key := (located key old).mp found
      have injective : Function.Injective rename := by
        intro first second equal
        have at_first := (located (rename first) first).mpr rfl
        have at_second := (located (rename first) second).mpr equal.symm
        rw [at_first] at at_second
        exact Option.some.inj at_second
      rw [expand, found, Option.bind_some, ← same,
        ofLevels_map_key injective]
  | none =>
      have nothing :
          ((levels.map fun level => (rename level.1, level.2)).filter
            fun level => level.1 = key ∧ 0 < level.2) = [] := by
        rw [List.filter_eq_nil_iff]
        intro level member
        rcases List.mem_map.mp member with ⟨old, _, rfl⟩
        have elsewhere : rename old.1 ≠ key := by
          intro same
          have present := (located key old.1).mpr same
          rw [found] at present
          cases present
        simp [elsewhere]
      rw [expand, found, ofLevels_apply, nothing]
      rfl

theorem expand_bump [Add Q]
    (located : ∀ key old, locate key = some old ↔ rename old = key)
    (ladder : Depth K Q) (old : K) (delta : Q) :
    expand locate (bump ladder old delta) =
      bump (expand locate ladder) (rename old) delta := by
  funext key
  have here : locate (rename old) = some old :=
    (located (rename old) old).mpr rfl
  by_cases same : key = rename old
  · subst key
    simp [expand, here]
  · rw [bump_of_ne _ _ same]
    cases found : locate key with
    | none => simp [expand, found]
    | some other =>
        have distinct : other ≠ old := by
          rintro rfl
          exact same ((located key other).mp found).symm
        simp [expand, found, bump_of_ne _ _ distinct]

end Keys

/-! ## What holds of every level -/

section Every

/-- Every level of the ladder is as `holds` says. -/
def Every (holds : K → Q → Prop) (ladder : Depth K Q) : Prop :=
  ∀ key size, ladder key = some size → holds key size

variable {holds : K → Q → Prop}

theorem every_empty : Every holds (empty : Depth K Q) := by
  intro key size level
  cases level

variable [DecidableEq K] [Zero Q] [LT Q] [DecidableLT Q]

omit [Zero Q] [LT Q] [DecidableLT Q] in
theorem Every.update {ladder : Depth K Q} (every : Every holds ladder)
    (key : K) {level : Option Q} (fits : ∀ size ∈ level, holds key size) :
    Every holds (Function.update ladder key level) := by
  intro other size held
  by_cases same : other = key
  · subst other
    exact fits size (by simpa using held)
  · exact every other size (by simpa [same] using held)

theorem every_ofLevels {levels : List (K × Q)}
    (all : ∀ level ∈ levels, 0 < level.2 → holds level.1 level.2) :
    Every holds (ofLevels levels) := by
  intro key size held
  rw [ofLevels_apply, Option.map_eq_some_iff] at held
  rcases held with ⟨level, last, rfl⟩
  rcases List.mem_filter.mp (List.mem_of_getLast? last) with ⟨member, kept⟩
  rcases of_decide_eq_true kept with ⟨rfl, positive⟩
  exact all level member positive

theorem Every.bump [Add Q] {ladder : Depth K Q} (every : Every holds ladder)
    (key : K) (delta : Q) (fits : ∀ size, 0 < size → holds key size) :
    Every holds (bump ladder key delta) := by
  refine every.update key ?_
  intro size held
  rw [Option.mem_def, keep] at held
  split at held
  · cases held
    apply fits
    assumption
  · cases held

end Every

/-! ## The event log -/

section Log

variable {M N : Type}

/-- One line of the log. -/
inductive Entry (M N K Q : Type) where
  | level (mark : M) (key : K) (size : Q)
  | change (order : N) (key : K) (delta : Q)

/-- What the entries since the latest reset say. -/
structure Tail (M N K Q : Type) where
  mark : Option M
  levels : List (K × Q)
  changes : List (N × K × Q)

/-- Nothing logged yet. -/
def Tail.empty : Tail M N K Q := ⟨none, [], []⟩

/--
Read one more entry.  A level entry joins the group it directly follows when
it bears the same mark; any other level entry starts again.
-/
def Tail.push [DecidableEq M] (tail : Tail M N K Q) :
    Entry M N K Q → Tail M N K Q
  | .level mark key size =>
      if tail.mark = some mark ∧ tail.changes = [] then
        { tail with levels := tail.levels ++ [(key, size)] }
      else
        ⟨some mark, [(key, size)], []⟩
  | .change order key delta =>
      { tail with changes := tail.changes ++ [(order, key, delta)] }

/-- The tail of a whole log. -/
def tailOf [DecidableEq M] (entries : List (Entry M N K Q)) :
    Tail M N K Q :=
  entries.foldl Tail.push Tail.empty

/-- A level group under `mark` would start a reset of its own. -/
def Tail.Fresh (tail : Tail M N K Q) (mark : M) : Prop :=
  tail.mark = some mark → tail.changes ≠ []

theorem tailOf_append [DecidableEq M] (first second : List (Entry M N K Q)) :
    tailOf (first ++ second) = second.foldl Tail.push (tailOf first) := by
  simp [tailOf]

private theorem foldl_push_level [DecidableEq M] (mark : M)
    (held levels : List (K × Q)) :
    (levels.map fun level =>
        (Entry.level mark level.1 level.2 : Entry M N K Q)).foldl
      Tail.push ⟨some mark, held, []⟩ =
        ⟨some mark, held ++ levels, []⟩ := by
  induction levels generalizing held with
  | nil => simp
  | cons level levels ih =>
      simp only [List.map_cons, List.foldl_cons, Tail.push]
      simpa using ih (held ++ [level])

/-- A nonempty group under a fresh mark becomes the whole tail. -/
theorem foldl_push_levels [DecidableEq M] {tail : Tail M N K Q} {mark : M}
    (fresh : tail.Fresh mark) {levels : List (K × Q)}
    (nonempty : levels ≠ []) :
    (levels.map fun level => Entry.level mark level.1 level.2).foldl
        Tail.push tail =
      ⟨some mark, levels, []⟩ := by
  cases levels with
  | nil => exact absurd rfl nonempty
  | cons level levels =>
      have starts : ¬ (tail.mark = some mark ∧ tail.changes = []) :=
        fun same => fresh same.1 same.2
      simp only [List.map_cons, List.foldl_cons, Tail.push, if_neg starts]
      simpa using foldl_push_level mark [(level.1, level.2)] levels

variable [DecidableEq K] [Zero Q] [LT Q] [DecidableLT Q] [Add Q]
variable [LinearOrder N]

/-- The ladder a tail describes: its levels, then its changes in order. -/
def Tail.depth (tail : Tail M N K Q) : Depth K Q :=
  (tail.changes.insertionSort fun first second => first.1 ≤ second.1).foldl
    (fun ladder change => bump ladder change.2.1 change.2.2)
    (ofLevels tail.levels)

/-- Read the ladder back from a log. -/
def replay [DecidableEq M] (entries : List (Entry M N K Q)) : Depth K Q :=
  (tailOf entries).depth

@[simp]
theorem Tail.depth_levels (mark : Option M) (levels : List (K × Q)) :
    (⟨mark, levels, []⟩ : Tail M N K Q).depth = ofLevels levels := by
  simp [Tail.depth]

omit [DecidableEq K] [Zero Q] [LT Q] [DecidableLT Q] [Add Q] in
private theorem orderedInsert_append_singleton
    {change last : N × K × Q} (latest : change.1 ≤ last.1)
    (changes : List (N × K × Q)) :
    (changes ++ [last]).orderedInsert
        (fun first second => first.1 ≤ second.1) change =
      changes.orderedInsert (fun first second => first.1 ≤ second.1) change ++
        [last] := by
  induction changes with
  | nil => simp [latest]
  | cons head changes ih =>
      by_cases before : change.1 ≤ head.1
      · simp [before]
      · simp [before, ih]

omit [DecidableEq K] [Zero Q] [LT Q] [DecidableLT Q] [Add Q] in
private theorem insertionSort_append_singleton
    (last : N × K × Q) {changes : List (N × K × Q)}
    (latest : ∀ change ∈ changes, change.1 ≤ last.1) :
    (changes ++ [last]).insertionSort
        (fun first second => first.1 ≤ second.1) =
      changes.insertionSort (fun first second => first.1 ≤ second.1) ++
        [last] := by
  induction changes with
  | nil => simp
  | cons head changes ih =>
      simp only [List.cons_append, List.insertionSort_cons]
      rw [ih fun change member => latest change (by simp [member])]
      exact orderedInsert_append_singleton (latest head (by simp)) _

/-- A change written in its order is replayed last. -/
theorem Tail.depth_push_change [DecidableEq M] {tail : Tail M N K Q}
    {order : N} (key : K) (delta : Q)
    (latest : ∀ change ∈ tail.changes, change.1 ≤ order) :
    (tail.push (.change order key delta)).depth =
      bump tail.depth key delta := by
  simp only [Tail.depth, Tail.push]
  rw [insertionSort_append_singleton (order, key, delta) latest,
    List.foldl_append]
  rfl

/-- A nonempty group under a fresh mark resets the replayed ladder. -/
theorem replay_append_levels [DecidableEq M] {entries : List (Entry M N K Q)}
    {mark : M} (fresh : (tailOf entries).Fresh mark) {levels : List (K × Q)}
    (nonempty : levels ≠ []) :
    replay (entries ++
        levels.map fun level => .level mark level.1 level.2) =
      ofLevels levels := by
  rw [replay, tailOf_append, foldl_push_levels fresh nonempty,
    Tail.depth_levels]

/-- A change in its order is made on the replayed ladder. -/
theorem replay_append_change [DecidableEq M] {entries : List (Entry M N K Q)}
    {order : N} (key : K) (delta : Q)
    (latest : ∀ change ∈ (tailOf entries).changes, change.1 ≤ order) :
    replay (entries ++ [.change order key delta]) =
      bump (replay entries) key delta := by
  rw [replay, tailOf_append, List.foldl_cons, List.foldl_nil,
    Tail.depth_push_change key delta latest]
  rfl

/-! A replayed ladder holds no other keys than its entries name. -/

/-- The keys that the levels and changes of a tail name. -/
def Tail.keys (tail : Tail M N K Q) : List K :=
  tail.levels.map Prod.fst ++ tail.changes.map fun change => change.2.1

theorem Tail.depth_of_notMem_keys (tail : Tail M N K Q) {key : K}
    (unnamed : key ∉ tail.keys) : tail.depth key = none := by
  have fold : ∀ (changes : List (N × K × Q)) (ladder : Depth K Q),
      (∀ change ∈ changes, key ≠ change.2.1) → ladder key = none →
        changes.foldl (fun ladder change => bump ladder change.2.1 change.2.2)
          ladder key = none := by
    intro changes
    induction changes with
    | nil => exact fun ladder _ absent => absent
    | cons change changes ih =>
        intro ladder apart absent
        apply ih
        · exact fun next member => apart next (by simp [member])
        · exact (bump_of_ne _ _ (apart change (by simp))).trans absent
  simp only [Tail.keys, List.mem_append, not_or] at unnamed
  apply fold
  · intro change member named
    have written : change ∈ tail.changes :=
      (List.perm_insertionSort _ _).mem_iff.mp member
    exact unnamed.2 (List.mem_map.mpr ⟨change, written, named.symm⟩)
  · have nothing :
        (tail.levels.filter fun level => level.1 = key ∧ 0 < level.2) =
          [] := by
      rw [List.filter_eq_nil_iff]
      intro level member
      have apart : level.1 ≠ key := by
        rintro rfl
        exact unnamed.1 (List.mem_map_of_mem member)
      simp [apart]
    rw [ofLevels_apply, nothing]
    rfl

theorem Tail.depth_eq_empty_iff (tail : Tail M N K Q) :
    tail.depth = Ladder.empty ↔ ∀ key ∈ tail.keys, tail.depth key = none := by
  constructor
  · intro nothing key _
    rw [nothing]
    rfl
  · intro named
    funext key
    by_cases member : key ∈ tail.keys
    · exact named key member
    · exact tail.depth_of_notMem_keys member

instance [DecidableEq M] (entries : List (Entry M N K Q)) :
    Decidable (replay entries = empty) :=
  decidable_of_iff _ (tailOf entries).depth_eq_empty_iff.symm

end Log

end ChudMoney.Lib.Ladder
