import Mathlib.Data.List.Basic
import Mathlib.Logic.Function.Basic

/-!
# A table whose entries are each written by one owner

An entry is added together with what its owner still has to write to it, and
owners write one version at a time, in any interleaving.  When an entry is only
added if no active one of its group is there, no two active entries of a group
ever meet, and an entry that is no longer active stays as it is.
-/

namespace ChudMoney.Lib.Owners

variable {K V G : Type}

/-- How versions of one entry follow each other. -/
structure Rules (K V G : Type) where
  key : V → K
  group : V → G
  active : V → Prop
  next : V → V → Prop
  key_next : ∀ {old new}, next old new → key new = key old
  group_next : ∀ {old new}, next old new → group new = group old
  active_next : ∀ {old new}, next old new → active old
  trans : ∀ {first second third}, next first second → next second third →
    next first third

/-- The entries, and what their owners have still to write. -/
structure Table (K V : Type) where
  cells : K → Option V
  left : K → List V

section Operations

variable [DecidableEq K] (rules : Rules K V G)

/-- A new entry, and what its owner is going to write. -/
def Table.add (table : Table K V) (value : V) (writes : List V) :
    Table K V where
  cells := Function.update table.cells (rules.key value) (some value)
  left := Function.update table.left (rules.key value) writes

/-- An owner's next version becomes the entry. -/
def Table.write (table : Table K V) (owner : K) (value : V) (rest : List V) :
    Table K V where
  cells := Function.update table.cells (rules.key value) (some value)
  left := Function.update table.left owner rest

theorem Table.cells_add (table : Table K V) (value : V) (writes : List V)
    (key : K) :
    (table.add rules value writes).cells key =
      if key = rules.key value then some value else table.cells key :=
  Function.update_apply _ _ _ _

theorem Table.left_add (table : Table K V) (value : V) (writes : List V)
    (key : K) :
    (table.add rules value writes).left key =
      if key = rules.key value then writes else table.left key :=
  Function.update_apply _ _ _ _

theorem Table.cells_write (table : Table K V) (owner : K) (value : V)
    (rest : List V) (key : K) :
    (table.write rules owner value rest).cells key =
      if key = rules.key value then some value else table.cells key :=
  Function.update_apply _ _ _ _

theorem Table.left_write (table : Table K V) (owner : K) (value : V)
    (rest : List V) (key : K) :
    (table.write rules owner value rest).left key =
      if key = owner then rest else table.left key :=
  Function.update_apply _ _ _ _

/-- When an entry may be added. -/
structure Admits (table : Table K V) (value : V) (writes : List V) : Prop where
  fresh : table.cells (rules.key value) = none
  clear : ∀ key other, table.cells key = some other → rules.active other →
    rules.group other ≠ rules.group value
  ordered : (value :: writes).Pairwise rules.next

/-- One step of a table, by a request or by an owner. -/
inductive Step (table : Table K V) : Table K V → Prop where
  | stay : Step table table
  | add (value : V) (writes : List V) :
      Admits rules table value writes → Step table (table.add rules value writes)
  | write (owner : K) (value : V) (rest : List V) :
      table.left owner = value :: rest →
      Step table (table.write rules owner value rest)

end Operations

variable {rules : Rules K V G} {table next : Table K V}

/-- Every entry precedes what its owner has still to write. -/
structure Sound (rules : Rules K V G) (table : Table K V) : Prop where
  keyed : ∀ {key value}, table.cells key = some value → rules.key value = key
  owned : ∀ {key}, table.cells key = none → table.left key = []
  ordered : ∀ {key value}, table.cells key = some value →
    (value :: table.left key).Pairwise rules.next
  exclusive : ∀ {key other value second}, table.cells key = some value →
    table.cells other = some second → rules.active value →
    rules.active second → rules.group value = rules.group second → key = other

/-- A version stays, or is followed by another one. -/
def Rules.Evolves (rules : Rules K V G) (old new : V) : Prop :=
  new = old ∨ rules.next old new

theorem Rules.Evolves.trans {first second third : V}
    (early : rules.Evolves first second) (late : rules.Evolves second third) :
    rules.Evolves first third := by
  rcases early with rfl | early
  · exact late
  · rcases late with rfl | late
    · exact Or.inr early
    · exact Or.inr (rules.trans early late)

/-- An entry that is not active stays as it is. -/
theorem Rules.Evolves.frozen {old new : V} (evolves : rules.Evolves old new)
    (inactive : ¬ rules.active old) : new = old := by
  rcases evolves with same | follows
  · exact same
  · exact absurd (rules.active_next follows) inactive

/-- The entry that an owner is going to write. -/
theorem Sound.writing (sound : Sound rules table) {owner : K} {value : V}
    {rest : List V} (pending : table.left owner = value :: rest) :
    ∃ old, table.cells owner = some old ∧ rules.next old value ∧
      rules.key value = owner := by
  cases entry : table.cells owner with
  | none =>
      have nothing := sound.owned entry
      rw [pending] at nothing
      cases nothing
  | some old =>
      have ordered := sound.ordered entry
      rw [pending, List.pairwise_cons] at ordered
      have follows := ordered.1 value List.mem_cons_self
      exact ⟨old, rfl, follows,
        (rules.key_next follows).trans (sound.keyed entry)⟩

section Steps

variable [DecidableEq K]

theorem Sound.add (sound : Sound rules table) {value : V} {writes : List V}
    (admits : Admits rules table value writes) :
    Sound rules (table.add rules value writes) := by
  have cells : ∀ {key entry},
      (table.add rules value writes).cells key = some entry →
      key = rules.key value ∧ entry = value ∨
        key ≠ rules.key value ∧ table.cells key = some entry := by
    intro key entry
    rw [Table.cells_add]
    split
    · rename_i same
      exact fun isValue => Or.inl ⟨same, (Option.some.inj isValue).symm⟩
    · rename_i other
      exact fun isEntry => Or.inr ⟨other, isEntry⟩
  constructor
  · intro key entry member
    rcases cells member with ⟨rfl, rfl⟩ | ⟨-, before⟩
    · rfl
    · exact sound.keyed before
  · intro key
    rw [Table.cells_add, Table.left_add]
    split
    · exact fun isNone => nomatch isNone
    · exact sound.owned
  · intro key entry member
    rcases cells member with ⟨rfl, rfl⟩ | ⟨other, before⟩
    · rw [Table.left_add, if_pos rfl]
      exact admits.ordered
    · rw [Table.left_add, if_neg other]
      exact sound.ordered before
  · intro key other entry second first last active both group
    rcases cells first with ⟨rfl, rfl⟩ | ⟨_, before⟩
    · rcases cells last with ⟨rfl, -⟩ | ⟨_, later⟩
      · rfl
      · exact absurd group.symm (admits.clear other second later both)
    · rcases cells last with ⟨rfl, rfl⟩ | ⟨_, later⟩
      · exact absurd group (admits.clear key entry before active)
      · exact sound.exclusive before later active both group

theorem Sound.write (sound : Sound rules table) {owner : K} {value : V}
    {rest : List V} (pending : table.left owner = value :: rest) :
    Sound rules (table.write rules owner value rest) := by
  rcases sound.writing pending with ⟨old, entry, follows, rfl⟩
  -- Whatever is found was there before, in the same group and active.
  have cells : ∀ {key found},
      (table.write rules (rules.key value) value rest).cells key = some found →
      ∃ before, table.cells key = some before ∧
        rules.key found = rules.key before ∧
        rules.group found = rules.group before ∧
        (rules.active found → rules.active before) ∧
        (found :: (table.write rules (rules.key value) value rest).left key
          ).Pairwise rules.next := by
    intro key found
    rw [Table.cells_write, Table.left_write]
    split
    · rename_i same
      subst same
      rintro ⟨⟩
      have ordered := sound.ordered entry
      rw [pending, List.pairwise_cons] at ordered
      exact ⟨old, entry, rules.key_next follows, rules.group_next follows,
        fun _ => rules.active_next follows, ordered.2⟩
    · intro before
      exact ⟨found, before, rfl, rfl, id, sound.ordered before⟩
  constructor
  · intro key found member
    rcases cells member with ⟨before, there, sameKey, -⟩
    exact sameKey.trans (sound.keyed there)
  · intro key
    rw [Table.cells_write, Table.left_write]
    split
    · exact fun isNone => nomatch isNone
    · exact sound.owned
  · intro key found member
    rcases cells member with ⟨_, _, _, _, _, ordered⟩
    exact ordered
  · intro key other found second first last active both group
    rcases cells first with ⟨before, there, -, sameGroup, wasActive, -⟩
    rcases cells last with ⟨earlier, elsewhere, -, otherGroup, alsoActive, -⟩
    apply sound.exclusive there elsewhere (wasActive active)
      (alsoActive both)
    rw [← sameGroup, ← otherGroup, group]

/-- A step keeps a table sound. -/
theorem Sound.step (sound : Sound rules table)
    (step : Step rules table next) : Sound rules next := by
  cases step with
  | stay => exact sound
  | add value writes admits => exact sound.add admits
  | write owner value rest pending => exact sound.write pending

/-- A step lets every entry stay or be followed by another version. -/
theorem Sound.evolves (sound : Sound rules table)
    (step : Step rules table next) {key : K} {old : V}
    (entry : table.cells key = some old) :
    ∃ new, next.cells key = some new ∧ rules.Evolves old new := by
  cases step with
  | stay => exact ⟨old, entry, Or.inl rfl⟩
  | add value writes admits =>
      have other : key ≠ rules.key value := by
        rintro rfl
        rw [admits.fresh] at entry
        cases entry
      refine ⟨old, ?_, Or.inl rfl⟩
      rw [Table.cells_add, if_neg other]
      exact entry
  | write owner value rest pending =>
      rcases sound.writing pending with ⟨before, there, follows, rfl⟩
      by_cases same : key = rules.key value
      · subst same
        cases there.symm.trans entry
        refine ⟨value, ?_, Or.inr follows⟩
        rw [Table.cells_write, if_pos rfl]
      · refine ⟨old, ?_, Or.inl rfl⟩
        rw [Table.cells_write, if_neg same]
        exact entry

end Steps

end ChudMoney.Lib.Owners
