import ChudMoney.Lib.LevelLog
import ChudMoney.Lib.Upserts

/-!
# Event logs of several owners in one table

The rows of a table that keeps one row per key are entries of logs, one log for
each owner.  A write can take the key of a row that its own log or another one
still needs.  A frame that spares these rows keeps every log complete enough to
be replayed from the table.
-/

namespace ChudMoney.Lib.SharedLog

open ChudMoney.Lib.Ladder
open ChudMoney.Lib.LevelLog
open ChudMoney.Lib.Upserts

/-- How the rows of a table are read: rows of one key are at one level. -/
structure Reading (W S K N L Q : Type) where
  key : W → K
  owner : W → S
  entry : W → Entry N L Q
  keyed : ∀ one other, key one = key other →
    (entry one).level = (entry other).level

variable {W S K N L Q : Type} [DecidableEq S]

/-- The log of an owner in some rows. -/
def logOf (reading : Reading W S K N L Q) (owner : S) (rows : List W) :
    List (Entry N L Q) :=
  (rows.filter fun row => reading.owner row = owner).map reading.entry

theorem mem_logOf {reading : Reading W S K N L Q} {owner : S} {rows : List W}
    {entry : Entry N L Q} :
    entry ∈ logOf reading owner rows ↔
      ∃ row ∈ rows, reading.owner row = owner ∧ reading.entry row = entry := by
  simp [logOf, and_assoc]

/-- A frame adds its entries to the log of its owner. -/
theorem logOf_append_self {reading : Reading W S K N L Q} {owner : S}
    (writes : List W) {batch : List W}
    (owned : ∀ row ∈ batch, reading.owner row = owner) :
    logOf reading owner (writes ++ batch) =
      logOf reading owner writes ++ batch.map reading.entry := by
  have all : (batch.filter fun row => reading.owner row = owner) = batch :=
    List.filter_eq_self.mpr fun row member =>
      decide_eq_true (owned row member)
  rw [logOf, List.filter_append, List.map_append, all, logOf]

/-- A frame adds nothing to the log of another owner. -/
theorem logOf_append_of_ne {reading : Reading W S K N L Q} {owner other : S}
    (writes : List W) {batch : List W}
    (owned : ∀ row ∈ batch, reading.owner row = owner) (apart : other ≠ owner) :
    logOf reading other (writes ++ batch) = logOf reading other writes := by
  have none_ : (batch.filter fun row => reading.owner row = other) = [] :=
    List.filter_eq_nil_iff.mpr fun row member isOther =>
      apart ((of_decide_eq_true isOther).symm.trans (owned row member))
  rw [logOf, List.filter_append, none_, List.append_nil, logOf]

section Keys

variable [DecidableEq K]

/-- The stored rows whose keys a frame does not take. -/
def left (key : W → K) (writes batch : List W) : List W :=
  (store key writes).filter fun row => ∀ new ∈ batch, key new ≠ key row

theorem mem_left {key : W → K} {writes batch : List W} {row : W} :
    row ∈ left key writes batch ↔
      row ∈ store key writes ∧ ∀ new ∈ batch, key new ≠ key row := by
  simp [left]

theorem mem_store_append_iff {key : W → K} {writes batch : List W} {row : W} :
    row ∈ store key (writes ++ batch) ↔
      row ∈ store key batch ∨ row ∈ left key writes batch := by
  rw [mem_store_append, mem_left]

omit [DecidableEq S] in
/-- The last row at a level is stored. -/
theorem exists_stored_of_last [DecidableEq L]
    {reading : Reading W S K N L Q} {batch : List W} {level : L}
    {entry : Entry N L Q}
    (last : ((batch.map reading.entry).filter
      fun entry => entry.level = level).getLast? = some entry) :
    ∃ row ∈ store reading.key batch, reading.entry row = entry := by
  rcases List.getLast?_eq_some_iff.mp last with ⟨init, split⟩
  rcases List.filter_eq_append_iff.mp split with
    ⟨before, after, parts, -, isLast⟩
  rcases List.filter_eq_cons_iff.mp isLast with
    ⟨skipped, rest, rfl, -, at_, none_⟩
  rw [← List.append_assoc] at parts
  rcases List.map_eq_append_iff.mp parts with ⟨first, second, rfl, -, mapped⟩
  rcases List.map_eq_cons_iff.mp mapped with ⟨row, later, rfl, rfl, rfl⟩
  refine ⟨row, ?_, rfl⟩
  apply mem_store_of_last
  intro new member same
  have isLevel : (reading.entry new).level = level :=
    (reading.keyed new row same).trans (of_decide_eq_true at_)
  have listed : reading.entry new ∈ (later.map reading.entry).filter
      fun entry => entry.level = level :=
    List.mem_filter.mpr
      ⟨List.mem_map_of_mem member, decide_eq_true isLevel⟩
  rw [none_] at listed
  cases listed

/-- A batch leaves some row of its own. -/
theorem exists_stored {key : W → K} {batch : List W} (some_ : batch ≠ []) :
    ∃ row, row ∈ store key batch := by
  rw [← List.dropLast_append_getLast some_]
  exact ⟨_, mem_store_of_last _ [] _ (by simp)⟩

end Keys

/-! ## Frames that spare the logs -/

section Frames

variable [DecidableEq K] [LinearOrder N] [DecidableEq L]

/--
A frame of one owner that does no damage to a table: its own rows at a level
agree, and every other log keeps the last entry of each level.  Every log
keeps an entry of its latest whole frame as long as it has an older one.
-/
structure Spares (reading : Reading W S K N L Q) (writes batch : List W)
    (owner : S) (whole : Bool) : Prop where
  sizes : ∀ one ∈ store reading.key batch, ∀ other ∈ store reading.key batch,
    (reading.entry one).level = (reading.entry other).level →
      (reading.entry one).size = (reading.entry other).size
  lasts : ∀ row ∈ store reading.key writes, reading.owner row ≠ owner →
    lastAt (logOf reading (reading.owner row) writes)
        (reading.entry row).level = some (reading.entry row) →
      ∃ other ∈ left reading.key writes batch,
        reading.owner other = reading.owner row ∧
          reading.entry other = reading.entry row
  marks : ∀ row ∈ left reading.key writes batch,
    (reading.owner row = owner ∧ whole = true) ∨
      since (logOf reading (reading.owner row) writes)
          (reading.entry row) = true ∨
        ∃ mark ∈ left reading.key writes batch,
          reading.owner mark = reading.owner row ∧
            (reading.entry mark).whole = true ∧
              latest (logOf reading (reading.owner row) writes) =
                some (reading.entry mark).number

instance [DecidableEq Q] (reading : Reading W S K N L Q)
    (writes batch : List W) (owner : S) (whole : Bool) :
    Decidable (Spares reading writes batch owner whole) :=
  decidable_of_iff
    ((∀ one ∈ store reading.key batch, ∀ other ∈ store reading.key batch,
        (reading.entry one).level = (reading.entry other).level →
          (reading.entry one).size = (reading.entry other).size) ∧
      (∀ row ∈ store reading.key writes, reading.owner row ≠ owner →
        lastAt (logOf reading (reading.owner row) writes)
            (reading.entry row).level = some (reading.entry row) →
          ∃ other ∈ left reading.key writes batch,
            reading.owner other = reading.owner row ∧
              reading.entry other = reading.entry row) ∧
      ∀ row ∈ left reading.key writes batch,
        (reading.owner row = owner ∧ whole = true) ∨
          since (logOf reading (reading.owner row) writes)
              (reading.entry row) = true ∨
            ∃ mark ∈ left reading.key writes batch,
              reading.owner mark = reading.owner row ∧
                (reading.entry mark).whole = true ∧
                  latest (logOf reading (reading.owner row) writes) =
                    some (reading.entry mark).number)
    ⟨fun all => ⟨all.1, all.2.1, all.2.2⟩,
      fun spares => ⟨spares.sizes, spares.lasts, spares.marks⟩⟩

/-- The rows of one frame of an owner: all of one kind and number. -/
structure IsFrame (reading : Reading W S K N L Q) (batch : List W) (owner : S)
    (whole : Bool) (number : N) : Prop where
  nonempty : batch ≠ []
  owned : ∀ row ∈ batch, reading.owner row = owner
  framed : ∀ row ∈ batch, (reading.entry row).whole = whole ∧
    (reading.entry row).number = number

variable {reading : Reading W S K N L Q} {writes batch : List W}
  {owner other : S} {number : N} {whole : Bool} {row : W} {entry : Entry N L Q}
  {level : L}

omit [DecidableEq S] [DecidableEq K] [LinearOrder N] [DecidableEq L] in
theorem IsFrame.entries (frame : IsFrame reading batch owner whole number) :
    ∀ entry ∈ batch.map reading.entry,
      entry.whole = whole ∧ entry.number = number :=
  List.forall_mem_map.mpr frame.framed

omit [DecidableEq S] [DecidableEq K] [LinearOrder N] [DecidableEq L] in
theorem IsFrame.entries_ne_nil
    (frame : IsFrame reading batch owner whole number) :
    batch.map reading.entry ≠ [] := by
  simpa using frame.nonempty

omit [LinearOrder N] [DecidableEq L] in
/-- A row that is left was in its owner's log before. -/
theorem mem_logOf_of_left (isLeft : row ∈ left reading.key writes batch)
    (isOwner : reading.owner row = owner) :
    reading.entry row ∈ logOf reading owner (store reading.key writes) :=
  mem_logOf.mpr ⟨row, (mem_left.mp isLeft).1, isOwner, rfl⟩

omit [LinearOrder N] [DecidableEq L] in
/-- Another owner keeps what the frame leaves. -/
theorem IsFrame.mem_kept_of_ne
    (frame : IsFrame reading batch owner whole number) (apart : other ≠ owner) :
    entry ∈ logOf reading other (store reading.key (writes ++ batch)) ↔
      ∃ row ∈ left reading.key writes batch,
        reading.owner row = other ∧ reading.entry row = entry := by
  rw [mem_logOf]
  constructor
  · rintro ⟨row, isStored, isOther, rfl⟩
    rcases mem_store_append_iff.mp isStored with new | old
    · have isOwner := frame.owned row (mem_of_mem_store new)
      exact absurd (isOther.symm.trans isOwner) apart
    · exact ⟨row, old, isOther, rfl⟩
  · rintro ⟨row, old, isOther, rfl⟩
    exact ⟨row, mem_store_append_iff.mpr (Or.inr old), isOther, rfl⟩

omit [LinearOrder N] [DecidableEq L] in
/-- The frame's owner also keeps what the frame stores. -/
theorem IsFrame.mem_kept_self
    (frame : IsFrame reading batch owner whole number) :
    entry ∈ logOf reading owner (store reading.key (writes ++ batch)) ↔
      (∃ row ∈ store reading.key batch, reading.entry row = entry) ∨
        ∃ row ∈ left reading.key writes batch,
          reading.owner row = owner ∧ reading.entry row = entry := by
  rw [mem_logOf]
  constructor
  · rintro ⟨row, isStored, isOwner, rfl⟩
    rcases mem_store_append_iff.mp isStored with new | old
    · exact Or.inl ⟨row, new, rfl⟩
    · exact Or.inr ⟨row, old, isOwner, rfl⟩
  · rintro (⟨row, new, rfl⟩ | ⟨row, old, isOwner, rfl⟩)
    · exact ⟨row, mem_store_append_iff.mpr (Or.inl new),
        frame.owned row (mem_of_mem_store new), rfl⟩
    · exact ⟨row, mem_store_append_iff.mpr (Or.inr old), isOwner, rfl⟩

/-- The logs of the other owners stay complete enough. -/
theorem Spares.enough_of_ne (spares : Spares reading writes batch owner whole)
    (frame : IsFrame reading batch owner whole number) (apart : other ≠ owner)
    (enough : Enough (logOf reading other writes)
      (logOf reading other (store reading.key writes))) :
    Enough (logOf reading other (writes ++ batch))
      (logOf reading other (store reading.key (writes ++ batch))) := by
  rw [logOf_append_of_ne writes frame.owned apart]
  constructor
  · intro entry member
    rcases (frame.mem_kept_of_ne apart).mp member with
      ⟨row, isLeft, isOther, rfl⟩
    exact enough.logged _ (mem_logOf_of_left isLeft isOther)
  · intro level entry isLast
    rcases mem_logOf.mp (enough.last level entry isLast) with
      ⟨row, isStored, rfl, rfl⟩
    rcases mem_of_lastAt isLast with ⟨-, rfl, -⟩
    exact (frame.mem_kept_of_ne apart).mpr
      (spares.lasts row isStored apart isLast)
  · intro entry member
    rcases (frame.mem_kept_of_ne apart).mp member with ⟨row, isLeft, rfl, rfl⟩
    rcases spares.marks row isLeft with ⟨isOwner, -⟩ | young | marked
    · exact absurd isOwner apart
    · exact Or.inl young
    · rcases marked with ⟨mark, markLeft, isOther, marks⟩
      right
      refine ⟨reading.entry mark, ?_, marks⟩
      exact (frame.mem_kept_of_ne apart).mpr ⟨mark, markLeft, isOther, rfl⟩
  · intro one isOne two isTwo
    rcases (frame.mem_kept_of_ne apart).mp isOne with
      ⟨row, isLeft, isOther, rfl⟩
    rcases (frame.mem_kept_of_ne apart).mp isTwo with
      ⟨again, isLeftToo, isOtherToo, rfl⟩
    exact enough.alone _ (mem_logOf_of_left isLeft isOther) _
      (mem_logOf_of_left isLeftToo isOtherToo)

/-! ### The log of the frame's owner -/

/-- The last entry of each level is stored or left. -/
theorem IsFrame.last_kept (frame : IsFrame reading batch owner whole number)
    (later : ∀ entry ∈ logOf reading owner writes, entry.number < number)
    (enough : Enough (logOf reading owner writes)
      (logOf reading owner (store reading.key writes)))
    (isLast : lastAt
      (logOf reading owner writes ++ batch.map reading.entry) level =
        some entry) :
    entry ∈ logOf reading owner (store reading.key (writes ++ batch)) := by
  rw [lastAt_append frame.entries_ne_nil later frame.entries] at isLast
  apply frame.mem_kept_self.mpr
  rcases Option.or_eq_some_iff.mp isLast with new | ⟨none_, old⟩
  · exact Or.inl (exists_stored_of_last new)
  · have isLast : lastAt (logOf reading owner writes) level = some entry := by
      split at old
      · cases old
      · exact old
    rcases mem_logOf.mp (enough.last level entry isLast) with
      ⟨row, isStored, isOwner, rfl⟩
    refine Or.inr ⟨row, mem_left.mpr ⟨isStored, ?_⟩, isOwner, rfl⟩
    intro new member same
    have isLevel : (reading.entry new).level = level :=
      (reading.keyed new row same).trans (mem_of_lastAt isLast).2.1
    rw [List.getLast?_eq_none_iff, List.filter_eq_nil_iff] at none_
    exact none_ _ (List.mem_map_of_mem member) (decide_eq_true isLevel)

/-- An older entry is left only beside one of the latest whole frame. -/
theorem Spares.marked_self (spares : Spares reading writes batch owner whole)
    (frame : IsFrame reading batch owner whole number)
    (later : ∀ entry ∈ logOf reading owner writes, entry.number < number)
    (member : entry ∈
      logOf reading owner (store reading.key (writes ++ batch))) :
    since (logOf reading owner writes ++ batch.map reading.entry) entry =
        true ∨
      ∃ mark ∈ logOf reading owner (store reading.key (writes ++ batch)),
        mark.whole = true ∧
          latest (logOf reading owner writes ++ batch.map reading.entry) =
            some mark.number := by
  rw [since, latest_append frame.entries_ne_nil frame.entries]
  cases whole with
  | true =>
      right
      have isStored : ∃ mark, mark ∈ store reading.key batch :=
        exists_stored frame.nonempty
      rcases isStored with ⟨mark, new⟩
      rcases frame.framed mark (mem_of_mem_store new) with ⟨isWhole, same⟩
      refine ⟨_, frame.mem_kept_self.mpr (Or.inl ⟨mark, new, rfl⟩), isWhole, ?_⟩
      rw [same]
      rfl
  | false =>
      rcases frame.mem_kept_self.mp member with
        ⟨row, new, rfl⟩ | ⟨row, old, rfl, rfl⟩
      · left
        rw [(frame.framed row (mem_of_mem_store new)).2]
        cases isLatest : latest (logOf reading owner writes) with
        | none => rfl
        | some latest =>
            rcases exists_of_latest isLatest with ⟨before, isBefore, -, rfl⟩
            exact decide_eq_true (later before isBefore).le
      · rcases spares.marks row old with ⟨-, isWhole⟩ | young | marked
        · cases isWhole
        · exact Or.inl young
        · rcases marked with ⟨mark, isLeft, isOwner, marks⟩
          right
          refine ⟨reading.entry mark, ?_, marks⟩
          exact frame.mem_kept_self.mpr (Or.inr ⟨mark, isLeft, isOwner, rfl⟩)

/-- The log of the frame's owner stays complete enough. -/
theorem Spares.enough_self (spares : Spares reading writes batch owner whole)
    (frame : IsFrame reading batch owner whole number)
    (later : ∀ entry ∈ logOf reading owner writes, entry.number < number)
    (enough : Enough (logOf reading owner writes)
      (logOf reading owner (store reading.key writes))) :
    Enough (logOf reading owner (writes ++ batch))
      (logOf reading owner (store reading.key (writes ++ batch))) := by
  rw [logOf_append_self writes frame.owned]
  have older : ∀ row ∈ left reading.key writes batch,
      reading.owner row = owner → (reading.entry row).number < number :=
    fun row isLeft isOwner =>
      later _ (enough.logged _ (mem_logOf_of_left isLeft isOwner))
  have newer : ∀ row ∈ store reading.key batch,
      (reading.entry row).number = number :=
    fun row new => (frame.framed row (mem_of_mem_store new)).2
  constructor
  · intro entry member
    rcases frame.mem_kept_self.mp member with
      ⟨row, new, rfl⟩ | ⟨row, old, isOwner, rfl⟩
    · exact List.mem_append_right _
        (List.mem_map_of_mem (mem_of_mem_store new))
    · exact List.mem_append_left _
        (enough.logged _ (mem_logOf_of_left old isOwner))
  · exact fun level entry => frame.last_kept later enough
  · exact fun entry member => spares.marked_self frame later member
  · intro one isOne two isTwo sameNumber sameLevel
    rcases frame.mem_kept_self.mp isOne with
      ⟨row, new, rfl⟩ | ⟨row, old, isOwner, rfl⟩
    · rcases frame.mem_kept_self.mp isTwo with
        ⟨again, newToo, rfl⟩ | ⟨again, oldToo, isOwnerToo, rfl⟩
      · ext1
        · exact sameNumber
        · exact (frame.framed row (mem_of_mem_store new)).1.trans
            (frame.framed again (mem_of_mem_store newToo)).1.symm
        · exact sameLevel
        · exact spares.sizes row new again newToo sameLevel
      · rw [newer row new] at sameNumber
        exact absurd sameNumber.symm (older again oldToo isOwnerToo).ne
    · rcases frame.mem_kept_self.mp isTwo with
        ⟨again, newToo, rfl⟩ | ⟨again, oldToo, isOwnerToo, rfl⟩
      · rw [newer again newToo] at sameNumber
        exact absurd sameNumber (older row old isOwner).ne
      · exact enough.alone _ (mem_logOf_of_left old isOwner) _
          (mem_logOf_of_left oldToo isOwnerToo) sameNumber sameLevel

end Frames

/-! ## Ladders and logs -/

section Ladders

variable [DecidableEq K] [LinearOrder N] [DecidableEq L] [DecidableEq Q]
  [Zero Q]

/-- Every owner's ladder is the replay of its log, and the table has enough. -/
structure Sound (reading : Reading W S K N L Q) (writes : List W)
    (ladders : S → Depth L Q) : Prop where
  ordered : ∀ owner, Ordered (logOf reading owner writes)
  enough : ∀ owner, Enough (logOf reading owner writes)
    (logOf reading owner (store reading.key writes))
  ladder : ∀ owner, replay (logOf reading owner writes) = ladders owner

variable {reading : Reading W S K N L Q} {writes batch : List W}
  {ladders : S → Depth L Q} {owner : S} {number : N} {whole : Bool}

theorem sound_nil (reading : Reading W S K N L Q) :
    Sound reading [] fun _ => empty := by
  constructor
  · intro owner
    exact ⟨List.Pairwise.nil, by simp [logOf]⟩
  · intro owner
    constructor
    · intro entry member
      exact member
    · intro level entry isLast
      cases isLast
    · intro entry member
      cases member
    · intro entry member
      cases member
  · intro owner
    rfl

/-- A sparing frame keeps the table sound. -/
theorem Sound.append (sound : Sound reading writes ladders)
    (frame : IsFrame reading batch owner whole number)
    (later : ∀ entry ∈ logOf reading owner writes, entry.number < number)
    (spares : Spares reading writes batch owner whole) :
    Sound reading (writes ++ batch)
      (Function.update ladders owner
        (setAll (if whole then empty else ladders owner)
          (batch.map reading.entry))) := by
  constructor
  · intro other
    by_cases apart : other = owner
    · subst apart
      rw [logOf_append_self writes frame.owned]
      exact (sound.ordered other).append_frame later frame.entries
    · rw [logOf_append_of_ne writes frame.owned apart]
      exact sound.ordered other
  · intro other
    by_cases apart : other = owner
    · subst apart
      exact spares.enough_self frame later (sound.enough other)
    · exact spares.enough_of_ne frame apart (sound.enough other)
  · intro other
    by_cases apart : other = owner
    · subst apart
      rw [logOf_append_self writes frame.owned, Function.update_self,
        ← sound.ladder other]
      cases whole with
      | true =>
          apply replay_append_whole frame.entries_ne_nil frame.entries
          intro isLatest
          rcases exists_of_latest isLatest with ⟨entry, member, -, same⟩
          exact (later entry member).ne same
      | false =>
          exact replay_append_changes fun entry member =>
            (frame.entries entry member).1
    · rw [logOf_append_of_ne writes frame.owned apart,
        Function.update_of_ne apart]
      exact sound.ladder other

/-- The stored rows of an owner, in the order of their numbers. -/
theorem Sound.replays (sound : Sound reading writes ladders) {rows : List W}
    (stored : rows.Perm ((store reading.key writes).filter
      fun row => reading.owner row = owner))
    (sorted : rows.Pairwise fun first second =>
      (reading.entry first).number ≤ (reading.entry second).number) :
    replay (rows.map reading.entry) = ladders owner := by
  rw [← sound.ladder owner]
  have enough : Enough (logOf reading owner writes)
      (rows.map reading.entry) := by
    apply (sound.enough owner).congr
    intro entry
    exact (stored.map reading.entry).mem_iff
  apply enough.replay_eq (sound.ordered owner)
  exact List.pairwise_map.mpr sorted

end Ladders

end ChudMoney.Lib.SharedLog
