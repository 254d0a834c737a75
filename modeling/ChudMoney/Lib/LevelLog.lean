import ChudMoney.Lib.Ladder

/-!
# Event logs of levels that are set

An entry sets one level of a ladder, and a size of zero removes it.  The
entries of one number come from one frame, and the first entry of a whole frame
clears the ladder.  A log is replayed in the order of its numbers.

Some entries of a log are enough for its replay: the last one of each level
since the latest whole frame, and one of that frame where older ones are left.
-/

namespace ChudMoney.Lib.LevelLog

open ChudMoney.Lib.Ladder

/-- One level that a frame sets. -/
@[ext]
structure Entry (N L Q : Type) where
  number : N
  /-- Whether the frame replaces all levels. -/
  whole : Bool
  level : L
  size : Q
  deriving DecidableEq

variable {N L Q : Type}

/-- The number of the latest whole frame. -/
def latest (entries : List (Entry N L Q)) : Option N :=
  ((entries.filter Entry.whole).getLast?).map Entry.number

theorem latest_concat (entries : List (Entry N L Q)) (entry : Entry N L Q) :
    latest (entries ++ [entry]) =
      if entry.whole then some entry.number else latest entries := by
  cases whole : entry.whole <;> simp [latest, List.filter_append, whole]

/-- A number that is latest is that of some entry. -/
theorem exists_of_latest {entries : List (Entry N L Q)} {number : N}
    (isLatest : latest entries = some number) :
    ∃ entry ∈ entries, entry.whole = true ∧ entry.number = number := by
  rcases Option.map_eq_some_iff.mp isLatest with ⟨entry, last, rfl⟩
  rcases List.mem_filter.mp (List.mem_of_getLast? last) with ⟨member, whole⟩
  exact ⟨entry, member, whole, rfl⟩

/-- The latest whole frame after one more frame, all of one kind and number. -/
theorem latest_append {first second : List (Entry N L Q)} {number : N}
    {whole : Bool} (some_ : second ≠ [])
    (frame : ∀ entry ∈ second, entry.whole = whole ∧ entry.number = number) :
    latest (first ++ second) =
      if whole then some number else latest first := by
  induction second using List.reverseRecOn with
  | nil => exact absurd rfl some_
  | append_singleton second entry ih =>
      rcases frame entry (by simp) with ⟨isWhole, isNumber⟩
      rw [← List.append_assoc, latest_concat, isWhole, isNumber]
      cases second with
      | nil => rw [List.append_nil]
      | cons other second =>
          rw [ih (List.cons_ne_nil _ _) fun entry member =>
            frame entry (List.mem_append_left _ member)]
          split <;> rfl

/-! ## The last entries of the levels -/

section Order

variable [LinearOrder N]

/-- Entries in the order of their numbers, each number of one kind of frame. -/
structure Ordered (entries : List (Entry N L Q)) : Prop where
  sorted : entries.Pairwise fun first second => first.number ≤ second.number
  uniform : ∀ first ∈ entries, ∀ second ∈ entries,
    first.number = second.number → first.whole = second.whole

variable {entries : List (Entry N L Q)} {entry : Entry N L Q}

theorem Ordered.append_left {first second : List (Entry N L Q)}
    (ordered : Ordered (first ++ second)) : Ordered first := by
  constructor
  · exact (List.pairwise_append.mp ordered.sorted).1
  · intro one isOne other isOther
    exact ordered.uniform one (List.mem_append_left _ isOne) other
      (List.mem_append_left _ isOther)

/-- A later frame keeps the order. -/
theorem Ordered.append_frame (ordered : Ordered entries)
    {frame : List (Entry N L Q)} {number : N} {whole : Bool}
    (later : ∀ entry ∈ entries, entry.number < number)
    (uniform : ∀ entry ∈ frame, entry.whole = whole ∧ entry.number = number) :
    Ordered (entries ++ frame) := by
  constructor
  · apply List.pairwise_append.mpr
    refine ⟨ordered.sorted, ?_, ?_⟩
    · apply List.pairwise_of_forall_mem_list
      intro one isOne other isOther
      rw [(uniform one isOne).2, (uniform other isOther).2]
    · intro one isOne other isOther
      rw [(uniform other isOther).2]
      exact (later one isOne).le
  · intro one isOne other isOther same
    rcases List.mem_append.mp isOne with old | new
    · rcases List.mem_append.mp isOther with oldToo | newToo
      · exact ordered.uniform one old other oldToo same
      · rw [(uniform other newToo).2] at same
        exact absurd same (later one old).ne
    · rcases List.mem_append.mp isOther with oldToo | newToo
      · rw [(uniform one new).2] at same
        exact absurd same.symm (later other oldToo).ne
      · rw [(uniform one new).1, (uniform other newToo).1]

/-- In order, no whole frame is later than the latest one. -/
theorem Ordered.le_latest (ordered : Ordered entries) (member : entry ∈ entries)
    (whole : entry.whole = true) :
    ∃ number, latest entries = some number ∧ entry.number ≤ number := by
  induction entries using List.reverseRecOn with
  | nil => exact absurd member List.not_mem_nil
  | append_singleton entries last ih =>
      have before := (List.pairwise_append.mp ordered.sorted).2.2
      rw [latest_concat]
      rcases List.mem_append.mp member with earlier | isLast
      · split
        · exact ⟨last.number, rfl,
            before entry earlier last (List.mem_singleton_self _)⟩
        · exact ih ordered.append_left earlier
      · rw [List.mem_singleton.mp isLast] at whole ⊢
        rw [if_pos whole]
        exact ⟨last.number, rfl, le_rfl⟩

/-- The entry is no older than the latest whole frame. -/
def since (entries : List (Entry N L Q)) (entry : Entry N L Q) : Bool :=
  (latest entries).all fun number => number ≤ entry.number

theorem since_of_latest {number : N} (isLatest : latest entries = some number) :
    since entries entry = true ↔ number ≤ entry.number := by
  simp [since, isLatest]

variable [DecidableEq L] {level : L}

/-- The entry that a level was set by last, since the latest whole frame. -/
def lastAt (entries : List (Entry N L Q)) (level : L) :
    Option (Entry N L Q) :=
  (entries.filter fun entry =>
    entry.level = level && since entries entry).getLast?

theorem mem_of_lastAt (isLast : lastAt entries level = some entry) :
    entry ∈ entries ∧ entry.level = level ∧ since entries entry = true := by
  have member := List.mem_filter.mp (List.mem_of_getLast? isLast)
  rw [Bool.and_eq_true, decide_eq_true_iff] at member
  exact member

/-- A level has a last entry when it has one since the latest whole frame. -/
theorem exists_lastAt (member : entry ∈ entries) (at_ : entry.level = level)
    (young : since entries entry = true) :
    ∃ last, lastAt entries level = some last := by
  have listed : entry ∈ entries.filter fun entry =>
      entry.level = level && since entries entry :=
    List.mem_filter.mpr ⟨member, by simp [at_, young]⟩
  exact Option.isSome_iff_exists.mp
    (List.getLast?_isSome.mpr (List.ne_nil_of_mem listed))

/-- No entry of a level since the latest whole frame is after the last. -/
theorem Ordered.le_lastAt (ordered : Ordered entries) {last : Entry N L Q}
    (isLast : lastAt entries level = some last) (member : entry ∈ entries)
    (at_ : entry.level = level) (young : since entries entry = true) :
    entry.number ≤ last.number := by
  have listed : entry ∈ entries.filter fun entry =>
      entry.level = level && since entries entry :=
    List.mem_filter.mpr ⟨member, by simp [at_, young]⟩
  have sorted := ordered.sorted.sublist
    (List.filter_sublist (l := entries) (p := fun entry =>
      entry.level = level && since entries entry))
  rcases List.getLast?_eq_some_iff.mp isLast with ⟨init, split⟩
  rw [split] at listed sorted
  rcases List.mem_append.mp listed with earlier | same
  · exact (List.pairwise_append.mp sorted).2.2 entry earlier last
      (List.mem_singleton_self _)
  · exact (congrArg Entry.number (List.mem_singleton.mp same)).le

/-- The last entry of a level after one more frame, all of one kind. -/
theorem lastAt_append {first second : List (Entry N L Q)} {number : N}
    {whole : Bool} (some_ : second ≠ [])
    (later : ∀ entry ∈ first, entry.number < number)
    (frame : ∀ entry ∈ second, entry.whole = whole ∧ entry.number = number) :
    lastAt (first ++ second) level =
      ((second.filter fun entry => entry.level = level).getLast?).or
        (if whole then none else lastAt first level) := by
  have young : ∀ entry ∈ second, since (first ++ second) entry = true := by
    intro entry member
    rw [since, latest_append some_ frame, (frame entry member).2]
    cases whole with
    | true => simp
    | false =>
        cases isLatest : latest first with
        | none => simp
        | some latest =>
            rcases exists_of_latest isLatest with ⟨other, isOther, -, rfl⟩
            simpa using (later other isOther).le
  have new : (second.filter fun entry =>
      entry.level = level && since (first ++ second) entry) =
        second.filter fun entry => entry.level = level := by
    apply List.filter_congr
    intro entry member
    rw [young entry member, Bool.and_true]
  have old : (first.filter fun entry =>
      entry.level = level && since (first ++ second) entry).getLast? =
        if whole then none else lastAt first level := by
    cases whole with
    | true =>
        rw [if_pos rfl, List.getLast?_eq_none_iff, List.filter_eq_nil_iff]
        intro entry member
        simp [since, latest_append some_ frame, later entry member]
    | false =>
        rw [if_neg Bool.false_ne_true, lastAt]
        simp only [since, latest_append some_ frame, Bool.false_eq_true,
          if_false]
  rw [lastAt, List.filter_append, List.getLast?_append, new, old]

/-! ## Enough of a log -/

/--
Some entries of a log are enough for its replay: the last one of each level,
and one of the latest whole frame where an older one is left.
-/
structure Enough (log kept : List (Entry N L Q)) : Prop where
  logged : ∀ entry ∈ kept, entry ∈ log
  last : ∀ level, ∀ entry ∈ lastAt log level, entry ∈ kept
  marked : ∀ entry ∈ kept, since log entry = true ∨
    ∃ mark ∈ kept, mark.whole = true ∧ latest log = some mark.number
  alone : ∀ one ∈ kept, ∀ other ∈ kept, one.number = other.number →
    one.level = other.level → one = other

variable {log kept : List (Entry N L Q)}

theorem Enough.congr (enough : Enough log kept) {others : List (Entry N L Q)}
    (same : ∀ entry, entry ∈ others ↔ entry ∈ kept) : Enough log others := by
  constructor
  · exact fun entry member => enough.logged entry ((same entry).mp member)
  · exact fun level entry isLast =>
      (same entry).mpr (enough.last level entry isLast)
  · intro entry member
    rcases enough.marked entry ((same entry).mp member) with young | marked
    · exact Or.inl young
    · rcases marked with ⟨mark, isKept, marks⟩
      exact Or.inr ⟨mark, (same mark).mpr isKept, marks⟩
  · exact fun one isOne other isOther =>
      enough.alone one ((same one).mp isOne) other ((same other).mp isOther)

/-- What is kept tells its young entries as the log does. -/
theorem Enough.since_eq (enough : Enough log kept) (ordered : Ordered log)
    (sorted : Ordered kept) (member : entry ∈ kept) :
    since kept entry = since log entry := by
  by_cases marked : ∃ mark ∈ kept, mark.whole = true ∧
      latest log = some mark.number
  · rcases marked with ⟨mark, isKept, whole, isLatest⟩
    rcases sorted.le_latest isKept whole with ⟨number, found, above⟩
    rcases exists_of_latest found with ⟨other, isOther, otherWhole, rfl⟩
    rcases ordered.le_latest (enough.logged other isOther) otherWhole with
      ⟨number, isLast, below⟩
    cases isLatest.symm.trans isLast
    rw [since, since, isLatest, found, le_antisymm below above]
  · have young : ∀ other ∈ kept, since log other = true := fun other isKept =>
      (enough.marked other isKept).resolve_right marked
    rw [young entry member, since]
    cases found : latest kept with
    | none => rfl
    | some number =>
        rcases exists_of_latest found with ⟨other, isOther, whole, rfl⟩
        rcases ordered.le_latest (enough.logged other isOther) whole with
          ⟨number, isLatest, below⟩
        have above := (since_of_latest isLatest).mp (young other isOther)
        exact absurd ⟨other, isOther, whole,
          isLatest.trans (congrArg some (le_antisymm above below))⟩ marked

end Order

/-! ## Replaying -/

section Replay

variable [LinearOrder N] [DecidableEq L] [DecidableEq Q] [Zero Q]

/-- A size as a level: absent if it is zero. -/
def resting (size : Q) : Option Q :=
  if size = 0 then none else some size

/-- Set one level. -/
def set (ladder : Depth L Q) (level : L × Q) : Depth L Q :=
  Function.update ladder level.1 (resting level.2)

/-- The number of the latest whole frame, and the ladder. -/
def apply (state : Option N × Depth L Q) (entry : Entry N L Q) :
    Option N × Depth L Q :=
  if entry.whole then
    (some entry.number,
      set (if state.1 = some entry.number then state.2 else empty)
        (entry.level, entry.size))
  else (state.1, set state.2 (entry.level, entry.size))

def replay (entries : List (Entry N L Q)) : Depth L Q :=
  (entries.foldl apply (none, empty)).2

variable {entries : List (Entry N L Q)} {entry : Entry N L Q} {level : L}

theorem foldl_apply_fst (entries : List (Entry N L Q)) :
    (entries.foldl apply (none, empty)).1 = latest entries := by
  induction entries using List.reverseRecOn with
  | nil => rfl
  | append_singleton entries entry ih =>
      rw [List.foldl_append, latest_concat, ← ih]
      simp only [List.foldl_cons, List.foldl_nil, apply]
      split <;> rfl

/-- Setting the levels of some entries. -/
def setAll (ladder : Depth L Q) (entries : List (Entry N L Q)) : Depth L Q :=
  (entries.map fun entry => (entry.level, entry.size)).foldl set ladder

/-- The entries of a frame that is not whole change the ladder. -/
theorem replay_append_changes {first second : List (Entry N L Q)}
    (changes : ∀ entry ∈ second, entry.whole = false) :
    replay (first ++ second) = setAll (replay first) second := by
  rw [replay, List.foldl_append, replay]
  generalize first.foldl apply (none, empty) = state
  induction second generalizing state with
  | nil => rfl
  | cons entry second ih =>
      rw [List.foldl_cons, apply, changes entry List.mem_cons_self,
        if_neg Bool.false_ne_true,
        ih fun other member => changes other (List.mem_cons_of_mem _ member)]
      rfl

/-- The entries of a whole frame make a new ladder. -/
theorem replay_append_whole {first second : List (Entry N L Q)} {number : N}
    (some_ : second ≠ [])
    (whole : ∀ entry ∈ second, entry.whole = true ∧ entry.number = number)
    (new : latest first ≠ some number) :
    replay (first ++ second) = setAll empty second := by
  have goes : ∀ (rest : List (Entry N L Q)) (ladder : Depth L Q),
      (∀ entry ∈ rest, entry.whole = true ∧ entry.number = number) →
        (rest.foldl apply (some number, ladder)).2 = setAll ladder rest := by
    intro rest
    induction rest with
    | nil => exact fun ladder _ => rfl
    | cons entry rest ih =>
        intro ladder whole
        rcases whole entry List.mem_cons_self with ⟨isWhole, rfl⟩
        rw [List.foldl_cons, apply, if_pos isWhole, if_pos rfl,
          ih _ fun other member => whole other (List.mem_cons_of_mem _ member)]
        rfl
  rw [replay, List.foldl_append]
  have before := foldl_apply_fst first
  generalize first.foldl apply (none, empty) = state at before
  cases second with
  | nil => exact absurd rfl some_
  | cons entry second =>
      rcases whole entry List.mem_cons_self with ⟨isWhole, rfl⟩
      rw [List.foldl_cons, apply, if_pos isWhole, before, if_neg new,
        goes second _ fun other member =>
          whole other (List.mem_cons_of_mem _ member)]
      rfl

theorem replay_concat :
    replay (entries ++ [entry]) level =
      if entry.level = level then resting entry.size
      else if entry.whole ∧ latest entries ≠ some entry.number then none
      else replay entries level := by
  rw [replay, List.foldl_append, List.foldl_cons, List.foldl_nil, apply,
    foldl_apply_fst]
  by_cases same : entry.level = level
  · subst same
    split <;> simp [set]
  · cases whole : entry.whole
    · simp [set, Function.update_of_ne (Ne.symm same), same, replay]
    · by_cases goes : latest entries = some entry.number
      · simp [set, Function.update_of_ne (Ne.symm same), same, goes, replay]
      · simp [set, Function.update_of_ne (Ne.symm same), same, goes, empty]

omit [DecidableEq Q] [Zero Q] in
/-- An entry that is in order is the last of its level. -/
theorem Ordered.lastAt_concat (ordered : Ordered (entries ++ [entry])) :
    lastAt (entries ++ [entry]) level =
      if entry.level = level then some entry
      else if entry.whole ∧ latest entries ≠ some entry.number then none
      else lastAt entries level := by
  have before : ∀ other ∈ entries, other.number ≤ entry.number :=
    fun other member => (List.pairwise_append.mp ordered.sorted).2.2 other
      member entry (List.mem_singleton_self _)
  by_cases same : entry.level = level
  · have young : since (entries ++ [entry]) entry = true := by
      rw [since, latest_concat]
      split
      · simp
      · cases isLatest : latest entries with
        | none => rfl
        | some number =>
            rcases exists_of_latest isLatest with ⟨other, member, -, rfl⟩
            simpa using before other member
    rw [if_pos same, lastAt, List.filter_append]
    simp [same, young]
  · have old : lastAt (entries ++ [entry]) level =
        (entries.filter fun other => other.level = level &&
          since (entries ++ [entry]) other).getLast? := by
      rw [lastAt, List.filter_append]
      simp [same]
    rw [if_neg same, old]
    split
    next clears =>
      rw [List.getLast?_eq_none_iff, List.filter_eq_nil_iff]
      intro other member goes
      rw [Bool.and_eq_true, since_of_latest
        ((latest_concat entries entry).trans (if_pos clears.1))] at goes
      have level := le_antisymm (before other member) goes.2
      have whole : other.whole = true :=
        (ordered.uniform other (List.mem_append_left _ member) entry
          (List.mem_append_right _ (List.mem_singleton_self _)) level).trans
          clears.1
      rcases ordered.append_left.le_latest member whole with
        ⟨number, isLatest, above⟩
      rcases exists_of_latest isLatest with ⟨last, isLast, -, rfl⟩
      apply clears.2
      rw [isLatest, le_antisymm (before last isLast) (level ▸ above)]
    next stays =>
      have kept : latest (entries ++ [entry]) = latest entries := by
        rw [latest_concat]
        split
        next whole =>
          by_contra other
          exact stays ⟨whole, fun isLatest => other isLatest.symm⟩
        next => rfl
      rw [lastAt]
      simp only [since, kept]

/-- In order, the replay holds the last entry of each level. -/
theorem Ordered.replay_apply (ordered : Ordered entries) (level : L) :
    replay entries level =
      (lastAt entries level).bind fun entry => resting entry.size := by
  induction entries using List.reverseRecOn with
  | nil => rfl
  | append_singleton entries entry ih =>
      rw [replay_concat, ordered.lastAt_concat, ih ordered.append_left]
      split
      · rfl
      · split <;> rfl

/-- The last entry of every level removes it. -/
def Bare (entries : List (Entry N L Q)) : Prop :=
  ∀ entry ∈ entries, ∀ last ∈ lastAt entries entry.level, last.size = 0

instance (entries : List (Entry N L Q)) : Decidable (Bare entries) :=
  inferInstanceAs (Decidable (∀ entry ∈ entries,
    ∀ last ∈ lastAt entries entry.level, last.size = 0))

/-- A log of which no level is left replays to the empty ladder. -/
theorem Ordered.replay_eq_empty (ordered : Ordered entries)
    (bare : Bare entries) : replay entries = empty := by
  ext1 level
  rw [ordered.replay_apply]
  cases isLast : lastAt entries level with
  | none => rfl
  | some last =>
      rcases mem_of_lastAt isLast with ⟨member, rfl, -⟩
      exact if_pos (bare last member last isLast)

/-- Enough entries of a log, in order, replay as the log. -/
theorem Enough.replay_eq {log kept : List (Entry N L Q)}
    (enough : Enough log kept) (ordered : Ordered log)
    (sorted : kept.Pairwise fun first second => first.number ≤ second.number) :
    replay kept = replay log := by
  have sorted : Ordered kept := by
    refine ⟨sorted, ?_⟩
    intro one isOne other isOther
    exact ordered.uniform one (enough.logged one isOne) other
      (enough.logged other isOther)
  ext1 level
  rw [ordered.replay_apply, sorted.replay_apply]
  congr 1
  cases isLast : lastAt log level with
  | none =>
      cases found : lastAt kept level with
      | none => rfl
      | some other =>
          rcases mem_of_lastAt found with ⟨isKept, at_, young⟩
          rw [enough.since_eq ordered sorted isKept] at young
          rcases exists_lastAt (enough.logged other isKept) at_ young with
            ⟨last, isSome⟩
          cases isLast.symm.trans isSome
  | some last =>
      have isKept := enough.last level last isLast
      rcases mem_of_lastAt isLast with ⟨-, at_, young⟩
      rw [← enough.since_eq ordered sorted isKept] at young
      rcases exists_lastAt isKept at_ young with ⟨other, found⟩
      rcases mem_of_lastAt found with ⟨isOther, otherAt, otherYoung⟩
      rw [enough.since_eq ordered sorted isOther] at otherYoung
      have above := sorted.le_lastAt found isKept at_ young
      have below := ordered.le_lastAt isLast (enough.logged other isOther)
        otherAt otherYoung
      rw [found, enough.alone other isOther last isKept
        (le_antisymm below above) (otherAt.trans at_.symm)]

end Replay

end ChudMoney.Lib.LevelLog
