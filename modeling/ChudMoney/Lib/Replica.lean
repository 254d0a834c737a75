import Mathlib

/-!
# Joining a numbered stream of changes by a copy

A source keeps a value and a number per key.  It publishes numbered frames that
replace or change the value of one key, and it may forget keys without a frame.
A replica that started to listen at some point, took a copy of the source
later and then handles all it heard, skipping changes numbered no higher than
its value, holds the values of the source from the copy on.

The numbers of one key may start again after the source forgot the key.  What
makes the overlap of copy and stream harmless is `Covered`: what was heard of
a key either says nothing beyond the copy or replaces the value altogether.
-/

namespace ChudMoney.Lib.Replica

variable {K B C N : Type}

/-- What a frame does to the value of its key. -/
inductive Payload (B C : Type) where
  | whole (value : B)
  | change (delta : C)

structure Frame (K B C N : Type) where
  key : K
  number : N
  payload : Payload B C

/-- The numbered value of each key that has one. -/
abbrev Store (K B N : Type) := K → Option (N × B)

variable [DecidableEq K] [LinearOrder N] (apply : B → C → B)

/-- The source handles its own frame; a change of no value is ignored. -/
def publish (store : Store K B N) (frame : Frame K B C N) : Store K B N :=
  Function.update store frame.key
    (match frame.payload with
      | .whole value => some (frame.number, value)
      | .change delta =>
          (store frame.key).map fun held =>
            (frame.number, apply held.2 delta))

/-- A replica handles a frame; it skips a change it has seen. -/
def receive (store : Store K B N) (frame : Frame K B C N) : Store K B N :=
  Function.update store frame.key
    (match frame.payload with
      | .whole value => some (frame.number, value)
      | .change delta =>
          (store frame.key).map fun held =>
            if frame.number ≤ held.1 then held
            else (frame.number, apply held.2 delta))

/-- Every value of the source is held by the replica. -/
def Holds (source replica : Store K B N) : Prop :=
  ∀ key value, source key = some value → replica key = some value

/-- A frame is numbered above every value of the source. -/
def Newer (source : Store K B N) (frame : Frame K B C N) : Prop :=
  ∀ key value, source key = some value → value.1 < frame.number

/--
What a replica heard of a key before its copy: changes numbered no higher than
the value to be copied, or frames that make that value of any copy.
-/
def Covered (heard : List (Frame K B C N)) (key : K) (value : N × B) : Prop :=
  (∀ frame ∈ heard, frame.key = key →
    ∃ delta, frame.payload = .change delta ∧ frame.number ≤ value.1) ∨
  ∀ copy, heard.foldl (receive apply) copy key = some value

variable {apply} {source replica : Store K B N} {frame : Frame K B C N}

omit [LinearOrder N] in
theorem publish_of_ne {key : K} (other : key ≠ frame.key) :
    publish apply source frame key = source key :=
  Function.update_of_ne other _ _

theorem receive_of_ne {key : K} (other : key ≠ frame.key) :
    receive apply replica frame key = replica key :=
  Function.update_of_ne other _ _

/-- A frame newer than the value it meets acts on both sides alike. -/
theorem receive_of_publish (newer : Newer source frame)
    (held : ∀ value, source frame.key = some value →
      replica frame.key = some value) {value : N × B}
    (published : publish apply source frame frame.key = some value) :
    receive apply replica frame frame.key = some value := by
  rw [publish, Function.update_self] at published
  rw [receive, Function.update_self]
  cases payload : frame.payload with
  | whole whole => simpa only [payload] using published
  | change delta =>
      simp only [payload, Option.map_eq_some_iff] at published ⊢
      rcases published with ⟨before, isBefore, rfl⟩
      refine ⟨before, held before isBefore, ?_⟩
      rw [if_neg (not_le.mpr (newer frame.key before isBefore))]

/-! ## After the copy -/

/-- A replica that holds the source goes on to hold it. -/
theorem Holds.after_publish (holds : Holds source replica)
    (newer : Newer source frame) :
    Holds (publish apply source frame) (receive apply replica frame) := by
  intro key value published
  by_cases same : key = frame.key
  · subst same
    exact receive_of_publish newer (holds frame.key) published
  · rw [publish_of_ne same] at published
    rw [receive_of_ne same]
    exact holds key value published

omit [DecidableEq K] [LinearOrder N] in
/-- Forgetting keys asks nothing of the replica. -/
theorem Holds.forget {fewer : Store K B N} (holds : Holds source replica)
    (forgets : ∀ key, fewer key = none ∨ fewer key = source key) :
    Holds fewer replica := by
  intro key value kept
  rcases forgets key with gone | same
  · rw [gone] at kept
    cases kept
  · exact holds key value (same ▸ kept)

/-! ## Before the copy -/

omit [LinearOrder N] in
/-- A frame that gives its key a value is not a change of none. -/
theorem exists_of_publish_change {delta : C} {value : N × B}
    (payload : frame.payload = .change delta)
    (published : publish apply source frame frame.key = some value) :
    ∃ before, source frame.key = some before ∧
      value = (frame.number, apply before.2 delta) := by
  rw [publish, Function.update_self, payload] at published
  simp only [Option.map_eq_some_iff] at published
  rcases published with ⟨before, isBefore, rfl⟩
  exact ⟨before, isBefore, rfl⟩

/-- What was heard of a key covers its value also after the next frame. -/
theorem Covered.after_publish {heard : List (Frame K B C N)} {key : K}
    {value : N × B} (newer : Newer source frame)
    (covered : ∀ value, source key = some value →
      Covered apply heard key value)
    (published : publish apply source frame key = some value) :
    Covered apply (heard ++ [frame]) key value := by
  by_cases same : key = frame.key
  · subst same
    cases payload : frame.payload with
    | whole whole =>
        right
        intro copy
        rw [publish, Function.update_self, payload] at published
        rw [List.foldl_append, List.foldl_cons, List.foldl_nil, receive,
          Function.update_self, payload]
        exact published
    | change delta =>
        rcases exists_of_publish_change payload published with
          ⟨before, isBefore, rfl⟩
        have below := newer frame.key before isBefore
        rcases covered before isBefore with quiet | told
        · left
          intro other member about
          rcases List.mem_append.mp member with old | new
          · rcases quiet other old about with ⟨delta, change, le⟩
            exact ⟨delta, change, le_trans le (le_of_lt below)⟩
          · rw [List.mem_singleton.mp new]
            exact ⟨delta, payload, le_rfl⟩
        · right
          intro copy
          rw [List.foldl_append]
          apply receive_of_publish newer ?_ published
          intro value isValue
          rw [isBefore] at isValue
          cases isValue
          exact told copy
  · rw [publish_of_ne same] at published
    rcases covered value published with quiet | told
    · left
      intro other member about
      rcases List.mem_append.mp member with old | new
      · exact quiet other old about
      · rw [List.mem_singleton.mp new] at about
        exact absurd about.symm same
    · right
      intro copy
      rw [List.foldl_append]
      exact (receive_of_ne same).trans (told copy)

/-- Changes that a copy is ahead of leave it alone. -/
theorem foldl_receive_of_quiet {heard : List (Frame K B C N)} {key : K}
    {value : N × B}
    (quiet : ∀ frame ∈ heard, frame.key = key →
      ∃ delta, frame.payload = .change delta ∧ frame.number ≤ value.1)
    {copy : Store K B N} (copied : copy key = some value) :
    heard.foldl (receive apply) copy key = some value := by
  induction heard generalizing copy with
  | nil => exact copied
  | cons frame heard ih =>
      apply ih fun other member => quiet other (List.mem_cons_of_mem _ member)
      by_cases same : key = frame.key
      · subst same
        rcases quiet frame List.mem_cons_self rfl with ⟨delta, payload, le⟩
        rw [receive, Function.update_self, payload, copied]
        simp only [Option.map_some, if_pos le]
      · rw [receive_of_ne same]
        exact copied

/-- A covered copy, taken through all that was heard, is the source's value. -/
theorem holds_of_covered {heard : List (Frame K B C N)}
    (covered : ∀ key value, source key = some value →
      Covered apply heard key value) :
    Holds source (heard.foldl (receive apply) source) := by
  intro key value held
  rcases covered key value held with quiet | told
  · exact foldl_receive_of_quiet quiet held
  · exact told source

end ChudMoney.Lib.Replica
