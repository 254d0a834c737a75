import ChudMoney.Db.IlpWriter

/-!
# Batches are cut from the channel

A batch is its first row and the next rows of the channel.  It is short only
if the look that ended it found the channel empty, with every sender gone or
the deadline reached on the clock that is read next, so that every row that had
arrived by that look is in it.  A row that comes between a look and the clock
is met by the next look, so a batch can end with a row in the channel all the
time from the deadline on.

The writer sleeps after a look that finds nothing.  A clock that lets a sleep
last as long as asked brings a batch to its end after finitely many looks.
-/

namespace ChudMoney.Db.Batches

open ChudMoney.Db.IlpWriter

variable {Row : Type}

/-! ## The rows of a batch -/

/-- The look that ends a short batch, and the rows that had arrived by then. -/
structure Drained (deadline : Nat) (before : Receiver Row) (taken : List Row)
    (after : Receiver Row) (looks : List (Poll Row)) (last : Poll Row) :
    Prop where
  polls : before.polls = looks ++ last :: after.polls
  taken : taken = before.queue ++ arrivals (looks ++ [last])
  queue : after.queue = []
  ended : deadline ≤ last.now ∨ last.closed = true

/-- The first row of each look came after the look before it, no later than it. -/
def Timed : Nat → List (Poll Row) → Prop
  | _, [] => True
  | looked, poll :: polls =>
      (poll.arrived ≠ [] → looked < poll.came ∧ poll.came ≤ poll.looked) ∧
        Timed poll.looked polls

/-- Up to the next look, the channel holds what has come by an instant. -/
def EmptyAt (rx : Receiver Row) (instant : Nat) : Prop :=
  rx.queue = [] ∧
    ∀ poll ∈ rx.polls.head?, poll.arrived ≠ [] → instant < poll.came

/-- What a batch begun with `first` takes from the channel. -/
structure Collected (deadline : Nat) (first : Row) (before : Receiver Row)
    (batch : List Row) (after : Receiver Row) : Prop where
  rows : ∃ taken, batch = first :: taken ∧
    before.pending = taken ++ after.pending
  capped : batch.length ≤ ilpBatch
  short : batch.length < ilpBatch → ∃ taken looks last,
    batch = first :: taken ∧
      Drained deadline before taken after looks last ∧
      ∀ looked, Timed looked before.polls → EmptyAt after last.looked

theorem arrivals_cons (poll : Poll Row) (polls : List (Poll Row)) :
    arrivals (poll :: polls) = poll.arrived ++ arrivals polls :=
  List.flatMap_cons

/-- A look that ends a batch where it stands. -/
theorem drained_of_error {deadline : Nat} {queue rest : List Row}
    {poll : Poll Row} {polls : List (Poll Row)} {error : TryRecvError}
    (look : tryRecv queue poll = (.error error, rest))
    (ended : deadline ≤ poll.now ∨ poll.closed = true) :
    Drained deadline ⟨queue, poll :: polls⟩ [] ⟨rest, polls⟩ [] poll := by
  rcases tryRecv_error look with ⟨nothing, rfl, -⟩
  constructor
  · rfl
  · show [] = queue ++ (poll.arrived ++ [])
    rw [List.append_nil, nothing]
  · rfl
  · exact ended

/-- A look before the last one that finds a row. -/
theorem Drained.after_row {deadline : Nat} {queue rest taken : List Row}
    {poll last : Poll Row} {polls looks : List (Poll Row)} {row : Row}
    {after : Receiver Row} (look : tryRecv queue poll = (.ok row, rest))
    (drained : Drained deadline ⟨rest, polls⟩ taken after looks last) :
    Drained deadline ⟨queue, poll :: polls⟩ (row :: taken) after
      (poll :: looks) last := by
  constructor
  · exact congrArg (poll :: ·) drained.polls
  · rw [drained.taken, List.cons_append, arrivals_cons, ← List.append_assoc,
      tryRecv_ok look, List.cons_append]
  · exact drained.queue
  · exact drained.ended

/-- A look before the last one that finds nothing. -/
theorem Drained.after_error {deadline : Nat} {queue rest taken : List Row}
    {poll last : Poll Row} {polls looks : List (Poll Row)}
    {error : TryRecvError} {after : Receiver Row}
    (look : tryRecv queue poll = (.error error, rest))
    (drained : Drained deadline ⟨rest, polls⟩ taken after looks last) :
    Drained deadline ⟨queue, poll :: polls⟩ taken after (poll :: looks)
      last := by
  rcases tryRecv_error look with ⟨nothing, rfl, -⟩
  constructor
  · exact congrArg (poll :: ·) drained.polls
  · rw [drained.taken, List.cons_append, arrivals_cons, ← List.append_assoc,
      nothing]
  · exact drained.queue
  · exact drained.ended

theorem timed_of_append {looked : Nat} {looks polls : List (Poll Row)}
    {last : Poll Row} (timed : Timed looked (looks ++ last :: polls)) :
    Timed last.looked polls := by
  induction looks generalizing looked with
  | nil => exact timed.2
  | cons poll looks ih => exact ih timed.2

/-- The channel is empty at the look that ends a short batch. -/
theorem Drained.emptyAt {deadline looked : Nat} {before after : Receiver Row}
    {taken : List Row} {looks : List (Poll Row)} {last : Poll Row}
    (drained : Drained deadline before taken after looks last)
    (timed : Timed looked before.polls) : EmptyAt after last.looked := by
  rw [drained.polls] at timed
  have later := timed_of_append timed
  refine ⟨drained.queue, ?_⟩
  cases polls : after.polls with
  | nil => simp
  | cons next polls =>
      rw [polls] at later
      intro poll isNext came
      rw [List.head?_cons, Option.mem_some_iff] at isNext
      rw [← isNext] at came ⊢
      exact (later.1 came).1

theorem singleton_capped (first : Row) : [first].length ≤ ilpBatch := by
  rw [List.length_singleton]
  decide

/-- A batch within its cap stays there. -/
theorem collectBatch_capped {deadline : Nat} {queue batch out : List Row}
    {polls : List (Poll Row)} {rx : Receiver Row}
    (begun : batch.length ≤ ilpBatch)
    (collected : collectBatch deadline queue batch polls = some (out, rx)) :
    out.length ≤ ilpBatch := by
  induction polls generalizing queue batch with
  | nil =>
      rw [collectBatch] at collected
      split at collected
      · cases collected
      · cases collected
        exact begun
  | cons poll polls ih =>
      rw [collectBatch] at collected
      split at collected
      next room =>
        split at collected
        next row rest look =>
          apply ih ?_ collected
          rw [List.length_append]
          exact room
        next =>
          split at collected
          · cases collected
            exact begun
          · exact ih begun collected
        next =>
          cases collected
          exact begun
      next =>
        cases collected
        exact begun

/-- The last look of a batch that is short of its cap. -/
theorem collectBatch_drained {deadline : Nat} {queue batch out : List Row}
    {polls : List (Poll Row)} {rx : Receiver Row}
    (collected : collectBatch deadline queue batch polls = some (out, rx))
    (short : out.length < ilpBatch) :
    ∃ taken looks last, out = batch ++ taken ∧
      Drained deadline ⟨queue, polls⟩ taken rx looks last := by
  induction polls generalizing queue batch with
  | nil =>
      rw [collectBatch] at collected
      split at collected
      next => cases collected
      next full =>
        cases collected
        exact absurd short full
  | cons poll polls ih =>
      rw [collectBatch] at collected
      split at collected
      next =>
        split at collected
        next row rest look =>
          rcases ih collected with ⟨taken, looks, last, rfl, drained⟩
          refine ⟨row :: taken, poll :: looks, last, by simp, ?_⟩
          exact drained.after_row look
        next rest look =>
          split at collected
          next overdue =>
            cases collected
            refine ⟨[], [], poll, by simp, ?_⟩
            exact drained_of_error look (Or.inl overdue)
          next =>
            rcases ih collected with ⟨taken, looks, last, rfl, drained⟩
            refine ⟨taken, poll :: looks, last, rfl, ?_⟩
            exact drained.after_error look
        next rest look =>
          cases collected
          refine ⟨[], [], poll, by simp, ?_⟩
          exact drained_of_error look
            (Or.inr ((tryRecv_error look).2.2.mp rfl))
      next full =>
        cases collected
        exact absurd short full

/-! ## The end of a batch -/

/-- `DRAIN_POLL`, in nanoseconds. -/
def drainPoll : Nat := 5000000

/-- How long the writer sleeps after a look. -/
def nap (deadline : Nat) (queue : List Row) (poll : Poll Row) : Nat :=
  match (tryRecv queue poll).1 with
  | .error .empty => min drainPoll (deadline - poll.now)
  | _ => 0

/--
The clock advances: no look comes before `now`, none before the one it follows,
it is read after the look, and a sleep lasts at least as long as asked.
-/
def Advances (deadline : Nat) : Nat → List Row → List (Poll Row) → Prop
  | _, _, [] => True
  | now, queue, poll :: polls =>
      now ≤ poll.looked ∧ poll.looked ≤ poll.now ∧
        Advances deadline (poll.now + nap deadline queue poll)
          (tryRecv queue poll).2 polls

/-- The sleeps between `now` and the deadline, at most. -/
def naps (deadline now : Nat) : Nat :=
  (deadline - now + (drainPoll - 1)) / drainPoll

theorem naps_anti {deadline now later : Nat} (le : now ≤ later) :
    naps deadline later ≤ naps deadline now := by
  apply Nat.div_le_div_right
  omega

/-- A sleep before the deadline is one less to come. -/
theorem naps_of_sleep {deadline now : Nat} (early : now < deadline) :
    naps deadline (now + min drainPoll (deadline - now)) + 1 ≤
      naps deadline now := by
  simp only [naps, drainPoll]
  omega

/--
A batch that has not ended had at most one look for each row it took and one
for each sleep.
-/
theorem collectBatch_waiting {deadline now : Nat} {queue batch : List Row}
    {polls : List (Poll Row)} (clock : Advances deadline now queue polls)
    (waiting : collectBatch deadline queue batch polls = none) :
    polls.length + batch.length < ilpBatch + naps deadline now := by
  induction polls generalizing queue batch now with
  | nil =>
      rw [collectBatch] at waiting
      split at waiting
      next room =>
        rw [List.length_nil]
        omega
      next => cases waiting
  | cons poll polls ih =>
      rcases clock with ⟨begun, read, clock⟩
      have sooner := @naps_anti deadline now poll.now (begun.trans read)
      rw [collectBatch] at waiting
      rw [nap] at clock
      split at waiting
      next =>
        split at waiting
        next row rest look =>
          rw [look] at clock
          have later := ih clock waiting
          simp only [List.length_append, List.length_cons, List.length_nil,
            Nat.add_zero] at later ⊢
          omega
        next rest look =>
          rw [look] at clock
          split at waiting
          next => cases waiting
          next early =>
            have later := ih clock waiting
            have one := naps_of_sleep (Nat.lt_of_not_le early)
            simp only [List.length_cons] at later ⊢
            omega
        next => cases waiting
      next => cases waiting

/-- A batch ends within its cap's looks and those that follow a sleep. -/
theorem collectBatch_ends {deadline now : Nat} {queue : List Row}
    {polls : List (Poll Row)} (first : Row)
    (clock : Advances deadline now queue polls)
    (enough : ilpBatch + naps deadline now ≤ polls.length + 1) :
    ∃ batch after,
      collectBatch deadline queue [first] polls = some (batch, after) := by
  cases ended : collectBatch deadline queue [first] polls with
  | some result => exact ⟨result.1, result.2, rfl⟩
  | none =>
      have waiting := collectBatch_waiting clock ended
      rw [List.length_singleton] at waiting
      omega

/-! ## The receive loop -/

/-- Batches of the loop are never empty and never above the cap. -/
theorem batchesOf_sizes {turns : Nat} {rx : Receiver Row} {batch : List Row}
    (member : batch ∈ batchesOf turns rx) :
    batch ≠ [] ∧ batch.length ≤ ilpBatch := by
  induction turns generalizing rx with
  | zero => cases member
  | succ turns ih =>
      rw [batchesOf] at member
      split at member
      next => cases member
      next => cases member
      next first started middle received =>
        split at member
        next => cases member
        next head after collected =>
          rcases List.mem_cons.mp member with rfl | later
          · constructor
            · exact (receives_batch received collected).2.1
            · exact collectBatch_capped (singleton_capped first) collected
          · exact ih later

/--
The rows that the loop has received, batch by batch, are those sent so far as
it has come; all of them once it has ended, and it ends if the channel closes.
-/
structure Partitioned (channel : Channel Row) (turns : Nat)
    (writer : Writer Row) : Prop where
  rows : writer.batches.flatMap Batch.rows ++ writer.rx.pending =
    arrivals channel.polls
  sizes : ∀ batch ∈ writer.batches,
    batch.rows ≠ [] ∧ batch.rows.length ≤ ilpBatch
  ended : writer.exited = true →
    writer.batches.flatMap Batch.rows = arrivals channel.polls
  ends : 2 * (arrivals channel.polls).length < closedPolls channel.polls →
    channel.polls.length < turns → writer.exited = true

theorem ilpWriter_partitioned (accepts : Row → Bool) (flushes : Nat → Bool)
    (channel : Channel Row) (turns : Nat) :
    Partitioned channel turns (ilpWriter accepts flushes channel turns) := by
  have accounts : Accounts channel
      (ilpWriter accepts flushes channel turns) :=
    writerLoop_accounts turns
      ⟨rfl, List.suffix_rfl, fun exited => by cases exited⟩
  have cut := @writerLoop_batches Row accepts flushes turns
    ⟨⟨[], channel.polls⟩, [], [], [], false⟩
  rw [List.map_nil, List.nil_append] at cut
  constructor
  · exact accounts.received
  · intro batch member
    apply batchesOf_sizes
    rw [← cut]
    exact List.mem_map_of_mem member
  · intro exited
    have all := accounts.received
    rw [accounts.exited exited, List.append_nil] at all
    exact all
  · exact @writerLoop_exits Row accepts flushes turns
      ⟨⟨[], channel.polls⟩, [], [], [], false⟩

/-- Every batch is cut from the front of the channel. -/
theorem collectBatch_collected {deadline : Nat} {first : Row}
    {before after : Receiver Row} {batch : List Row}
    (collected : collectBatch deadline before.queue [first] before.polls =
      some (batch, after)) :
    Collected deadline first before batch after := by
  constructor
  · rcases collectBatch_some collected with ⟨taken, rfl, receives⟩
    exact ⟨taken, rfl, receives.pending⟩
  · exact collectBatch_capped (singleton_capped first) collected
  · intro short
    rcases collectBatch_drained collected short with
      ⟨taken, looks, last, rfl, drained⟩
    exact ⟨taken, looks, last, rfl, drained, fun _ => drained.emptyAt⟩

/--
A short batch met an empty channel at or after the deadline, or an empty one
that was closed.
-/
def EndsEmpty (deadline : Nat) (before after : Receiver Row) : Prop :=
  (∃ instant, deadline ≤ instant ∧ EmptyAt after instant) ∨
    after.queue = [] ∧
      ∃ looks last, before.polls = looks ++ last :: after.polls ∧
        last.closed = true

/-- A look just before the deadline and a row that comes before it is read. -/
def lateRow : List (Poll Nat) :=
  [⟨[], false, 0, 198, 200⟩, ⟨[1], false, 199, 201, 201⟩]

/--
The row is in the channel from before the deadline on, and yet the batch ends
without it.
-/
theorem endsEmpty_lateRow_fails :
    Advances 200 0 [] lateRow ∧ Timed 0 lateRow ∧
      ∃ after, collectBatch 200 [] [0] lateRow = some ([0], after) ∧
        [0].length < ilpBatch ∧ ¬ EndsEmpty 200 ⟨[], lateRow⟩ after := by
  refine
    ⟨by simp [lateRow, Advances, nap, tryRecv], by simp [lateRow, Timed],
      ⟨[], [⟨[1], false, 199, 201, 201⟩]⟩, rfl, by decide, ?_⟩
  rintro (⟨instant, late, -, empty⟩ | ⟨-, looks, last, polls, closed⟩)
  · have early : instant < 199 := empty _ rfl (by decide)
    omega
  · have isLook : last ∈ lateRow := by
      rw [show lateRow = looks ++ last :: _ from polls]
      simp
    have opened : ∀ poll ∈ lateRow, poll.closed = false := by
      decide
    rw [opened last isLook] at closed
    cases closed

/--
A batch is its first row and the next rows of the channel, it ends, and the
batches of the receive loop make up what was sent.
-/
theorem channel_partitioned (Row : Type) :
    (∀ (deadline : Nat) (first : Row) (before after : Receiver Row)
        (batch : List Row),
      collectBatch deadline before.queue [first] before.polls =
          some (batch, after) →
        Collected deadline first before batch after) ∧
      (∀ (deadline now : Nat) (first : Row) (rx : Receiver Row),
        Advances deadline now rx.queue rx.polls →
          ilpBatch + naps deadline now ≤ rx.polls.length + 1 →
            ∃ batch after, collectBatch deadline rx.queue [first] rx.polls =
              some (batch, after)) ∧
      ∀ (accepts : Row → Bool) (flushes : Nat → Bool) (channel : Channel Row)
        (turns : Nat),
        Partitioned channel turns
          (ilpWriter accepts flushes channel turns) := by
  refine ⟨?_, ?_, ilpWriter_partitioned⟩
  · intro deadline first before after batch collected
    exact collectBatch_collected collected
  · intro deadline now first rx clock enough
    exact collectBatch_ends first clock enough

/-- Looks of which each finds nothing and brings the clock to zero. -/
theorem advances_replicate (n : Nat) :
    Advances 0 0 [] (List.replicate n (⟨[], false, 0, 0, 0⟩ : Poll Nat)) := by
  induction n with
  | zero => trivial
  | succ n ih => exact ⟨le_rfl, le_rfl, ih⟩

/-- A row that comes late, but before the deadline, and one that is too late. -/
theorem channel_partitioned_lateRow :
    Collected 200 0 ⟨[], ⟨[2], false, 20, 21, 21⟩ :: lateRow⟩ [0, 2]
        ⟨[], [⟨[1], false, 199, 201, 201⟩]⟩ ∧
      ∃ batch after,
        collectBatch 0 [] [0] (List.replicate ilpBatch ⟨[], false, 0, 0, 0⟩) =
          some (batch, after) := by
  constructor
  · exact (channel_partitioned Nat).1 200 0 _ _ _ rfl
  · exact (channel_partitioned Nat).2.1 0 0 0
      ⟨[], List.replicate ilpBatch ⟨[], false, 0, 0, 0⟩⟩
      (advances_replicate ilpBatch) (by rw [List.length_replicate]; decide)

end ChudMoney.Db.Batches
