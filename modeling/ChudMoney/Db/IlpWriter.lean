import ChudMoney.Db.Rows
import Mathlib.Data.List.DropRight
import Mathlib.Data.List.Flatten

/-!
# The ILP writer thread

The writer receives rows from its channel, batches them by size and deadline,
pushes each batch into one buffer and flushes it.  A rejected row clears the
buffer, and with it the rows of the batch pushed before.

Time and the other end of the channel are the list of the looks the writer
takes at it: what arrived since the look before and when, whether every sender
is gone, when the look was taken and what the clock said when it was read next.
A run that has used up its looks is still waiting.
-/

namespace ChudMoney.Db.IlpWriter

variable {Row : Type}

/-! ## The channel -/

/-- Rows in a batch, at most. -/
def ilpBatch : Nat := 5000

/-- `FLUSH_INTERVAL`, in nanoseconds. -/
def flushInterval : Nat := 500000000

/-- What one look at the channel meets. -/
structure Poll (Row : Type) where
  arrived : List Row
  closed : Bool
  /-- When the first of the rows arrived. -/
  came : Nat
  /-- When the look was taken. -/
  looked : Nat
  /-- The clock, as it is read after the look. -/
  now : Nat

/-- A whole life of the channel; nothing is sent once every sender is gone. -/
structure Channel (Row : Type) where
  polls : List (Poll Row)
  closing : polls.Pairwise fun earlier later =>
    earlier.closed = true → later.closed = true ∧ later.arrived = []

/-- The rows sent, in order. -/
def arrivals (polls : List (Poll Row)) : List Row :=
  polls.flatMap Poll.arrived

/-- The rows queued and the looks to come. -/
structure Receiver (Row : Type) where
  queue : List Row
  polls : List (Poll Row)

/-- The rows not yet received, sent or still to be sent. -/
def Receiver.pending (rx : Receiver Row) : List Row :=
  rx.queue ++ arrivals rx.polls

inductive TryRecvError where
  | empty
  | disconnected
  deriving DecidableEq, Repr

/-- One look, and the rows that stay queued. -/
def tryRecv (queue : List Row) (poll : Poll Row) :
    Except TryRecvError Row × List Row :=
  match queue ++ poll.arrived with
  | row :: rest => (.ok row, rest)
  | [] => (.error (if poll.closed then .disconnected else .empty), [])

/--
The next row and the time it was received at, or `None` from a closed channel.
-/
def blockingRecv (queue : List Row) :
    List (Poll Row) → Option (Option (Row × Nat) × Receiver Row)
  | [] => none
  | poll :: polls =>
      match tryRecv queue poll with
      | (.ok row, queue) => some (some (row, poll.now), ⟨queue, polls⟩)
      | (.error .empty, queue) => blockingRecv queue polls
      | (.error .disconnected, queue) => some (none, ⟨queue, polls⟩)

/--
`batch` plus whatever else arrives before `deadline`, capped at `ilpBatch`.
Returns early when the channel closes.
-/
def collectBatch (deadline : Nat) (queue batch : List Row)
    (polls : List (Poll Row)) : Option (List Row × Receiver Row) :=
  if batch.length < ilpBatch then
    match polls with
    | [] => none
    | poll :: polls =>
        match tryRecv queue poll with
        | (.ok row, queue) => collectBatch deadline queue (batch ++ [row]) polls
        | (.error .empty, queue) =>
            if deadline ≤ poll.now then some (batch, ⟨queue, polls⟩)
            else collectBatch deadline queue batch polls
        | (.error .disconnected, queue) => some (batch, ⟨queue, polls⟩)
  else some (batch, ⟨queue, polls⟩)

/-! ## The writer -/

/-- A batch written, and whether its flush succeeded, if there was one. -/
structure Batch (Row : Type) where
  rows : List Row
  flush : Option Bool

/-- The writer between two batches. -/
structure Writer (Row : Type) where
  rx : Receiver Row
  buf : List Row
  batches : List (Batch Row)
  /-- The rows that QuestDB was sent, in order. -/
  table : List Row
  exited : Bool

section Loop

variable (accepts : Row → Bool) (flushes : Nat → Bool)

/-- `push` of one row; an error clears the buffer. -/
def pushRow (buf : List Row) (row : Row) : List Row :=
  if accepts row then buf ++ [row] else []

/-- Push a batch and flush what the buffer then holds. -/
def writeBatch (writer : Writer Row) (batch : List Row) : Writer Row :=
  let buf := batch.foldl (pushRow accepts) writer.buf
  if buf.length = 0 then
    { writer with buf := buf, batches := writer.batches ++ [⟨batch, none⟩] }
  else if flushes writer.batches.length then
    { writer with
      buf := []
      table := writer.table ++ buf
      batches := writer.batches ++ [⟨batch, some true⟩] }
  else
    { writer with
      buf := []
      batches := writer.batches ++ [⟨batch, some false⟩] }

/-- The writer after at most `turns` turns of its loop. -/
def writerLoop : Nat → Writer Row → Writer Row
  | 0, writer => writer
  | turns + 1, writer =>
      match blockingRecv writer.rx.queue writer.rx.polls with
      | none => writer
      | some (none, rx) => { writer with rx := rx, exited := true }
      | some (some (first, started), rx) =>
          match collectBatch (started + flushInterval) rx.queue [first]
              rx.polls with
          | none => writer
          | some (batch, rx) =>
              writerLoop turns
                (writeBatch accepts flushes { writer with rx := rx } batch)

/-- `start_ilp_writer`. -/
def ilpWriter (channel : Channel Row) (turns : Nat) : Writer Row :=
  writerLoop accepts flushes turns
    { rx := ⟨[], channel.polls⟩
      buf := []
      batches := []
      table := []
      exited := false }

end Loop

/-- The batches that the looks of a receiver make, whatever is done with them. -/
def batchesOf : Nat → Receiver Row → List (List Row)
  | 0, _ => []
  | turns + 1, rx =>
      match blockingRecv rx.queue rx.polls with
      | none => []
      | some (none, _) => []
      | some (some (first, started), rx) =>
          match collectBatch (started + flushInterval) rx.queue [first]
              rx.polls with
          | none => []
          | some (batch, rx) => batch :: batchesOf turns rx

/-! ## What a look does -/

theorem tryRecv_ok {queue rest : List Row} {poll : Poll Row} {row : Row}
    (look : tryRecv queue poll = (.ok row, rest)) :
    queue ++ poll.arrived = row :: rest := by
  rw [tryRecv] at look
  split at look
  next found =>
    cases look
    exact found
  next => cases look

theorem tryRecv_error {queue rest : List Row} {poll : Poll Row}
    {error : TryRecvError} (look : tryRecv queue poll = (.error error, rest)) :
    queue ++ poll.arrived = [] ∧ rest = [] ∧
      (error = .disconnected ↔ poll.closed = true) := by
  rw [tryRecv] at look
  split at look
  next => cases look
  next found =>
    cases look
    refine ⟨found, rfl, ?_⟩
    cases poll.closed <;> simp

/-- The looks at a channel without senders. -/
def closedPolls (polls : List (Poll Row)) : Nat :=
  polls.countP Poll.closed

/--
What a receiving call does: it takes the next pending rows and some looks, and
all but `idle` of the looks at a closed channel found a row.
-/
structure Receives (before after : Receiver Row) (rows : List Row)
    (idle : Nat) : Prop where
  pending : before.pending = rows ++ after.pending
  polls : after.polls <:+ before.polls
  closed : closedPolls before.polls ≤
    rows.length + idle + closedPolls after.polls

theorem Receives.trans {first second third : Receiver Row}
    {rows more : List Row} {idle rest : Nat}
    (before : Receives first second rows idle)
    (after : Receives second third more rest) :
    Receives first third (rows ++ more) (idle + rest) := by
  constructor
  · rw [before.pending, after.pending, List.append_assoc]
  · exact after.polls.trans before.polls
  · have counted := before.closed
    have rested := after.closed
    rw [List.length_append]
    omega

/-- A look that finds a row. -/
theorem receives_row {queue rest : List Row} {poll : Poll Row} {row : Row}
    (look : tryRecv queue poll = (.ok row, rest)) (polls : List (Poll Row)) :
    Receives ⟨queue, poll :: polls⟩ ⟨rest, polls⟩ [row] 0 := by
  constructor
  · show queue ++ (poll.arrived ++ arrivals polls) =
      row :: (rest ++ arrivals polls)
    rw [← List.append_assoc, tryRecv_ok look, List.cons_append]
  · exact List.suffix_cons _ _
  · show closedPolls (poll :: polls) ≤ 1 + 0 + closedPolls polls
    rw [closedPolls, List.countP_cons]
    split <;> simp only [closedPolls] <;> omega

/-- A look that finds none. -/
theorem receives_error {queue rest : List Row} {poll : Poll Row}
    {error : TryRecvError} (look : tryRecv queue poll = (.error error, rest))
    (polls : List (Poll Row)) :
    Receives ⟨queue, poll :: polls⟩ ⟨rest, polls⟩ []
      (if poll.closed then 1 else 0) := by
  rcases tryRecv_error look with ⟨nothing, rfl, -⟩
  constructor
  · show queue ++ (poll.arrived ++ arrivals polls) = arrivals polls
    rw [← List.append_assoc, nothing, List.nil_append]
  · exact List.suffix_cons _ _
  · show closedPolls (poll :: polls) ≤ _
    rw [closedPolls, List.countP_cons, List.length_nil]
    simp only [closedPolls]
    omega

/-- A row received by waiting for it. -/
theorem blockingRecv_row {queue : List Row} {polls : List (Poll Row)}
    {row : Row} {now : Nat} {rx : Receiver Row}
    (received : blockingRecv queue polls = some (some (row, now), rx)) :
    Receives ⟨queue, polls⟩ rx [row] 0 ∧ rx.polls.length < polls.length := by
  induction polls generalizing queue with
  | nil => cases received
  | cons poll polls ih =>
      rw [blockingRecv] at received
      split at received
      next row_ rest look =>
        cases received
        exact ⟨receives_row look polls, Nat.lt_succ_self _⟩
      next rest look =>
        rcases ih received with ⟨later, shorter⟩
        have opened : poll.closed ≠ true :=
          mt (tryRecv_error look).2.2.mpr (by decide)
        have before := receives_error look polls
        rw [if_neg opened] at before
        exact ⟨before.trans later, Nat.lt_succ_of_lt shorter⟩
      next => cases received

/-- The channel is empty and closed when waiting ends without a row. -/
theorem blockingRecv_closed {queue : List Row} {polls : List (Poll Row)}
    {rx : Receiver Row}
    (received : blockingRecv queue polls = some (none, rx)) :
    (⟨queue, polls⟩ : Receiver Row).pending = rx.pending ∧ rx.queue = [] ∧
      ∃ poll : Poll Row, poll.closed = true ∧ poll :: rx.polls <:+ polls := by
  induction polls generalizing queue with
  | nil => cases received
  | cons poll polls ih =>
      rw [blockingRecv] at received
      split at received
      next => cases received
      next rest look =>
        rcases ih received with ⟨same, drained, last, closed, suffix_⟩
        refine ⟨?_, drained, last, closed, suffix_.trans (List.suffix_cons _ _)⟩
        exact (receives_error look polls).pending.trans same
      next rest look =>
        cases received
        rcases tryRecv_error look with ⟨-, rfl, disconnected⟩
        exact ⟨(receives_error look polls).pending, rfl, poll,
          disconnected.mp rfl, List.suffix_rfl⟩

/-- Waiting goes on only as long as the channel is open. -/
theorem blockingRecv_waiting {queue : List Row} {polls : List (Poll Row)}
    (waiting : blockingRecv queue polls = none) : closedPolls polls = 0 := by
  induction polls generalizing queue with
  | nil => rfl
  | cons poll polls ih =>
      rw [blockingRecv] at waiting
      split at waiting
      next => cases waiting
      next rest look =>
        have opened : poll.closed ≠ true :=
          mt (tryRecv_error look).2.2.mpr (by decide)
        rw [closedPolls, List.countP_cons, if_neg opened]
        exact ih waiting
      next => cases waiting

theorem Receives.refl (rx : Receiver Row) (idle : Nat) :
    Receives rx rx [] idle := by
  refine ⟨rfl, List.suffix_rfl, ?_⟩
  rw [List.length_nil]
  omega

theorem Receives.mono {before after : Receiver Row} {rows : List Row}
    {idle more : Nat} (receives : Receives before after rows idle)
    (le : idle ≤ more) : Receives before after rows more := by
  refine ⟨receives.pending, receives.polls, ?_⟩
  have counted := receives.closed
  omega

/-- A collected batch: the one begun and the next rows. -/
theorem collectBatch_some {deadline : Nat} {queue batch out : List Row}
    {polls : List (Poll Row)} {rx : Receiver Row}
    (collected : collectBatch deadline queue batch polls = some (out, rx)) :
    ∃ more, out = batch ++ more ∧ Receives ⟨queue, polls⟩ rx more 1 := by
  induction polls generalizing queue batch with
  | nil =>
      rw [collectBatch] at collected
      split at collected
      next => cases collected
      next =>
        cases collected
        exact ⟨[], (List.append_nil _).symm, Receives.refl _ 1⟩
  | cons poll polls ih =>
      rw [collectBatch] at collected
      split at collected
      next =>
        split at collected
        next row rest look =>
          rcases ih collected with ⟨more, rfl, later⟩
          refine ⟨row :: more, List.append_assoc _ _ _, ?_⟩
          exact (receives_row look polls).trans later
        next rest look =>
          have one : (if poll.closed then 1 else 0) ≤ 1 := by split <;> omega
          have before := receives_error look polls
          split at collected
          next =>
            cases collected
            exact ⟨[], (List.append_nil _).symm, before.mono one⟩
          next =>
            rcases ih collected with ⟨more, rfl, later⟩
            have opened : poll.closed ≠ true :=
              mt (tryRecv_error look).2.2.mpr (by decide)
            rw [if_neg opened] at before
            exact ⟨more, rfl, before.trans later⟩
        next rest look =>
          cases collected
          have one : (if poll.closed then 1 else 0) ≤ 1 := by split <;> omega
          exact ⟨[], (List.append_nil _).symm,
            (receives_error look polls).mono one⟩
      next =>
        cases collected
        exact ⟨[], (List.append_nil _).symm, Receives.refl _ 1⟩

/--
A batch stays open only as long as each look finds a row or an open channel.
-/
theorem collectBatch_none {deadline : Nat} {queue batch : List Row}
    {polls : List (Poll Row)}
    (open_ : collectBatch deadline queue batch polls = none) :
    closedPolls polls ≤ (⟨queue, polls⟩ : Receiver Row).pending.length := by
  induction polls generalizing queue batch with
  | nil => exact Nat.zero_le _
  | cons poll polls ih =>
      rw [collectBatch] at open_
      split at open_
      next =>
        split at open_
        next row rest look =>
          have before := receives_row look polls
          have later := ih open_
          have counted := before.closed
          rw [before.pending]
          simp only [List.length_append, List.length_singleton] at counted ⊢
          omega
        next rest look =>
          split at open_
          next => cases open_
          next =>
            have opened : poll.closed ≠ true :=
              mt (tryRecv_error look).2.2.mpr (by decide)
            have before := receives_error look polls
            have later := ih open_
            have counted := before.closed
            rw [if_neg opened] at counted
            rw [before.pending]
            simp only [List.length_nil, List.nil_append] at counted ⊢
            omega
        next => cases open_
      next => cases open_

/-! ## What a batch leaves -/

/-- The rows of a batch that a flush of its own sends. -/
theorem foldl_pushRow_nil (accepts : Row → Bool) (batch : List Row) :
    batch.foldl (pushRow accepts) [] = batch.rtakeWhile accepts := by
  induction batch using List.reverseRecOn with
  | nil => rfl
  | append_singleton rows row ih =>
      rw [List.foldl_append, ih]
      simp only [List.foldl_cons, List.foldl_nil, pushRow]
      split
      next accepted => rw [List.rtakeWhile_concat_pos _ _ _ accepted]
      next rejected => rw [List.rtakeWhile_concat_neg _ _ _ rejected]

/-- No accepted row of a batch is pushed before a rejected one. -/
def Ordered (accepts : Row → Bool) (batch : List Row) : Prop :=
  batch.Pairwise fun earlier later =>
    accepts earlier = true → accepts later = true

instance (accepts : Row → Bool) (batch : List Row) :
    Decidable (Ordered accepts batch) :=
  inferInstanceAs (Decidable (batch.Pairwise _))

theorem ordered_concat {accepts : Row → Bool} {rows : List Row} {row : Row} :
    Ordered accepts (rows ++ [row]) ↔ Ordered accepts rows ∧
      ∀ earlier ∈ rows, accepts earlier = true → accepts row = true := by
  simp [Ordered, List.pairwise_append]

/-- What survives is a part of what was accepted. -/
theorem rtakeWhile_sublist_filter (accepts : Row → Bool) (batch : List Row) :
    (batch.rtakeWhile accepts).Sublist (batch.filter accepts) := by
  have whole : (batch.rtakeWhile accepts).filter accepts =
      batch.rtakeWhile accepts :=
    List.filter_eq_self.mpr fun _ => List.mem_rtakeWhile_imp
  rw [← whole]
  exact (List.rtakeWhile_suffix accepts batch).sublist.filter accepts

/-- Every accepted row survives if and only if none precedes a rejected one. -/
theorem rtakeWhile_eq_filter_iff {accepts : Row → Bool} {batch : List Row} :
    batch.rtakeWhile accepts = batch.filter accepts ↔
      Ordered accepts batch := by
  induction batch using List.reverseRecOn with
  | nil => simp [Ordered]
  | append_singleton rows row ih =>
      rw [ordered_concat, ← ih, List.filter_append]
      by_cases accepted : accepts row = true
      · rw [List.rtakeWhile_concat_pos _ _ _ accepted]
        simp [accepted]
      · rw [List.rtakeWhile_concat_neg _ _ _ accepted]
        simp only [List.filter_cons, accepted, List.filter_nil]
        constructor
        · intro nothing
          have rejected : ∀ earlier ∈ rows, ¬ accepts earlier = true :=
            List.filter_eq_nil_iff.mp (by simpa using nothing.symm)
          refine ⟨?_, fun earlier member kept =>
            absurd kept (rejected earlier member)⟩
          rw [List.filter_eq_nil_iff.mpr rejected]
          apply List.rtakeWhile_eq_nil_iff.mpr
          intro nonempty
          exact rejected _ (List.getLast_mem nonempty)
        · rintro ⟨-, rejected⟩
          have nothing : rows.filter accepts = [] :=
            List.filter_eq_nil_iff.mpr fun earlier member kept =>
              absurd (rejected earlier member kept) (by simp)
          simp [nothing]

/-! ## What a run writes -/

/-- The rows of a batch that QuestDB was sent. -/
def Batch.sent (accepts : Row → Bool) (batch : Batch Row) : List Row :=
  if batch.flush = some true then batch.rows.rtakeWhile accepts else []

/--
The rows of a batch that QuestDB should have been sent: all but those rejected,
unless the flush of the batch failed.
-/
def Batch.due (accepts : Row → Bool) (batch : Batch Row) : List Row :=
  if batch.flush = some false then [] else batch.rows.filter accepts

/-- The outcome of the flush of a batch; there is none for an empty buffer. -/
def outcome (accepts : Row → Bool) (succeeds : Bool) (rows : List Row) :
    Option Bool :=
  if rows.rtakeWhile accepts = [] then none else some succeeds

/-- What holds of the writer between two batches. -/
structure Ledger (accepts : Row → Bool) (flushes : Nat → Bool)
    (writer : Writer Row) : Prop where
  buf : writer.buf = []
  table : writer.table = writer.batches.flatMap (Batch.sent accepts)
  flush : ∀ k batch, writer.batches[k]? = some batch →
    batch.flush = outcome accepts (flushes k) batch.rows

section Loop

variable {accepts : Row → Bool} {flushes : Nat → Bool}

theorem writeBatch_eq {writer : Writer Row} (empty : writer.buf = [])
    (batch : List Row) :
    writeBatch accepts flushes writer batch =
      { writer with
        table := writer.table ++ Batch.sent accepts
          ⟨batch, outcome accepts (flushes writer.batches.length) batch⟩
        batches := writer.batches ++
          [⟨batch, outcome accepts (flushes writer.batches.length) batch⟩] } := by
  rcases writer with ⟨rx, buf, batches, table, exited⟩
  subst empty
  simp only [writeBatch, foldl_pushRow_nil, outcome, Batch.sent,
    List.length_eq_zero_iff]
  split
  next nothing => simp [nothing]
  next something => split <;> simp_all

theorem writeBatch_ledger {writer : Writer Row}
    (ledger : Ledger accepts flushes writer) (batch : List Row) :
    Ledger accepts flushes (writeBatch accepts flushes writer batch) := by
  rw [writeBatch_eq ledger.buf]
  constructor
  · exact ledger.buf
  · simp [ledger.table]
  · intro k written found
    dsimp only at found
    rcases Nat.lt_trichotomy k writer.batches.length with earlier | rfl | later
    · rw [List.getElem?_append_left earlier] at found
      exact ledger.flush k written found
    · rw [List.getElem?_concat_length] at found
      cases found
      rfl
    · rw [List.getElem?_eq_none (by rw [List.length_append]; exact later)]
        at found
      cases found

/-- A batch is the first row waited for and the rows collected after it. -/
theorem receives_batch {before middle after : Receiver Row} {first : Row}
    {started deadline : Nat} {batch : List Row}
    (received : blockingRecv before.queue before.polls =
      some (some (first, started), middle))
    (collected : collectBatch deadline middle.queue [first] middle.polls =
      some (batch, after)) :
    Receives before after batch 1 ∧ batch ≠ [] ∧
      after.polls.length < before.polls.length := by
  rcases blockingRecv_row received with ⟨begun, shorter⟩
  rcases collectBatch_some collected with ⟨more, rfl, later⟩
  refine ⟨begun.trans later, List.cons_ne_nil _ _, ?_⟩
  exact lt_of_le_of_lt later.polls.length_le shorter

/--
An invariant of the loop holds of every run: it has to survive a batch and the
end of the channel.
-/
theorem writerLoop_invariant {holds : Writer Row → Prop}
    (onBatch : ∀ writer batch rx, holds writer →
      Receives writer.rx rx batch 1 →
        holds (writeBatch accepts flushes { writer with rx := rx } batch))
    (onClosed : ∀ writer rx, holds writer →
      blockingRecv writer.rx.queue writer.rx.polls = some (none, rx) →
        holds { writer with rx := rx, exited := true })
    (turns : Nat) {writer : Writer Row} (initial : holds writer) :
    holds (writerLoop accepts flushes turns writer) := by
  induction turns generalizing writer with
  | zero => exact initial
  | succ turns ih =>
      rw [writerLoop]
      split
      next => exact initial
      next rx received => exact onClosed writer rx initial received
      next first started middle received =>
        split
        next => exact initial
        next batch after collected =>
          apply ih
          exact onBatch writer batch after initial
            (receives_batch received collected).1

theorem writerLoop_ledger (turns : Nat) {writer : Writer Row}
    (ledger : Ledger accepts flushes writer) :
    Ledger accepts flushes (writerLoop accepts flushes turns writer) := by
  apply writerLoop_invariant ?_ ?_ turns ledger
  · intro writer batch rx ledger _
    apply writeBatch_ledger
    exact ⟨ledger.buf, ledger.table, ledger.flush⟩
  · intro writer rx ledger _
    exact ⟨ledger.buf, ledger.table, ledger.flush⟩

@[simp]
theorem writeBatch_rows (writer : Writer Row) (batch : List Row) :
    (writeBatch accepts flushes writer batch).batches.map Batch.rows =
      writer.batches.map Batch.rows ++ [batch] := by
  simp only [writeBatch]
  split
  · simp
  · split <;> simp

@[simp]
theorem writeBatch_rx (writer : Writer Row) (batch : List Row) :
    (writeBatch accepts flushes writer batch).rx = writer.rx := by
  simp only [writeBatch]
  split
  · rfl
  · split <;> rfl

@[simp]
theorem writeBatch_exited (writer : Writer Row) (batch : List Row) :
    (writeBatch accepts flushes writer batch).exited = writer.exited := by
  simp only [writeBatch]
  split
  · rfl
  · split <;> rfl

/-- The batches depend on the channel alone. -/
theorem writerLoop_batches (turns : Nat) (writer : Writer Row) :
    (writerLoop accepts flushes turns writer).batches.map Batch.rows =
      writer.batches.map Batch.rows ++ batchesOf turns writer.rx := by
  induction turns generalizing writer with
  | zero => simp [writerLoop, batchesOf]
  | succ turns ih =>
      rw [writerLoop, batchesOf]
      split
      next => exact (List.append_nil _).symm
      next => exact (List.append_nil _).symm
      next first started middle received =>
        split
        next => exact (List.append_nil _).symm
        next batch after collected =>
          rw [ih, writeBatch_rows, writeBatch_rx, List.append_assoc]
          rfl

/-- The rows received so far and those pending are the rows sent. -/
structure Accounts (channel : Channel Row) (writer : Writer Row) : Prop where
  received : (writer.batches.map Batch.rows).flatten ++ writer.rx.pending =
    arrivals channel.polls
  polls : writer.rx.polls <:+ channel.polls
  exited : writer.exited = true → writer.rx.pending = []

theorem writerLoop_accounts {channel : Channel Row} (turns : Nat)
    {writer : Writer Row} (accounts : Accounts channel writer) :
    Accounts channel (writerLoop accepts flushes turns writer) := by
  apply writerLoop_invariant ?_ ?_ turns accounts
  · intro writer batch rx accounts receives
    constructor
    · rw [writeBatch_rows, writeBatch_rx, List.flatten_append,
        List.append_assoc, List.flatten_singleton, ← receives.pending]
      exact accounts.received
    · rw [writeBatch_rx]
      exact receives.polls.trans accounts.polls
    · rw [writeBatch_exited, writeBatch_rx]
      intro exited
      have nothing := accounts.exited exited
      rw [receives.pending] at nothing
      exact (List.append_eq_nil_iff.mp nothing).2
  · intro writer rx accounts received
    rcases blockingRecv_closed received with
      ⟨same, drained, poll, closed, later⟩
    have inside := later.trans accounts.polls
    have silent : arrivals rx.polls = [] := by
      have ordered := channel.closing.sublist inside.sublist
      rw [List.pairwise_cons] at ordered
      apply List.flatMap_eq_nil_iff.mpr
      intro look member
      exact (ordered.1 look member closed).2
    constructor
    · exact same ▸ accounts.received
    · exact (List.suffix_cons _ _).trans inside
    · intro _
      show rx.queue ++ arrivals rx.polls = []
      rw [drained, silent, List.append_nil]

/--
Once enough looks find the channel closed, the loop ends: each of them takes a
row, ends a batch or ends the loop.
-/
theorem writerLoop_exits (turns : Nat) {writer : Writer Row}
    (closed : 2 * writer.rx.pending.length < closedPolls writer.rx.polls)
    (enough : writer.rx.polls.length < turns) :
    (writerLoop accepts flushes turns writer).exited = true := by
  induction turns generalizing writer with
  | zero => exact absurd enough (Nat.not_lt_zero _)
  | succ turns ih =>
      rw [writerLoop]
      split
      next waiting =>
        have opened := blockingRecv_waiting waiting
        omega
      next => rfl
      next first started middle received =>
        have begun := (blockingRecv_row received).1
        have taken := congrArg List.length begun.pending
        have counted := begun.closed
        rw [List.length_append] at taken
        simp only [List.length_singleton] at taken counted
        split
        next open_ =>
          have looked := collectBatch_none open_
          change closedPolls middle.polls ≤ middle.pending.length at looked
          change (writer.rx.pending).length = _ at taken
          change closedPolls writer.rx.polls ≤ _ at counted
          omega
        next batch after collected =>
          rcases receives_batch received collected with
            ⟨receives, nonempty, shorter⟩
          have rows := List.length_pos_iff.mpr nonempty
          have remaining := congrArg List.length receives.pending
          have rest := receives.closed
          rw [List.length_append] at remaining
          apply ih
          · rw [writeBatch_rx]
            dsimp only
            omega
          · rw [writeBatch_rx]
            dsimp only
            omega

end Loop

/-! ## Which rows are lost -/

/-- Lists that are parts of others one by one only make them up if all do. -/
theorem flatMap_eq_flatMap_iff {α β : Type} {small large : α → List β}
    {list : List α} (part : ∀ a ∈ list, (small a).Sublist (large a)) :
    list.flatMap small = list.flatMap large ↔
      ∀ a ∈ list, small a = large a := by
  induction list with
  | nil => simp
  | cons a list ih =>
      have rest : ∀ b ∈ list, (small b).Sublist (large b) :=
        fun b member => part b (List.mem_cons_of_mem a member)
      rw [List.flatMap_cons, List.flatMap_cons, List.forall_mem_cons,
        ← ih rest]
      constructor
      · intro same
        have shortest := (part a List.mem_cons_self).length_le
        have others := (List.Sublist.flatMap_right list rest).length_le
        have whole := congrArg List.length same
        rw [List.length_append, List.length_append] at whole
        exact List.append_inj same (by omega)
      · rintro ⟨head, tail⟩
        rw [head, tail]

/--
What the writer owes: each row received is sent once and in order, unless it
was rejected or the flush of its batch failed; rows are received in the order
they were sent; none is left when the loop ends, and the loop ends once the
channel is closed.
-/
structure KeepsRows (accepts : Row → Bool) (channel : Channel Row)
    (turns : Nat) (writer : Writer Row) : Prop where
  table : writer.table = writer.batches.flatMap (Batch.due accepts)
  received : writer.batches.flatMap Batch.rows <+: arrivals channel.polls
  exited : writer.exited = true →
    writer.batches.flatMap Batch.rows = arrivals channel.polls
  exits : 2 * (arrivals channel.polls).length < closedPolls channel.polls →
    channel.polls.length < turns → writer.exited = true

/--
A batch is written as it should be: its rejected rows come first, or its last
row is accepted and the flush fails.
-/
def Sound (accepts : Row → Bool) (succeeds : Bool) (batch : List Row) : Prop :=
  Ordered accepts batch ∨
    succeeds = false ∧ ∃ last ∈ batch.getLast?, accepts last = true

instance (accepts : Row → Bool) (succeeds : Bool) (batch : List Row) :
    Decidable (Sound accepts succeeds batch) :=
  inferInstanceAs (Decidable (_ ∨ _ ∧ _))

theorem rtakeWhile_ne_nil_iff {accepts : Row → Bool} {batch : List Row} :
    batch.rtakeWhile accepts ≠ [] ↔
      ∃ last ∈ batch.getLast?, accepts last = true := by
  induction batch using List.reverseRecOn with
  | nil => simp
  | append_singleton rows row _ =>
      rw [List.rtakeWhile_concat]
      by_cases accepted : accepts row = true <;> simp [accepted]

theorem Batch.sent_eq_due_iff {accepts : Row → Bool} {succeeds : Bool}
    {batch : Batch Row}
    (flush : batch.flush = outcome accepts succeeds batch.rows) :
    batch.sent accepts = batch.due accepts ↔
      Sound accepts succeeds batch.rows := by
  rw [Sound, ← rtakeWhile_ne_nil_iff, ← rtakeWhile_eq_filter_iff]
  rw [Batch.sent, Batch.due, flush, outcome]
  by_cases nothing : batch.rows.rtakeWhile accepts = []
  · simp [nothing]
  · cases succeeds <;> simp [nothing]

theorem Batch.sent_sublist_due (accepts : Row → Bool) (batch : Batch Row) :
    (batch.sent accepts).Sublist (batch.due accepts) := by
  rw [Batch.sent, Batch.due]
  split
  next succeeded =>
    rw [if_neg (by simp [succeeded])]
    exact rtakeWhile_sublist_filter accepts batch.rows
  next => exact List.nil_sublist _

/-- QuestDB was sent what it should be if and only if every batch is sound. -/
theorem Ledger.table_iff {accepts : Row → Bool} {flushes : Nat → Bool}
    {writer : Writer Row} (ledger : Ledger accepts flushes writer) :
    writer.table = writer.batches.flatMap (Batch.due accepts) ↔
      ∀ k batch, (writer.batches.map Batch.rows)[k]? = some batch →
        Sound accepts (flushes k) batch := by
  rw [ledger.table, flatMap_eq_flatMap_iff
    fun batch _ => Batch.sent_sublist_due accepts batch]
  constructor
  · intro all k rows found
    rw [List.getElem?_map, Option.map_eq_some_iff] at found
    rcases found with ⟨batch, found, rfl⟩
    have sent := all batch (List.mem_of_getElem? found)
    exact (Batch.sent_eq_due_iff (ledger.flush k batch found)).mp sent
  · intro all batch member
    rcases List.mem_iff_getElem?.mp member with ⟨k, found⟩
    apply (Batch.sent_eq_due_iff (ledger.flush k batch found)).mpr
    apply all k
    rw [List.getElem?_map, found]
    rfl

/--
The writer keeps its rows if and only if no batch whose flush does not fail has
an accepted row before a rejected one.
-/
theorem keepsRows_iff (accepts : Row → Bool) (flushes : Nat → Bool)
    (channel : Channel Row) (turns : Nat) :
    KeepsRows accepts channel turns
        (ilpWriter accepts flushes channel turns) ↔
      ∀ k batch, (batchesOf turns ⟨[], channel.polls⟩)[k]? = some batch →
        Sound accepts (flushes k) batch := by
  have ledger : Ledger accepts flushes
      (ilpWriter accepts flushes channel turns) :=
    writerLoop_ledger turns ⟨rfl, rfl, fun k batch found => by cases found⟩
  have accounts : Accounts channel
      (ilpWriter accepts flushes channel turns) :=
    writerLoop_accounts turns
      ⟨rfl, List.suffix_rfl, fun exited => by cases exited⟩
  have cut := @writerLoop_batches Row accepts flushes turns
    ⟨⟨[], channel.polls⟩, [], [], [], false⟩
  change (ilpWriter accepts flushes channel turns).batches.map Batch.rows = _
    at cut
  rw [List.map_nil, List.nil_append] at cut
  rw [← cut, ← ledger.table_iff]
  constructor
  · exact KeepsRows.table
  · intro table
    refine ⟨table, ⟨_, accounts.received⟩, ?_, @writerLoop_exits Row accepts
      flushes turns ⟨⟨[], channel.polls⟩, [], [], [], false⟩⟩
    intro exited
    have all := accounts.received
    rw [accounts.exited exited, List.append_nil] at all
    exact all

/-- An index row at a time. -/
def indexRowAt (tsMs : Int64) : Rows.Row :=
  .index
    { table := .live
      indexId := "BRTI"
      value := .finite 1
      tsMs := tsMs
      receivedAtMs := none
      source := "t" }

/-- An ILP buffer refuses a row before the epoch. -/
def dated : Rows.Row → Bool
  | .index row => 0 ≤ row.tsMs
  | _ => true

/-- Three rows sent at once, then the channel closes. -/
def mixedChannel : Channel Rows.Row where
  polls := ⟨[indexRowAt 0, indexRowAt (-1), indexRowAt 1], false, 0, 0, 0⟩ ::
    List.replicate 7 ⟨[], true, 0, 0, 0⟩
  closing := by
    refine List.Pairwise.cons ?_ ?_
    · intro later _ closed
      cases closed
    · exact List.pairwise_replicate.mpr (Or.inr fun _ => ⟨rfl, rfl⟩)

/-- The rejected row takes the row before it along. -/
theorem keepsRows_mixedChannel_fails :
    (ilpWriter dated (fun _ => true) mixedChannel 10).table =
        [indexRowAt 1] ∧
      ¬ KeepsRows dated mixedChannel 10
        (ilpWriter dated (fun _ => true) mixedChannel 10) := by
  have sent : (ilpWriter dated (fun _ => true) mixedChannel 10).table =
      [indexRowAt 1] := by decide +kernel
  refine ⟨sent, ?_⟩
  intro keeps
  have due : (ilpWriter dated (fun _ => true) mixedChannel 10).batches.flatMap
      (Batch.due dated) = [indexRowAt 0, indexRowAt 1] := by decide +kernel
  have both := keeps.table
  rw [sent, due] at both
  cases both

end ChudMoney.Db.IlpWriter
