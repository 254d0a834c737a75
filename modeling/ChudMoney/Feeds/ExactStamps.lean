import ChudMoney.Db.Push
import ChudMoney.Feeds.Malformed

/-!
# Times and numbers from a frame to the buffer

The integers of a frame reach the buffer unchanged, or not at all: the line of
every row a handler queues says what the frame says just if the frame's time in
nanoseconds, its receive time in microseconds and its number are `i64`s.  No
handler checks that they are.
-/

namespace ChudMoney.Feeds.ExactStamps

open ChudMoney.Coinbase.Stream
open ChudMoney.Db.Push
open ChudMoney.Db.Rows
open ChudMoney.Feeds.Coinbase
open ChudMoney.Feeds.Gaps
open ChudMoney.Feeds.Malformed
open ChudMoney.Feeds.Shared
open ChudMoney.Feeds.Task
open ChudMoney.Kalshi.Book
open ChudMoney.Kalshi.Stream
open ChudMoney.Lib.Json
open ChudMoney.Lib.MachineInt

variable {Text : Type}

/-! ## Rows added to the queue -/

/-- The rows queued in between all have the property. -/
def Adds (property : Row → Prop) (before after : Output Text) : Prop :=
  ∃ rows, after.ilp = before.ilp ++ rows ∧ ∀ row ∈ rows, property row

namespace Adds

variable {property : Row → Prop} {before middle after : Output Text}

theorem none (same : after.ilp = before.ilp) : Adds property before after :=
  ⟨[], by simpa using same, by simp⟩

theorem trans (first : Adds property before middle)
    (second : Adds property middle after) : Adds property before after := by
  rcases first with ⟨rows, queued, holds⟩
  rcases second with ⟨more, queuedMore, holdsMore⟩
  refine ⟨rows ++ more, by rw [queuedMore, queued, List.append_assoc], ?_⟩
  intro row member
  rcases List.mem_append.mp member with early | late
  · exact holds row early
  · exact holdsMore row late

theorem mono {other : Row → Prop} (added : Adds property before after)
    (implies : ∀ row, property row → other row) : Adds other before after := by
  rcases added with ⟨rows, queued, holds⟩
  exact ⟨rows, queued, fun row member => implies row (holds row member)⟩

theorem push (output : Output Text) {row : Row} (holds : property row) :
    Adds property output (output.push row) :=
  ⟨[row], rfl, by simpa using holds⟩

theorem withStatus (added : Adds property before after)
    (f : FeedStatus → FeedStatus) : Adds property before (after.withStatus f) :=
  added

theorem trySend (dropped : FeedStatus → FeedStatus) (output : Output Text)
    (outcome : SendOutcome) {row : Row} (holds : property row) :
    Adds property output (output.trySend dropped outcome row) := by
  cases outcome with
  | room => exact push output holds
  | full => exact none rfl
  | closed => exact none rfl

theorem sendAll (dropped : FeedStatus → FeedStatus) (ilp : Nat → SendOutcome)
    (n : Nat) {rows : List (Bool × Row)} (output : Output Text)
    (holds : ∀ row ∈ rows.map Prod.snd, property row) :
    Adds property output (output.sendAll dropped ilp n rows).1 := by
  induction rows generalizing n output with
  | nil => exact none rfl
  | cons entry rows ih =>
      rcases entry with ⟨waits, row⟩
      have first : property row := holds row (by simp)
      have rest : ∀ row ∈ rows.map Prod.snd, property row :=
        fun row member => holds row (List.mem_cons_of_mem _ member)
      cases waits with
      | true =>
          rw [Output.sendAll, if_pos rfl]
          cases outcome : ilp n with
          | closed => exact none rfl
          | room => exact (push output first).trans (ih _ _ rest)
          | full => exact (push output first).trans (ih _ _ rest)
      | false =>
          rw [Output.sendAll, if_neg (by simp)]
          exact (trySend dropped output (ilp n) first).trans (ih _ _ rest)

end Adds

/-! ## Kalshi -/

/-- What a `cfbenchmarks_value_5hz` frame says of its row. -/
def indexStamp (nowMs : Int64) (value : CfValue5Hz) : Stamp where
  tsNs := ((value.sourceTsMs.or value.receivedAt).getD nowMs).toInt * 1000000
  receivedUs := value.receivedAt.map fun received => received.toInt * 1000
  seq := none

/-- What a `ticker` frame says of its row. -/
def tickerStamp (nowMs : Int64) (msg : TickerMsg) : Stamp where
  tsNs := (msg.tsMs.getD nowMs).toInt * 1000000
  receivedUs := some (nowMs.toInt * 1000)
  seq := none

/-- What an orderbook frame says of each of its rows. -/
def orderbookStamp (nowMs : Int64) (seq : UInt64) (msg : OrderbookMsg) :
    Stamp where
  tsNs := (msg.tsMs.getD nowMs).toInt * 1000000
  receivedUs := some (nowMs.toInt * 1000)
  seq := some seq.toNat

/-- What a Kalshi frame says of its rows, if it has any. -/
def kalshiStamp (moment : Moment) (env : Kalshi.Stream.Envelope) :
    Option Stamp :=
  let nowMs := timestampMillis moment.now
  if env.typ = "cfbenchmarks_value_5hz" then
    (CfValue5Hz.deserialize env.msg).map (indexStamp nowMs)
  else if env.typ = "ticker" then
    (TickerMsg.deserialize env.msg).map (tickerStamp nowMs)
  else
    (OrderbookMsg.deserialize env.msg).map (orderbookStamp nowMs env.seq)

theorem adds_handleIndex (moment : Moment) (text : Text)
    (env : Kalshi.Stream.Envelope) (output : Output Text) :
    Adds (fun row => stampOf row ∈
        (CfValue5Hz.deserialize env.msg).map
          (indexStamp (timestampMillis moment.now)))
      output (handleIndex moment text env output) := by
  unfold handleIndex
  cases read : CfValue5Hz.deserialize env.msg with
  | none => exact .none rfl
  | some value =>
      apply Adds.withStatus
      cases parsed : value.value with
      | none => exact .none rfl
      | some v =>
          exact Adds.trySend _ { output with shared := _ } _ rfl

theorem adds_handleTicker (moment : Moment) (env : Kalshi.Stream.Envelope)
    (session : Session) (output : Output Text) :
    Adds (fun row => stampOf row ∈
        (TickerMsg.deserialize env.msg).map
          (tickerStamp (timestampMillis moment.now)))
      output (Task.handleTicker moment env session output) := by
  unfold Task.handleTicker
  cases read : TickerMsg.deserialize env.msg with
  | none => exact .none rfl
  | some msg =>
      apply Adds.withStatus
      exact Adds.trySend _ output _ rfl

/-- Every row of an orderbook message has its stamp. -/
theorem stampOf_bookRows (market : Model.Market) (nowMs : Int64)
    (seq : UInt64) (msg : OrderbookMsg) :
    ∀ row ∈ Task.bookRows market nowMs seq msg,
      stampOf row = orderbookStamp nowMs seq msg := by
  intro row member
  unfold Task.bookRows at member
  split at member
  · rcases List.mem_append.mp member with yes | no
    · rcases List.mem_map.mp yes with ⟨level, -, rfl⟩
      rfl
    · rcases List.mem_map.mp no with ⟨level, -, rfl⟩
      rfl
  · split at member
    · rcases List.mem_singleton.mp member with rfl
      rfl
    · cases member

theorem adds_handleOrderbook (isSnapshot : Bool) (moment : Moment) (text : Text)
    (env : Kalshi.Stream.Envelope) (output : Output Text)
    (session : Session) :
    Adds (fun row => stampOf row ∈
        (OrderbookMsg.deserialize env.msg).map
          (orderbookStamp (timestampMillis moment.now) env.seq))
      output
      (handleOrderbook isSnapshot moment text env output session).output := by
  have stamped : ∀ row ∈ (framedRows isSnapshot (timestampMillis moment.now)
      env output.shared.market).map Prod.snd,
      stampOf row ∈ (OrderbookMsg.deserialize env.msg).map
        (orderbookStamp (timestampMillis moment.now) env.seq) := by
    intro row member
    cases read : OrderbookMsg.deserialize env.msg with
    | none => simp [framedRows, read] at member
    | some msg =>
        have listed : row ∈ Task.bookRows output.shared.market
            (timestampMillis moment.now) env.seq msg := by
          simpa [framedRows, read, Function.comp_def] using member
        exact congrArg some (stampOf_bookRows _ _ _ _ row listed).symm
  have sent := Adds.sendAll Task.countDropped moment.ilp 0
    (applyFrame isSnapshot text env output) stamped
  unfold handleOrderbook
  dsimp only
  split
  · exact .none rfl
  · split
    · exact sent
    · exact sent.withStatus _

/-- Every row of a Kalshi frame has the frame's stamp. -/
theorem adds_kalshi {readers : Readers Text} {text : Text}
    {env : Kalshi.Stream.Envelope}
    (read : (readers.fromStr text).bind Kalshi.Stream.Envelope.deserialize =
      some env)
    (moment : Moment) (output : Output Text) (session : Session) :
    Adds (fun row => stampOf row ∈ kalshiStamp moment env) output
      (Task.handleText readers moment text output session).output := by
  unfold Task.handleText kalshiStamp
  rw [read]
  dsimp only
  split
  · exact adds_handleIndex moment text env output
  · split
    · exact adds_handleTicker moment env session output
    · split
      · exact adds_handleOrderbook true moment text env output session
      · split
        · exact adds_handleOrderbook false moment text env output session
        · split
          · exact .none rfl
          · exact .none rfl

/-! ## Coinbase -/

/-- What a frame says of the rows of its tickers. -/
def sentStamp (stamps : Stamps) (sequenceNum : UInt64) : Stamp where
  tsNs := stamps.sentNs.toInt
  receivedUs := some (stamps.nowMs.toInt * 1000)
  seq := some sequenceNum.toNat

/-- What a level of a frame says of its row. -/
def levelStamp (parseFromRfc3339 : String → Option Int) (stamps : Stamps)
    (sequenceNum : UInt64) (u : L2Update) : Stamp where
  tsNs :=
    ((rfc3339Nanos parseFromRfc3339 u.eventTime).getD stamps.sentNs).toInt
  receivedUs := some (stamps.sentNs.toInt.tdiv 1000)
  seq := some sequenceNum.toNat

/-- What a Coinbase frame says of its rows. -/
def coinbaseStamps (parseFromRfc3339 : String → Option Int) (moment : Moment)
    (env : Coinbase.Stream.Envelope) : List Stamp :=
  let stamps := stampsOf parseFromRfc3339 moment env
  if env.channel = Coinbase.Stream.channelTicker then
    [sentStamp stamps env.sequenceNum]
  else
    (env.events.filterMap L2Event.deserialize).flatMap fun event =>
      event.updates.map (levelStamp parseFromRfc3339 stamps env.sequenceNum)

/-- The row of a level has the level's stamp. -/
theorem stampOf_levelRow {parseFromRfc3339 : String → Option Int}
    {stamps : Stamps} {sequenceNum : UInt64} {product : String}
    {kind : BookKind} {u : L2Update} {row : Row}
    (made : levelRow parseFromRfc3339 stamps sequenceNum product kind u =
      some row) :
    stampOf row = levelStamp parseFromRfc3339 stamps sequenceNum u := by
  simp only [levelRow, bind, Option.bind_eq_some_iff, pure,
    Option.some.injEq] at made
  rcases made with ⟨side, -, price, -, size, -, rfl⟩
  rfl

theorem stampOf_coinbaseRows {parseFromRfc3339 : String → Option Int}
    {stamps : Stamps} {product : String} {env : Coinbase.Stream.Envelope}
    {row : Row}
    (member : row ∈ (Coinbase.bookRows parseFromRfc3339 stamps product
      env).map Prod.snd) :
    stampOf row ∈
      (env.events.filterMap L2Event.deserialize).flatMap fun event =>
        event.updates.map
          (levelStamp parseFromRfc3339 stamps env.sequenceNum) := by
  rcases List.mem_map.mp member with ⟨entry, listed, rfl⟩
  rcases List.mem_flatMap.mp listed with ⟨event, read, made⟩
  apply List.mem_flatMap.mpr
  refine ⟨event, read, ?_⟩
  unfold eventRows at made
  split at made
  · cases made
  · split at made
    · cases made
    · rcases List.mem_map.mp made with ⟨row, kept, rfl⟩
      rcases List.mem_filterMap.mp kept with ⟨u, update, level⟩
      exact List.mem_map.mpr ⟨u, update, (stampOf_levelRow level).symm⟩

theorem adds_handleChannel (parseFromRfc3339 : String → Option Int)
    (moment : Moment) (product : String) (env : Coinbase.Stream.Envelope)
    (output : Output Text) :
    Adds (fun row => stampOf row ∈ coinbaseStamps parseFromRfc3339 moment env)
      output
      (handleChannel parseFromRfc3339 moment product env output).1 := by
  unfold handleChannel
  dsimp only
  split
  next ticker =>
    apply Adds.withStatus
    apply Adds.sendAll
    intro row member
    rw [List.map_map] at member
    rcases List.mem_map.mp member with ⟨row, made, rfl⟩
    rcases List.mem_map.mp made with ⟨t, -, rfl⟩
    rw [coinbaseStamps, if_pos ticker]
    exact List.mem_singleton.mpr rfl
  next other =>
    split
    · have stamped : ∀ row ∈ (Coinbase.bookRows parseFromRfc3339
          (stampsOf parseFromRfc3339 moment env) product env).map Prod.snd,
          stampOf row ∈ coinbaseStamps parseFromRfc3339 moment env := by
        intro row member
        rw [coinbaseStamps, if_neg other]
        exact stampOf_coinbaseRows member
      have sent := Adds.sendAll Coinbase.countDropped moment.ilp 0 output
        stamped
      split
      · exact sent
      · exact sent.withStatus _
    · split
      · exact .none rfl
      · exact .none rfl

/-- Every row of a Coinbase frame has one of the frame's stamps. -/
theorem adds_coinbase {readers : Readers Text} {text : Text}
    {env : Coinbase.Stream.Envelope}
    (read : (readers.fromStr text).bind Coinbase.Stream.Envelope.deserialize =
      some env)
    (moment : Moment) (product : String) (output : Output Text)
    (lastSeq : Option UInt64) :
    Adds (fun row =>
        stampOf row ∈ coinbaseStamps readers.parseFromRfc3339 moment env)
      output
      (Coinbase.handleText readers moment product text output
        lastSeq).output := by
  unfold Coinbase.handleText
  rw [read]
  dsimp only
  split
  · exact .none rfl
  · cases checked : (Coinbase.checkSeq env lastSeq).2 with
    | error e => exact .none rfl
    | ok done =>
        exact adds_handleChannel readers.parseFromRfc3339 moment product env
          output

/-! ## Both feeds -/

/--
The line of a row says what the row's frame says just if that is in range, for
every row that a frame of either feed queues.
-/
theorem stored_exactly_iff (Text : Type) :
    (∀ (readers : Readers Text) (moment : Moment) (text : Text)
        (output : Output Text) (session : Session)
        (env : Kalshi.Stream.Envelope),
      (readers.fromStr text).bind Kalshi.Stream.Envelope.deserialize =
        some env →
      Adds (fun row =>
          stampOf row ∈ kalshiStamp moment env ∧
            ((push row).stamp = stampOf row ↔ (stampOf row).InRange))
        output (Task.handleText readers moment text output session).output) ∧
    (∀ (readers : Readers Text) (moment : Moment) (product : String)
        (text : Text) (output : Output Text) (lastSeq : Option UInt64)
        (env : Coinbase.Stream.Envelope),
      (readers.fromStr text).bind Coinbase.Stream.Envelope.deserialize =
        some env →
      Adds (fun row =>
          stampOf row ∈ coinbaseStamps readers.parseFromRfc3339 moment env ∧
            ((push row).stamp = stampOf row ↔ (stampOf row).InRange))
        output
        (Coinbase.handleText readers moment product text output
          lastSeq).output) := by
  constructor
  · intro readers moment text output session env read
    apply (adds_kalshi read moment output session).mono
    exact fun row stamped => ⟨stamped, stamp_push_iff row⟩
  · intro readers moment product text output lastSeq env read
    apply (adds_coinbase read moment product output lastSeq).mono
    exact fun row stamped => ⟨stamped, stamp_push_iff row⟩

/-- A ticker whose time is an `i64` in milliseconds, but not in nanoseconds. -/
def lateTicker : Value :=
  dataFrame "ticker" 7 1 (.object [("market_ticker", .string "T"),
    ("ts_ms", .number (.posInt 9223372036855))])

theorem stored_exactly_lateTicker :
    Adds (fun row => ((push row).stamp = stampOf row ↔ (stampOf row).InRange))
        addedOutput
        (Task.handleText .parsed .calm lateTicker addedOutput
          Session.default).output ∧
      Adds (fun row =>
          ((push row).stamp = stampOf row ↔ (stampOf row).InRange))
        addedOutput
        (Coinbase.handleText .parsed .calm "BTC-USD" level2Frame addedOutput
          none).output := by
  constructor
  · apply Adds.mono
      ((stored_exactly_iff Value).1 .parsed .calm lateTicker addedOutput
        Session.default
        ((Kalshi.Stream.Envelope.deserialize lateTicker).get
          (by decide +kernel))
        (Option.some_get _).symm)
    exact fun row stamped => stamped.2
  · apply Adds.mono
      ((stored_exactly_iff Value).2 .parsed .calm "BTC-USD" level2Frame
        addedOutput none
        ((Coinbase.Stream.Envelope.deserialize level2Frame).get
          (by decide +kernel))
        (Option.some_get _).symm)
    exact fun row stamped => stamped.2

/-- The late ticker's line has a negative time, which the writer refuses. -/
theorem not_stored_exactly_lateTicker :
    ¬ ∀ (readers : Readers Value) (moment : Moment) (text : Value)
        (output : Output Value) (session : Session)
        (env : Kalshi.Stream.Envelope),
      (readers.fromStr text).bind Kalshi.Stream.Envelope.deserialize =
        some env →
      Adds (fun row =>
          stampOf row ∈ kalshiStamp moment env ∧
            (push row).stamp = stampOf row)
        output (Task.handleText readers moment text output session).output := by
  intro exactly
  rcases exactly .parsed .calm lateTicker addedOutput Session.default
      ((Kalshi.Stream.Envelope.deserialize lateTicker).get (by decide +kernel))
      (Option.some_get _).symm with ⟨rows, queued, holds⟩
  have exact_ : (Task.handleText .parsed .calm lateTicker addedOutput
      Session.default).output.ilp.map
        (fun row => decide ((push row).stamp = stampOf row)) = [false] := by
    decide +kernel
  rw [queued] at exact_
  have empty : addedOutput.ilp = [] := rfl
  rw [empty, List.nil_append] at exact_
  rcases List.map_eq_cons_iff.mp exact_ with ⟨row, rest, rfl, wrong, -⟩
  exact of_decide_eq_false wrong (holds row (by simp)).2

end ChudMoney.Feeds.ExactStamps
