import ChudMoney.Feeds.Accounting
import ChudMoney.Feeds.Coinbase
import ChudMoney.Feeds.Level2Log

/-!
# Every row of a Coinbase task is queued or counted

The Coinbase task offers its rows to the same bounded queue, and counts what
it drops in its own half of the status.
-/

namespace ChudMoney.Feeds.CoinbaseAccounting

open ChudMoney.Coinbase.Stream
open ChudMoney.Db.Rows
open ChudMoney.Feeds.Accounting
open ChudMoney.Feeds.Coinbase
open ChudMoney.Feeds.Level2Log (bidFrame clockReaders)
open ChudMoney.Feeds.Shared
open ChudMoney.Feeds.Task (Conn FeedEvent feedStep)
open ChudMoney.Kalshi.Book (bookMsg wholeLevels)
open ChudMoney.Lib.Json
open ChudMoney.Lib.Runs
open ChudMoney.Lib.Shedding
open ChudMoney.Model

variable {Text : Type}

/-! ## The rows of a text -/

/-- The rows that a channel makes of a frame whose number is in order. -/
def channelRows (readers : Readers Text) (product : String)
    (moment : Moment) (env : Envelope) : List (Bool × Row) :=
  let stamps := stampsOf readers.parseFromRfc3339 moment env
  if env.channel = channelTicker then
    ((productTickers product env.events).map
      (tickerRow stamps env.sequenceNum)).map fun row => (false, row)
  else if env.channel = channelL2Data then
    bookRows readers.parseFromRfc3339 stamps product env
  else []

/-- The rows made of a text, in a session that takes it. -/
def madeOf (readers : Readers Text) (product : String)
    (lastSeq : Option UInt64) (moment : Moment) (text : Text) :
    List (Bool × Row) :=
  match (readers.fromStr text).bind Envelope.deserialize with
  | none => []
  | some env =>
      if env.channel.isEmpty then []
      else
        match (checkSeq env lastSeq).2 with
        | .error _ => []
        | .ok () => channelRows readers product moment env

/-- The rows that a step of the task makes. -/
def made (readers : Readers Text) (product : String)
    (conn : CoinbaseConn Text) : CoinbaseEvent Text → List (Bool × Row)
  | .text moment text => madeOf readers product conn.lastSeq moment text
  | .connect _ | .ended _ => []

theorem shed_handleChannel (readers : Readers Text) (product : String)
    {moment : Moment} (alive : Alive moment) (env : Envelope)
    (output : Output Text) :
    Shed coinbaseDropped output
        (handleChannel readers.parseFromRfc3339 moment product env output).1
        (channelRows readers product moment env) ∧
      (handleChannel readers.parseFromRfc3339 moment product env
        output).2 = .ok () := by
  rw [handleChannel, channelRows]
  dsimp only
  by_cases ticker : env.channel = channelTicker
  · rw [if_pos ticker, if_pos ticker]
    refine ⟨?_, rfl⟩
    exact .sendAll coinbaseDropped_iterate_countDropped output output alive _ rfl rfl _
      (coinbaseDropped_withStatus fun _ => rfl)
  rw [if_neg ticker, if_neg ticker]
  by_cases level2 : env.channel = channelL2Data
  · rw [if_pos level2, if_pos level2]
    have done := Output.sendAll_ok countDropped alive 0
      (bookRows readers.parseFromRfc3339
        (stampsOf readers.parseFromRfc3339 moment env) product env) output
    simp only [done]
    refine ⟨?_, trivial⟩
    exact .sendAll coinbaseDropped_iterate_countDropped output output alive _ rfl rfl _
      (coinbaseDropped_withStatus fun _ => rfl)
  rw [if_neg level2, if_neg level2]
  by_cases heartbeats : env.channel = channelHeartbeats
  · rw [if_pos heartbeats]
    refine ⟨.nothing rfl ?_, rfl⟩
    apply coinbaseDropped_withStatus
    intro cb
    rfl
  · rw [if_neg heartbeats]
    exact ⟨.nothing rfl rfl, rfl⟩

theorem shed_handleText (readers : Readers Text) (product : String)
    {moment : Moment} (alive : Alive moment) (text : Text)
    (output : Output Text) (lastSeq : Option UInt64) :
    Shed coinbaseDropped output
      (handleText readers moment product text output lastSeq).output
      (madeOf readers product lastSeq moment text) := by
  rw [handleText, madeOf]
  cases (readers.fromStr text).bind Envelope.deserialize with
  | none => exact .nothing rfl rfl
  | some env =>
      dsimp only
      by_cases noChannel : env.channel.isEmpty
      · rw [if_pos noChannel, if_pos noChannel]
        exact .nothing rfl rfl
      rw [if_neg noChannel, if_neg noChannel]
      cases (checkSeq env lastSeq).2 with
      | error e => exact .nothing rfl rfl
      | ok _ => exact (shed_handleChannel readers product alive env output).1

/-! ## Runs of the task -/

/-- A step whose rows, if any, go to a writer that is not gone. -/
def WriterAlive : CoinbaseEvent Text → Prop
  | .text moment _ => Alive moment
  | .connect _ | .ended _ => True

/-- The state in which the registry spawns the task. -/
def spawned (market : Market) (product : String) : CoinbaseConn Text where
  output :=
    (Conn.spawned market (some (CoinbaseFeedStatus.default product))).output
  live := false
  lastSeq := none
  sent := []

theorem Shed.ended {before : Output Text} (conn : CoinbaseConn Text)
    {rows : List (Bool × Row)}
    (shed : Shed coinbaseDropped before conn.output rows)
    (outcome : Except String Unit) :
    Shed coinbaseDropped before (conn.ended outcome).output rows := by
  rcases shed.sheds with ⟨queued, count, sheds, ilp, dropped⟩
  refine ⟨queued, count, sheds, ilp, ?_⟩
  rw [← dropped]
  apply coinbaseDropped_withStatus
  intro cb
  rfl

/-- A step queues or counts every row that it makes. -/
theorem shed_coinbaseStep {readers : Readers Text} {product : String}
    {conn next : CoinbaseConn Text} {event : CoinbaseEvent Text}
    (alive : WriterAlive event)
    (taken : coinbaseStep readers product conn event = some next) :
    Shed coinbaseDropped conn.output next.output
      (made readers product conn event) := by
  cases event with
  | text moment text =>
      have shed :=
        shed_handleText readers product alive text conn.output conn.lastSeq
      simp only [coinbaseStep] at taken
      split at taken
      · split at taken
        · cases taken
          exact shed
        next e _ =>
          cases taken
          exact Shed.ended _ shed (.error e)
      · cases taken
  | connect jwt =>
      simp only [coinbaseStep] at taken
      split at taken
      · cases taken
      · cases taken
        refine .nothing rfl ?_
        apply coinbaseDropped_withStatus
        intro cb
        rfl
  | ended outcome =>
      cases taken
      exact Shed.ended conn (.nothing rfl rfl) outcome

theorem accounted_coinbase {readers : Readers Text} {product : String}
    {market : Market} {events : List (CoinbaseEvent Text)}
    {final : CoinbaseConn Text}
    (alive : ∀ event ∈ events, WriterAlive event)
    (reached : run (coinbaseStep readers product) (spawned market product)
      events = some final) :
    Accounted coinbaseDropped
      (observed (coinbaseStep readers product) (made readers product)
        (spawned market product) events)
      final.output :=
  observed_of_guarded
    (fun conn rows => Accounted coinbaseDropped rows conn.output)
    (fun _ _ _ _ accounted alive taken =>
      (shed_coinbaseStep alive taken).accounted accounted)
    ⟨0, rfl, Sheds.nil⟩ (guarded_of_forall_mem alive) reached

/-! ## Both tasks of a market -/

/--
Over a whole run of either task the rows it made are queued in order or
counted in its own half of the status, in 64 bits, and the levels of snapshots
are all queued.
-/
theorem rows_queued_or_counted (readers : Readers Text) (market : Market) :
    (∀ (coinbase : Option CoinbaseFeedStatus) (events : List (FeedEvent Text))
        (final : Conn Text),
      (∀ event ∈ events, Accounting.WriterAlive event) →
      run (feedStep readers) (Conn.spawned market coinbase) events =
        some final →
      let rows := observed (feedStep readers) (Accounting.made readers)
        (Conn.spawned market coinbase) events
      final.output.ilp.Sublist (rows.map Prod.snd) ∧
        ((rows.filter Prod.fst).map Prod.snd).Sublist final.output.ilp ∧
        final.output.shared.status.droppedRows =
          .ofNat (rows.length - final.output.ilp.length)) ∧
    ∀ (product : String) (events : List (CoinbaseEvent Text))
        (final : CoinbaseConn Text),
      (∀ event ∈ events, WriterAlive event) →
      run (coinbaseStep readers product) (spawned market product) events =
        some final →
      let rows := observed (coinbaseStep readers product)
        (made readers product) (spawned market product) events
      final.output.ilp.Sublist (rows.map Prod.snd) ∧
        ((rows.filter Prod.fst).map Prod.snd).Sublist final.output.ilp ∧
        ∃ cb, final.output.shared.status.coinbase = some cb ∧
          cb.droppedRows =
            .ofNat (rows.length - final.output.ilp.length) := by
  constructor
  · intro coinbase events final alive reached rows
    rcases (accounted_feed alive reached).rows with
      ⟨sublist, waiting, counted⟩
    exact ⟨sublist, waiting, Option.some.inj counted⟩
  · intro product events final alive reached rows
    rcases (accounted_coinbase alive reached).rows with
      ⟨sublist, waiting, counted⟩
    rcases Option.map_eq_some_iff.mp counted with ⟨cb, half, isCount⟩
    exact ⟨sublist, waiting, cb, half, isCount⟩

/-! ## A queue with no room -/

/-- A moment at which the queue has room for no row. -/
def crowded : Moment := ⟨0, 0, fun _ => .full⟩

/-- A snapshot and an update of a book, then the snapshot of a new session. -/
def crowdedFrames : List (FeedEvent Value) :=
  [.connect (.ok [.named "T"]),
    .text crowded (Kalshi.Stream.dataFrame "orderbook_snapshot" 7 1
      (bookMsg "T" [("yes", wholeLevels [(47, 120)])])),
    .text crowded (Kalshi.Stream.dataFrame "orderbook_delta" 7 2
      (bookMsg "T" [("side", .string "no"),
        ("price_dollars", .string "0.5210"), ("delta_fp", .string "3.50")])),
    .ended (.error "websocket read failed"),
    .connect (.ok [.named "T"]),
    .text .calm (Kalshi.Stream.dataFrame "orderbook_snapshot" 7 1
      (bookMsg "T" [("yes", wholeLevels [(47, 120)])]))]

/-- A heartbeat between two frames of a book. -/
def crowdedChannels : List (CoinbaseEvent Value) :=
  [.connect fun _ => none,
    .text crowded (bidFrame 0 "snapshot" "2024-01-15T10:30:45Z" "1.5"),
    .text crowded (serverFrame "heartbeats" 1 []),
    .text crowded (bidFrame 2 "update" "2024-01-15T10:30:46Z" "0.25")]

theorem rows_queued_or_counted_crowded :
    (∃ final, run (feedStep .parsed) (Conn.spawned btc15m none)
        crowdedFrames = some final ∧
      final.output.shared.status.droppedRows = 1 ∧
      final.output.shared.status.droppedRows =
        .ofNat ((observed (feedStep .parsed) (Accounting.made .parsed)
          (Conn.spawned btc15m none) crowdedFrames).length -
            final.output.ilp.length)) ∧
    ∃ final, run (coinbaseStep clockReaders "BTC-USD")
        (spawned btc15m "BTC-USD") crowdedChannels = some final ∧
      ∃ cb, final.output.shared.status.coinbase = some cb ∧
        cb.droppedRows =
          .ofNat ((observed (coinbaseStep clockReaders "BTC-USD")
            (made clockReaders "BTC-USD") (spawned btc15m "BTC-USD")
            crowdedChannels).length - final.output.ilp.length) := by
  have full : Alive crowded := fun _ => by simp [crowded]
  have calm : Alive .calm := fun _ => by simp [Moment.calm]
  constructor
  · have runs :
        (run (feedStep .parsed) (Conn.spawned btc15m none)
          crowdedFrames).map
            (fun final => final.output.shared.status.droppedRows) =
          some 1 := by
      decide +kernel
    rcases Option.map_eq_some_iff.mp runs with ⟨final, reached, dropped⟩
    have accounted := (rows_queued_or_counted .parsed btc15m).1 none
      crowdedFrames final (by simp [crowdedFrames,
        Accounting.WriterAlive, full, calm]) reached
    exact ⟨final, reached, dropped, accounted.2.2⟩
  · have runs :
        (run (coinbaseStep clockReaders "BTC-USD")
          (spawned btc15m "BTC-USD") crowdedChannels).isSome := by
      decide +kernel
    rcases Option.isSome_iff_exists.mp runs with ⟨final, reached⟩
    have accounted := (rows_queued_or_counted clockReaders btc15m).2
      "BTC-USD" crowdedChannels final (by simp [crowdedChannels, WriterAlive,
        full]) reached
    exact ⟨final, reached, accounted.2.2⟩

end ChudMoney.Feeds.CoinbaseAccounting
