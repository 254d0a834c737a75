import ChudMoney.Coinbase.Stream
import ChudMoney.Feeds.Shared

/-!
# The Coinbase half of a market's feed

`handleText` is the handler of one text frame of a session that streams one
spot product.  A frame's rows are sent in order; the rows of a snapshot wait
for room in the queue.
-/

namespace ChudMoney.Feeds.Coinbase

open ChudMoney.Coinbase.Stream
open ChudMoney.Db.Rows
open ChudMoney.Feeds.Shared
open ChudMoney.Lib.Json
open ChudMoney.Lib.MachineInt
open ChudMoney.Lib.Text

variable {Text : Type}

def sourceTicker : String := "ws_ticker"

def sourceBook : String := "ws_level2"

/-- A change of the Coinbase half of the status, if the market has one. -/
def withStatus (f : CoinbaseFeedStatus → CoinbaseFeedStatus)
    (status : FeedStatus) : FeedStatus :=
  { status with coinbase := status.coinbase.map f }

def countDropped : FeedStatus → FeedStatus :=
  withStatus fun cb => { cb with droppedRows := cb.droppedRows + 1 }

/-- A change of the other fields of the half. -/
theorem coinbase_withStatus {Field : Type} {field : CoinbaseFeedStatus → Field}
    {f : CoinbaseFeedStatus → CoinbaseFeedStatus}
    (keeps : ∀ cb, field (f cb) = field cb) (status : FeedStatus) :
    (withStatus f status).coinbase.map field = status.coinbase.map field := by
  rw [withStatus]
  cases status.coinbase with
  | none => rfl
  | some cb => exact congrArg some (keeps cb)

/-- The drops counted in the Coinbase half of a status. -/
def coinbaseDropped (status : FeedStatus) : Option UInt64 :=
  status.coinbase.map CoinbaseFeedStatus.droppedRows

theorem coinbaseDropped_withStatus
    {f : CoinbaseFeedStatus → CoinbaseFeedStatus}
    (keeps : ∀ cb, (f cb).droppedRows = cb.droppedRows)
    (status : FeedStatus) :
    coinbaseDropped (withStatus f status) = coinbaseDropped status :=
  coinbase_withStatus keeps status

theorem coinbaseDropped_iterate_countDropped (n : Nat) (status : FeedStatus) :
    coinbaseDropped (countDropped^[n] status) =
      (coinbaseDropped status).map (· + .ofNat n) := by
  induction n generalizing status with
  | zero =>
      rw [Function.iterate_zero_apply]
      cases coinbaseDropped status with
      | none => rfl
      | some dropped => exact congrArg some (UInt64.add_zero _).symm
  | succ n ih =>
      rw [Function.iterate_succ_apply, ih, coinbaseDropped, countDropped,
        withStatus, coinbaseDropped]
      cases status.coinbase with
      | none => rfl
      | some cb =>
          simp only [Option.map_some]
          rw [Nat.add_comm n 1, UInt64.ofNat_add, ← UInt64.add_assoc]
          rfl

/-! ## Rows -/

/-- The two clocks of a frame: when it was handled and when it was sent. -/
structure Stamps where
  nowMs : Int64
  sentNs : Int64

/-- The tickers of a frame that are about the product. -/
def productTickers (product : String) (events : List Value) : List Ticker :=
  (events.filterMap TickerEvent.deserialize).flatMap fun event =>
    event.tickers.filter fun t => t.productId = product

def tickerRow (stamps : Stamps) (sequenceNum : UInt64) (t : Ticker) : Row :=
  .coinbaseTicker {
    product := t.productId
    price := decimal t.price
    bestBid := decimal t.bestBid
    bestAsk := decimal t.bestAsk
    bestBidQty := decimal t.bestBidQuantity
    bestAskQty := decimal t.bestAskQuantity
    volume24h := decimal t.volume24h
    low24h := decimal t.low24h
    high24h := decimal t.high24h
    low52w := decimal t.low52w
    high52w := decimal t.high52w
    pctChg24h := decimal t.pricePercentChg24h
    sequenceNum := sequenceNum
    tsNs := stamps.sentNs
    receivedAtMs := stamps.nowMs
    source := sourceTicker }

/-- What a level2 event of a known type stores its levels as. -/
def eventKind (typ : String) : Option BookKind :=
  if typ = "snapshot" then some .snapshot
  else if typ = "update" then some .update
  else none

/-- A side as Coinbase names it. -/
def levelSide (side : String) : Option String :=
  if side = "bid" then some "bid"
  else if side = "offer" then some "offer"
  else none

/-- The row of one level; `None` when its side, price or size is malformed. -/
def levelRow (parseFromRfc3339 : String → Option Int) (stamps : Stamps)
    (sequenceNum : UInt64) (product : String) (kind : BookKind)
    (u : L2Update) : Option Row := do
  let side ← levelSide u.side
  let price ← F64.parseTrimmed u.priceLevel
  let size ← F64.parseTrimmed u.newQuantity
  return .coinbaseBook {
    product := product
    side := side
    kind := kind
    price := price
    size := size
    sequenceNum := sequenceNum
    tsNs := (rfc3339Nanos parseFromRfc3339 u.eventTime).getD stamps.sentNs
    receivedAtNs := stamps.sentNs
    source := sourceBook }

/-- The rows of one level2 event, and whether they wait for room. -/
def eventRows (parseFromRfc3339 : String → Option Int) (stamps : Stamps)
    (sequenceNum : UInt64) (product : String) (event : L2Event) :
    List (Bool × Row) :=
  if event.productId ≠ product then []
  else
    match eventKind event.typ with
    | none => []
    | some kind =>
        (event.updates.filterMap
          (levelRow parseFromRfc3339 stamps sequenceNum event.productId
            kind)).map fun row => (kind = .snapshot, row)

/-- The rows of a level2 frame; a bad event is skipped. -/
def bookRows (parseFromRfc3339 : String → Option Int) (stamps : Stamps)
    (product : String) (env : Envelope) : List (Bool × Row) :=
  (env.events.filterMap L2Event.deserialize).flatMap
    (eventRows parseFromRfc3339 stamps env.sequenceNum product)

/-! ## Handling a frame -/

/-- What the handler of a frame leaves behind. -/
structure Handled (Text : Type) where
  output : Output Text
  lastSeq : Option UInt64
  result : Except String Unit

/--
Enter the frame's number as the last one of the connection.  The result is an
error when it does not follow the one entered before.
-/
def checkSeq (env : Envelope) (lastSeq : Option UInt64) :
    Option UInt64 × Except String Unit :=
  (some env.sequenceNum,
    match lastSeq with
    | none => .ok ()
    | some last =>
        let expected := last + 1
        let got := env.sequenceNum
        if got ≠ expected then
          .error s!"coinbase sequence gap: expected {expected}, got {got}"
        else .ok ())

def handleTicker (moment : Moment) (stamps : Stamps) (product : String)
    (env : Envelope) (output : Output Text) : Output Text :=
  let tickers := productTickers product env.events
  let lastPrice :=
    tickers.foldl (fun last t => (decimal t.price).or last) none
  let rows := tickers.map (tickerRow stamps env.sequenceNum)
  let sent :=
    output.sendAll countDropped moment.ilp 0 (rows.map fun row => (false, row))
  sent.1.withStatus (withStatus fun cb =>
    { cb with
      tickerMsgs := cb.tickerMsgs + 1
      lastPrice := lastPrice.or cb.lastPrice
      lastMsgAt := some moment.now })

/-- The clocks of a frame; one that does not say when it was sent was now. -/
def stampsOf (parseFromRfc3339 : String → Option Int) (moment : Moment)
    (env : Envelope) : Stamps :=
  let nowNs := (timestampNanosOpt moment.now).getD 0
  { nowMs := timestampMillis moment.now
    sentNs := (rfc3339Nanos parseFromRfc3339 env.timestamp).getD nowNs }

/-- The channels of a frame whose number has been checked. -/
def handleChannel (parseFromRfc3339 : String → Option Int) (moment : Moment)
    (product : String) (env : Envelope) (output : Output Text) :
    Output Text × Except String Unit :=
  let stamps := stampsOf parseFromRfc3339 moment env
  if env.channel = channelTicker then
    (handleTicker moment stamps product env output, .ok ())
  else if env.channel = channelL2Data then
    let sent :=
      output.sendAll countDropped moment.ilp 0
        (bookRows parseFromRfc3339 stamps product env)
    match sent.2 with
    | .error e => (sent.1, .error e)
    | .ok () =>
        (sent.1.withStatus (withStatus fun cb =>
          { cb with bookMsgs := cb.bookMsgs + 1, lastMsgAt := some moment.now }),
          .ok ())
  else if env.channel = channelHeartbeats then
    (output.withStatus (withStatus fun cb =>
      { cb with lastMsgAt := some moment.now }), .ok ())
  else
    (output, .ok ())

/-- `handle_text`: the handler of one text frame. -/
def handleText (readers : Readers Text) (moment : Moment) (product : String)
    (text : Text) (output : Output Text) (lastSeq : Option UInt64) :
    Handled Text :=
  match (readers.fromStr text).bind Envelope.deserialize with
  | none => ⟨output, lastSeq, .ok ()⟩
  | some env =>
      if env.channel.isEmpty then ⟨output, lastSeq, .ok ()⟩
      else
        let checked := checkSeq env lastSeq
        match checked.2 with
        | .error e => ⟨output, checked.1, .error e⟩
        | .ok () =>
            let handled :=
              handleChannel readers.parseFromRfc3339 moment product env output
            ⟨handled.1, checked.1, handled.2⟩

/-! ## The task -/

/-- The state of a Coinbase task; `live` while a session is running. -/
structure CoinbaseConn (Text : Type) where
  output : Output Text
  live : Bool
  lastSeq : Option UInt64
  sent : List Value

/-- A session up to its select loop. -/
def CoinbaseConn.connect (product : String) (jwt : String → Option String)
    (conn : CoinbaseConn Text) : CoinbaseConn Text where
  output := conn.output.withStatus (withStatus fun cb =>
    { cb with connected := true, lastError := none })
  live := true
  lastSeq := none
  sent := [channelHeartbeats, channelTicker, channelLevel2].map
    fun channel => subscribeCmd channel product (jwt channel)

/-- What `run_coinbase_feed` does when a session ends. -/
def CoinbaseConn.ended (conn : CoinbaseConn Text)
    (outcome : Except String Unit) : CoinbaseConn Text :=
  { conn with
    live := false
    output := conn.output.withStatus (withStatus fun cb =>
      { cb with
        connected := false
        reconnects := cb.reconnects + 1
        lastError := match outcome with
          | .ok () => cb.lastError
          | .error e => some e }) }

/-- What happens to the task next. -/
inductive CoinbaseEvent (Text : Type) where
  | connect (jwt : String → Option String)
  | text (moment : Moment) (text : Text)
  | ended (outcome : Except String Unit)

/-- One step of the task. -/
def coinbaseStep (readers : Readers Text) (product : String)
    (conn : CoinbaseConn Text) :
    CoinbaseEvent Text → Option (CoinbaseConn Text)
  | .connect jwt =>
      if conn.live then none else some (conn.connect product jwt)
  | .text moment text =>
      if conn.live then
        let handled :=
          handleText readers moment product text conn.output conn.lastSeq
        let conn :=
          { conn with output := handled.output, lastSeq := handled.lastSeq }
        match handled.result with
        | .ok () => some conn
        | .error e => some (conn.ended (.error e))
      else none
  | .ended outcome => some (conn.ended outcome)

end ChudMoney.Feeds.Coinbase
