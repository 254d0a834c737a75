import ChudMoney.Feeds.Shared
import ChudMoney.Lib.Runs

/-!
# One feed task: a Kalshi websocket session and its reconnects

`handleText` is the handler of one text frame.  It answers the new output and
session and whether the frame ended the session with an error; what the frame
changed before the error stays changed.

`feedStep` is one step of `run_feed`: a session is opened, handles a frame,
refreshes the open markets, or ends.
-/

namespace ChudMoney.Feeds.Task

open ChudMoney.Db.Rows
open ChudMoney.Feeds.Shared
open ChudMoney.Kalshi.Book
open ChudMoney.Kalshi.Client
open ChudMoney.Kalshi.Stream
open ChudMoney.Lib.Json
open ChudMoney.Lib.MachineInt
open ChudMoney.Lib.Text
open ChudMoney.Model

variable {Text : Type}

def sourceTicker : String := "ws_ticker"

def sourceBook : String := "ws_orderbook"

inductive Sub where
  | index
  | orderbook
  | ticker
  deriving DecidableEq

/-- Per-session bookkeeping. -/
structure Session where
  pending : HashMap Nat Sub
  orderbookSid : Option UInt64
  tickerSid : Option UInt64
  lastSeq : HashMap UInt64 UInt64
  strikes : HashMap String (Option F64)
  deriving DecidableEq

namespace Session

def default : Session := ⟨∅, none, none, ∅, ∅⟩

def setMarkets (session : Session) (markets : List OpenMarket) : Session :=
  { session with
    strikes := markets.foldl
      (fun strikes market => strikes.insert market.ticker market.floorStrike)
      ∅ }

/-- Sids of the per-market subscriptions to update on a rotation. -/
def marketSids (session : Session) : List UInt64 :=
  [session.orderbookSid, session.tickerSid].filterMap id

end Session

/-! ## Handling a frame -/

/-- What the handler of a frame leaves behind. -/
structure Handled (Text : Type) where
  output : Output Text
  session : Session
  result : Except String Unit

def countDropped (status : FeedStatus) : FeedStatus :=
  { status with droppedRows := status.droppedRows + 1 }

theorem droppedRows_iterate_countDropped (n : Nat) (status : FeedStatus) :
    (countDropped^[n] status).droppedRows = status.droppedRows + .ofNat n := by
  induction n generalizing status with
  | zero => exact (UInt64.add_zero _).symm
  | succ n ih =>
      rw [Function.iterate_succ_apply, ih, Nat.add_comm n 1,
        UInt64.ofNat_add, ← UInt64.add_assoc]
      rfl

def handleIndex (moment : Moment) (text : Text) (env : Envelope)
    (output : Output Text) : Output Text :=
  let output :=
    { output with
      shared := { output.shared with tickerTx := output.shared.tickerTx ++ [text] } }
  match CfValue5Hz.deserialize env.msg with
  | none => output
  | some value =>
      let parsed := value.value
      let nowMs := timestampMillis moment.now
      let output := match parsed with
        | some v =>
            output.trySend countDropped (moment.ilp 0) (.index {
              table := .live
              indexId := value.indexId
              value := v
              tsMs := (value.sourceTsMs.or value.receivedAt).getD nowMs
              receivedAtMs := value.receivedAt
              source := "ws_5hz" })
        | none => output
      output.withStatus fun status =>
        { status with
          tickerMsgs := status.tickerMsgs + 1
          lastValue := parsed.or status.lastValue
          lastMsgAt := some moment.later }

def handleTicker (moment : Moment) (env : Envelope) (session : Session)
    (output : Output Text) : Output Text :=
  match TickerMsg.deserialize env.msg with
  | none => output
  | some msg =>
      let nowMs := timestampMillis moment.now
      let output :=
        output.trySend countDropped (moment.ilp 0) (.contractTicker {
          seriesTicker := output.shared.market.seriesTicker
          floorStrike := session.strikes[msg.marketTicker]?.join
          ticker := msg.marketTicker
          price := decimal msg.priceDollars
          yesBid := decimal msg.yesBidDollars
          yesAsk := decimal msg.yesAskDollars
          yesBidSize := decimal msg.yesBidSizeFp
          yesAskSize := decimal msg.yesAskSizeFp
          lastTradeSize := decimal msg.lastTradeSizeFp
          volume := decimal msg.volumeFp
          openInterest := decimal msg.openInterestFp
          dollarVolume := msg.dollarVolume
          dollarOpenInterest := msg.dollarOpenInterest
          tsMs := msg.tsMs.getD nowMs
          receivedAtMs := nowMs
          source := sourceTicker })
      output.withStatus fun status =>
        { status with
          contractTickerMsgs := status.contractTickerMsgs + 1
          lastMsgAt := some moment.later }

/--
Enter the frame's `seq` as the last one of its subscription.  The result is
an error when it does not follow the one entered before.
-/
def checkSeq (env : Envelope) (lastSeq : HashMap UInt64 UInt64) :
    HashMap UInt64 UInt64 × Except String Unit :=
  match env.sid with
  | none => (lastSeq, .ok ())
  | some sid =>
      (lastSeq.insert sid env.seq,
        match lastSeq[sid]? with
        | none => .ok ()
        | some last =>
            let expected := last + 1
            let got := env.seq
            if got ≠ expected then
              .error s!"orderbook seq gap on sid {sid}: expected {expected}, got {got}"
            else .ok ())

/--
Apply a message to the book cached under its ticker.  A snapshot frame makes
a book where there is none; a delta before it is ignored.
-/
def cacheMsg (isSnapshot : Bool) (seq : UInt64) (msg : OrderbookMsg)
    (books : HashMap String OrderBook) : HashMap String OrderBook :=
  match books[msg.marketTicker]? with
  | some book => books.insert msg.marketTicker (book.applyMsg msg seq).1
  | none =>
      if isSnapshot then
        books.insert msg.marketTicker (OrderBook.default.applyMsg msg seq).1
      else books

/-- The row of one level or one change. -/
def bookRow (market : Market) (nowMs : Int64) (seq : UInt64)
    (msg : OrderbookMsg) (side : Side) (kind : BookKind) (price size : Int64) :
    Row :=
  .contractBook {
    seriesTicker := market.seriesTicker
    ticker := msg.marketTicker
    side := side.asStr
    kind := kind
    price := priceToDollars price
    size := qtyToContracts size
    seq := seq
    tsMs := msg.tsMs.getD nowMs
    receivedAtMs := nowMs
    source := sourceBook }

/-- The rows of an orderbook message. -/
def bookRows (market : Market) (nowMs : Int64) (seq : UInt64)
    (msg : OrderbookMsg) : List Row :=
  if msg.isSnapshot then
    let (yes, no) := msg.snapshotLevels
    yes.map (fun level =>
        bookRow market nowMs seq msg .yes .snapshot level.1 level.2) ++
      no.map fun level =>
        bookRow market nowMs seq msg .no .snapshot level.1 level.2
  else
    match msg.deltaParts with
    | some (side, price, delta) =>
        [bookRow market nowMs seq msg side .delta price delta]
    | none => []

/-- The cached books after an orderbook frame; a bad message is skipped. -/
def framedBooks (isSnapshot : Bool) (env : Envelope)
    (books : HashMap String OrderBook) : HashMap String OrderBook :=
  match OrderbookMsg.deserialize env.msg with
  | some msg => cacheMsg isSnapshot env.seq msg books
  | none => books

/--
The rows of an orderbook frame; a bad message has none.  Snapshot levels wait
for room in the queue, deltas do not.
-/
def framedRows (isSnapshot : Bool) (nowMs : Int64) (env : Envelope)
    (market : Market) : List (Bool × Row) :=
  match OrderbookMsg.deserialize env.msg with
  | some msg =>
      (bookRows market nowMs env.seq msg).map fun row => (isSnapshot, row)
  | none => []

/-- The update of the cache and the broadcast, made under one write lock. -/
def applyFrame (isSnapshot : Bool) (text : Text) (env : Envelope)
    (output : Output Text) : Output Text :=
  { output with
    shared := { output.shared with
      books := framedBooks isSnapshot env output.shared.books
      orderbookTx := output.shared.orderbookTx ++ [text] } }

/-- The handler of a frame of type `orderbook_snapshot` or `orderbook_delta`. -/
def handleOrderbook (isSnapshot : Bool) (moment : Moment) (text : Text)
    (env : Envelope) (output : Output Text) (session : Session) :
    Handled Text :=
  let checked := checkSeq env session.lastSeq
  let session := { session with lastSeq := checked.1 }
  match checked.2 with
  | .error e => ⟨output, session, .error e⟩
  | .ok () =>
      let nowMs := timestampMillis moment.now
      let rows := framedRows isSnapshot nowMs env output.shared.market
      let sent :=
        (applyFrame isSnapshot text env output).sendAll countDropped
          moment.ilp 0 rows
      match sent.2 with
      | .error e => ⟨sent.1, session, .error e⟩
      | .ok () =>
          ⟨sent.1.withStatus fun status =>
              { status with
                orderbookMsgs := status.orderbookMsgs + 1
                lastMsgAt := some moment.later },
            session, .ok ()⟩

def handleSubscribed (env : Envelope) (session : Session) : Session :=
  let sub := env.id.bind fun id => session.pending[id.toNat]?
  let session :=
    { session with
      pending := match env.id with
        | some id => session.pending.erase id.toNat
        | none => session.pending }
  match Subscribed.deserialize env.msg with
  | none => session
  | some reply =>
      if sub = some .orderbook ∨ reply.channel = channelOrderbook then
        { session with orderbookSid := some reply.sid }
      else if sub = some .ticker ∨ reply.channel = channelTicker then
        { session with tickerSid := some reply.sid }
      else session

/-- `handle_text`: the handler of one text frame. -/
def handleText (readers : Readers Text) (moment : Moment) (text : Text)
    (output : Output Text) (session : Session) : Handled Text :=
  match (readers.fromStr text).bind Envelope.deserialize with
  | none => ⟨output, session, .ok ()⟩
  | some env =>
      if env.typ = "cfbenchmarks_value_5hz" then
        ⟨handleIndex moment text env output, session, .ok ()⟩
      else if env.typ = "ticker" then
        ⟨handleTicker moment env session output, session, .ok ()⟩
      else if env.typ = "orderbook_snapshot" then
        handleOrderbook true moment text env output session
      else if env.typ = "orderbook_delta" then
        handleOrderbook false moment text env output session
      else if env.typ = "subscribed" then
        ⟨output, handleSubscribed env session, .ok ()⟩
      else
        ⟨output, session, .ok ()⟩

/-! ## The task -/

/-- The state of a feed task; `live` while a session is running. -/
structure Conn (Text : Type) where
  output : Output Text
  live : Bool
  session : Session
  cmdId : Nat
  subscribed : TickerSet
  sent : List Command

namespace Conn

/-- The state in which the registry spawns the task. -/
def spawned (market : Market) (coinbase : Option CoinbaseFeedStatus) :
    Conn Text where
  output :=
    { shared :=
        { market := market
          tickerTx := []
          orderbookTx := []
          books := ∅
          status := FeedStatus.default coinbase }
      ilp := [] }
  live := false
  session := Session.default
  cmdId := 0
  subscribed := ∅
  sent := []

def sendCmd (conn : Conn Text) (build : Nat → Command) : Conn Text :=
  { conn with
    cmdId := conn.cmdId + 1
    sent := conn.sent ++ [build (conn.cmdId + 1)] }

/-- The command just sent awaits its `subscribed` reply. -/
def await (conn : Conn Text) (sub : Sub) : Conn Text :=
  { conn with
    session := { conn.session with
      pending := conn.session.pending.insert conn.cmdId sub } }

/-- Subscribe both per-market channels. -/
def subscribeMarkets (conn : Conn Text) (opened : TickerSet) : Conn Text :=
  let conn := (conn.sendCmd fun id => subscribeOrderbook id opened).await .orderbook
  (conn.sendCmd fun id => subscribeTicker id opened).await .ticker

/-- The commands that bring one subscription up to date. -/
def updateSid (add del : TickerSet) (conn : Conn Text) (sid : UInt64) :
    Conn Text :=
  let conn :=
    if add.isEmpty then conn
    else conn.sendCmd fun id =>
      updateMarketsCmd id sid "add_markets" add.toList
  if del.isEmpty then conn
  else conn.sendCmd fun id =>
    updateMarketsCmd id sid "delete_markets" del.toList

/-- What `run_feed` does when a session ends. -/
def ended (conn : Conn Text) (outcome : Except String Unit) : Conn Text :=
  { conn with
    live := false
    output := conn.output.withStatus fun status =>
      { status with
        connected := false
        reconnects := status.reconnects + 1
        lastError := match outcome with
          | .ok () => status.lastError
          | .error e => some e } }

/-- The tickers of the open markets. -/
def openTickers (markets : List OpenMarket) : TickerSet :=
  .ofList (markets.map OpenMarket.ticker)

/--
A session up to its select loop.  `markets` is what the first poll of the open
markets answers.
-/
def connect (conn : Conn Text) (markets : Except String (List OpenMarket)) :
    Conn Text :=
  let conn :=
    { conn with
      live := true
      output := conn.output.withBooks ∅
      session := Session.default
      cmdId := 0
      subscribed := ∅
      sent := [] }
  let conn :=
    (conn.sendCmd fun id =>
      subscribeIndex id conn.output.shared.market.indexId).await .index
  match markets with
  | .error e => conn.ended (.error e)
  | .ok markets =>
      let conn := { conn with session := conn.session.setMarkets markets }
      let opened := openTickers markets
      let conn :=
        if opened.isEmpty then conn
        else { conn.subscribeMarkets opened with subscribed := opened }
      { conn with
        output := conn.output.withStatus fun status =>
          { status with
            connected := true
            lastError := none
            openTickers := conn.subscribed.toList
            openMarkets := markets } }

/-- The commands that take the subscriptions to a new set of open markets. -/
def resubscribe (conn : Conn Text) (opened add del : TickerSet) : Conn Text :=
  let sids := conn.session.marketSids
  if sids.isEmpty then
    if opened.isEmpty then conn else conn.subscribeMarkets opened
  else sids.foldl (updateSid add del) conn

/-- Take on a set of open markets that differs from the subscribed one. -/
def rotate (conn : Conn Text) (opened add del : TickerSet) : Conn Text :=
  let conn := conn.resubscribe opened add del
  let books := conn.output.shared.books
  { conn with
    subscribed := opened
    output :=
      (conn.output.withStatus fun status =>
        { status with openTickers := opened.toList }).withBooks
          (del.toList.foldl (fun books t => books.erase t) books) }

/-- The refresh branch of the select loop, for a poll that answered. -/
def refresh (conn : Conn Text) (markets : List OpenMarket) : Conn Text :=
  let conn :=
    { conn with
      session := conn.session.setMarkets markets
      output := conn.output.withStatus fun status =>
        { status with openMarkets := markets } }
  let opened := openTickers markets
  let add := opened \ conn.subscribed
  let del := conn.subscribed \ opened
  if add.isEmpty && del.isEmpty then conn else conn.rotate opened add del

end Conn

/-- What happens to the task next. -/
inductive FeedEvent (Text : Type) where
  | connect (markets : Except String (List OpenMarket))
  | text (moment : Moment) (text : Text)
  | refresh (markets : Except String (List OpenMarket))
  | ended (outcome : Except String Unit)

/--
One step of the task.  Frames and refreshes reach a running session only, and
a session is opened only after the one before it has ended.
-/
def feedStep (readers : Readers Text) (conn : Conn Text) :
    FeedEvent Text → Option (Conn Text)
  | .connect markets => if conn.live then none else some (conn.connect markets)
  | .text moment text =>
      if conn.live then
        let handled := handleText readers moment text conn.output conn.session
        let conn :=
          { conn with output := handled.output, session := handled.session }
        match handled.result with
        | .ok () => some conn
        | .error e => some (conn.ended (.error e))
      else none
  | .refresh markets =>
      if conn.live then
        match markets with
        | .ok markets => some (conn.refresh markets)
        | .error _ => some conn
      else none
  | .ended outcome => some (conn.ended outcome)

end ChudMoney.Feeds.Task
