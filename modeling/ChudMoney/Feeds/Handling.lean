import ChudMoney.Feeds.Frames

/-!
# What a text frame can do to a feed

A text is one of the five kinds of frames that the task knows, or it is
ignored.  `Handles` has one case for each kind, so that what a step of the
task does can be told by looking at six cases.
-/

namespace ChudMoney.Feeds.Handling

open ChudMoney.Db.Rows
open ChudMoney.Feeds.Frames
open ChudMoney.Feeds.Shared
open ChudMoney.Feeds.Task
open ChudMoney.Kalshi.Stream
open ChudMoney.Lib.Json
open ChudMoney.Lib.MachineInt
open ChudMoney.Lib.Text
open ChudMoney.Model

variable {Text : Type}

/-- The envelope of a text, if it is of this type. -/
def typed (readers : Readers Text) (typ : String) (text : Text) :
    Option Envelope :=
  ((readers.fromStr text).bind Envelope.deserialize).filter (·.typ = typ)

/-- The type of the frames of the index. -/
def indexType : String := "cfbenchmarks_value_5hz"

/-- The type of the ticker frames of contracts. -/
def tickerType : String := "ticker"

/-- The type of the replies to subscribes. -/
def subscribedType : String := "subscribed"

/-- What the handler of a text leaves behind, kind by kind. -/
inductive Handles (readers : Readers Text) (moment : Moment) (text : Text)
    (output : Output Text) (session : Session) : Handled Text → Prop where
  | index (env : Envelope) :
      typed readers indexType text = some env →
      Handles readers moment text output session
        ⟨handleIndex moment text env output, session, .ok ()⟩
  | ticker (env : Envelope) :
      typed readers tickerType text = some env →
      Handles readers moment text output session
        ⟨handleTicker moment env session output, session, .ok ()⟩
  | orderbook (isSnapshot : Bool) (env : Envelope) :
      bookFrame readers text = some (isSnapshot, env) →
      Handles readers moment text output session
        (handleOrderbook isSnapshot moment text env output session)
  | subscribed (env : Envelope) :
      typed readers subscribedType text = some env →
      Handles readers moment text output session
        ⟨output, handleSubscribed env session, .ok ()⟩
  | ignored :
      typed readers indexType text = none →
      typed readers tickerType text = none →
      bookFrame readers text = none →
      typed readers subscribedType text = none →
      Handles readers moment text output session ⟨output, session, .ok ()⟩

/-- A text has one type at most. -/
theorem typed_of_typed {readers : Readers Text} {typ other : String}
    {text : Text} {env : Envelope} (isTyped : typed readers typ text = some env)
    (differs : typ ≠ other) : typed readers other text = none := by
  rcases Option.filter_eq_some_iff.mp isTyped with ⟨read, named⟩
  have named : env.typ = typ := of_decide_eq_true named
  rw [typed, read, Option.filter_some, named]
  simp [differs]

/-- An orderbook frame has one of the two types. -/
theorem bookFrame_eq_some_iff {readers : Readers Text} {text : Text}
    {isSnapshot : Bool} {env : Envelope} :
    bookFrame readers text = some (isSnapshot, env) ↔
      (readers.fromStr text).bind Envelope.deserialize = some env ∧
        env.typ =
          if isSnapshot then "orderbook_snapshot" else "orderbook_delta" := by
  rw [bookFrame, Option.bind_eq_some_iff]
  constructor
  · rintro ⟨read, isRead, named⟩
    rw [orderbookType] at named
    split at named
    next snapshot =>
      cases named
      exact ⟨isRead, snapshot⟩
    next =>
      split at named
      next delta =>
        cases named
        exact ⟨isRead, delta⟩
      next => cases named
  · rintro ⟨isRead, named⟩
    refine ⟨env, isRead, ?_⟩
    cases isSnapshot with
    | true => simp [orderbookType, named]
    | false => simp [orderbookType, named]

/-- A text of another type is no orderbook frame. -/
theorem bookFrame_of_typed {readers : Readers Text} {typ : String}
    {text : Text} {env : Envelope} (isTyped : typed readers typ text = some env)
    (snapshot : typ ≠ "orderbook_snapshot") (delta : typ ≠ "orderbook_delta") :
    bookFrame readers text = none := by
  rcases Option.filter_eq_some_iff.mp isTyped with ⟨read, named⟩
  have named : env.typ = typ := of_decide_eq_true named
  rw [bookFrame, read, Option.bind_some, orderbookType, named,
    if_neg snapshot, if_neg delta]

/-- An orderbook frame is of no other type. -/
theorem typed_of_bookFrame {readers : Readers Text} {text : Text}
    {frame : Bool × Envelope} (framed : bookFrame readers text = some frame)
    {typ : String} (snapshot : typ ≠ "orderbook_snapshot")
    (delta : typ ≠ "orderbook_delta") : typed readers typ text = none := by
  cases read : typed readers typ text with
  | none => rfl
  | some env =>
      rw [bookFrame_of_typed read snapshot delta] at framed
      cases framed

theorem handles_handleText (readers : Readers Text) (moment : Moment)
    (text : Text) (output : Output Text) (session : Session) :
    Handles readers moment text output session
      (handleText readers moment text output session) := by
  rw [handleText]
  cases read : (readers.fromStr text).bind Envelope.deserialize with
  | none =>
      have nothing : ∀ typ, typed readers typ text = none := by
        intro typ
        rw [typed, read, Option.filter_none]
      refine .ignored (nothing _) (nothing _) ?_ (nothing _)
      rw [bookFrame, read, Option.bind_none]
  | some env =>
      have isTyped : ∀ {typ}, env.typ = typ →
          typed readers typ text = some env := by
        intro typ named
        rw [typed, read, Option.filter_some]
        simp [named]
      have notTyped : ∀ {typ}, env.typ ≠ typ →
          typed readers typ text = none := by
        intro typ other
        rw [typed, read, Option.filter_some]
        simp [other]
      dsimp only
      split
      next index => exact .index env (isTyped index)
      next notIndex =>
        split
        next ticker => exact .ticker env (isTyped ticker)
        next notTicker =>
          split
          next snapshot =>
            exact .orderbook true env
              (bookFrame_eq_some_iff.mpr ⟨read, snapshot⟩)
          next notSnapshot =>
            split
            next delta =>
              exact .orderbook false env
                (bookFrame_eq_some_iff.mpr ⟨read, delta⟩)
            next notDelta =>
              split
              next subscribed => exact .subscribed env (isTyped subscribed)
              next notSubscribed =>
                refine .ignored (notTyped notIndex) (notTyped notTicker) ?_
                  (notTyped notSubscribed)
                rw [bookFrame, read, Option.bind_some, orderbookType,
                  if_neg notSnapshot, if_neg notDelta]

/-- A text that a running session takes: what was handled, and how it ended. -/
theorem feedStep_text_eq_some {readers : Readers Text} {conn next : Conn Text}
    {moment : Moment} {text : Text}
    (taken : feedStep readers conn (.text moment text) = some next) :
    let handled := handleText readers moment text conn.output conn.session
    let after :=
      { conn with output := handled.output, session := handled.session }
    conn.live = true ∧
      (handled.result = .ok () ∧ next = after ∨
        ∃ e, handled.result = .error e ∧ next = after.ended (.error e)) := by
  intro handled after
  simp only [feedStep] at taken
  split at taken
  case isFalse => cases taken
  next live =>
    refine ⟨live, ?_⟩
    split at taken
    next done =>
      cases taken
      exact .inl ⟨done, rfl⟩
    next e failed =>
      cases taken
      exact .inr ⟨e, failed, rfl⟩

/-! ## Index frames -/

/-- The row of a value of the index. -/
def indexRow (moment : Moment) (value : CfValue5Hz) (v : F64) : Row :=
  .index {
    table := .live
    indexId := value.indexId
    value := v
    tsMs :=
      (value.sourceTsMs.or value.receivedAt).getD (timestampMillis moment.now)
    receivedAtMs := value.receivedAt
    source := "ws_5hz" }

/-- The row of a frame of the index, if its value can be read. -/
def indexRows (moment : Moment) (value : CfValue5Hz) : List (Bool × Row) :=
  (value.value.map fun v => (false, indexRow moment value v)).toList

/-- The output once a frame of the index is broadcast. -/
def broadcastIndex (text : Text) (output : Output Text) : Output Text :=
  { output with
    shared :=
      { output.shared with tickerTx := output.shared.tickerTx ++ [text] } }

/-- A frame of the index is broadcast; its row is sent and it is counted. -/
theorem handleIndex_eq (moment : Moment) (text : Text) (env : Envelope)
    (output : Output Text) :
    handleIndex moment text env output =
      match CfValue5Hz.deserialize env.msg with
      | none => broadcastIndex text output
      | some value =>
          ((broadcastIndex text output).sendAll countDropped moment.ilp 0
            (indexRows moment value)).1.withStatus fun status =>
              { status with
                tickerMsgs := status.tickerMsgs + 1
                lastValue := value.value.or status.lastValue
                lastMsgAt := some moment.later } := by
  rw [handleIndex]
  cases CfValue5Hz.deserialize env.msg with
  | none => rfl
  | some value =>
      dsimp only
      rw [indexRows]
      cases value.value with
      | none => rfl
      | some v => rfl

/-! ## Ticker frames -/

/-- The row of a ticker frame. -/
def tickerRow (moment : Moment) (market : Market) (session : Session)
    (msg : TickerMsg) : Row :=
  .contractTicker {
    seriesTicker := market.seriesTicker
    floorStrike := session.strikes[msg.marketTicker]?.join
    ticker := msg.marketTicker
    price := decimal msg.priceDollars
    yesBid := decimal msg.yesBidDollars
    yesAsk := decimal msg.yesAskDollars
    yesBidSize := decimal msg.yesBidSizeFp
    yesAskSize := decimal msg.yesAskSizeFp
    lastTradeSize := decimal msg.lastTradeSizeFp
    volume := decimal msg.volumeFp
    openInterest := decimal msg.openInterestFp
    dollarVolume := msg.dollarVolume
    dollarOpenInterest := msg.dollarOpenInterest
    tsMs := msg.tsMs.getD (timestampMillis moment.now)
    receivedAtMs := timestampMillis moment.now
    source := sourceTicker }

/-- The row of a ticker frame is sent, and the frame is counted. -/
theorem handleTicker_eq (moment : Moment) (env : Envelope) (session : Session)
    (output : Output Text) :
    handleTicker moment env session output =
      match TickerMsg.deserialize env.msg with
      | none => output
      | some msg =>
          (output.sendAll countDropped moment.ilp 0
            [(false, tickerRow moment output.shared.market session
              msg)]).1.withStatus fun status =>
                { status with
                  contractTickerMsgs := status.contractTickerMsgs + 1
                  lastMsgAt := some moment.later } := by
  rw [handleTicker]
  cases TickerMsg.deserialize env.msg with
  | none => rfl
  | some msg => rfl

end ChudMoney.Feeds.Handling
