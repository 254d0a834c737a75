import ChudMoney.Lib.Json
import Std.Data.ExtTreeSet

/-!
# Wire types of the Kalshi v2 websocket

Server messages share one envelope.  A client message is a command; it is sent
as the compact JSON text of `Command.toJson`.  Command ids count up from 1 in
each session and are natural numbers here.
-/

namespace ChudMoney.Kalshi.Stream

open ChudMoney.Lib.Json
open ChudMoney.Lib.Text

def channelCf5hz : String := "cfbenchmarks_value_5hz"

def channelOrderbook : String := "orderbook_delta"

def channelTicker : String := "ticker"

/-! ## Server messages -/

structure Envelope where
  typ : String
  id : Option UInt64
  sid : Option UInt64
  seq : UInt64
  msg : Value

/-- What `serde_json::from_str::<Envelope>` makes of a parsed text. -/
def Envelope.deserialize (value : Value) : Option Envelope := do
  let [typ, id, sid, seq, msg] ←
    value.fields [["type"], ["id"], ["sid"], ["seq"], ["msg"]] | none
  return {
    typ := ← Value.required Value.asString typ
    id := ← Value.optional Value.asU64 id
    sid := ← Value.optional Value.asU64 sid
    seq := ← Value.defaulted 0 Value.asU64 seq
    msg := ← Value.defaulted Value.null some msg }

/-- A data frame of a subscription, as Kalshi writes it. -/
def dataFrame (typ : String) (sid seq : UInt64) (msg : Value) : Value :=
  .object [("type", .string typ), ("sid", .number (.posInt sid)),
    ("seq", .number (.posInt seq)), ("msg", msg)]

/-- `msg` of a `cfbenchmarks_value_5hz` frame. -/
structure CfValue5Hz where
  indexId : String
  valueUsd : String
  sourceTsMs : Option Int64
  receivedAt : Option Int64

namespace CfValue5Hz

def deserialize (value : Value) : Option CfValue5Hz := do
  let [indexId, valueUsd, sourceTsMs, receivedAt] ←
    value.fields
      [["index_id"], ["value_usd"], ["source_ts_ms"], ["received_at"]] | none
  return {
    indexId := ← Value.required Value.asString indexId
    valueUsd := ← Value.required Value.asString valueUsd
    sourceTsMs := ← Value.optional Value.asI64 sourceTsMs
    receivedAt := ← Value.optional Value.asI64 receivedAt }

def value (msg : CfValue5Hz) : Option F64 :=
  F64.parse msg.valueUsd

end CfValue5Hz

/-- `msg` of a `ticker` frame. -/
structure TickerMsg where
  marketTicker : String
  priceDollars : Option String
  yesBidDollars : Option String
  yesAskDollars : Option String
  yesBidSizeFp : Option String
  yesAskSizeFp : Option String
  lastTradeSizeFp : Option String
  volumeFp : Option String
  openInterestFp : Option String
  dollarVolume : Option Int64
  dollarOpenInterest : Option Int64
  tsMs : Option Int64

def TickerMsg.deserialize (value : Value) : Option TickerMsg := do
  let [marketTicker, priceDollars, yesBidDollars, yesAskDollars, yesBidSizeFp,
      yesAskSizeFp, lastTradeSizeFp, volumeFp, openInterestFp, dollarVolume,
      dollarOpenInterest, tsMs] ←
    value.fields
      [["market_ticker"], ["price_dollars"], ["yes_bid_dollars"],
        ["yes_ask_dollars"], ["yes_bid_size_fp"], ["yes_ask_size_fp"],
        ["last_trade_size_fp"], ["volume_fp"], ["open_interest_fp"],
        ["dollar_volume"], ["dollar_open_interest"], ["ts_ms"]] | none
  return {
    marketTicker := ← Value.required Value.asString marketTicker
    priceDollars := ← Value.optional Value.asString priceDollars
    yesBidDollars := ← Value.optional Value.asString yesBidDollars
    yesAskDollars := ← Value.optional Value.asString yesAskDollars
    yesBidSizeFp := ← Value.optional Value.asString yesBidSizeFp
    yesAskSizeFp := ← Value.optional Value.asString yesAskSizeFp
    lastTradeSizeFp := ← Value.optional Value.asString lastTradeSizeFp
    volumeFp := ← Value.optional Value.asString volumeFp
    openInterestFp := ← Value.optional Value.asString openInterestFp
    dollarVolume := ← Value.optional Value.asI64 dollarVolume
    dollarOpenInterest := ← Value.optional Value.asI64 dollarOpenInterest
    tsMs := ← Value.optional Value.asI64 tsMs }

/-- A decimal-string field as a number; `None` if absent or malformed. -/
def decimal (field : Option String) : Option F64 :=
  field.bind F64.parseTrimmed

/-- `msg` of a `subscribed` reply. -/
structure Subscribed where
  channel : String
  sid : UInt64

def Subscribed.deserialize (value : Value) : Option Subscribed := do
  let [channel, sid] ← value.fields [["channel"], ["sid"]] | none
  return {
    channel := ← Value.required Value.asString channel
    sid := ← Value.required Value.asU64 sid }

/-! ## Client messages -/

/-- `params` of a `subscribe` command. -/
inductive SubscribeParams where
  | index (channels : List String) (indexIds : List String)
  | markets (channels : List String) (marketTickers : List String)
  deriving DecidableEq

inductive Command where
  | subscribe (id : Nat) (params : SubscribeParams)
  | updateSubscription (id : Nat) (sids : List UInt64)
      (marketTickers : List String) (action : String)
  deriving DecidableEq

def Command.id : Command → Nat
  | .subscribe id _ => id
  | .updateSubscription id _ _ _ => id

/-- A list of strings as JSON. -/
def strings (items : List String) : Value :=
  .array (items.map .string)

def SubscribeParams.toJson : SubscribeParams → Value
  | .index channels indexIds =>
      .object [("channels", strings channels), ("index_ids", strings indexIds)]
  | .markets channels marketTickers =>
      .object [("channels", strings channels),
        ("market_tickers", strings marketTickers)]

def Command.toJson : Command → Value
  | .subscribe id params =>
      .object [("id", .number (.posInt (.ofNat id))),
        ("cmd", .string "subscribe"), ("params", params.toJson)]
  | .updateSubscription id sids marketTickers action =>
      .object [("id", .number (.posInt (.ofNat id))),
        ("cmd", .string "update_subscription"),
        ("params", .object [
          ("sids", .array (sids.map fun sid => .number (.posInt sid))),
          ("market_tickers", strings marketTickers),
          ("action", .string action)])]

/-- `BTreeSet<String>`. -/
abbrev TickerSet := Std.ExtTreeSet String

def subscribeIndex (id : Nat) (indexId : String) : Command :=
  .subscribe id (.index [channelCf5hz] [indexId])

def subscribeMarkets (id : Nat) (channel : String) (tickers : TickerSet) :
    Command :=
  .subscribe id (.markets [channel] tickers.toList)

def subscribeOrderbook (id : Nat) (tickers : TickerSet) : Command :=
  subscribeMarkets id channelOrderbook tickers

def subscribeTicker (id : Nat) (tickers : TickerSet) : Command :=
  subscribeMarkets id channelTicker tickers

def updateMarketsCmd (id : Nat) (sid : UInt64) (action : String)
    (tickers : List String) : Command :=
  .updateSubscription id [sid] tickers action

end ChudMoney.Kalshi.Stream
