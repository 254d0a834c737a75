import ChudMoney.Lib.Json
import ChudMoney.Lib.MachineInt

/-!
# Wire types of the Coinbase Advanced Trade websocket

Every server frame is an envelope with a per-connection `sequence_num`.
-/

namespace ChudMoney.Coinbase.Stream

open ChudMoney.Lib.Json
open ChudMoney.Lib.MachineInt
open ChudMoney.Lib.Text

def channelHeartbeats : String := "heartbeats"

def channelTicker : String := "ticker"

def channelLevel2 : String := "level2"

def channelL2Data : String := "l2_data"

/-- A `subscribe` command, sent as the compact JSON text of this value. -/
def subscribeCmd (channel product : String) (jwt : Option String) : Value :=
  let cmd :=
    [("type", .string "subscribe"),
      ("product_ids", .array [.string product]), ("channel", .string channel)]
  match jwt with
  | some jwt => .object (cmd ++ [("jwt", .string jwt)])
  | none => .object cmd

structure Envelope where
  channel : String
  timestamp : String
  sequenceNum : UInt64
  events : List Value

/-- What `serde_json::from_str::<Envelope>` makes of a parsed text. -/
def Envelope.deserialize (value : Value) : Option Envelope := do
  let [channel, timestamp, sequenceNum, events] ←
    value.fields [["channel"], ["timestamp"], ["sequence_num"], ["events"]]
    | none
  return {
    channel := ← Value.defaulted "" Value.asString channel
    timestamp := ← Value.defaulted "" Value.asString timestamp
    sequenceNum := ← Value.defaulted 0 Value.asU64 sequenceNum
    events := ← Value.defaulted [] (Value.asVec some) events }

/-- A server frame, as Coinbase writes it. -/
def serverFrame (channel : String) (sequenceNum : UInt64)
    (events : List Value) : Value :=
  .object [("channel", .string channel),
    ("timestamp", .string "2024-01-15T10:30:45Z"),
    ("sequence_num", .number (.posInt sequenceNum)),
    ("events", .array events)]

/-! ## Tickers -/

/-- One ticker of a `ticker` frame; a decimal string or nothing per field. -/
structure Ticker where
  productId : String
  price : Option String
  bestBid : Option String
  bestAsk : Option String
  bestBidQuantity : Option String
  bestAskQuantity : Option String
  volume24h : Option String
  low24h : Option String
  high24h : Option String
  low52w : Option String
  high52w : Option String
  pricePercentChg24h : Option String

def Ticker.deserialize (value : Value) : Option Ticker := do
  let [productId, price, bestBid, bestAsk, bestBidQuantity, bestAskQuantity,
      volume24h, low24h, high24h, low52w, high52w, pricePercentChg24h] ←
    value.fields
      [["product_id"], ["price"], ["best_bid"], ["best_ask"],
        ["best_bid_quantity"], ["best_ask_quantity"], ["volume_24_h"],
        ["low_24_h"], ["high_24_h"], ["low_52_w"], ["high_52_w"],
        ["price_percent_chg_24_h"]] | none
  return {
    productId := ← Value.required Value.asString productId
    price := ← Value.optional Value.asString price
    bestBid := ← Value.optional Value.asString bestBid
    bestAsk := ← Value.optional Value.asString bestAsk
    bestBidQuantity := ← Value.optional Value.asString bestBidQuantity
    bestAskQuantity := ← Value.optional Value.asString bestAskQuantity
    volume24h := ← Value.optional Value.asString volume24h
    low24h := ← Value.optional Value.asString low24h
    high24h := ← Value.optional Value.asString high24h
    low52w := ← Value.optional Value.asString low52w
    high52w := ← Value.optional Value.asString high52w
    pricePercentChg24h := ← Value.optional Value.asString pricePercentChg24h }

/-- One `events[]` entry of a `ticker` frame. -/
structure TickerEvent where
  tickers : List Ticker

def TickerEvent.deserialize (value : Value) : Option TickerEvent := do
  let [tickers] ← value.fields [["tickers"]] | none
  return {
    tickers := ← Value.defaulted [] (Value.asVec Ticker.deserialize) tickers }

/-! ## Levels -/

/-- One level of an `l2_data` frame; `newQuantity` is absolute. -/
structure L2Update where
  side : String
  eventTime : String
  priceLevel : String
  newQuantity : String
  deriving DecidableEq

def L2Update.deserialize (value : Value) : Option L2Update := do
  let [side, eventTime, priceLevel, newQuantity] ←
    value.fields
      [["side"], ["event_time"], ["price_level"], ["new_quantity"]] | none
  return {
    side := ← Value.required Value.asString side
    eventTime := ← Value.defaulted "" Value.asString eventTime
    priceLevel := ← Value.required Value.asString priceLevel
    newQuantity := ← Value.required Value.asString newQuantity }

/-- One `events[]` entry of an `l2_data` frame. -/
structure L2Event where
  typ : String
  productId : String
  updates : List L2Update
  deriving DecidableEq

def L2Event.deserialize (value : Value) : Option L2Event := do
  let [typ, productId, updates] ←
    value.fields [["type"], ["product_id"], ["updates"]] | none
  return {
    typ := ← Value.defaulted "" Value.asString typ
    productId := ← Value.required Value.asString productId
    updates :=
      ← Value.defaulted [] (Value.asVec L2Update.deserialize) updates }

/-! ## Fields -/

/-- A decimal-string field as a number; `None` if absent or malformed. -/
def decimal (field : Option String) : Option F64 :=
  field.bind F64.parseTrimmed

/-- An RFC 3339 instant as nanoseconds since the epoch. -/
def rfc3339Nanos (parseFromRfc3339 : String → Option Int) (s : String) :
    Option Int64 :=
  (parseFromRfc3339 s).bind timestampNanosOpt

end ChudMoney.Coinbase.Stream
