import ChudMoney.Db.Rows
import ChudMoney.Kalshi.Client
import ChudMoney.Lib.JsonText
import Mathlib.Data.List.Sort

/-!
# Signed REST access to Kalshi

One call is a path and a query, and what it is answered with.  What the
answers are, and how a body is read into a typed response, is a parameter.
-/

namespace ChudMoney.Kalshi.Rest

open ChudMoney.Db.Rows
open ChudMoney.Kalshi.Client
open ChudMoney.Lib.Json
open ChudMoney.Lib.MachineInt
open ChudMoney.Lib.Text

/-! ## Errors -/

/-- A failed request: its text, and the texts of what caused it. -/
structure TransportError where
  text : String
  causes : List String
  deriving DecidableEq

inductive KalshiError where
  | rateLimited
  | status (code : UInt16) (body : String)
  | transport (error : TransportError)
  | parse (message : String)
  deriving DecidableEq

namespace KalshiError

/-- Worth retrying: throttling, network failures and upstream 5xx. -/
def isTransient : KalshiError → Bool
  | rateLimited | transport _ => true
  | status code _ => 500 ≤ code
  | parse _ => false

def isRateLimited : KalshiError → Bool
  | rateLimited => true
  | _ => false

def toString : KalshiError → String
  | rateLimited => "rate limited by kalshi"
  | status code body =>
      "kalshi returned " ++ ToString.toString code.toNat ++ ": " ++ body
  | transport error => "kalshi request failed: " ++ error.text
  | parse message => "unexpected kalshi response: " ++ message

/-- The texts of the errors behind this one. -/
def sources : KalshiError → List String
  | transport error => error.text :: error.causes
  | _ => []

end KalshiError

/-! ## Calls -/

structure Get where
  path : String
  query : List (String × String)
  deriving DecidableEq

structure Response where
  status : UInt16
  body : String

/-- What a client is given: answers to its calls, and readers of bodies. -/
structure KalshiClient where
  send : Get → Except TransportError Response
  readValue : String → Except String Value
  readMarketsPage : String → Except String MarketsPage
  /-- `CutoffResponse`, up to its only field. -/
  readCutoff : String → Except String Int
  parseFromRfc3339 : String → Option Int
  /-- `to_rfc3339_opts(SecondsFormat::Millis, true)`. -/
  toRfc3339Millis : Int → String
  writeF64 : F64 → String

/-- `Tier::other`. -/
def other : Tier → Tier
  | .live => .historical
  | .historical => .live

def marketsPath : String := "/trade-api/v2/markets"

def cfHistoryPath : String := "/trade-api/v2/cfbenchmarks/history/values"

def historicalCutoffPath : String := "/trade-api/v2/historical/cutoff"

def historicalMarketsPath : String := "/trade-api/v2/historical/markets"

def marketsPageLimit : String := "1000"

/-! ## Values in a response -/

section Values

/-- `Value::get` of a key. -/
def get (value : Value) (key : String) : Option Value :=
  match value with
  | .object entries => entries.reverse.lookup key
  | _ => none

def asF64 : Number → F64
  | .posInt value => F64.nearest value.toNat
  | .negInt value => F64.nearest value.toInt
  | .float value => value

/-- A decimal string or number, under the suffixed or the bare key. -/
def decimal (value : Value) (key suffix : String) : Option F64 :=
  match (get value (key ++ suffix)).or (get value key) with
  | some (.number n) => some (asF64 n)
  | some (.string text) => F64.parse text
  | _ => none

def ohlc : Option Value → Ohlc
  | none => ⟨none, none, none, none⟩
  | some value =>
      { openPrice := decimal value "open" "_dollars"
        high := decimal value "high" "_dollars"
        low := decimal value "low" "_dollars"
        close := decimal value "close" "_dollars" }

/-- One candlestick of a market's contract prices; `endMs` ends its period. -/
structure Candlestick where
  endMs : Int64
  yesBid : Ohlc
  yesAsk : Ohlc
  price : Ohlc
  priceMean : Option F64
  volume : Option F64
  openInterest : Option F64
  deriving DecidableEq

def Candlestick.fromValue (value : Value) : Option Candlestick := do
  let endPeriodTs ← (← get value "end_period_ts").asI64
  return {
    endMs := endPeriodTs * 1000
    yesBid := ohlc (get value "yes_bid")
    yesAsk := ohlc (get value "yes_ask")
    price := ohlc (get value "price")
    priceMean := (get value "price").bind (decimal · "mean" "_dollars")
    volume := decimal value "volume" "_fp"
    openInterest := decimal value "open_interest" "_fp" }

/-- One historical index observation. -/
structure HistoryValue where
  timeMs : Int64
  value : F64
  deriving DecidableEq

/-- `time` in ms, as a number, a numeric string or an instant. -/
def historyTime (parseFromRfc3339 : String → Option Int) :
    Value → Option Int64
  | .string text =>
      (parseI64 text).or (parseMillis parseFromRfc3339 text)
  | time => time.asI64

def historyNumber : Value → Option F64
  | .number n => some (asF64 n)
  | .string text => F64.parse text
  | _ => none

def HistoryValue.fromValue (parseFromRfc3339 : String → Option Int)
    (value : Value) : Option HistoryValue := do
  let timeMs ← historyTime parseFromRfc3339 (← get value "time")
  let number ← historyNumber (← get value "value")
  return { timeMs := timeMs, value := number }

end Values

/-! ## The client's methods -/

namespace KalshiClient

variable (client : KalshiClient)

/-- `signed_get`, with the reader of the wanted response. -/
def signedGet {α : Type} (read : String → Except String α) (request : Get) :
    Except KalshiError α :=
  match client.send request with
  | .error e => .error (.transport e)
  | .ok ⟨status, body⟩ =>
      if status = 429 then .error .rateLimited
      else if 200 ≤ status ∧ status < 300 then
        match read body with
        | .ok value => .ok value
        | .error e => .error (.parse (e ++ ": " ++ body))
      else .error (.status status body)

def historicalCutoff : Except KalshiError Int :=
  client.signedGet client.readCutoff ⟨historicalCutoffPath, []⟩

/-- One page of a series' markets, and the cursor of the next page. -/
def seriesMarketsPage (series : String) (tier : Tier) (minCloseMs : Int64)
    (cursor : Option String) :
    Except KalshiError (List SeriesMarket × Option String) := do
  let query :=
    [("series_ticker", series), ("limit", marketsPageLimit)] ++
      cursor.toList.map (fun cursor => ("cursor", cursor)) ++
      (minCloseTs tier minCloseMs).toList.map fun ts =>
        ("min_close_ts", toString ts)
  let path :=
    match tier with
    | .live => marketsPath
    | .historical => historicalMarketsPath
  let page ← client.signedGet client.readMarketsPage ⟨path, query⟩
  return (page.markets.filterMap (seriesMarket client.parseFromRfc3339 tier),
    if page.cursor.isEmpty then none else some page.cursor)

/-- The request for the candlesticks of a market. -/
def candlesticksGet (series ticker : String) (tier : Tier)
    (startMs endMs : Int64) (periodMinutes : Nat) : Get where
  path :=
    match tier with
    | .live =>
        "/trade-api/v2/series/" ++ series ++ "/markets/" ++ ticker ++
          "/candlesticks"
    | .historical =>
        historicalMarketsPath ++ "/" ++ ticker ++ "/candlesticks"
  query :=
    [("start_ts", toString (startMs.toInt / 1000)),
      ("end_ts", toString (endMs.toInt / 1000)),
      ("period_interval", toString periodMinutes)]

/-- Candlesticks of one market that end in `[startMs, endMs]`. -/
def marketCandlesticks (series ticker : String) (tier : Tier)
    (startMs endMs : Int64) (periodMinutes : Nat) :
    Except KalshiError (List Candlestick) := do
  let resp ← client.signedGet client.readValue
    (candlesticksGet series ticker tier startMs endMs periodMinutes)
  match get resp "candlesticks" with
  | some (.array items) =>
      return (items.filterMap Candlestick.fromValue).insertionSort
        fun first second => first.endMs ≤ second.endMs
  | _ =>
      throw (.parse
        ("missing candlesticks in " ++ resp.write client.writeF64))

/-- The items of a history payload. -/
def historyItems (payload : Value) : List Value :=
  match payload with
  | .array items => items
  | .object _ =>
      match (get payload "values").or (get payload "data") with
      | some (.array items) => items
      | _ => [payload]
  | _ => []

/-- The values of a history payload, oldest first. -/
def historyValues (payload : Value) : List HistoryValue :=
  ((historyItems payload).filterMap
    (HistoryValue.fromValue client.parseFromRfc3339)).insertionSort
      fun first second => first.timeMs ≤ second.timeMs

/-- `/data/payload` of a response. -/
def payload (resp : Value) : Except KalshiError Value :=
  match (get resp "data").bind (get · "payload") with
  | some payload => .ok payload
  | none =>
      .error (.parse
        ("missing data.payload in " ++ resp.write client.writeF64))

/-- The request for the values of one period. -/
def historyGet (indexId : String) (timestampMs : Int64)
    (timespan : String) : Get where
  path := cfHistoryPath
  query :=
    [("id", indexId),
      ("timestamp", client.toRfc3339Millis (timestampMs.toInt * 1000000)),
      ("timespan", timespan)]

/-- Historical index values via the pass-through, and the raw payload. -/
def cfHistoryValues (indexId : String) (timestampMs : Int64)
    (timespan : String) :
    Except KalshiError (List HistoryValue × Value) := do
  if ¬ InChrono (timestampMs.toInt * 1000000) then
    throw (.parse
      ("timestamp " ++ toString timestampMs.toInt ++ " out of range"))
  let resp ← client.signedGet client.readValue
    (client.historyGet indexId timestampMs timespan)
  let payload ← client.payload resp
  return (client.historyValues payload, payload)

end KalshiClient

end ChudMoney.Kalshi.Rest
