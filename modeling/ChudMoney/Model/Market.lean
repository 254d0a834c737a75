import ChudMoney.Kalshi.Stream

/-!
# The `markets` model: one document per tracked Kalshi series

`Config` keeps the two fields of the process configuration that a new document
is made from.
-/

namespace ChudMoney.Model

open ChudMoney.Kalshi.Stream
open ChudMoney.Lib.Text

/-- Path segments that would collide with fixed routes if used as a tag. -/
def reservedTags : List String :=
  ["add", "auth", "ingest", "ws"]

/-- A character of a tag, other than its dashes. -/
def tagChar (c : Char) : Bool :=
  c.isLower || c.isDigit

/-- `^[a-z0-9][a-z0-9-]{1,63}$`. -/
def tagPattern (tag : String) : Bool :=
  match tag.toList with
  | [] => false
  | c :: rest =>
      tagChar c && rest.all (fun c => tagChar c || c = '-') &&
        (1 ≤ rest.length && rest.length ≤ 63)

/-- The tag rule of `MARKET_SPEC`. -/
def tagAccepted (tag : String) : Bool :=
  tagPattern tag && !reservedTags.contains tag

structure KalshiEndpoints where
  rest : String
  ws : String

def prod : KalshiEndpoints where
  rest := "https://external-api.kalshi.com"
  ws := "wss://external-api-ws.kalshi.com/trade-api/ws/v2"

def demo : KalshiEndpoints where
  rest := "https://demo-api.kalshi.co"
  ws := "wss://external-api-ws.demo.kalshi.co/trade-api/ws/v2"

inductive KalshiEnv where
  | prod
  | demo
  deriving DecidableEq, Repr

namespace KalshiEnv

def endpoints : KalshiEnv → KalshiEndpoints
  | .prod => Model.prod
  | .demo => Model.demo

def asStr : KalshiEnv → String
  | .prod => "prod"
  | .demo => "demo"

end KalshiEnv

structure Config where
  publicWsBase : String
  kalshiEnv : KalshiEnv

structure KalshiInfo where
  env : KalshiEnv
  restBase : String
  wsUrl : String
  channels : List String
  deriving DecidableEq

structure ProxyInfo where
  tickerWs : String
  orderbookWs : String
  deriving DecidableEq

structure Market where
  tag : String
  seriesTicker : String
  indexId : String
  coinbaseProduct : Option String
  title : String
  kalshi : KalshiInfo
  proxy : ProxyInfo
  createdAt : String
  deriving DecidableEq

/-- Body of `POST /add`. -/
structure AddMarket where
  tag : String
  seriesTicker : String
  indexId : String
  coinbaseProduct : Option String
  title : Option String
  kalshiEnv : Option KalshiEnv
  deriving DecidableEq

/-- The document of a new market; `now` is the text of the current time. -/
def Market.fromAdd (input : AddMarket) (config : Config) (now : String) :
    Market :=
  let env := input.kalshiEnv.getD config.kalshiEnv
  let endpoints := env.endpoints
  let base := config.publicWsBase
  { title :=
      input.title.getD (input.seriesTicker ++ " (" ++ input.indexId ++ ")")
    proxy :=
      { tickerWs := base ++ "/ws/" ++ input.tag ++ "/ticker"
        orderbookWs := base ++ "/ws/" ++ input.tag ++ "/orderbook" }
    kalshi :=
      { env := env
        restBase := endpoints.rest
        wsUrl := endpoints.ws
        channels := [channelCf5hz, channelOrderbook, channelTicker] }
    tag := input.tag
    seriesTicker := input.seriesTicker
    indexId := input.indexId
    coinbaseProduct := input.coinbaseProduct
    createdAt := now }

/-- The market of the source's tests. -/
def btc15m : Market :=
  Market.fromAdd
    { tag := "btc-15m"
      seriesTicker := "KXBTC15M"
      indexId := "BRTI"
      coinbaseProduct := none
      title := none
      kalshiEnv := none }
    { publicWsBase := "ws://localhost:3000", kalshiEnv := .prod }
    "2026-09-18T13:00:00+00:00"

/-- One of the two parts of a product id. -/
def productPart (part : List Char) : Bool :=
  !part.isEmpty && part.all fun c => c.isUpper || c.isDigit

/-- `COINBASE_PRODUCT_PATTERN`, for values that never pass the schema. -/
def validCoinbaseProduct (product : String) : Bool :=
  match splitOnce '-' product.toList with
  | some (base, quote) => productPart base && productPart quote
  | none => false

end ChudMoney.Model
