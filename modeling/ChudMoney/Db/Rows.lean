import ChudMoney.Lib.Text

/-!
# The rows of the QuestDB tables

One structure per table, and `Row` for anything the ILP writer can persist.
Timestamps are milliseconds or nanoseconds since the epoch, as named.
-/

namespace ChudMoney.Db.Rows

open ChudMoney.Lib.Text

inductive Table where
  | live
  | hist
  deriving DecidableEq, Repr

def Table.name : Table → String
  | live => "index_values_live"
  | hist => "index_values_hist"

def candlesTable : String := "contract_candles_hist"

def contractTickerTable : String := "contract_ticker_live"

def contractBookTable : String := "contract_book_live"

def coinbaseTickerTable : String := "coinbase_ticker_live"

def coinbaseBookTable : String := "coinbase_book_live"

structure IndexRow where
  table : Table
  indexId : String
  value : F64
  tsMs : Int64
  receivedAtMs : Option Int64
  source : String
  deriving DecidableEq

/-- Open, high, low and close of one quantity over a candlestick period. -/
structure Ohlc where
  openPrice : Option F64
  high : Option F64
  low : Option F64
  close : Option F64
  deriving DecidableEq

/-- One candlestick of one market; `tsMs` is the end of its period. -/
structure CandleRow where
  seriesTicker : String
  ticker : String
  floorStrike : Option F64
  yesBid : Ohlc
  yesAsk : Ohlc
  price : Ohlc
  priceMean : Option F64
  volume : Option F64
  openInterest : Option F64
  tsMs : Int64
  source : String
  deriving DecidableEq

/-- One Kalshi `ticker` frame of one market. -/
structure ContractTickerRow where
  seriesTicker : String
  ticker : String
  floorStrike : Option F64
  price : Option F64
  yesBid : Option F64
  yesAsk : Option F64
  yesBidSize : Option F64
  yesAskSize : Option F64
  lastTradeSize : Option F64
  volume : Option F64
  openInterest : Option F64
  dollarVolume : Option Int64
  dollarOpenInterest : Option Int64
  tsMs : Int64
  receivedAtMs : Int64
  source : String
  deriving DecidableEq

/-- Whether a book row comes from a full snapshot or a change after one. -/
inductive BookKind where
  | snapshot
  | delta
  | update
  deriving DecidableEq, Repr

def BookKind.asStr : BookKind → String
  | .snapshot => "snapshot"
  | .delta => "delta"
  | .update => "update"

/-- One level of a Kalshi orderbook snapshot, or one delta. -/
structure ContractBookRow where
  seriesTicker : String
  ticker : String
  side : String
  kind : BookKind
  price : F64
  size : F64
  seq : UInt64
  tsMs : Int64
  receivedAtMs : Int64
  source : String
  deriving DecidableEq

/-- One Coinbase `ticker` event of one product. -/
structure CoinbaseTickerRow where
  product : String
  price : Option F64
  bestBid : Option F64
  bestAsk : Option F64
  bestBidQty : Option F64
  bestAskQty : Option F64
  volume24h : Option F64
  low24h : Option F64
  high24h : Option F64
  low52w : Option F64
  high52w : Option F64
  pctChg24h : Option F64
  sequenceNum : UInt64
  tsNs : Int64
  receivedAtMs : Int64
  source : String
  deriving DecidableEq

/-- One level of a Coinbase level2 snapshot, or one update. -/
structure CoinbaseBookRow where
  product : String
  side : String
  kind : BookKind
  price : F64
  size : F64
  sequenceNum : UInt64
  tsNs : Int64
  receivedAtNs : Int64
  source : String
  deriving DecidableEq

/-- Anything the ILP writer can persist. -/
inductive Row where
  | index (row : IndexRow)
  | candle (row : CandleRow)
  | contractTicker (row : ContractTickerRow)
  | contractBook (row : ContractBookRow)
  | coinbaseTicker (row : CoinbaseTickerRow)
  | coinbaseBook (row : CoinbaseBookRow)
  deriving DecidableEq

end ChudMoney.Db.Rows
