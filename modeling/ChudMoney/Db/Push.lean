import ChudMoney.Db.Rows
import ChudMoney.Lib.MachineInt

/-!
# What the ILP writer puts into its buffer

`push` writes a row as one line: a table, symbols, columns and the designated
timestamp.  Milliseconds become micro- and nanoseconds and sequence numbers
become signed on the way; the times and numbers of a line are exact when all of
them fit an `i64`, and only then.  A column of numbers holds doubles.
-/

namespace ChudMoney.Db.Push

open ChudMoney.Db.Rows
open ChudMoney.Lib.MachineInt
open ChudMoney.Lib.Text

/-! ## Lines -/

/-- The value of one column of a line; `ts` is in microseconds. -/
inductive Cell where
  | f64 (value : F64)
  | i64 (value : Int64)
  | ts (micros : Int64)
  deriving DecidableEq

/-- One line of the buffer, as the calls that make it name its parts. -/
structure Line where
  table : String
  symbols : List (String × String)
  columns : List (String × Cell)
  atNanos : Int64
  deriving DecidableEq

/-- `column_f64`. -/
def columnF64 (name : String) (value : F64) : String × Cell :=
  (name, .f64 value.rounded)

/-- `column_f64_opt`: no column where there is no value. -/
def columnF64Opt (name : String) (value : Option F64) : List (String × Cell) :=
  (value.map (columnF64 name)).toList

/-- `column_i64_opt`. -/
def columnI64Opt (name : String) (value : Option Int64) :
    List (String × Cell) :=
  (value.map fun value => (name, Cell.i64 value)).toList

def micros (ms : Int64) : Cell :=
  .ts (ms * 1000)

/-! ## The lines of the rows -/

def pushContractTicker (row : ContractTickerRow) : Line where
  table := contractTickerTable
  symbols :=
    [("ticker", row.ticker), ("series_ticker", row.seriesTicker),
      ("source", row.source)]
  columns :=
    columnF64Opt "floor_strike" row.floorStrike ++
      columnF64Opt "price" row.price ++
      columnF64Opt "yes_bid" row.yesBid ++
      columnF64Opt "yes_ask" row.yesAsk ++
      columnF64Opt "yes_bid_size" row.yesBidSize ++
      columnF64Opt "yes_ask_size" row.yesAskSize ++
      columnF64Opt "last_trade_size" row.lastTradeSize ++
      columnF64Opt "volume" row.volume ++
      columnF64Opt "open_interest" row.openInterest ++
      columnI64Opt "dollar_volume" row.dollarVolume ++
      columnI64Opt "dollar_open_interest" row.dollarOpenInterest ++
      [("received_at", micros row.receivedAtMs)]
  atNanos := row.tsMs * 1000000

def pushContractBook (row : ContractBookRow) : Line where
  table := contractBookTable
  symbols :=
    [("ticker", row.ticker), ("series_ticker", row.seriesTicker),
      ("side", row.side), ("kind", row.kind.asStr), ("source", row.source)]
  columns :=
    [columnF64 "price" row.price, columnF64 "size" row.size,
      ("seq", .i64 row.seq.toInt64),
      ("received_at", micros row.receivedAtMs)]
  atNanos := row.tsMs * 1000000

def pushCoinbaseTicker (row : CoinbaseTickerRow) : Line where
  table := coinbaseTickerTable
  symbols := [("product", row.product), ("source", row.source)]
  columns :=
    columnF64Opt "price" row.price ++
      columnF64Opt "best_bid" row.bestBid ++
      columnF64Opt "best_ask" row.bestAsk ++
      columnF64Opt "best_bid_qty" row.bestBidQty ++
      columnF64Opt "best_ask_qty" row.bestAskQty ++
      columnF64Opt "volume_24h" row.volume24h ++
      columnF64Opt "low_24h" row.low24h ++
      columnF64Opt "high_24h" row.high24h ++
      columnF64Opt "low_52w" row.low52w ++
      columnF64Opt "high_52w" row.high52w ++
      columnF64Opt "pct_chg_24h" row.pctChg24h ++
      [("sequence_num", .i64 row.sequenceNum.toInt64),
        ("received_at", micros row.receivedAtMs)]
  atNanos := row.tsNs

def pushCoinbaseBook (row : CoinbaseBookRow) : Line where
  table := coinbaseBookTable
  symbols :=
    [("product", row.product), ("side", row.side), ("kind", row.kind.asStr),
      ("source", row.source)]
  columns :=
    [columnF64 "price" row.price, columnF64 "size" row.size,
      ("sequence_num", .i64 row.sequenceNum.toInt64),
      ("received_at", .ts (row.receivedAtNs / 1000))]
  atNanos := row.tsNs

/-- The four columns of one quantity of a candlestick. -/
def ohlcColumns (names : String × String × String × String) (ohlc : Ohlc) :
    List (String × Cell) :=
  columnF64Opt names.1 ohlc.openPrice ++ columnF64Opt names.2.1 ohlc.high ++
    columnF64Opt names.2.2.1 ohlc.low ++ columnF64Opt names.2.2.2 ohlc.close

def pushCandle (row : CandleRow) : Line where
  table := candlesTable
  symbols :=
    [("ticker", row.ticker), ("series_ticker", row.seriesTicker),
      ("source", row.source)]
  columns :=
    columnF64Opt "floor_strike" row.floorStrike ++
      columnF64Opt "price_mean" row.priceMean ++
      columnF64Opt "volume" row.volume ++
      columnF64Opt "open_interest" row.openInterest ++
      ohlcColumns
        ("yes_bid_open", "yes_bid_high", "yes_bid_low", "yes_bid_close")
        row.yesBid ++
      ohlcColumns
        ("yes_ask_open", "yes_ask_high", "yes_ask_low", "yes_ask_close")
        row.yesAsk ++
      ohlcColumns ("price_open", "price_high", "price_low", "price_close")
        row.price
  atNanos := row.tsMs * 1000000

def pushIndex (row : IndexRow) : Line where
  table := row.table.name
  symbols := [("index_id", row.indexId), ("source", row.source)]
  columns :=
    columnF64 "value" row.value ::
      (row.receivedAtMs.map fun received =>
        ("received_at", micros received)).toList
  atNanos := row.tsMs * 1000000

/-- `push`: the line of a row. -/
def push : Row → Line
  | .index row => pushIndex row
  | .candle row => pushCandle row
  | .contractTicker row => pushContractTicker row
  | .contractBook row => pushContractBook row
  | .coinbaseTicker row => pushCoinbaseTicker row
  | .coinbaseBook row => pushCoinbaseBook row

/-! ## Exact times and numbers -/

/--
When a row was published and received and which number it has, as integers:
nanoseconds, microseconds and the number itself.
-/
@[ext]
structure Stamp where
  tsNs : Int
  receivedUs : Option Int
  seq : Option Int
  deriving DecidableEq

/-- What the row asks for. -/
def stampOf : Row → Stamp
  | .index row =>
      ⟨row.tsMs.toInt * 1000000,
        row.receivedAtMs.map fun received => received.toInt * 1000, none⟩
  | .candle row => ⟨row.tsMs.toInt * 1000000, none, none⟩
  | .contractTicker row =>
      ⟨row.tsMs.toInt * 1000000, some (row.receivedAtMs.toInt * 1000), none⟩
  | .contractBook row =>
      ⟨row.tsMs.toInt * 1000000, some (row.receivedAtMs.toInt * 1000),
        some row.seq.toNat⟩
  | .coinbaseTicker row =>
      ⟨row.tsNs.toInt, some (row.receivedAtMs.toInt * 1000),
        some row.sequenceNum.toNat⟩
  | .coinbaseBook row =>
      ⟨row.tsNs.toInt, some (row.receivedAtNs.toInt.tdiv 1000),
        some row.sequenceNum.toNat⟩

/-- The integer in a column. -/
def Cell.toInt : Cell → Option Int
  | .f64 _ => none
  | .i64 value => some value.toInt
  | .ts micros => some micros.toInt

/-- The integer in the column of a line with the given name. -/
def Line.column (line : Line) (name : String) : Option Int :=
  (line.columns.lookup name).bind Cell.toInt

/-- What the line says. -/
def Line.stamp (line : Line) : Stamp where
  tsNs := line.atNanos.toInt
  receivedUs := line.column "received_at"
  seq := (line.column "seq").or (line.column "sequence_num")

/-- Every part of the stamp is an `i64`. -/
structure Stamp.InRange (stamp : Stamp) : Prop where
  ts : Fits stamp.tsNs
  received : ∀ us ∈ stamp.receivedUs, Fits us
  seq : ∀ number ∈ stamp.seq, Fits number

/-! ## The conversions -/

/-- `u64 as i64` keeps a number below the sign bit. -/
theorem toInt_toInt64_of_fits {number : UInt64}
    (fits : Fits (number.toNat : Int)) :
    number.toInt64.toInt = number.toNat := by
  have signed : number.toInt64.toInt = (number.toNat : Int).bmod (2 ^ 64) :=
    BitVec.toInt_eq_toNat_bmod number.toBitVec
  rw [signed]
  exact Int.bmod_eq_of_le (by omega) (by omega)

/-- A division by a thousand is exact up to the rounding towards zero. -/
theorem toInt_div_thousand (value : Int64) :
    (value / 1000).toInt = value.toInt.tdiv 1000 := by
  have bounds := fits_toInt value
  have thousand : (1000 : Int64).toInt = 1000 := rfl
  have size : (value.toInt.tdiv 1000).natAbs = value.toInt.natAbs / 1000 :=
    Int.natAbs_tdiv value.toInt 1000
  rw [Int64.toInt_div, thousand]
  exact Int.bmod_eq_of_le (by omega) (by omega)

/-! ## Exact lines -/

@[simp]
theorem lookup_columnF64 {name other : String} (differs : other ≠ name)
    (value : F64) (columns : List (String × Cell)) :
    (columnF64 name value :: columns).lookup other = columns.lookup other := by
  rw [columnF64, List.lookup_cons, beq_false_of_ne differs]

@[simp]
theorem lookup_columnF64Opt {name other : String} (differs : other ≠ name)
    (value : Option F64) (columns : List (String × Cell)) :
    (columnF64Opt name value ++ columns).lookup other =
      columns.lookup other := by
  cases value with
  | none => rfl
  | some value => exact lookup_columnF64 differs value columns

@[simp]
theorem lookup_columnF64Opt_last {name other : String} (differs : other ≠ name)
    (value : Option F64) : (columnF64Opt name value).lookup other = none := by
  simpa using lookup_columnF64Opt differs value []

@[simp]
theorem lookup_columnI64Opt {name other : String} (differs : other ≠ name)
    (value : Option Int64) (columns : List (String × Cell)) :
    (columnI64Opt name value ++ columns).lookup other =
      columns.lookup other := by
  cases value with
  | none => rfl
  | some value => simp [columnI64Opt, List.lookup_cons, beq_false_of_ne differs]

/-- Whatever a line says is in range. -/
theorem inRange_stamp (line : Line) : line.stamp.InRange := by
  have column : ∀ name, ∀ value ∈ line.column name, Fits value := by
    intro name value found
    obtain ⟨cell, -, inside⟩ := Option.bind_eq_some_iff.mp found
    cases cell with
    | f64 => cases inside
    | i64 stored => cases inside; exact fits_toInt stored
    | ts stored => cases inside; exact fits_toInt stored
  constructor
  · exact fits_toInt line.atNanos
  · exact column "received_at"
  · intro number found
    rcases Option.or_eq_some_iff.mp found with first | ⟨-, second⟩
    · exact column _ _ first
    · exact column _ _ second

/-- Milliseconds become nanoseconds exactly when these fit. -/
theorem toInt_nanos {ms : Int64} (fits : Fits (ms.toInt * 1000000)) :
    (ms * 1000000).toInt = ms.toInt * 1000000 :=
  toInt_mul_of_fits fits

/-- Milliseconds become microseconds exactly when these fit. -/
theorem toInt_micros {ms : Int64} (fits : Fits (ms.toInt * 1000)) :
    (micros ms).toInt = some (ms.toInt * 1000) :=
  congrArg some (toInt_mul_of_fits fits)

/-- What the lines of the tables say, column by column. -/
theorem stamp_push (row : Row) :
    (push row).stamp = match row with
      | .index row =>
          ⟨(row.tsMs * 1000000).toInt,
            row.receivedAtMs.bind fun received => (micros received).toInt,
            none⟩
      | .candle row => ⟨(row.tsMs * 1000000).toInt, none, none⟩
      | .contractTicker row =>
          ⟨(row.tsMs * 1000000).toInt, (micros row.receivedAtMs).toInt, none⟩
      | .contractBook row =>
          ⟨(row.tsMs * 1000000).toInt, (micros row.receivedAtMs).toInt,
            some row.seq.toInt64.toInt⟩
      | .coinbaseTicker row =>
          ⟨row.tsNs.toInt, (micros row.receivedAtMs).toInt,
            some row.sequenceNum.toInt64.toInt⟩
      | .coinbaseBook row =>
          ⟨row.tsNs.toInt, some (row.receivedAtNs / 1000).toInt,
            some row.sequenceNum.toInt64.toInt⟩ := by
  cases row with
  | index row =>
      cases received : row.receivedAtMs with
      | none =>
          simp [push, pushIndex, Line.stamp, Line.column, received]
      | some ms =>
          simp [push, pushIndex, Line.stamp, Line.column, List.lookup_cons,
            received, micros, Cell.toInt]
  | candle row =>
      simp [push, pushCandle, Line.stamp, Line.column, ohlcColumns,
        List.append_assoc]
  | contractTicker row =>
      simp [push, pushContractTicker, Line.stamp, Line.column, List.lookup_cons,
        List.append_assoc, micros, Cell.toInt]
  | contractBook row =>
      simp [push, pushContractBook, Line.stamp, Line.column, List.lookup_cons,
        micros, Cell.toInt]
  | coinbaseTicker row =>
      simp [push, pushCoinbaseTicker, Line.stamp, Line.column, List.lookup_cons,
        List.append_assoc, micros, Cell.toInt]
  | coinbaseBook row =>
      simp [push, pushCoinbaseBook, Line.stamp, Line.column, List.lookup_cons,
        Cell.toInt]

/-- A line says what its row asks for just if all of it fits. -/
theorem stamp_push_iff (row : Row) :
    (push row).stamp = stampOf row ↔ (stampOf row).InRange := by
  constructor
  · intro same
    rw [← same]
    exact inRange_stamp _
  · intro inRange
    rw [stamp_push]
    cases row with
    | index row =>
        ext1
        · exact toInt_nanos inRange.ts
        · cases received : row.receivedAtMs with
          | none => simp [stampOf, received]
          | some ms =>
              have fits := inRange.received (ms.toInt * 1000)
                (by simp [stampOf, received])
              simpa [stampOf, received] using toInt_micros fits
        · rfl
    | candle row =>
        ext1
        · exact toInt_nanos inRange.ts
        · rfl
        · rfl
    | contractTicker row =>
        ext1
        · exact toInt_nanos inRange.ts
        · exact toInt_micros (inRange.received _ rfl)
        · rfl
    | contractBook row =>
        ext1
        · exact toInt_nanos inRange.ts
        · exact toInt_micros (inRange.received _ rfl)
        · exact congrArg some (toInt_toInt64_of_fits (inRange.seq _ rfl))
    | coinbaseTicker row =>
        ext1
        · rfl
        · exact toInt_micros (inRange.received _ rfl)
        · exact congrArg some (toInt_toInt64_of_fits (inRange.seq _ rfl))
    | coinbaseBook row =>
        ext1
        · rfl
        · exact congrArg some (toInt_div_thousand row.receivedAtNs)
        · exact congrArg some (toInt_toInt64_of_fits (inRange.seq _ rfl))

end ChudMoney.Db.Push
