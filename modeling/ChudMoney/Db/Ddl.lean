import ChudMoney.Db.EncodeRow
import ChudMoney.Db.Push
import ChudMoney.Lib.CreateTable

/-!
# The tables that the writer and the export share

`ddl` creates a table, `push` writes a line for it and the export reads its
columns.  The three lists are written apart in the program; here they are
shown to be about the same columns, whatever the row.

What QuestDB prints of a stored value is a parameter.
-/

namespace ChudMoney.Db.Ddl

open ChudMoney.Db.EncodeRow
open ChudMoney.Db.Export
open ChudMoney.Db.Push
open ChudMoney.Db.Rows
open ChudMoney.Lib.CreateTable
open ChudMoney.Lib.Json
open ChudMoney.Lib.JsonArray
open ChudMoney.Lib.MachineInt
open ChudMoney.Lib.Text

/-! ## The statements -/

/-- The statement of an index table, in parts. -/
def indexDdl (name : String) : List String :=
  ["CREATE TABLE IF NOT EXISTS ", name,
    " (index_id SYMBOL CAPACITY 256 CACHE INDEX, ",
    "source SYMBOL, ",
    "value DOUBLE, ",
    "received_at TIMESTAMP, ",
    "ts TIMESTAMP) TIMESTAMP(ts) ",
    "PARTITION BY DAY WAL ",
    "DEDUP UPSERT KEYS(ts, index_id);"]

/-- The statement of a table, in parts. -/
def ddlParts : DataTable → List String
  | .indexValuesLive => indexDdl Table.live.name
  | .indexValuesHist => indexDdl Table.hist.name
  | .contractCandlesHist =>
      ["CREATE TABLE IF NOT EXISTS ", candlesTable,
        " (ticker SYMBOL CAPACITY 65536 CACHE INDEX, ",
        "series_ticker SYMBOL CAPACITY 256 CACHE, ",
        "source SYMBOL, ",
        "floor_strike DOUBLE, ",
        "yes_bid_open DOUBLE, ", "yes_bid_high DOUBLE, ",
        "yes_bid_low DOUBLE, ", "yes_bid_close DOUBLE, ",
        "yes_ask_open DOUBLE, ", "yes_ask_high DOUBLE, ",
        "yes_ask_low DOUBLE, ", "yes_ask_close DOUBLE, ",
        "price_open DOUBLE, ", "price_high DOUBLE, ",
        "price_low DOUBLE, ", "price_close DOUBLE, ",
        "price_mean DOUBLE, ",
        "volume DOUBLE, ",
        "open_interest DOUBLE, ",
        "ts TIMESTAMP) TIMESTAMP(ts) ",
        "PARTITION BY DAY WAL ",
        "DEDUP UPSERT KEYS(ts, ticker);"]
  | .contractTickerLive =>
      ["CREATE TABLE IF NOT EXISTS ", contractTickerTable,
        " (ticker SYMBOL CAPACITY 65536 CACHE INDEX, ",
        "series_ticker SYMBOL CAPACITY 256 CACHE, ",
        "source SYMBOL, ",
        "floor_strike DOUBLE, ",
        "price DOUBLE, ",
        "yes_bid DOUBLE, ", "yes_ask DOUBLE, ",
        "yes_bid_size DOUBLE, ", "yes_ask_size DOUBLE, ",
        "last_trade_size DOUBLE, ",
        "volume DOUBLE, ",
        "open_interest DOUBLE, ",
        "dollar_volume LONG, ",
        "dollar_open_interest LONG, ",
        "received_at TIMESTAMP, ",
        "ts TIMESTAMP) TIMESTAMP(ts) ",
        "PARTITION BY DAY WAL ",
        "DEDUP UPSERT KEYS(ts, ticker);"]
  | .contractBookLive =>
      ["CREATE TABLE IF NOT EXISTS ", contractBookTable,
        " (ticker SYMBOL CAPACITY 65536 CACHE INDEX, ",
        "series_ticker SYMBOL CAPACITY 256 CACHE, ",
        "side SYMBOL, ",
        "kind SYMBOL, ",
        "source SYMBOL, ",
        "price DOUBLE, ",
        "size DOUBLE, ",
        "seq LONG, ",
        "received_at TIMESTAMP, ",
        "ts TIMESTAMP) TIMESTAMP(ts) ",
        "PARTITION BY DAY WAL ",
        "DEDUP UPSERT KEYS(ts, ticker, seq, side, price);"]
  | .coinbaseTickerLive =>
      ["CREATE TABLE IF NOT EXISTS ", coinbaseTickerTable,
        " (product SYMBOL CAPACITY 256 CACHE INDEX, ",
        "source SYMBOL, ",
        "price DOUBLE, ",
        "best_bid DOUBLE, ", "best_ask DOUBLE, ",
        "best_bid_qty DOUBLE, ", "best_ask_qty DOUBLE, ",
        "volume_24h DOUBLE, ", "low_24h DOUBLE, ", "high_24h DOUBLE, ",
        "low_52w DOUBLE, ", "high_52w DOUBLE, ",
        "pct_chg_24h DOUBLE, ",
        "sequence_num LONG, ",
        "received_at TIMESTAMP, ",
        "ts TIMESTAMP) TIMESTAMP(ts) ",
        "PARTITION BY DAY WAL ",
        "DEDUP UPSERT KEYS(ts, product);"]
  | .coinbaseBookLive =>
      ["CREATE TABLE IF NOT EXISTS ", coinbaseBookTable,
        " (product SYMBOL CAPACITY 256 CACHE INDEX, ",
        "side SYMBOL, ",
        "kind SYMBOL, ",
        "source SYMBOL, ",
        "price DOUBLE, ",
        "size DOUBLE, ",
        "sequence_num LONG, ",
        "received_at TIMESTAMP, ",
        "ts TIMESTAMP) TIMESTAMP(ts) ",
        "PARTITION BY DAY WAL ",
        "DEDUP UPSERT KEYS(ts, product, side, price);"]

/-- The statement that `ensure_tables` runs for a table. -/
def ddl (table : DataTable) : String :=
  String.join (ddlParts table)

/-- The type of a column whose text is exported so. -/
def sqlType : ColKind → SqlType
  | .text => .symbol
  | .double => .double
  | .long => .long
  | .timestamp => .timestamp

/-- The columns besides `ts` that tell the rows of a table apart. -/
def dedupKeys : DataTable → List String
  | .indexValuesLive | .indexValuesHist => ["index_id"]
  | .contractCandlesHist | .contractTickerLive => ["ticker"]
  | .contractBookLive => ["ticker", "seq", "side", "price"]
  | .coinbaseTickerLive => ["product"]
  | .coinbaseBookLive => ["product", "side", "price"]

/-- What a statement declares: the columns that the export reads, in order. -/
def declared (table : DataTable) : Statement where
  table := table.name
  columns := table.columns.map fun column => (column.name, sqlType column.kind)
  designated := "ts"
  keys := "ts" :: dedupKeys table

theorem readCreateTable_ddl (table : DataTable) :
    readCreateTable (ddl table) = some (declared table) := by
  rw [readCreateTable, ddl, String.toList_join]
  cases table <;> decide +kernel

/-! ## Lines -/

/-- The table that the line of a row is for. -/
def tableOf : Row → DataTable
  | .index row =>
      match row.table with
      | .live => .indexValuesLive
      | .hist => .indexValuesHist
  | .candle _ => .contractCandlesHist
  | .contractTicker _ => .contractTickerLive
  | .contractBook _ => .contractBookLive
  | .coinbaseTicker _ => .coinbaseTickerLive
  | .coinbaseBook _ => .coinbaseBookLive

def cellType : Cell → SqlType
  | .f64 _ => .double
  | .i64 _ => .long
  | .ts _ => .timestamp

def symbolTypes (symbols : List (String × String)) : List (String × SqlType) :=
  symbols.map fun entry => (entry.1, .symbol)

def columnTypes (columns : List (String × Cell)) : List (String × SqlType) :=
  columns.map fun entry => (entry.1, cellType entry.2)

/-- The names and types of what a line gives. -/
def given (line : Line) : List (String × SqlType) :=
  symbolTypes line.symbols ++ columnTypes line.columns

/-! ## Columns that may be absent -/

@[simp]
theorem columnTypes_append (first second : List (String × Cell)) :
    columnTypes (first ++ second) = columnTypes first ++ columnTypes second :=
  List.map_append

theorem sublist_columnF64Opt (name : String) (value : Option F64) :
    (columnTypes (columnF64Opt name value)).Sublist [(name, .double)] := by
  cases value with
  | none => exact List.nil_sublist _
  | some value => exact List.Sublist.refl _

theorem sublist_columnI64Opt (name : String) (value : Option Int64) :
    (columnTypes (columnI64Opt name value)).Sublist [(name, .long)] := by
  cases value with
  | none => exact List.nil_sublist _
  | some value => exact List.Sublist.refl _

theorem sublist_ohlcColumns (names : String × String × String × String)
    (ohlc : Ohlc) :
    (columnTypes (ohlcColumns names ohlc)).Sublist
      [(names.1, .double), (names.2.1, .double), (names.2.2.1, .double),
        (names.2.2.2, .double)] := by
  simp only [ohlcColumns, columnTypes_append]
  exact (((sublist_columnF64Opt _ _).append (sublist_columnF64Opt _ _)).append
    (sublist_columnF64Opt _ _)).append (sublist_columnF64Opt _ _)

/-! ## Every line fits its table -/

instance (statement : Statement) (given : List (String × SqlType)) :
    Decidable (Fits statement given) :=
  decidable_of_iff
    ((∀ entry ∈ given, entry ∈ statement.columns) ∧
      (given.map Prod.fst).Nodup ∧
      statement.designated ∉ given.map Prod.fst ∧
      ∀ key ∈ statement.keys,
        key = statement.designated ∨ key ∈ given.map Prod.fst)
    ⟨fun ⟨declared, once, apart, keyed⟩ => ⟨declared, once, apart, keyed⟩,
      fun fits => ⟨fits.declared, fits.once, fits.apart, fits.keyed⟩⟩

def typed (type : SqlType) (names : List String) : List (String × SqlType) :=
  names.map fun name => (name, type)

/-- The symbols that the lines of a table have. -/
def symbolsOf : DataTable → List (String × SqlType)
  | .indexValuesLive | .indexValuesHist => typed .symbol ["index_id", "source"]
  | .contractCandlesHist | .contractTickerLive =>
      typed .symbol ["ticker", "series_ticker", "source"]
  | .contractBookLive =>
      typed .symbol ["ticker", "series_ticker", "side", "kind", "source"]
  | .coinbaseTickerLive => typed .symbol ["product", "source"]
  | .coinbaseBookLive => typed .symbol ["product", "side", "kind", "source"]

/-- The columns that every line of a table has. -/
def requiredColumns : DataTable → List String
  | .indexValuesLive | .indexValuesHist => ["value"]
  | .contractCandlesHist => []
  | .contractTickerLive => ["received_at"]
  | .contractBookLive => ["price", "size", "seq", "received_at"]
  | .coinbaseTickerLive => ["sequence_num", "received_at"]
  | .coinbaseBookLive => ["price", "size", "sequence_num", "received_at"]

/-- The columns that a line of a table may have, as they are written. -/
def columnsOf : DataTable → List (String × SqlType)
  | .indexValuesLive | .indexValuesHist =>
      typed .double ["value"] ++ typed .timestamp ["received_at"]
  | .contractCandlesHist =>
      typed .double ["floor_strike", "price_mean", "volume", "open_interest",
        "yes_bid_open", "yes_bid_high", "yes_bid_low", "yes_bid_close",
        "yes_ask_open", "yes_ask_high", "yes_ask_low", "yes_ask_close",
        "price_open", "price_high", "price_low", "price_close"]
  | .contractTickerLive =>
      typed .double ["floor_strike", "price", "yes_bid", "yes_ask",
        "yes_bid_size", "yes_ask_size", "last_trade_size", "volume",
        "open_interest"] ++
      typed .long ["dollar_volume", "dollar_open_interest"] ++
      typed .timestamp ["received_at"]
  | .contractBookLive =>
      typed .double ["price", "size"] ++ typed .long ["seq"] ++
        typed .timestamp ["received_at"]
  | .coinbaseTickerLive =>
      typed .double ["price", "best_bid", "best_ask", "best_bid_qty",
        "best_ask_qty", "volume_24h", "low_24h", "high_24h", "low_52w",
        "high_52w", "pct_chg_24h"] ++
      (typed .long ["sequence_num"] ++ typed .timestamp ["received_at"])
  | .coinbaseBookLive =>
      typed .double ["price", "size"] ++ typed .long ["sequence_num"] ++
        typed .timestamp ["received_at"]

theorem fits_whole (table : DataTable) :
    Fits (declared table) (symbolsOf table ++ columnsOf table) := by
  cases table <;> decide +kernel

/-- A line gives the symbols of its table, and some of its columns in order. -/
theorem given_push (row : Row) :
    symbolTypes (push row).symbols = symbolsOf (tableOf row) ∧
      (columnTypes (push row).columns).Sublist (columnsOf (tableOf row)) := by
  cases row with
  | index row =>
      rcases row with ⟨table, indexId, value, tsMs, received, source⟩
      cases table
      all_goals
        refine ⟨rfl, List.Sublist.cons_cons _ ?_⟩
        cases received with
        | none => exact List.nil_sublist _
        | some ms => exact List.Sublist.refl _
  | candle row =>
      refine ⟨rfl, ?_⟩
      simp only [push, pushCandle, columnTypes_append]
      exact ((((((sublist_columnF64Opt _ _).append
        (sublist_columnF64Opt _ _)).append (sublist_columnF64Opt _ _)).append
        (sublist_columnF64Opt _ _)).append (sublist_ohlcColumns _ _)).append
        (sublist_ohlcColumns _ _)).append (sublist_ohlcColumns _ _)
  | contractTicker row =>
      refine ⟨rfl, ?_⟩
      simp only [push, pushContractTicker, columnTypes_append]
      refine List.Sublist.append ?_ (List.Sublist.refl _)
      exact (((((((((((sublist_columnF64Opt _ _).append
        (sublist_columnF64Opt _ _)).append (sublist_columnF64Opt _ _)).append
        (sublist_columnF64Opt _ _)).append (sublist_columnF64Opt _ _)).append
        (sublist_columnF64Opt _ _)).append (sublist_columnF64Opt _ _)).append
        (sublist_columnF64Opt _ _)).append (sublist_columnF64Opt _ _)).append
        (sublist_columnI64Opt _ _)).append (sublist_columnI64Opt _ _))
  | contractBook row => exact ⟨rfl, List.Sublist.refl _⟩
  | coinbaseTicker row =>
      refine ⟨rfl, ?_⟩
      simp only [push, pushCoinbaseTicker, columnTypes_append]
      refine List.Sublist.append ?_ (List.Sublist.refl _)
      exact ((((((((((sublist_columnF64Opt _ _).append
        (sublist_columnF64Opt _ _)).append (sublist_columnF64Opt _ _)).append
        (sublist_columnF64Opt _ _)).append (sublist_columnF64Opt _ _)).append
        (sublist_columnF64Opt _ _)).append (sublist_columnF64Opt _ _)).append
        (sublist_columnF64Opt _ _)).append (sublist_columnF64Opt _ _)).append
        (sublist_columnF64Opt _ _)).append (sublist_columnF64Opt _ _)
  | coinbaseBook row => exact ⟨rfl, List.Sublist.refl _⟩

/-- The columns that every line of a table has are on its line. -/
theorem required_push (row : Row) :
    ∀ name ∈ requiredColumns (tableOf row),
      name ∈ (columnTypes (push row).columns).map Prod.fst := by
  cases row with
  | index row =>
      rcases row with ⟨table, indexId, value, tsMs, received, source⟩
      cases table <;>
        simp [tableOf, requiredColumns, push, pushIndex, columnF64,
          columnTypes]
  | candle row => exact fun name member => (List.not_mem_nil member).elim
  | contractTicker row =>
      simp [tableOf, requiredColumns, push, pushContractTicker, columnTypes]
  | contractBook row =>
      simp [tableOf, requiredColumns, push, pushContractBook, columnF64,
        columnTypes]
  | coinbaseTicker row =>
      simp [tableOf, requiredColumns, push, pushCoinbaseTicker, columnTypes]
  | coinbaseBook row =>
      simp [tableOf, requiredColumns, push, pushCoinbaseBook, columnF64,
        columnTypes]

/-- The keys of a table are symbols or columns that no line leaves out. -/
theorem dedupKeys_required (table : DataTable) :
    ∀ key ∈ dedupKeys table,
      key ∈ (symbolsOf table).map Prod.fst ∨ key ∈ requiredColumns table := by
  cases table <;> decide

theorem table_push (row : Row) : (push row).table = (tableOf row).name := by
  cases row with
  | index row =>
      rcases row with ⟨table, indexId, value, tsMs, received, source⟩
      cases table <;> rfl
  | _ => rfl

theorem fits_push (row : Row) :
    Fits (declared (tableOf row)) (given (push row)) := by
  rcases given_push row with ⟨symbols, columns⟩
  have sublist : (given (push row)).Sublist
      (symbolsOf (tableOf row) ++ columnsOf (tableOf row)) := by
    rw [given, symbols]
    exact (List.Sublist.refl _).append columns
  refine (fits_whole (tableOf row)).sublist sublist ?_
  intro key member
  rcases List.mem_cons.mp member with rfl | other
  · exact .inl rfl
  · right
    rw [given, symbols, List.map_append, List.mem_append]
    rcases dedupKeys_required (tableOf row) key other with symbol | column
    · exact .inl symbol
    · exact .inr (required_push row key column)

/--
Whatever the row, its line names a table that a statement creates, and fits
it: QuestDB is never given a column it does not know or a value of another
type, and every line has the values that its table tells rows apart by.
-/
theorem push_fits (row : Row) :
    ∃ table statement, readCreateTable (ddl table) = some statement ∧
      statement.table = (push row).table ∧
      Fits statement (given (push row)) :=
  ⟨tableOf row, declared (tableOf row), readCreateTable_ddl (tableOf row),
    (table_push row).symm, fits_push row⟩

end ChudMoney.Db.Ddl
