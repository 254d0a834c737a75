import ChudMoney.Controllers.Periods
import ChudMoney.Db.Columns
import ChudMoney.Lib.Rfc3339
import ChudMoney.Lib.SqlText
import ChudMoney.Model.Market

/-!
# The statements sent to QuestDB

A market's key is inlined as a quoted literal, at four places.  Read as SQL, a
statement has the key as the value that its key column is compared with, and
nothing else in it depends on the key.
-/

namespace ChudMoney.Db.Queries

open ChudMoney.Controllers.Periods
open ChudMoney.Db.Export
open ChudMoney.Db.Rows
open ChudMoney.Lib.MachineInt
open ChudMoney.Lib.Rfc3339
open ChudMoney.Lib.SqlText
open ChudMoney.Model

/-! ## The statements -/

/-- `us` (microseconds, `ts`'s own precision) as a timestamp literal. -/
def tsLiteralUs (us : Int64) : String :=
  if InChrono (us.toInt * 1000) then rfc3339Micros us.toInt else rfc3339Micros 0

/-- `ms` as a timestamp literal QuestDB compares against `ts`. -/
def tsLiteral (ms : Int64) : String :=
  tsLiteralUs (ms * 1000)

/-- One table plus the symbol column and value that select a market's rows. -/
structure SummaryKey where
  table : String
  column : String
  key : String
  deriving DecidableEq

def summarySql (key : SummaryKey) : String :=
  let value := doubleQuotes key.key
  "SELECT count() AS rows, cast(min(ts) AS string) AS first_ts, " ++
    "cast(max(ts) AS string) AS last_ts FROM " ++ key.table ++ " WHERE " ++
    key.column ++ " = '" ++ value ++ "'"

/-- How a column is selected; timestamps are formatted by QuestDB. -/
def selected (column : Column) : String :=
  match column.kind with
  | .timestamp => "cast(" ++ column.name ++ " AS string) AS " ++ column.name
  | _ => column.name

/-- One window's query. -/
def windowSql (table : DataTable) (key : String) (startUs endUs : Int64) :
    String :=
  let cols := ", ".intercalate (table.columns.map selected)
  let key := doubleQuotes key
  "SELECT " ++ cols ++ " FROM " ++ table.name ++ " WHERE " ++
    table.keyColumn ++ " = '" ++ key ++ "' AND ts >= '" ++
    tsLiteralUs startUs ++ "' AND ts < '" ++ tsLiteralUs endUs ++
    "' ORDER BY ts"

/-- The statement of `index_counts`. -/
def indexCountsSql (indexId : String) (startMs endMs : Int64)
    (sampleBy : String) : String :=
  let id := doubleQuotes indexId
  "SELECT cast(ts AS long) AS bucket_us, count() AS rows FROM " ++
    Table.hist.name ++ " WHERE index_id = '" ++ id ++ "' AND ts >= '" ++
    tsLiteral startMs ++ "' AND ts < '" ++ tsLiteral endMs ++
    "' SAMPLE BY " ++ sampleBy ++ " ALIGN TO CALENDAR"

/-- The statement of `candle_counts`. -/
def candleCountsSql (seriesTicker : String) (startMs endMs : Int64) : String :=
  let series := doubleQuotes seriesTicker
  "SELECT ticker, count() AS rows FROM " ++ candlesTable ++
    " WHERE series_ticker = '" ++ series ++ "' AND ts >= '" ++
    tsLiteral startMs ++ "' AND ts <= '" ++ tsLiteral endMs ++ "'"

/-- The tables and keys that make up a market's summary. -/
def summaryKeys (market : Market) : List SummaryKey :=
  let index := market.indexId
  let series := market.seriesTicker
  [⟨Table.live.name, "index_id", index⟩, ⟨Table.hist.name, "index_id", index⟩,
      ⟨candlesTable, "series_ticker", series⟩,
      ⟨contractTickerTable, "series_ticker", series⟩,
      ⟨contractBookTable, "series_ticker", series⟩] ++
    match market.coinbaseProduct with
    | some product =>
        [⟨coinbaseTickerTable, "product", product⟩,
          ⟨coinbaseBookTable, "product", product⟩]
    | none => []

example : windowSql .coinbaseBookLive "BTC-USD" 0 1500000 =
    "SELECT product, side, kind, source, price, size, sequence_num, " ++
      "cast(received_at AS string) AS received_at, " ++
      "cast(ts AS string) AS ts FROM coinbase_book_live " ++
      "WHERE product = 'BTC-USD' AND ts >= '1970-01-01T00:00:00.000000Z' " ++
      "AND ts < '1970-01-01T00:00:01.500000Z' ORDER BY ts" := by
  decide +kernel

/-! ## Texts without quotes -/

/-- A timestamp literal has no quote. -/
theorem unquoted_tsLiteralUs (us : Int64) : Unquoted (tsLiteralUs us) := by
  have stamp : ∀ us, Unquoted (rfc3339Micros us) := by
    intro us quote
    exact absurd (stampChar_rfc3339Micros _ quote) (by decide)
  unfold tsLiteralUs
  split
  · exact stamp _
  · exact stamp _

theorem doubleQuotes_tsLiteralUs (us : Int64) :
    doubleQuotes (tsLiteralUs us) = tsLiteralUs us :=
  doubleQuotes_eq_self (unquoted_tsLiteralUs us)

/-- The plain text in front of the key in a window's query. -/
def windowText (table : DataTable) : String :=
  "SELECT " ++ ", ".intercalate (table.columns.map selected) ++ " FROM " ++
    table.name ++ " WHERE " ++ table.keyColumn ++ " = "

/-- The plain text in front of the key in a summary. -/
def summaryText (table : DataTable) : String :=
  "SELECT count() AS rows, cast(min(ts) AS string) AS first_ts, " ++
    "cast(max(ts) AS string) AS last_ts FROM " ++ table.name ++ " WHERE " ++
    table.keyColumn ++ " = "

/-- The plain text in front of the key in a count of an index. -/
def indexCountsText : String :=
  "SELECT cast(ts AS long) AS bucket_us, count() AS rows FROM " ++
    Table.hist.name ++ " WHERE index_id = "

/-- The plain text in front of the key in a count of candles. -/
def candleCountsText : String :=
  "SELECT ticker, count() AS rows FROM " ++ candlesTable ++
    " WHERE series_ticker = "

/-- No name that a statement is made with has a quote. -/
theorem unquoted_names (table : DataTable) :
    Unquoted table.name ∧ Unquoted table.keyColumn ∧
      ∀ column ∈ table.columns, Unquoted (selected column) := by
  cases table <;> decide +kernel

theorem unquoted_windowText (table : DataTable) :
    Unquoted (windowText table) := by
  rcases unquoted_names table with ⟨name, keyColumn, columns⟩
  have cols : Unquoted (", ".intercalate (table.columns.map selected)) := by
    apply unquoted_intercalate (by decide)
    intro text member
    rcases List.mem_map.mp member with ⟨column, listed, rfl⟩
    exact columns column listed
  exact ((((((by decide : Unquoted "SELECT ").append cols).append
    (by decide)).append name).append (by decide)).append keyColumn).append
      (by decide)

theorem unquoted_summaryText (table : DataTable) :
    Unquoted (summaryText table) := by
  rcases unquoted_names table with ⟨name, keyColumn, -⟩
  have count : Unquoted
      "SELECT count() AS rows, cast(min(ts) AS string) AS first_ts, " := by
    decide +kernel
  exact (((((count.append (by decide +kernel)).append name).append
    (by decide)).append keyColumn).append (by decide))

theorem unquoted_sampleBy (timespan : Timespan) :
    Unquoted (" SAMPLE BY " ++ timespan.sampleBy ++ " ALIGN TO CALENDAR") := by
  cases timespan <;> decide +kernel

/-- A market's summary reads tables by the column that they are keyed by. -/
theorem summaryKeys_tables {market : Market} :
    ∀ key ∈ summaryKeys market, ∃ table : DataTable,
      key.table = table.name ∧ key.column = table.keyColumn := by
  intro key member
  unfold summaryKeys at member
  rcases List.mem_append.mp member with always | optional
  · simp only [List.mem_cons, List.not_mem_nil, or_false] at always
    rcases always with rfl | rfl | rfl | rfl | rfl
    · exact ⟨.indexValuesLive, rfl, rfl⟩
    · exact ⟨.indexValuesHist, rfl, rfl⟩
    · exact ⟨.contractCandlesHist, rfl, rfl⟩
    · exact ⟨.contractTickerLive, rfl, rfl⟩
    · exact ⟨.contractBookLive, rfl, rfl⟩
  · split at optional
    · simp only [List.mem_cons, List.not_mem_nil, or_false] at optional
      rcases optional with rfl | rfl
      · exact ⟨.coinbaseTickerLive, rfl, rfl⟩
      · exact ⟨.coinbaseBookLive, rfl, rfl⟩
    · cases optional

/-! ## The statements as pieces -/

/-- A window's query around its key. -/
theorem windowSql_eq (table : DataTable) (key : String)
    (startUs endUs : Int64) :
    windowSql table key startUs endUs =
      render [(windowText table, key), (" AND ts >= ", tsLiteralUs startUs),
        (" AND ts < ", tsLiteralUs endUs)] " ORDER BY ts" := by
  have opening : " = '" = " = " ++ "'" := rfl
  have lower : "' AND ts >= '" = "'" ++ (" AND ts >= " ++ "'") := rfl
  have upper : "' AND ts < '" = "'" ++ (" AND ts < " ++ "'") := rfl
  have closing : "' ORDER BY ts" = "'" ++ " ORDER BY ts" := rfl
  unfold windowSql windowText
  simp only [render, doubleQuotes_tsLiteralUs, opening, lower, upper, closing,
    String.append_assoc]

/-- A summary around its key. -/
theorem summarySql_eq (table : DataTable) (key : String) :
    summarySql ⟨table.name, table.keyColumn, key⟩ =
      render [(summaryText table, key)] "" := by
  have opening : " = '" = " = " ++ "'" := rfl
  unfold summarySql summaryText
  simp only [render, opening, String.append_assoc, String.append_empty]

/-- The count of an index around its key. -/
theorem indexCountsSql_eq (indexId : String) (startMs endMs : Int64)
    (sampleBy : String) :
    indexCountsSql indexId startMs endMs sampleBy =
      render [(indexCountsText, indexId), (" AND ts >= ", tsLiteral startMs),
        (" AND ts < ", tsLiteral endMs)]
        (" SAMPLE BY " ++ sampleBy ++ " ALIGN TO CALENDAR") := by
  have opening : " WHERE index_id = '" = " WHERE index_id = " ++ "'" := rfl
  have lower : "' AND ts >= '" = "'" ++ (" AND ts >= " ++ "'") := rfl
  have upper : "' AND ts < '" = "'" ++ (" AND ts < " ++ "'") := rfl
  have closing : "' SAMPLE BY " = "'" ++ " SAMPLE BY " := rfl
  unfold indexCountsSql indexCountsText tsLiteral
  simp only [render, doubleQuotes_tsLiteralUs, opening, lower, upper, closing,
    String.append_assoc]

/-- The count of a series' candles around its key. -/
theorem candleCountsSql_eq (seriesTicker : String) (startMs endMs : Int64) :
    candleCountsSql seriesTicker startMs endMs =
      render [(candleCountsText, seriesTicker),
        (" AND ts >= ", tsLiteral startMs), (" AND ts <= ", tsLiteral endMs)]
        "" := by
  have opening :
      " WHERE series_ticker = '" = " WHERE series_ticker = " ++ "'" :=
    rfl
  have lower : "' AND ts >= '" = "'" ++ (" AND ts >= " ++ "'") := rfl
  have upper : "' AND ts <= '" = "'" ++ (" AND ts <= " ++ "'") := rfl
  unfold candleCountsSql candleCountsText tsLiteral
  simp only [render, doubleQuotes_tsLiteralUs, opening, lower, upper,
    String.append_assoc, String.append_empty]

/-- A key and the two bounds of a range are apart. -/
theorem separated_range {opening upper last : String}
    (opens : Unquoted opening) (isUpper : Unquoted upper) (apart : upper ≠ "")
    (closes : Unquoted last) (key first second : String) :
    Separated [(opening, key), (" AND ts >= ", first), (upper, second)]
      last := by
  have lower : Unquoted " AND ts >= " := by decide
  exact ⟨opens, by simp, lower, by simpa using apart, isUpper, by simp, closes⟩

/-! ## No key changes a statement -/

/--
Read as SQL, each statement has the key as the one literal that its key column
is compared with, between texts that do not depend on the key.
-/
theorem key_read_back (key : String) :
    (∀ (table : DataTable) (startUs endUs : Int64),
      read (windowSql table key startUs endUs) =
        some [.plain (windowText table), .literal key, .plain " AND ts >= ",
          .literal (tsLiteralUs startUs), .plain " AND ts < ",
          .literal (tsLiteralUs endUs), .plain " ORDER BY ts"]) ∧
    (∀ table : DataTable,
      read (summarySql ⟨table.name, table.keyColumn, key⟩) =
        some [.plain (summaryText table), .literal key, .plain ""]) ∧
    (∀ (startMs endMs : Int64) (timespan : Timespan),
      read (indexCountsSql key startMs endMs timespan.sampleBy) =
        some [.plain indexCountsText, .literal key, .plain " AND ts >= ",
          .literal (tsLiteral startMs), .plain " AND ts < ",
          .literal (tsLiteral endMs),
          .plain (" SAMPLE BY " ++ timespan.sampleBy ++
            " ALIGN TO CALENDAR")]) ∧
    ∀ startMs endMs : Int64,
      read (candleCountsSql key startMs endMs) =
        some [.plain candleCountsText, .literal key, .plain " AND ts >= ",
          .literal (tsLiteral startMs), .plain " AND ts <= ",
          .literal (tsLiteral endMs), .plain ""] := by
  refine ⟨?_, ?_, ?_, ?_⟩
  · intro table startUs endUs
    rw [windowSql_eq]
    apply read_render
    apply separated_range (unquoted_windowText table) <;> decide
  · intro table
    have ends : Unquoted "" := by decide
    rw [summarySql_eq]
    apply read_render
    exact ⟨unquoted_summaryText table, by simp, ends⟩
  · intro startMs endMs timespan
    rw [indexCountsSql_eq]
    apply read_render
    exact separated_range (by decide +kernel) (by decide) (by decide)
      (unquoted_sampleBy timespan) _ _ _
  · intro startMs endMs
    rw [candleCountsSql_eq]
    apply read_render
    exact separated_range (by decide +kernel) (by decide) (by decide)
      (by decide) _ _ _

end ChudMoney.Db.Queries
