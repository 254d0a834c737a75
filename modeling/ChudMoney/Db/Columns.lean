import ChudMoney.Db.Export
import ChudMoney.Lib.JsonText

/-!
# Columns and the JSON text of an exported row

`encodeRow` writes a row of texts, one per column and absent where the table
has NULL, as a compact JSON array.  Whatever the texts are, the array is one
element of the array that a batch of rows is.
-/

namespace ChudMoney.Db.Export

open ChudMoney.Lib.Json
open ChudMoney.Lib.JsonArray
open ChudMoney.Lib.MachineInt
open ChudMoney.Lib.Text

/-- How the text of a column becomes JSON. -/
inductive ColKind where
  | text
  | double
  | long
  | timestamp
  deriving DecidableEq, Repr

structure Column where
  name : String
  kind : ColKind
  deriving DecidableEq, Repr

def texts (names : List String) : List Column :=
  names.map fun name => ⟨name, .text⟩

def doubles (names : List String) : List Column :=
  names.map fun name => ⟨name, .double⟩

def longs (names : List String) : List Column :=
  names.map fun name => ⟨name, .long⟩

def timestamps (names : List String) : List Column :=
  names.map fun name => ⟨name, .timestamp⟩

def indexColumns : List Column :=
  texts ["index_id", "source"] ++ doubles ["value"] ++
    timestamps ["received_at", "ts"]

def candleColumns : List Column :=
  texts ["ticker", "series_ticker", "source"] ++
    doubles ["floor_strike", "yes_bid_open", "yes_bid_high", "yes_bid_low",
      "yes_bid_close", "yes_ask_open", "yes_ask_high", "yes_ask_low",
      "yes_ask_close", "price_open", "price_high", "price_low", "price_close",
      "price_mean", "volume", "open_interest"] ++
    timestamps ["ts"]

def contractTickerColumns : List Column :=
  texts ["ticker", "series_ticker", "source"] ++
    doubles ["floor_strike", "price", "yes_bid", "yes_ask", "yes_bid_size",
      "yes_ask_size", "last_trade_size", "volume", "open_interest"] ++
    longs ["dollar_volume", "dollar_open_interest"] ++
    timestamps ["received_at", "ts"]

def contractBookColumns : List Column :=
  texts ["ticker", "series_ticker", "side", "kind", "source"] ++
    doubles ["price", "size"] ++ longs ["seq"] ++
    timestamps ["received_at", "ts"]

def coinbaseTickerColumns : List Column :=
  texts ["product", "source"] ++
    doubles ["price", "best_bid", "best_ask", "best_bid_qty", "best_ask_qty",
      "volume_24h", "low_24h", "high_24h", "low_52w", "high_52w",
      "pct_chg_24h"] ++
    longs ["sequence_num"] ++ timestamps ["received_at", "ts"]

def coinbaseBookColumns : List Column :=
  texts ["product", "side", "kind", "source"] ++ doubles ["price", "size"] ++
    longs ["sequence_num"] ++ timestamps ["received_at", "ts"]

namespace DataTable

/-- Column lists in the order of the table, `ts` last. -/
def columns : DataTable → List Column
  | indexValuesLive | indexValuesHist => indexColumns
  | contractCandlesHist => candleColumns
  | contractTickerLive => contractTickerColumns
  | contractBookLive => contractBookColumns
  | coinbaseTickerLive => coinbaseTickerColumns
  | coinbaseBookLive => coinbaseBookColumns

/-- The symbol column that a market's rows are selected by. -/
def keyColumn (table : DataTable) : String :=
  match table.keySource with
  | .indexId => "index_id"
  | .seriesTicker => "series_ticker"
  | .coinbaseProduct => "product"

/-- Rows are selected by a column the table has, and end with their `ts`. -/
theorem columns_spec (table : DataTable) :
    ⟨table.keyColumn, .text⟩ ∈ table.columns ∧
      table.columns.getLast? = some ⟨"ts", .timestamp⟩ := by
  cases table <;> decide

end DataTable

/-! ## The text of a row -/

/-- `serde_json::to_writer` of a double; one that is not finite is `null`. -/
def writeDouble (writeF64 : F64 → String) : F64 → String
  | .finite value => writeF64 (.finite value)
  | _ => "null"

/-- One value of a row. -/
def encodeCell (writeF64 : F64 → String) (kind : ColKind) :
    Option String → String
  | none => "null"
  | some text =>
      match kind with
      | .double => ((F64.parse text).map (writeDouble writeF64)).getD "null"
      | .long =>
          ((parseI64 text).map fun value => toString value.toInt).getD "null"
      | .text | .timestamp => quote text

/-- A row as a compact JSON array, one value per column in order. -/
def encodeRow (writeF64 : F64 → String) (cols : List Column)
    (get : Nat → Option String) : String :=
  arrayText (cols.zipIdx.map fun (column, place) =>
    encodeCell writeF64 column.kind (get place))

/-- One exported row: its `ts` as QuestDB prints it, and its JSON text. -/
structure DataRow where
  ts : String
  json : String
  deriving DecidableEq, Repr

/-- What is exported of a row that a window query returned. -/
def dataRow (writeF64 : F64 → String) (cols : List Column)
    (get : Nat → Option String) : DataRow where
  ts := (get (cols.length - 1)).getD ""
  json := encodeRow writeF64 cols get

/-! ## Rows are elements -/

theorem isElement_null (depth : Nat) : IsElement depth "null" :=
  isElement_of_plain (by simp) (by simp [marks])

/-- One value of a row is an element, if the printed doubles are. -/
theorem isElement_encodeCell {writeF64 : F64 → String} {depth : Nat}
    (doubles : ∀ value, IsElement depth (writeF64 value)) (kind : ColKind)
    (text : Option String) :
    IsElement depth (encodeCell writeF64 kind text) := by
  cases text with
  | none => exact isElement_null depth
  | some text =>
      cases kind with
      | double =>
          cases parsed : F64.parse text with
          | none => simpa [encodeCell, parsed] using isElement_null depth
          | some value =>
              cases value <;>
                simp [encodeCell, parsed, writeDouble, isElement_null, doubles]
      | long =>
          cases parsed : parseI64 text with
          | none => simpa [encodeCell, parsed] using isElement_null depth
          | some value =>
              simpa [encodeCell, parsed] using
                isElement_toString depth value.toInt
      | text => exact isElement_quote depth text
      | timestamp => exact isElement_quote depth text

/-- A row is one element of a batch of rows. -/
theorem isElement_dataRow {writeF64 : F64 → String}
    (doubles : ∀ value, IsElement 1 (writeF64 value)) (cols : List Column)
    (get : Nat → Option String) :
    IsElement 0 (dataRow writeF64 cols get).json := by
  apply isElement_arrayText
  intro item member
  rcases List.mem_map.mp member with ⟨⟨column, place⟩, _, rfl⟩
  exact isElement_encodeCell doubles column.kind (get place)

end ChudMoney.Db.Export
