import ChudMoney.Db.Ddl
import ChudMoney.Lib.Rfc3339

/-!
# From a row to its export

A row is written as a line, stored by QuestDB and read back, column by column,
as an exported array.  How QuestDB prints a stored value is a parameter; it is
asked to print each value of the line so that it can be read again, and no
double that is not finite.
-/

namespace ChudMoney.Db.RoundTrip

open ChudMoney.Db.Ddl
open ChudMoney.Db.EncodeRow
open ChudMoney.Db.Export
open ChudMoney.Db.Push
open ChudMoney.Db.Rows
open ChudMoney.Lib.CreateTable
open ChudMoney.Lib.Json
open ChudMoney.Lib.JsonArray
open ChudMoney.Lib.MachineInt
open ChudMoney.Lib.Rfc3339
open ChudMoney.Lib.Text

/-! ## What QuestDB answers -/

/-- The text of a stored value, none for NULL; a time is in microseconds. -/
structure Printing where
  symbol : String → Option String
  double : F64 → Option String
  long : Int64 → Option String
  timestamp : Int64 → Option String

def Printing.cell (print : Printing) : Cell → Option String
  | .f64 value => print.double value
  | .i64 value => print.long value
  | .ts micros => print.timestamp micros

/-- What a column of a stored line is printed as. -/
def stored (print : Printing) (line : Line) (name : String) : Option String :=
  if name = "ts" then print.timestamp (line.atNanos / 1000)
  else
    match line.symbols.lookup name with
    | some symbol => print.symbol symbol
    | none => (line.columns.lookup name).bind print.cell

/-- The texts of a stored line in the order of the columns. -/
def texts (print : Printing) (line : Line) (cols : List Column) (i : Nat) :
    Option String :=
  (cols[i]?).bind fun column => stored print line column.name

/-- The values of a line are printed so that they can be read again. -/
structure Legible (parseF64 : String → Option F64) (print : Printing)
    (line : Line) : Prop where
  symbol : ∀ name text, line.symbols.lookup name = some text →
    print.symbol text = some text
  finite : ∀ name value,
    line.columns.lookup name = some (.f64 (.finite value)) →
    ∃ text, print.double (.finite value) = some text ∧
      parseF64 text = some (.finite value)
  other : ∀ name value, line.columns.lookup name = some (.f64 value) →
    (∀ number, value ≠ .finite number) → print.double value = none
  long : ∀ name value, line.columns.lookup name = some (.i64 value) →
    ∃ text, print.long value = some text ∧ parseI64 text = some value

/-! ## What is exported -/

/-- A time is exported as it is printed. -/
def timeValue (text : Option String) : Value :=
  (text.map Value.string).getD .null

def cellValue (print : Printing) : Cell → Value
  | .f64 (.finite value) => .number (.float (.finite value))
  | .f64 _ => .null
  | .i64 value => .number (.ofI64 value)
  | .ts micros => timeValue (print.timestamp micros)

/-- The value of a column of a line; NULL where the line has none. -/
def exported (print : Printing) (line : Line) (name : String) : Value :=
  if name = "ts" then timeValue (print.timestamp (line.atNanos / 1000))
  else
    match line.symbols.lookup name with
    | some symbol => .string symbol
    | none => ((line.columns.lookup name).map (cellValue print)).getD .null

/-! ## Columns and lines -/

theorem nodup_columns (table : DataTable) :
    (table.columns.map Column.name).Nodup := by
  cases table <;> decide

theorem kind_ts (table : DataTable) :
    ∀ column ∈ table.columns, column.name = "ts" →
      column.kind = .timestamp := by
  cases table <;> decide

theorem sqlType_injective : Function.Injective sqlType := by
  intro one two same
  cases one <;> cases two <;> first | rfl | cases same

theorem mem_of_lookup {α : Type} {entries : List (String × α)} {name : String}
    {value : α} (found : entries.lookup name = some value) :
    (name, value) ∈ entries := by
  induction entries with
  | nil => cases found
  | cons entry entries ih =>
      rw [List.lookup_cons] at found
      split at found
      next same =>
        cases found
        rw [eq_of_beq same]
        exact List.mem_cons_self
      · exact List.mem_cons_of_mem _ (ih found)

/-- A column of the name of a value that a line gives has its type. -/
theorem kind_of_given (row : Row) {column : Column}
    (member : column ∈ (tableOf row).columns) {type : SqlType}
    (isGiven : (column.name, type) ∈ given (push row)) :
    sqlType column.kind = type := by
  have isDeclared := (fits_push row).declared _ isGiven
  rcases List.mem_map.mp isDeclared with ⟨other, isOther, same⟩
  have sameName : other.name = column.name := congrArg Prod.fst same
  rw [List.inj_on_of_nodup_map (nodup_columns (tableOf row)) isOther member
    sameName] at same
  exact congrArg Prod.snd same

theorem kind_of_symbol (row : Row) {column : Column}
    (member : column ∈ (tableOf row).columns) {text : String}
    (found : (push row).symbols.lookup column.name = some text) :
    column.kind = .text := by
  apply sqlType_injective
  apply kind_of_given row member
  exact List.mem_append_left _
    (List.mem_map.mpr ⟨(column.name, text), mem_of_lookup found, rfl⟩)

theorem kind_of_column (row : Row) {column : Column}
    (member : column ∈ (tableOf row).columns) {cell : Cell}
    (found : (push row).columns.lookup column.name = some cell) :
    sqlType column.kind = cellType cell := by
  apply kind_of_given row member
  exact List.mem_append_right _
    (List.mem_map.mpr ⟨(column.name, cell), mem_of_lookup found, rfl⟩)

/-! ## The export of a line -/

variable {parseF64 : String → Option F64} {writeF64 : F64 → String}
variable {print : Printing}

theorem cellValue_timestamp (text : Option String) :
    EncodeRow.cellValue parseF64 .timestamp text = timeValue text := by
  cases text <;> rfl

/-- A column is exported as the value that the line gives. -/
theorem cellValue_stored {row : Row}
    (legible : Legible parseF64 print (push row)) {column : Column}
    (member : column ∈ (tableOf row).columns) :
    EncodeRow.cellValue parseF64 column.kind
        (stored print (push row) column.name) =
      exported print (push row) column.name := by
  unfold stored exported
  by_cases isTs : column.name = "ts"
  · rw [if_pos isTs, if_pos isTs, kind_ts _ column member isTs]
    exact cellValue_timestamp _
  rw [if_neg isTs, if_neg isTs]
  cases isSymbol : (push row).symbols.lookup column.name with
  | some text =>
      rw [kind_of_symbol row member isSymbol]
      dsimp only
      rw [legible.symbol _ _ isSymbol]
      rfl
  | none =>
      cases isColumn : (push row).columns.lookup column.name with
      | none => rfl
      | some cell =>
          have kind := kind_of_column row member isColumn
          cases cell with
          | ts micros =>
              have isTime : column.kind = .timestamp := sqlType_injective kind
              rw [isTime]
              exact cellValue_timestamp _
          | i64 value =>
              have isLong : column.kind = .long := sqlType_injective kind
              rcases legible.long _ _ isColumn with ⟨text, printed, reads⟩
              simp [isLong, Printing.cell, printed, EncodeRow.cellValue, reads,
                cellValue]
          | f64 value =>
              have isDouble : column.kind = .double := sqlType_injective kind
              cases value with
              | finite value =>
                  rcases legible.finite _ _ isColumn with
                    ⟨text, printed, reads⟩
                  simp [isDouble, Printing.cell, printed,
                    EncodeRow.cellValue, reads, cellValue]
              | nan =>
                  have printed := legible.other _ _ isColumn (by simp)
                  simp [Printing.cell, printed, EncodeRow.cellValue,
                    cellValue]
              | infinite negative =>
                  have printed := legible.other _ _ isColumn (by simp)
                  simp [Printing.cell, printed, EncodeRow.cellValue,
                    cellValue]

/-- What is written of a column is read back as the value of the line. -/
theorem faithful_push {row : Row} (legible : Legible parseF64 print (push row))
    (prints : PrintsDoubles parseF64 writeF64 (tableOf row).columns
      (texts print (push row) (tableOf row).columns)) :
    ∀ entry ∈ (tableOf row).columns.zipIdx,
      Faithful parseF64
        (writeCell parseF64 writeF64 entry.1.kind
          (texts print (push row) (tableOf row).columns entry.2))
        (exported print (push row) entry.1.name) := by
  intro entry member
  have isColumn := List.mem_zipIdx_iff_getElem?.mp member
  have faithful := faithful_writeCell (prints entry member)
  rw [texts, isColumn, Option.bind_some] at faithful ⊢
  rwa [cellValue_stored legible (List.mem_of_getElem? isColumn)] at faithful

/-- The values of a row's columns in order. -/
def exportedValues (print : Printing) (row : Row) : List Value :=
  (tableOf row).columns.map fun column => exported print (push row) column.name

/-- The array of a row is read back as its values. -/
theorem readScalars_push {row : Row}
    (legible : Legible parseF64 print (push row))
    (prints : PrintsDoubles parseF64 writeF64 (tableOf row).columns
      (texts print (push row) (tableOf row).columns)) :
    readScalars parseF64
        (arrayText (cellTexts parseF64 writeF64 (tableOf row).columns
          (texts print (push row) (tableOf row).columns))) =
      some (exportedValues print row) := by
  have faithful := faithful_push legible prints
  have read := readScalars_arrayText
    (fun entry member => (faithful entry member).element)
    (fun entry member => (faithful entry member).read)
  refine read.trans (congrArg some ?_)
  have names := congrArg
    (List.map fun column => exported print (push row) column.name)
    (List.zipIdx_map_fst 0 (tableOf row).columns)
  rwa [List.map_map] at names

/--
What is exported of a row is what was written: the array has one value for
each column of the row's table, in order, namely the one that the line gives,
and every value of the line has such a column.
-/
theorem exported_push (row : Row) (print : Printing)
    (legible : Legible parseF64 print (push row))
    (prints : PrintsDoubles parseF64 writeF64 (tableOf row).columns
      (texts print (push row) (tableOf row).columns))
    (out : ByteArray) :
    (∃ text : String,
      encodeRow parseF64 writeF64 (tableOf row).columns
          (texts print (push row) (tableOf row).columns) out =
        out ++ text.toUTF8 ∧
      IsLine text ∧
      readScalars parseF64 text = some ((tableOf row).columns.map
        fun column => exported print (push row) column.name)) ∧
    ∀ entry ∈ given (push row),
      ∃ column ∈ (tableOf row).columns, column.name = entry.1 := by
  constructor
  · refine ⟨_, encodeRow_eq _ _ out, ?_, readScalars_push legible prints⟩
    apply isLine_arrayText
    intro item member
    rcases List.mem_map.mp member with ⟨entry, listed, rfl⟩
    exact (faithful_push legible prints entry listed).line
  · intro entry member
    rcases List.mem_map.mp ((fits_push row).declared entry member) with
      ⟨column, isColumn, same⟩
    exact ⟨column, isColumn, congrArg Prod.fst same⟩

/-- A level of a book; its price and size are both 0.42. -/
def levelRow : Row :=
  .contractBook
    { seriesTicker := "KXBTC15M"
      ticker := "KXBTC15M-1"
      side := "yes"
      kind := .snapshot
      price := .finite (21 / 50)
      size := .finite (21 / 50)
      seq := 7
      tsMs := 0
      receivedAtMs := 0
      source := "ws_orderbook" }

/-- The double nearest to 0.42. -/
def levelDouble : Rat :=
  7566047373982433 / 2 ^ 54

def levelPrinting : Printing where
  symbol := some
  double value := if value = .finite levelDouble then some "0.42" else none
  long value := some (toString value.toInt)
  timestamp micros := some (rfc3339Micros micros.toInt)

theorem rounded_level :
    (F64.finite (21 / 50)).rounded = .finite levelDouble := by
  decide +kernel

theorem parse_level : F64.parse "0.42" = some (.finite levelDouble) := by
  decide +kernel

theorem legible_levelRow : Legible F64.parse levelPrinting (push levelRow) := by
  constructor
  · exact fun _ _ _ => rfl
  · intro name value found
    have member := mem_of_lookup found
    simp only [push, levelRow, pushContractBook, columnF64, rounded_level,
      micros, List.mem_cons,
      Prod.mk.injEq, Cell.f64.injEq, F64.finite.injEq, reduceCtorEq,
      and_false, List.not_mem_nil, or_false] at member
    rcases member with ⟨-, rfl⟩ | ⟨-, rfl⟩
    · exact ⟨"0.42", by decide +kernel, parse_level⟩
    · exact ⟨"0.42", by decide +kernel, parse_level⟩
  · intro name value found infinite
    have member := mem_of_lookup found
    simp only [push, levelRow, pushContractBook, columnF64, rounded_level,
      micros, List.mem_cons,
      Prod.mk.injEq, Cell.f64.injEq, reduceCtorEq, and_false,
      List.not_mem_nil, or_false] at member
    rcases member with ⟨-, rfl⟩ | ⟨-, rfl⟩
    · exact absurd rfl (infinite _)
    · exact absurd rfl (infinite _)
  · intro name value found
    have member := mem_of_lookup found
    simp only [push, levelRow, pushContractBook, columnF64, rounded_level,
      micros, List.mem_cons,
      Prod.mk.injEq, Cell.i64.injEq, reduceCtorEq, and_false, false_or,
      List.not_mem_nil, or_false] at member
    rcases member with ⟨-, rfl⟩
    exact ⟨"7", by decide +kernel, by decide +kernel⟩

theorem prints_levelRow :
    PrintsDoubles F64.parse (fun _ => "0.42") (tableOf levelRow).columns
      (texts levelPrinting (push levelRow) (tableOf levelRow).columns) := by
  intro entry member isDouble text isText value parsed
  have both : ∀ entry ∈ (tableOf levelRow).columns.zipIdx,
      entry.1.kind = .double →
        texts levelPrinting (push levelRow) (tableOf levelRow).columns
          entry.2 = some "0.42" := by
    decide +kernel
  rw [both entry member isDouble] at isText
  cases isText
  rw [parse_level] at parsed
  cases parsed
  decide +kernel

theorem exportedValues_levelRow :
    exportedValues levelPrinting levelRow =
      [.string "KXBTC15M-1", .string "KXBTC15M", .string "yes",
        .string "snapshot", .string "ws_orderbook",
        .number (.float (.finite levelDouble)),
        .number (.float (.finite levelDouble)), .number (.ofI64 7),
        .string "1970-01-01T00:00:00.000000Z",
        .string "1970-01-01T00:00:00.000000Z"] := by
  have epoch : rfc3339Micros 0 = "1970-01-01T00:00:00.000000Z" := by
    decide +kernel
  simp [exportedValues, exported, tableOf, DataTable.columns,
    contractBookColumns, Export.texts, doubles, longs, timestamps, push,
    levelRow, pushContractBook, BookKind.asStr, columnF64, rounded_level,
    micros, cellValue, timeValue, levelPrinting, epoch, List.lookup]

theorem exported_push_levelRow :
    ∃ text : String,
      encodeRow F64.parse (fun _ => "0.42") (tableOf levelRow).columns
          (texts levelPrinting (push levelRow) (tableOf levelRow).columns)
          ByteArray.empty = ByteArray.empty ++ text.toUTF8 ∧
      IsLine text ∧
      readScalars F64.parse text = some [.string "KXBTC15M-1",
        .string "KXBTC15M", .string "yes", .string "snapshot",
        .string "ws_orderbook", .number (.float (.finite levelDouble)),
        .number (.float (.finite levelDouble)), .number (.ofI64 7),
        .string "1970-01-01T00:00:00.000000Z",
        .string "1970-01-01T00:00:00.000000Z"] := by
  rcases exported_push levelRow levelPrinting legible_levelRow prints_levelRow
    ByteArray.empty with ⟨⟨text, appended, line, reads⟩, -⟩
  exact
    ⟨text, appended, line, reads.trans (congrArg some exportedValues_levelRow)⟩

end ChudMoney.Db.RoundTrip
