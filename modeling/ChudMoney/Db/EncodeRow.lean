import ChudMoney.Db.Columns
import ChudMoney.Lib.JsonRead

/-!
# A row written into a buffer

`encodeRow` appends the JSON array of a row byte by byte, as the export does
for each row it reads.  The array is read back as one value per column; what
the buffer held before stays in front of it.

How a text becomes a double and how a double is printed are parameters: the
standard library reads a decimal as the double nearest to it, and serde_json
prints a double as a number that is read as the same one.
-/

namespace ChudMoney.Db.EncodeRow

open ChudMoney.Db.Export
open ChudMoney.Lib.Json
open ChudMoney.Lib.JsonArray
open ChudMoney.Lib.MachineInt
open ChudMoney.Lib.Text

section Writing

variable (parseF64 : String → Option F64) (writeF64 : F64 → String)

/-- What is appended for one column. -/
def writeCell (kind : ColKind) : Option String → String
  | none => "null"
  | some s =>
      match kind with
      | .double =>
          match parseF64 s with
          | some d => writeDouble writeF64 d
          | none => "null"
      | .long =>
          match parseI64 s with
          | some l => toString l.toInt
          | none => "null"
      | .text | .timestamp => quote s

/-- The columns of a row, each behind a comma but the first. -/
def writeCells (get : Nat → Option String) (cols : List (Column × Nat))
    (out : ByteArray) : ByteArray :=
  cols.foldl (fun out entry =>
    let out := if 0 < entry.2 then out ++ ",".toUTF8 else out
    out ++ (writeCell parseF64 writeF64 entry.1.kind (get entry.2)).toUTF8) out

/-- `encode_row`. -/
def encodeRow (cols : List Column) (get : Nat → Option String)
    (out : ByteArray) : ByteArray :=
  writeCells parseF64 writeF64 get cols.zipIdx (out ++ "[".toUTF8) ++
    "]".toUTF8

/-- The texts of the columns in order. -/
def cellTexts (cols : List Column) (get : Nat → Option String) :
    List String :=
  cols.zipIdx.map fun entry =>
    writeCell parseF64 writeF64 entry.1.kind (get entry.2)

/-- What a column is read back as. -/
def cellValue (kind : ColKind) : Option String → Value
  | none => .null
  | some s =>
      match kind with
      | .double =>
          match parseF64 s with
          | some (.finite value) => .number (.float (.finite value))
          | _ => .null
      | .long =>
          match parseI64 s with
          | some value => .number (.ofI64 value)
          | none => .null
      | .text | .timestamp => .string s

/-- The finite doubles of a row are printed as numbers that denote them. -/
def PrintsDoubles (cols : List Column) (get : Nat → Option String) : Prop :=
  ∀ entry ∈ cols.zipIdx, entry.1.kind = .double → ∀ s ∈ get entry.2,
    ∀ value, parseF64 s = some (.finite value) →
      readNumber parseF64 (writeF64 (.finite value)) =
        some (.float (.finite value))

end Writing

variable {parseF64 : String → Option F64} {writeF64 : F64 → String}

/-! ## The text appended -/

/-- After some columns the buffer holds an array that is still open. -/
theorem writeCells_eq (cols : List Column) (get : Nat → Option String)
    (out : ByteArray) :
    writeCells parseF64 writeF64 get cols.zipIdx (out ++ "[".toUTF8) =
      out ++ (openText (cellTexts parseF64 writeF64 cols get)).toUTF8 := by
  induction cols using List.reverseRecOn with
  | nil => rfl
  | append_singleton cols column ih =>
      have texts : cellTexts parseF64 writeF64 (cols ++ [column]) get =
          cellTexts parseF64 writeF64 cols get ++
            [writeCell parseF64 writeF64 column.kind (get cols.length)] := by
        simp [cellTexts, List.zipIdx_append]
      unfold writeCells at ih ⊢
      rw [List.zipIdx_append, List.foldl_append, ih, texts]
      by_cases first : cols = []
      · subst first
        simp [cellTexts, openText_singleton, ByteArray.append_assoc,
          String.toByteArray_append]
      · have later : 0 < cols.length := List.length_pos_iff.mpr first
        have nonempty : cellTexts parseF64 writeF64 cols get ≠ [] := by
          simpa [cellTexts] using first
        rw [openText_concat nonempty]
        simp [later, ByteArray.append_assoc, String.toByteArray_append]

/-- A row is appended as one array text. -/
theorem encodeRow_eq (cols : List Column) (get : Nat → Option String)
    (out : ByteArray) :
    encodeRow parseF64 writeF64 cols get out =
      out ++ (arrayText (cellTexts parseF64 writeF64 cols get)).toUTF8 := by
  rw [encodeRow, writeCells_eq, arrayText, ByteArray.append_assoc]
  simp [String.toByteArray_append]

/-- What an empty buffer then holds is the text of the exported row. -/
theorem encodeRow_empty (cols : List Column) (get : Nat → Option String) :
    encodeRow F64.parse writeF64 cols get ByteArray.empty =
      (Export.encodeRow writeF64 cols get).toUTF8 := by
  have cell : ∀ kind text,
      writeCell F64.parse writeF64 kind text =
        encodeCell writeF64 kind text := by
    intro kind text
    cases text with
    | none => rfl
    | some s =>
        cases kind with
        | double =>
            cases parsed : F64.parse s <;>
              simp [writeCell, encodeCell, parsed]
        | long =>
            cases parsed : parseI64 s <;>
              simp [writeCell, encodeCell, parsed]
        | text => rfl
        | timestamp => rfl
  rw [encodeRow_eq, Export.encodeRow, cellTexts]
  simp only [cell, ByteArray.empty_append]

/-! ## Reading a column back -/

/-- A cell is an element, a line, and read back as its value. -/
structure Faithful (parseF64 : String → Option F64) (text : String)
    (value : Value) : Prop where
  element : IsElement 0 text
  line : IsLine text
  read : readScalar parseF64 text = some value

theorem faithful_null : Faithful parseF64 "null" .null where
  element := isElement_null 0
  line := by constructor <;> decide
  read := rfl

theorem faithful_quote (s : String) :
    Faithful parseF64 (quote s) (.string s) where
  element := isElement_quote 0 s
  line := isLine_quote s
  read := readScalar_quote parseF64 s

theorem faithful_number {text : String} {number : Number}
    (read : readNumber parseF64 text = some number) :
    Faithful parseF64 text (.number number) where
  element := isElement_of_readNumber 0 read
  line := isLine_of_readNumber read
  read := readScalar_of_readNumber read

theorem faithful_writeCell {kind : ColKind} {text : Option String}
    (prints : kind = .double → ∀ s ∈ text, ∀ value,
      parseF64 s = some (.finite value) →
        readNumber parseF64 (writeF64 (.finite value)) =
          some (.float (.finite value))) :
    Faithful parseF64 (writeCell parseF64 writeF64 kind text)
      (cellValue parseF64 kind text) := by
  cases text with
  | none => exact faithful_null
  | some s =>
      cases kind with
      | text => exact faithful_quote s
      | timestamp => exact faithful_quote s
      | long =>
          cases parsed : parseI64 s with
          | none => simpa [writeCell, cellValue, parsed] using faithful_null
          | some value =>
              simpa [writeCell, cellValue, parsed] using
                faithful_number (readNumber_toString parseF64 value)
      | double =>
          cases parsed : parseF64 s with
          | none => simpa [writeCell, cellValue, parsed] using faithful_null
          | some d =>
              cases d with
              | nan =>
                  simpa [writeCell, cellValue, parsed, writeDouble] using
                    faithful_null
              | infinite negative =>
                  simpa [writeCell, cellValue, parsed, writeDouble] using
                    faithful_null
              | finite value =>
                  have number := prints rfl s rfl value parsed
                  simpa [writeCell, cellValue, parsed, writeDouble] using
                    faithful_number number

/-! ## Reading a row back -/

/--
A row is appended as one line that is read back as one value per column in
order, and nothing before it changes.
-/
theorem encodeRow_faithful {cols : List Column} {get : Nat → Option String}
    (prints : PrintsDoubles parseF64 writeF64 cols get) (out : ByteArray) :
    ∃ row : String,
      encodeRow parseF64 writeF64 cols get out = out ++ row.toUTF8 ∧
        IsLine row ∧
        readScalars parseF64 row = some (cols.zipIdx.map fun entry =>
          cellValue parseF64 entry.1.kind (get entry.2)) := by
  have cells : ∀ entry ∈ cols.zipIdx, Faithful parseF64
      (writeCell parseF64 writeF64 entry.1.kind (get entry.2))
      (cellValue parseF64 entry.1.kind (get entry.2)) := by
    intro entry member
    exact faithful_writeCell (prints entry member)
  refine ⟨arrayText (cellTexts parseF64 writeF64 cols get),
    encodeRow_eq cols get out, ?_, ?_⟩
  · apply isLine_arrayText
    intro item member
    rcases List.mem_map.mp member with ⟨entry, listed, rfl⟩
    exact (cells entry listed).line
  · exact readScalars_arrayText
      (fun entry member => (cells entry member).element)
      (fun entry member => (cells entry member).read)

/-- The columns of the source's test. -/
def testColumns : List Column :=
  [⟨"s", .text⟩, ⟨"d", .double⟩, ⟨"l", .long⟩, ⟨"t", .timestamp⟩,
    ⟨"n", .double⟩, ⟨"nan", .double⟩, ⟨"bad", .long⟩, ⟨"q", .text⟩]

/-- The texts of the source's test. -/
def testTexts : List (Option String) :=
  [some "BTC-USD", some "0.42", some "-7", some "2026-09-24T00:00:00.000001Z",
    none, some "NaN", some "x", some "say \"hi\"\nbye"]

theorem encodeRow_faithful_test :
    ∃ row : String,
      encodeRow F64.parse (fun _ => "0.42") testColumns
          (fun i => testTexts[i]?.join) "junk".toUTF8 =
        "junk".toUTF8 ++ row.toUTF8 ∧
      IsLine row ∧
      (readScalars F64.parse row).isSome := by
  have number :
      F64.parse "0.42" = some (.finite (7566047373982433 / 2 ^ 54)) := by
    decide +kernel
  have nan : F64.parse "NaN" = some .nan := by
    decide +kernel
  have prints : PrintsDoubles F64.parse (fun _ => "0.42") testColumns
      (fun i => testTexts[i]?.join) := by
    intro entry member isDouble s text value parsed
    simp only [testColumns, List.zipIdx_cons, List.zipIdx_nil, List.mem_cons,
      List.not_mem_nil, or_false] at member
    rcases member with rfl | rfl | rfl | rfl | rfl | rfl | rfl | rfl
    · cases isDouble
    · cases text
      rw [number] at parsed
      cases parsed
      decide +kernel
    · cases isDouble
    · cases isDouble
    · cases text
    · cases text
      rw [nan] at parsed
      cases parsed
    · cases isDouble
    · cases isDouble
  rcases encodeRow_faithful prints "junk".toUTF8 with
    ⟨row, appended, line, read⟩
  exact ⟨row, appended, line, by rw [read]; rfl⟩

end ChudMoney.Db.EncodeRow
