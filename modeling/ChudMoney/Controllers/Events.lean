import ChudMoney.Db.Columns
import ChudMoney.Lib.Chunks

/-!
# The events of a bulk export

An export is answered with a `meta` event, its rows in `rows` events and one
`done` or `error` event.  The array of a `rows` event is written row by row
into a batch that stays open until it is full.
-/

namespace ChudMoney.Controllers.Events

open ChudMoney.Db.Export
open ChudMoney.Lib.Chunks
open ChudMoney.Lib.Json
open ChudMoney.Lib.JsonArray

/-- Reconnect delay asked of `EventSource`, in ms. -/
def retry : Nat := 10000

/-- Rows per `rows` event. -/
def batchRows : Nat := 1000

/-- The JSON size at which a batch is flushed early. -/
def batchBytes : Nat := 64 * 1024

/-- When a `rows` batch is flushed. -/
structure BatchLimits where
  rows : Nat
  bytes : Nat

/-- `BatchLimits::default()`. -/
def BatchLimits.default : BatchLimits := ⟨batchRows, batchBytes⟩

/-! ## Batches -/

/--
Rows accumulated for one `rows` event: `json` is the array text so far, open
until flushed.
-/
structure Batch where
  limits : BatchLimits
  json : String
  rows : Nat
  lastTs : String

/-- One flushed batch: the complete JSON array and what it holds. -/
structure RowsBatch where
  json : String
  rows : Nat
  lastTs : String
  deriving DecidableEq

namespace Batch

def new (limits : BatchLimits) : Batch where
  limits := limits
  json := "["
  rows := 0
  lastTs := ""

def take (batch : Batch) : RowsBatch × Batch :=
  ({ json := batch.json ++ "]", rows := batch.rows, lastTs := batch.lastTs },
    new batch.limits)

/-- The batch with one more row, before the limits are looked at. -/
def append (batch : Batch) (row : DataRow) : Batch where
  limits := batch.limits
  json :=
    (if 0 < batch.rows then batch.json ++ "," else batch.json) ++ row.json
  rows := batch.rows + 1
  lastTs := row.ts

/-- Add a row; also the batch, when that filled it. -/
def push (batch : Batch) (row : DataRow) : Option RowsBatch × Batch :=
  let batch := batch.append row
  if batch.limits.rows ≤ batch.rows ∨
      batch.limits.bytes ≤ batch.json.utf8ByteSize then
    (some batch.take.1, batch.take.2)
  else (none, batch)

/-- The batch so far, if it holds anything. -/
def flush (batch : Batch) : Option RowsBatch × Batch :=
  if 0 < batch.rows then (some batch.take.1, batch.take.2) else (none, batch)

end Batch

/-! ## Events -/

/-- The body of an event: a JSON value, or a text that is JSON already. -/
inductive Body where
  | json (value : Value)
  | text (text : String)

structure Event where
  name : String
  data : Body
  id : Option String
  retry : Option Nat

def jsonEvent (name : String) (body : Value) : Event :=
  ⟨name, .json body, none, none⟩

def textEvent (name data : String) : Event :=
  ⟨name, .text data, none, none⟩

/-- An unsigned number as JSON. -/
def natural (n : Nat) : Value :=
  .number (.posInt (UInt64.ofNat n))

def optionalText : Option String → Value
  | some text => .string text
  | none => .null

section Events

variable (tsString : Int64 → String)

def metaEvent (table : DataTable) (key : String)
    (range : Option (Int64 × Int64)) : Event :=
  { jsonEvent "meta" (.object
      [("table", .string table.name),
        ("key_column", .string table.keyColumn),
        ("key", .string key),
        ("start", optionalText (range.map fun bounds => tsString bounds.1)),
        ("end", optionalText (range.map fun bounds => tsString bounds.2)),
        ("columns",
          .array (table.columns.map fun column => .string column.name))]) with
    retry := some retry }

def rowsEvent (batch : RowsBatch) : Event :=
  { textEvent "rows" batch.json with id := some batch.lastTs }

def doneEvent (rows : Nat) (range : Option (Int64 × Int64))
    (elapsedMs : Nat) : Event :=
  jsonEvent "done" (.object
    [("rows", natural rows),
      ("start", optionalText (range.map fun bounds => tsString bounds.1)),
      ("end", optionalText (range.map fun bounds => tsString bounds.2)),
      ("elapsed_ms", natural elapsedMs)])

def errorEvent (error : String) (rows : Nat) (resumeFrom : Option String) :
    Event :=
  jsonEvent "error" (.object
    [("error", .string ("questdb query failed: " ++ error)),
      ("rows", natural rows),
      ("resume_from", optionalText resumeFrom)])

/--
The loop of `events`: `sent` and `lastTs` are the rows delivered in flushed
batches and the `ts` of the last one.
-/
def sendRows (range : Int64 × Int64) (elapsedMs : Nat) :
    Batch → Nat → Option String → List (Except String DataRow) → List Event
  | batch, sent, _, [] =>
      match batch.flush.1 with
      | some event =>
          [rowsEvent event,
            doneEvent tsString (sent + event.rows) (some range) elapsedMs]
      | none => [doneEvent tsString sent (some range) elapsedMs]
  | batch, sent, lastTs, .error e :: _ =>
      match batch.flush.1 with
      | some event =>
          [rowsEvent event,
            errorEvent e (sent + event.rows) (some event.lastTs)]
      | none => [errorEvent e sent lastTs]
  | batch, sent, lastTs, .ok row :: rows =>
      match batch.push row with
      | (some event, batch) =>
          rowsEvent event ::
            sendRows range elapsedMs batch (sent + event.rows)
              (some event.lastTs) rows
      | (none, batch) => sendRows range elapsedMs batch sent lastTs rows

/-- `meta`, the rows in `rows` batches, then `done` or `error`. -/
def events (table : DataTable) (key : String) (range : Int64 × Int64)
    (rows : List (Except String DataRow)) (limits : BatchLimits)
    (elapsedMs : Nat) : List Event :=
  metaEvent tsString table key (some range) ::
    sendRows tsString range elapsedMs (.new limits) 0 none rows

/-- The answer to a range that the table holds nothing of. -/
def noEvents (table : DataTable) (key : String) : List Event :=
  [metaEvent tsString table key none, doneEvent tsString 0 none 0]

end Events

/-! ## What a batch holds -/

/-- A batch of these rows has reached one of the limits. -/
def Full (limits : BatchLimits) (rows : List DataRow) : Prop :=
  limits.rows ≤ rows.length ∨
    limits.bytes ≤ (openText (rows.map DataRow.json)).utf8ByteSize

instance (limits : BatchLimits) : DecidablePred (Full limits) :=
  fun _ => inferInstanceAs (Decidable (_ ∨ _))

/-- The `ts` of the last row. -/
def lastTs (rows : List DataRow) : Option String :=
  rows.getLast?.map DataRow.ts

/-- The open batch that holds these rows. -/
def Batch.of (limits : BatchLimits) (held : List DataRow) : Batch where
  limits := limits
  json := openText (held.map DataRow.json)
  rows := held.length
  lastTs := (Events.lastTs held).getD ""

/-- The flushed batch of these rows. -/
def RowsBatch.of (rows : List DataRow) : RowsBatch where
  json := arrayText (rows.map DataRow.json)
  rows := rows.length
  lastTs := (Events.lastTs rows).getD ""

theorem lastTs_concat (held : List DataRow) (row : DataRow) :
    lastTs (held ++ [row]) = some row.ts := by
  simp [lastTs]

theorem lastTs_eq_none_iff (rows : List DataRow) :
    lastTs rows = none ↔ rows = [] := by
  simp [lastTs]

theorem lastTs_append (held rows : List DataRow) :
    lastTs (held ++ rows) = (lastTs rows).or (lastTs held) := by
  rw [lastTs, List.getLast?_append, lastTs, lastTs]
  cases rows.getLast? <;> rfl

theorem new_eq (limits : BatchLimits) : Batch.new limits = .of limits [] :=
  rfl

theorem append_of (limits : BatchLimits) (held : List DataRow)
    (row : DataRow) :
    (Batch.of limits held).append row = .of limits (held ++ [row]) := by
  have json : (if 0 < held.length then openText (held.map DataRow.json) ++ ","
      else openText (held.map DataRow.json)) ++ row.json =
        openText ((held ++ [row]).map DataRow.json) := by
    cases held with
    | nil => simp [openText_singleton]
    | cons first held =>
        rw [List.map_append, List.map_singleton, openText_concat (by simp)]
        simp
  have last : row.ts = (lastTs (held ++ [row])).getD "" := by
    rw [lastTs_concat, Option.getD_some]
  rw [Batch.append, Batch.of, Batch.of, ← json, ← last]
  simp

/-- A row is added to those held, and the batch is taken when it is full. -/
theorem push_of (limits : BatchLimits) (held : List DataRow) (row : DataRow) :
    (Batch.of limits held).push row =
      if Full limits (held ++ [row]) then
        (some (.of (held ++ [row])), .of limits [])
      else (none, .of limits (held ++ [row])) := by
  rw [Batch.push, append_of]
  by_cases full : Full limits (held ++ [row])
  · rw [if_pos full]
    exact if_pos full
  · rw [if_neg full]
    exact if_neg full

theorem flush_of (limits : BatchLimits) (held : List DataRow) :
    (Batch.of limits held).flush.1 =
      if held = [] then none else some (.of held) := by
  cases held <;> rfl

/-! ## What is sent -/

/-- The rows read before the first error. -/
def readRows : List (Except String DataRow) → List DataRow
  | .ok row :: rows => row :: readRows rows
  | _ => []

/-- The error that ended the reading, if one did. -/
def readError : List (Except String DataRow) → Option String
  | [] => none
  | .error e :: _ => some e
  | .ok _ :: rows => readError rows

/-- The last event, after `sent` rows of which the last has the time `last`. -/
def ending (tsString : Int64 → String) (range : Int64 × Int64)
    (elapsedMs : Nat) (error : Option String) (sent : Nat)
    (last : Option String) : Event :=
  match error with
  | none => doneEvent tsString sent (some range) elapsedMs
  | some e => errorEvent e sent last

variable {tsString : Int64 → String} {range : Int64 × Int64}
variable {elapsedMs : Nat} {limits : BatchLimits}

/-- The loop sends what it holds and reads in parts cut where they are full. -/
theorem sendRows_of (held : List DataRow) (sent : Nat) (last : Option String)
    (rows : List (Except String DataRow)) :
    sendRows tsString range elapsedMs (.of limits held) sent last rows =
      (chunks (Full limits) held (readRows rows)).map
          (fun batch => rowsEvent (.of batch)) ++
        [ending tsString range elapsedMs (readError rows)
          (sent + (held ++ readRows rows).length)
          ((lastTs (held ++ readRows rows)).or last)] := by
  induction rows generalizing held sent last with
  | nil =>
      rw [sendRows, flush_of]
      by_cases empty : held = []
      · simp [empty, readRows, readError, chunks, ending]
      · simp [empty, readRows, readError, chunks, ending, RowsBatch.of]
  | cons row rows ih =>
      cases row with
      | error e =>
          rw [sendRows, flush_of]
          by_cases empty : held = []
          · simp [empty, readRows, readError, chunks, ending, lastTs]
          · cases isLast : lastTs held with
            | none => exact absurd ((lastTs_eq_none_iff held).mp isLast) empty
            | some ts =>
                simp [empty, readRows, readError, chunks, ending,
                  RowsBatch.of, isLast]
      | ok row =>
          have regrouped : held ++ row :: readRows rows =
              held ++ [row] ++ readRows rows := by simp
          rw [sendRows, push_of]
          by_cases full : Full limits (held ++ [row])
          · simp only [if_pos full, readRows, chunks, readError]
            rw [ih, regrouped, lastTs_append (held ++ [row])]
            simp [RowsBatch.of, lastTs_concat, Nat.add_assoc, Nat.add_comm 1]
          · simp only [if_neg full, readRows, chunks, readError]
            rw [ih, regrouped]

/--
Rows cut into batches: each is closed as soon as it is full, and only the last
may be closed before.
-/
structure Batched (limits : BatchLimits) (rows : List DataRow)
    (batches : List (List DataRow)) : Prop where
  rows : batches.flatten = rows
  nonempty : ∀ batch ∈ batches, batch ≠ []
  full : ∀ batch ∈ batches.dropLast, Full limits batch
  unfull : ∀ batch ∈ batches, ∀ short, short <+: batch → short ≠ [] →
    short ≠ batch → ¬ Full limits short

theorem batched_chunks (limits : BatchLimits) (rows : List DataRow) :
    Batched limits rows (chunks (Full limits) [] rows) := by
  constructor
  · exact flatten_chunks [] rows
  · intro batch member
    exact ne_nil_of_mem_chunks member
  · intro batch member
    exact full_of_mem_dropLast_chunks member
  · intro batch member short isPrefix nonempty shorter
    apply not_full_of_prefix member _ isPrefix nonempty shorter
    intro first inNil someRow
    exact absurd (List.prefix_nil.mp inNil) someRow

/-- The `rows` event of a batch. -/
def batchEvent (batch : List DataRow) : Event where
  name := "rows"
  data := .text (arrayText (batch.map DataRow.json))
  id := lastTs batch
  retry := none

theorem rowsEvent_of {batch : List DataRow} (nonempty : batch ≠ []) :
    rowsEvent (.of batch) = batchEvent batch := by
  cases last : lastTs batch with
  | none => exact absurd ((lastTs_eq_none_iff batch).mp last) nonempty
  | some ts => simp [rowsEvent, textEvent, RowsBatch.of, batchEvent, last]

/--
An export is answered with `meta`, the rows it read in batches, and one `done`
with their number or one `error` with their number and the last one's `ts`.
-/
theorem events_batched (tsString : Int64 → String) (table : DataTable)
    (key : String) (range : Int64 × Int64)
    (rows : List (Except String DataRow)) (limits : BatchLimits)
    (elapsedMs : Nat) :
    ∃ batches, Batched limits (readRows rows) batches ∧
      events tsString table key range rows limits elapsedMs =
        metaEvent tsString table key (some range) ::
          batches.map batchEvent ++
            [match readError rows with
              | none =>
                  doneEvent tsString (readRows rows).length (some range)
                    elapsedMs
              | some e =>
                  errorEvent e (readRows rows).length
                    (lastTs (readRows rows))] := by
  have batched := batched_chunks limits (readRows rows)
  refine ⟨_, batched, ?_⟩
  have sent := @sendRows_of tsString range elapsedMs limits [] 0 none rows
  have batches :
      (chunks (Full limits) [] (readRows rows)).map
          (fun batch => rowsEvent (.of batch)) =
        (chunks (Full limits) [] (readRows rows)).map batchEvent := by
    apply List.map_congr_left
    intro batch member
    exact rowsEvent_of (batched.nonempty batch member)
  rw [events, new_eq, sent, batches]
  simp [ending]

/-- The rows of the source's test, of sixteen characters each. -/
def testRow (n : Nat) : DataRow :=
  ⟨toString n, "[\"KXBTC15M\"," ++ toString n ++ "]"⟩

example :
    ((chunks (Full ⟨1000, 40⟩) [] ((List.range 7).map testRow)).map
      List.length) = [3, 3, 1] := by
  decide +kernel

end ChudMoney.Controllers.Events
