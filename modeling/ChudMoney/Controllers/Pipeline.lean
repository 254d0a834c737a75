import ChudMoney.Controllers.Resume
import ChudMoney.Db.IlpWriter
import ChudMoney.Db.RoundTrip
import ChudMoney.Feeds.CoinbaseAccounting
import ChudMoney.Lib.Upserts

/-!
# From a frame to a client

The tasks make rows of the frames they are sent, the writer takes the rows from
one channel, QuestDB keeps of each key the row sent last, and an export reads a
table to a client that may have to connect more than once.  Here these parts
are put together.

QuestDB's answers, what it prints of a value and how texts are read are
parameters.
-/

namespace ChudMoney.Controllers.Pipeline

open ChudMoney.Controllers.Data
open ChudMoney.Controllers.Resume
open ChudMoney.Db.Ddl
open ChudMoney.Db.EncodeRow (PrintsDoubles cellTexts encodeRow_empty
  encodeRow_eq)
open ChudMoney.Db.Export
open ChudMoney.Db.IlpWriter
open ChudMoney.Db.Push
open ChudMoney.Db.RoundTrip (Legible Printing exportedValues
  exportedValues_levelRow legible_levelRow levelDouble levelPrinting levelRow
  prints_levelRow readScalars_push)
open ChudMoney.Db.Rows
open ChudMoney.Feeds.Accounting (accounted_feed)
open ChudMoney.Feeds.Coinbase (CoinbaseConn CoinbaseEvent coinbaseStep)
open ChudMoney.Feeds.CoinbaseAccounting (accounted_coinbase)
open ChudMoney.Feeds.Shared
open ChudMoney.Feeds.Task
open ChudMoney.Lib.Json
open ChudMoney.Lib.JsonArray
open ChudMoney.Lib.Rfc3339
open ChudMoney.Lib.Runs
open ChudMoney.Lib.Text
open ChudMoney.Lib.Upserts
open ChudMoney.Model

variable {Text : Type}

/-! ## The tables -/

/-- The time of a row's line, in microseconds. -/
def timeUs (row : Row) : Int64 :=
  (push row).atNanos / 1000

/-- The field of a row that exports select it by. -/
def keyOf : Row → String
  | .index row => row.indexId
  | .candle row => row.seriesTicker
  | .contractTicker row => row.seriesTicker
  | .contractBook row => row.seriesTicker
  | .coinbaseTicker row => row.product
  | .coinbaseBook row => row.product

/-- What the `DEDUP UPSERT KEYS` of a table tell its lines apart by. -/
def rowKey (table : DataTable) (line : Line) :
    Int64 × List (Option String × Option Cell) :=
  (line.atNanos / 1000, (dedupKeys table).map fun name =>
    (line.symbols.lookup name, line.columns.lookup name))

/-- The lines for a table, in the order that they were sent in. -/
def linesOf (table : DataTable) (sent : List Row) : List Line :=
  (sent.filter fun row => tableOf row = table).map push

/-- What a table holds when these rows were sent. -/
def tableLines (table : DataTable) (sent : List Row) : List Line :=
  store (rowKey table) (linesOf table sent)

/-- A row takes the place of another when it is sent later. -/
def Replaces (later row : Row) : Prop :=
  tableOf later = tableOf row ∧
    rowKey (tableOf row) (push later) = rowKey (tableOf row) (push row)

/-- What lies outside the program. -/
structure Host (Text : Type) where
  readers : Readers Text
  writeF64 : F64 → String
  tsString : Int64 → String
  find : Find
  print : Printing
  window : DataTable → String → Int64 → Int64 → List Line × Option String
  dataBounds : DataTable → Option (Int64 × Int64)

namespace Host

/-- A table of QuestDB when these rows were sent. -/
def questdb (host : Host Text) (sent : List Row) (table : DataTable) :
    Questdb Line where
  rows := tableLines table sent
  key line := (line.symbols.lookup table.keyColumn).getD ""
  ts line := line.atNanos / 1000
  window := host.window table
  dataBounds := host.dataBounds table

/-- What exports are answered from. -/
def service (host : Host Text) (sent : List Row) : Service Text Line where
  readers := host.readers
  writeF64 := host.writeF64
  tsString := host.tsString
  find := host.find
  questdb := host.questdb sent
  get table line := Db.RoundTrip.texts host.print line table.columns

/-- What is printed of a row can be read again. -/
structure Shows (host : Host Text) (row : Row) : Prop where
  legible : Legible F64.parse host.print (push row)
  doubles : PrintsDoubles F64.parse host.writeF64 (tableOf row).columns
    (Db.RoundTrip.texts host.print (push row) (tableOf row).columns)

/-- The text that a client receives of a row. -/
def textOf (host : Host Text) (row : Row) : String :=
  (dataRow host.writeF64 (tableOf row).columns
    (Db.RoundTrip.texts host.print (push row) (tableOf row).columns)).json

end Host

/-! ## What a table holds -/

variable {sent : List Row} {row : Row} {table : DataTable} {line : Line}

theorem mem_linesOf :
    line ∈ linesOf table sent ↔
      ∃ row ∈ sent, tableOf row = table ∧ push row = line := by
  simp [linesOf, and_assoc]

/-- A row of those sent that no later one takes the place of. -/
def Held (sent : List Row) (row : Row) : Prop :=
  ∃ before after, sent = before ++ row :: after ∧
    ∀ later ∈ after, ¬ Replaces later row

theorem mem_tableLines_of_held (held : Held sent row) :
    push row ∈ tableLines (tableOf row) sent := by
  rcases held with ⟨before, after, rfl, last⟩
  have lines : linesOf (tableOf row) (before ++ row :: after) =
      linesOf (tableOf row) before ++
        push row :: linesOf (tableOf row) after := by
    simp [linesOf]
  rw [tableLines, lines]
  apply mem_store_of_last
  intro line member same
  rcases mem_linesOf.mp member with ⟨later, isLater, sameTable, rfl⟩
  exact last later isLater ⟨sameTable, same⟩

/-- A table holds the lines of the last rows of their keys. -/
theorem held_of_mem_tableLines (member : line ∈ tableLines table sent) :
    ∃ row, Held sent row ∧ tableOf row = table ∧ push row = line := by
  rcases last_of_mem_store member with ⟨before, after, lines, apart⟩
  rcases List.map_eq_append_iff.mp lines with
    ⟨rowsBefore, rows, filtered, rfl, isRows⟩
  rcases List.map_eq_cons_iff.mp isRows with
    ⟨row, rowsAfter, rfl, rfl, rfl⟩
  rcases List.filter_eq_append_iff.mp filtered with
    ⟨first, second, rfl, -, isSecond⟩
  rcases List.filter_eq_cons_iff.mp isSecond with
    ⟨others, rest, rfl, -, isTable, isRest⟩
  have isTable := of_decide_eq_true isTable
  refine ⟨row, ⟨first ++ others, rest, by simp, ?_⟩, isTable, rfl⟩
  rintro later isLater ⟨sameTable, sameKey⟩
  rw [isTable] at sameTable sameKey
  refine apart (push later) (List.mem_map_of_mem ?_) sameKey
  rw [← isRest]
  exact List.mem_filter.mpr ⟨isLater, decide_eq_true sameTable⟩

theorem lookup_keyColumn (row : Row) :
    (push row).symbols.lookup (tableOf row).keyColumn = some (keyOf row) := by
  cases row with
  | index row =>
      rcases row with ⟨table, indexId, value, tsMs, received, source⟩
      cases table <;> rfl
  | _ => rfl

/-! ## What a request asks for -/

/-- A row is for the table and the key of a request, and in its range. -/
structure Asked (admitted : Admitted) (row : Row) : Prop where
  table : tableOf row = admitted.table
  key : keyOf row = admitted.key
  start : ∀ s ∈ admitted.start, s ≤ timeUs row
  «end» : ∀ e ∈ admitted.end, timeUs row < e

variable {host : Host Text} {admitted : Admitted}

/-- What is wanted is the lines of rows asked for, if they are held. -/
theorem push_mem_wanted (isTable : tableOf row = admitted.table) :
    push row ∈ wanted (host.service sent) admitted ↔
      push row ∈ tableLines admitted.table sent ∧ Asked admitted row := by
  have key := lookup_keyColumn row
  rw [isTable] at key
  have asks : (host.questdb sent admitted.table).key (push row) =
      keyOf row := by
    show ((push row).symbols.lookup admitted.table.keyColumn).getD "" = _
    rw [key, Option.getD_some]
  rw [wanted, Questdb.ofKey, List.mem_filter, List.mem_filter,
    decide_eq_true_iff, decide_eq_true_iff]
  constructor
  · rintro ⟨⟨isStored, isKey⟩, start, ends⟩
    exact ⟨isStored, isTable, asks.symm.trans isKey, start, ends⟩
  · rintro ⟨isStored, -, isKey, start, ends⟩
    exact ⟨⟨isStored, asks.trans isKey⟩, start, ends⟩

theorem held_of_mem_wanted
    (member : line ∈ wanted (host.service sent) admitted) :
    ∃ row, Held sent row ∧ push row = line ∧ Asked admitted row := by
  have isStored : line ∈ tableLines admitted.table sent :=
    mem_ofKey (List.mem_of_mem_filter member)
  rcases held_of_mem_tableLines isStored with ⟨row, held, isTable, rfl⟩
  exact ⟨row, held, rfl, ((push_mem_wanted isTable).mp member).2⟩

/-! ## What a client has -/

theorem json_dataRow (asked : Asked admitted row) :
    ((host.service sent).dataRow admitted.table (push row)).json =
      host.textOf row := by
  rw [← asked.table]
  rfl

/-- The text of a row is read back as its values. -/
theorem readScalars_textOf (shows : host.Shows row) :
    readScalars F64.parse (host.textOf row) =
      some (exportedValues host.print row) := by
  have same := @encodeRow_empty host.writeF64 (tableOf row).columns
    (Db.RoundTrip.texts host.print (push row) (tableOf row).columns)
  rw [encodeRow_eq, ByteArray.empty_append] at same
  rw [← readScalars_push shows.legible shows.doubles]
  exact congrArg (readScalars F64.parse) (String.toByteArray_inj.mp same).symm

/-- Whatever its connections, a client's rows are tracked. -/
theorem tracks_session {Stored : Type} {service : Service Text Stored}
    (relied : service.Relied) {original : Request} {permits : Nat}
    (accepted : accept service.readers service.find permits original =
      .ok admitted)
    (attempts : List (Attempt Stored))
    (answered : ∀ attempt ∈ attempts, attempt.Answered service) :
    ∃ rows rest,
      Tracks service admitted (session service original attempts) rows
        rest := by
  induction attempts using List.reverseRecOn with
  | nil => exact ⟨_, _, tracks_new⟩
  | append_singleton attempts attempt ih =>
      rcases ih fun other member =>
        answered other (List.mem_append_left _ member) with
        ⟨rows, rest, tracks⟩
      rw [session, List.foldl_append]
      exact tracks.connect relied accepted (answered attempt (by simp))

/-- What a client has is wanted, and it has all of that at the end. -/
theorem Tracks.mem_iff {Stored : Type} {service : Service Text Stored}
    {client : Client} {rows rest : List Stored}
    (tracks : Tracks service admitted client rows rest) :
    (∀ row ∈ rows, row ∈ wanted service admitted) ∧
      (client.finished = true →
        ∀ row ∈ wanted service admitted, row ∈ rows) := by
  rcases tracks.covered.parts with ⟨done, extra, wants, has, -, again⟩
  constructor
  · intro row member
    rcases List.mem_append.mp (has.mem_iff.mp member) with isDone | isExtra
    · exact wants.mem_iff.mpr (List.mem_append_left _ isDone)
    · exact (again row isExtra).1
  · intro finished row member
    rw [tracks.finished finished, List.append_nil] at wants
    exact has.mem_iff.mpr (List.mem_append_left _ (wants.mem_iff.mp member))

/-! ## What the writer sent -/

section Writer

variable {accepts : Row → Bool} {flushes : Nat → Bool} {channel : Channel Row}
variable {turns : Nat}

theorem ledger_ilpWriter :
    Ledger accepts flushes (ilpWriter accepts flushes channel turns) :=
  writerLoop_ledger turns ⟨rfl, rfl, fun _ _ found => by cases found⟩

theorem accounts_ilpWriter :
    Accounts channel (ilpWriter accepts flushes channel turns) :=
  writerLoop_accounts turns
    ⟨rfl, List.suffix_rfl, fun exited => by cases exited⟩

theorem mem_of_mem_sent {batch : Batch Row}
    (isSent : row ∈ batch.sent accepts) : row ∈ batch.rows := by
  rw [Batch.sent] at isSent
  split at isSent
  · exact (List.rtakeWhile_suffix accepts batch.rows).subset isSent
  · cases isSent

/-- The writer sends rows of its channel. -/
theorem mem_arrivals_of_sent
    (isSent : row ∈ (ilpWriter accepts flushes channel turns).table) :
    row ∈ arrivals channel.polls := by
  rw [ledger_ilpWriter.table] at isSent
  rcases List.mem_flatMap.mp isSent with ⟨batch, isBatch, inBatch⟩
  rw [← (@accounts_ilpWriter accepts flushes channel turns).received]
  apply List.mem_append_left
  rw [← List.flatMap_def]
  exact List.mem_flatMap.mpr ⟨batch, isBatch, mem_of_mem_sent inBatch⟩

/-- A batch whose rejected rows come first is sent but for these. -/
theorem sent_of_batch {batch : Batch Row}
    (ordered : Ordered accepts batch.rows)
    (flush : batch.flush = outcome accepts true batch.rows) :
    batch.sent accepts = batch.rows.filter accepts := by
  have survives := rtakeWhile_eq_filter_iff.mpr ordered
  rw [Batch.sent, flush, outcome]
  by_cases nothing : batch.rows.rtakeWhile accepts = []
  · rw [if_pos nothing, if_neg (by simp), ← survives, nothing]
  · rw [if_neg nothing, if_pos rfl, survives]

/--
When no flush fails and no batch has an accepted row before a rejected one,
the writer has sent every accepted row by the time that it exits.
-/
theorem sent_of_ordered (flushed : ∀ k, flushes k = true)
    (ordered : ∀ batch ∈ batchesOf turns ⟨[], channel.polls⟩,
      Ordered accepts batch)
    (exited : (ilpWriter accepts flushes channel turns).exited = true) :
    (ilpWriter accepts flushes channel turns).table =
      (arrivals channel.polls).filter accepts := by
  have ledger := @ledger_ilpWriter accepts flushes channel turns
  have accounts := @accounts_ilpWriter accepts flushes channel turns
  have cut := @writerLoop_batches Row accepts flushes turns
    ⟨⟨[], channel.polls⟩, [], [], [], false⟩
  have whole : ∀ batch ∈ (ilpWriter accepts flushes channel turns).batches,
      batch.sent accepts = batch.rows.filter accepts := by
    intro batch member
    rcases List.mem_iff_getElem?.mp member with ⟨k, found⟩
    have flush := ledger.flush k batch found
    rw [flushed k] at flush
    refine sent_of_batch (ordered batch.rows ?_) flush
    rw [List.map_nil, List.nil_append] at cut
    rw [← cut]
    exact List.mem_map_of_mem member
  have received := accounts.received
  rw [accounts.exited exited, List.append_nil] at received
  rw [ledger.table, List.flatMap_congr whole, ← received, List.filter_flatten,
    List.map_map]
  rfl

end Writer

/-! ## The tasks -/

/-- The rows that a task made, and those that it queued. -/
inductive Queues (readers : Readers Text) : List Row → List Row → Prop where
  | feed {market : Market} {coinbase : Option CoinbaseFeedStatus}
      {events : List (FeedEvent Text)} {final : Conn Text} :
      (∀ event ∈ events, Feeds.Accounting.WriterAlive event) →
      run (feedStep readers) (Conn.spawned market coinbase) events =
        some final →
      Queues readers
        ((observed (feedStep readers) (Feeds.Accounting.made readers)
          (Conn.spawned market coinbase) events).map Prod.snd)
        final.output.ilp
  | coinbaseFeed {market : Market} {product : String}
      {events : List (CoinbaseEvent Text)} {final : CoinbaseConn Text} :
      (∀ event ∈ events, Feeds.CoinbaseAccounting.WriterAlive event) →
      run (coinbaseStep readers product)
          (Feeds.CoinbaseAccounting.spawned market product) events =
        some final →
      Queues readers
        ((observed (coinbaseStep readers product)
          (Feeds.CoinbaseAccounting.made readers product)
          (Feeds.CoinbaseAccounting.spawned market product) events).map
            Prod.snd)
        final.output.ilp
  /-- A job waits for room for each of its rows. -/
  | job (rows : List Row) : Queues readers rows rows

theorem Queues.sublist {readers : Readers Text} {made queued : List Row}
    (queues : Queues readers made queued) : queued.Sublist made := by
  cases queues with
  | feed alive reached => exact (accounted_feed alive reached).rows.1
  | coinbaseFeed alive reached =>
      exact (accounted_coinbase alive reached).rows.1
  | job rows => exact List.Sublist.refl _

/-! ## From the tasks to a client -/

theorem Held.mem (held : Held sent row) : row ∈ sent := by
  rcases held with ⟨before, after, rfl, -⟩
  simp

/-- What a client has of the rows that were sent. -/
theorem received_iff_held {sent : List Row}
    (relied : (host.service sent).Relied)
    (shows : ∀ row ∈ sent, host.Shows row) {original : Request}
    {permits : Nat}
    (accepted : accept host.readers host.find permits original = .ok admitted)
    {attempts : List (Attempt Line)}
    (answered : ∀ attempt ∈ attempts,
      attempt.Answered (host.service sent)) :
    (∀ text ∈ (session (host.service sent) original attempts).received,
      ∃ row, Held sent row ∧ Asked admitted row ∧
        readScalars F64.parse text =
          some (exportedValues host.print row)) ∧
    ((session (host.service sent) original attempts).finished = true →
      ∀ row, Held sent row → Asked admitted row →
        ∃ text ∈ (session (host.service sent) original attempts).received,
          readScalars F64.parse text =
            some (exportedValues host.print row)) := by
  rcases tracks_session relied accepted attempts answered with
    ⟨rows, rest, tracks⟩
  rcases Tracks.mem_iff tracks with ⟨isWanted, hasAll⟩
  rw [tracks.received]
  constructor
  · intro text member
    rcases List.mem_map.mp member with ⟨line, isLine, rfl⟩
    rcases held_of_mem_wanted (isWanted line isLine) with
      ⟨row, held, rfl, asked⟩
    refine ⟨row, held, asked, ?_⟩
    rw [json_dataRow asked]
    exact readScalars_textOf (shows row held.mem)
  · intro finished row held asked
    have isStored := mem_tableLines_of_held held
    rw [asked.table] at isStored
    have isRow := hasAll finished (push row)
      ((push_mem_wanted asked.table).mpr ⟨isStored, asked⟩)
    refine ⟨host.textOf row, ?_, readScalars_textOf (shows row held.mem)⟩
    exact List.mem_map.mpr ⟨push row, isRow, json_dataRow asked⟩

/--
Whatever the tasks are sent, however the writer's batches fall and whatever
connections fail or are lost, a client receives rows that a task made and that
were not replaced, each as it was written; one that reads to the end has all
of those in its range, and the writer sends what it accepts if it sends
rejected rows first and no flush fails.
-/
theorem client_has_rows {host : Host Text} {accepts : Row → Bool}
    {flushes : Nat → Bool} {channel : Channel Row} {turns : Nat}
    {tasks : List (List Row × List Row)}
    (queues : ∀ task ∈ tasks, Queues host.readers task.1 task.2)
    (fed : (arrivals channel.polls).Perm (tasks.flatMap Prod.snd))
    (shows : ∀ row ∈ arrivals channel.polls, host.Shows row)
    (relied :
      (host.service (ilpWriter accepts flushes channel turns).table).Relied)
    {original : Request} {permits : Nat} {admitted : Admitted}
    (accepted : accept host.readers host.find permits original = .ok admitted)
    {attempts : List (Attempt Line)}
    (answered : ∀ attempt ∈ attempts, attempt.Answered
      (host.service (ilpWriter accepts flushes channel turns).table)) :
    let writer := ilpWriter accepts flushes channel turns
    let client := session (host.service writer.table) original attempts
    (∀ text ∈ client.received,
      ∃ task ∈ tasks, ∃ row ∈ task.1, Held writer.table row ∧
        Asked admitted row ∧
        readScalars F64.parse text =
          some (exportedValues host.print row)) ∧
    (client.finished = true →
      ∀ row, Held writer.table row → Asked admitted row →
        ∃ text ∈ client.received,
          readScalars F64.parse text =
            some (exportedValues host.print row)) ∧
    ((∀ k, flushes k = true) →
      (∀ batch ∈ batchesOf turns ⟨[], channel.polls⟩,
        Ordered accepts batch) →
      writer.exited = true →
      writer.table = (arrivals channel.polls).filter accepts) := by
  intro writer client
  have shown : ∀ row ∈ writer.table, host.Shows row :=
    fun row isSent => shows row (mem_arrivals_of_sent isSent)
  rcases received_iff_held relied shown accepted answered with
    ⟨isHeld, hasAll⟩
  refine ⟨?_, hasAll, sent_of_ordered⟩
  intro text member
  rcases isHeld text member with ⟨row, held, asked, reads⟩
  have isQueued := fed.mem_iff.mp (mem_arrivals_of_sent held.mem)
  rcases List.mem_flatMap.mp isQueued with ⟨task, isTask, isRow⟩
  have isMade := (queues task isTask).sublist.subset isRow
  exact ⟨task, isTask, row, isMade, held, asked, reads⟩

/-! ## One level of a book -/

/-- A book with one level. -/
def levelFrames : List (FeedEvent Value) :=
  [.connect (.ok [.named "KXBTC15M-1"]),
    .text .calm (Kalshi.Stream.dataFrame "orderbook_snapshot" 1 7
      (Kalshi.Book.bookMsg "KXBTC15M-1" [("yes_dollars",
        .array [.array [.string "0.42", .string "0.42"]])]))]

/-- The row is sent, then the channel closes. -/
def levelChannel : Channel Row where
  polls :=
    ⟨[levelRow], false, 0, 0, 0⟩ :: List.replicate 3 ⟨[], true, 0, 0, 0⟩
  closing := by
    refine List.Pairwise.cons ?_ ?_
    · intro later _ closed
      cases closed
    · exact List.pairwise_replicate.mpr (Or.inr fun _ => ⟨rfl, rfl⟩)

/-- A window query of the table with the row, which has time 0. -/
def levelWindow (table : DataTable) (key : String) (lo hi : Int64) :
    List Line × Option String :=
  (if table = .contractBookLive ∧ "KXBTC15M" = key ∧ lo ≤ 0 ∧ 0 < hi then
    [push levelRow] else [], none)

def levelHost : Host Value where
  readers :=
    { fromStr := some
      parseFromRfc3339 := fun text =>
        if text = rfc3339Micros 0 then some 0 else none }
  writeF64 _ := "0.42"
  tsString micros := rfc3339Micros micros.toInt
  find _ := .ok (some btc15m)
  print := levelPrinting
  window := levelWindow
  dataBounds table :=
    if table = .contractBookLive then some (0, 0) else none

theorem sent_levelChannel :
    (ilpWriter (fun _ => true) (fun _ => true) levelChannel 3).table =
      [levelRow] := by
  decide +kernel

/-- Queries of an empty table. -/
theorem lawful_of_nil {Stored : Type} {db : Questdb Stored}
    (rows : db.rows = [])
    (window : ∀ key lo hi, db.window key lo hi = ([], none))
    (bounds : db.dataBounds = none) : db.Lawful := by
  constructor
  · intro key lo hi
    rw [window, Questdb.ofKey, rows]
    exact ⟨⟨List.Perm.nil, List.Pairwise.nil⟩, rfl⟩
  · exact ⟨fun _ => rows, fun _ => bounds⟩
  · intro first last isBounds
    rw [bounds] at isBounds
    cases isBounds

/-- Queries of a table with one row. -/
theorem lawful_of_singleton {Stored : Type} {db : Questdb Stored}
    {row : Stored} (rows : db.rows = [row])
    (window : ∀ key lo hi, db.window key lo hi =
      (if db.key row = key ∧ lo ≤ db.ts row ∧ db.ts row < hi then [row]
        else [], none))
    (bounds : db.dataBounds = some (db.ts row, db.ts row)) : db.Lawful := by
  constructor
  · intro key lo hi
    rw [window, Questdb.ofKey, rows]
    refine ⟨⟨List.Perm.of_eq ?_, ?_⟩, rfl⟩
    · simp only [Int64.le_iff_toInt_le, Int64.lt_iff_toInt_lt, Questdb.time]
      by_cases isKey : db.key row = key <;>
        by_cases inside : lo.toInt ≤ (db.ts row).toInt ∧
          (db.ts row).toInt < hi.toInt <;> simp [isKey, inside]
    · dsimp only
      split
      · exact List.pairwise_singleton _ _
      · exact List.Pairwise.nil
  · simp [rows, bounds]
  · intro first last isBounds
    rw [bounds] at isBounds
    cases isBounds
    simp [rows]

theorem rows_levelHost (table : DataTable) :
    (levelHost.questdb [levelRow] table).rows =
      if table = .contractBookLive then [push levelRow] else [] := by
  cases table <;> decide +kernel

theorem relied_levelHost : (levelHost.service [levelRow]).Relied := by
  constructor
  · intro table
    have rows := rows_levelHost table
    by_cases isBook : table = .contractBookLive
    · subst isBook
      refine lawful_of_singleton rows (fun key lo hi => ?_) rfl
      have isKey : ((levelHost.service [levelRow]).questdb
          .contractBookLive).key (push levelRow) = "KXBTC15M" := by
        decide +kernel
      have time : ((levelHost.service [levelRow]).questdb
          .contractBookLive).ts (push levelRow) = 0 := by
        decide +kernel
      show levelWindow .contractBookLive key lo hi = _
      rw [isKey, time, levelWindow]
      simp only [true_and]
    · rw [if_neg isBook] at rows
      refine lawful_of_nil rows (fun key lo hi => ?_) (if_neg isBook)
      show levelWindow table key lo hi = _
      rw [levelWindow, if_neg (fun isRow => isBook isRow.1)]
  · intro table row member
    have isRow : row = push levelRow ∧ table = .contractBookLive := by
      have rows := rows_levelHost table
      change row ∈ (levelHost.questdb [levelRow] table).rows at member
      rw [rows] at member
      split at member
      next isBook => exact ⟨List.mem_singleton.mp member, isBook⟩
      · cases member
    rcases isRow with ⟨rfl, rfl⟩
    decide +kernel
  · intro text instant read
    dsimp only [levelHost, Host.service] at read
    split at read
    · cases read
      decide
    · cases read
  · intro value
    show IsElement 1 "0.42"
    decide

/-- A connection that is read to its end. -/
def levelAttempt : Attempt Line where
  permits := 2
  window := levelWindow
  limits := .default
  elapsedMs := 0
  fuel := 3
  viaStart := false
  seen := 9

theorem client_has_rows_levelFrames :
    ∃ text ∈ (session (levelHost.service [levelRow]) bookRequest
        [levelAttempt]).received,
      readScalars F64.parse text = some [.string "KXBTC15M-1",
        .string "KXBTC15M", .string "yes", .string "snapshot",
        .string "ws_orderbook", .number (.float (.finite levelDouble)),
        .number (.float (.finite levelDouble)), .number (.ofI64 7),
        .string "1970-01-01T00:00:00.000000Z",
        .string "1970-01-01T00:00:00.000000Z"] := by
  have runs : (run (feedStep levelHost.readers) (Conn.spawned btc15m none)
      levelFrames).map (fun final => final.output.ilp) = some [levelRow] := by
    decide +kernel
  rcases Option.map_eq_some_iff.mp runs with ⟨final, reached, queued⟩
  have alive : ∀ event ∈ levelFrames, Feeds.Accounting.WriterAlive event := by
    simp [levelFrames, Feeds.Accounting.WriterAlive, Feeds.Accounting.Alive,
      Moment.calm]
  have queues : Queues levelHost.readers _ final.output.ilp :=
    .feed alive reached
  rw [queued] at queues
  have relied := relied_levelHost
  rw [← sent_levelChannel] at relied
  have shows : levelHost.Shows levelRow := ⟨legible_levelRow, prints_levelRow⟩
  have isClient := @client_has_rows Value levelHost (fun _ => true)
    (fun _ => true) levelChannel 3 [(_, [levelRow])]
    (by simpa using queues) (List.Perm.refl _)
    (by simpa [levelChannel, arrivals] using shows) relied bookRequest 2
    bookAdmitted rfl [levelAttempt]
    (fun attempt member => by
      rw [List.mem_singleton.mp member]
      exact fun table => (relied.lawful table).answers)
  dsimp only at isClient
  rw [sent_levelChannel] at isClient
  rcases isClient.2.1 (by decide +kernel) levelRow
    ⟨[], [], rfl, by simp⟩ ⟨rfl, rfl, by rintro s ⟨⟩, by rintro e ⟨⟩⟩ with
    ⟨text, isText, reads⟩
  exact
    ⟨text, isText, reads.trans (congrArg some exportedValues_levelRow)⟩

end ChudMoney.Controllers.Pipeline
