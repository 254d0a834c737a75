import ChudMoney.Feeds.ExactStamps
import ChudMoney.Lib.SharedLog
import Mathlib

/-!
# The Coinbase event log in a table without sequence numbers in its key

`coinbase_book_live` keeps one row for each time, product, side and price.  The
log of a session is read in the order of `sequence_num`: a snapshot replaces
the book, an update sets its level and a size of zero removes it.  Two
snapshots that name one time and one level share a key, so that a session can
take the rows that another one needs.  The log replays in every run in which
each frame can be told from its rows and takes no row that is needed.
-/

namespace ChudMoney.Feeds.Level2Log

open ChudMoney.Coinbase.Stream
open ChudMoney.Db.Push
open ChudMoney.Db.Rows
open ChudMoney.Feeds.Coinbase
open ChudMoney.Feeds.ExactStamps
open ChudMoney.Feeds.Gaps
open ChudMoney.Feeds.Malformed
open ChudMoney.Feeds.Shared
open ChudMoney.Lib.Json
open ChudMoney.Lib.Ladder (Depth empty)
open ChudMoney.Lib.LevelLog
open ChudMoney.Lib.MachineInt
open ChudMoney.Lib.Runs
open ChudMoney.Lib.SharedLog
open ChudMoney.Lib.Text
open ChudMoney.Lib.Upserts

variable {Text : Type}

/-! ## Books -/

/-- A side and a price. -/
abbrev Level := String × F64

instance : Zero F64 := ⟨.finite 0⟩

/-- The level and the size of an update, if all of it is well formed. -/
def levelOf (u : L2Update) : Option (Level × F64) := do
  let side ← levelSide u.side
  let price ← F64.parseTrimmed u.priceLevel
  let size ← F64.parseTrimmed u.newQuantity
  return ((side, price), size)

/-- What a frame says of the product: its events and their levels. -/
def frameEvents (product : String) (env : Envelope) :
    List (BookKind × List (Level × F64)) :=
  (env.events.filterMap L2Event.deserialize).filterMap fun event =>
    if event.productId ≠ product then none
    else (eventKind event.typ).map fun kind =>
      (kind, event.updates.filterMap levelOf)

/-- A snapshot replaces the book and an update sets its levels. -/
def applyEvent (book : Depth Level F64)
    (event : BookKind × List (Level × F64)) : Depth Level F64 :=
  event.2.foldl set (if event.1 = .snapshot then empty else book)

/-- An update without a level says nothing. -/
def speaks (event : BookKind × List (Level × F64)) : Bool :=
  event.1 = .snapshot ∨ event.2 ≠ []

/-- The level2 frame that a text is. -/
def level2Envelope (readers : Readers Text) (text : Text) : Option Envelope :=
  (numberedEnvelope readers text).filter fun env =>
    env.channel = channelL2Data

/-- The book after a text. -/
def applyText (readers : Readers Text) (product : String) (text : Text)
    (book : Depth Level F64) : Depth Level F64 :=
  match level2Envelope readers text with
  | some env => (frameEvents product env).foldl applyEvent book
  | none => book

/-! ## The table -/

/-- A session and a row that it queued. -/
abbrev Written := Nat × CoinbaseBookRow

/-- `DEDUP UPSERT KEYS(ts, product, side, price)`. -/
abbrev Key := Int64 × String × String × F64

/-- The key of a row in a table that keeps times as `tableTime` says. -/
def rowKey (tableTime : Int64 → Int64) (row : CoinbaseBookRow) : Key :=
  (tableTime row.tsNs, row.product, row.side, row.price)

/-- A row as an entry of its session's log, under its stored number. -/
def logEntry (row : CoinbaseBookRow) : Entry Int Level F64 where
  number := row.sequenceNum.toInt64.toInt
  whole := row.kind = .snapshot
  level := (row.side, row.price)
  size := row.size

theorem column_sequenceNum (row : CoinbaseBookRow) :
    (pushCoinbaseBook row).column "sequence_num" =
      some (logEntry row).number :=
  rfl

/-- The price in the key of a level's row is the double in its column. -/
theorem columns_price {parseFromRfc3339 : String → Option Int}
    {stamps : Stamps} {number : UInt64} {product : String} {kind : BookKind}
    {u : L2Update} {row : CoinbaseBookRow}
    (made : levelRow parseFromRfc3339 stamps number product kind u =
      some (.coinbaseBook row)) :
    (pushCoinbaseBook row).columns.lookup "price" = some (.f64 row.price) := by
  rcases (levelRow_eq_some_iff u _).mp made with
    ⟨side, price, size, -, read, -, same⟩
  cases same
  exact congrArg (fun value => some (Cell.f64 value))
    (F64.rounded_of_parse read)

/-- The table as the logs of the sessions. -/
def reading (tableTime : Int64 → Int64) :
    Reading Written Nat Key Int Level F64 where
  key row := rowKey tableTime row.2
  owner row := row.1
  entry row := logEntry row.2
  keyed := by
    intro one other same
    simp only [rowKey, Prod.mk.injEq] at same
    exact Prod.ext same.2.2.1 same.2.2.2

/-- The book row in a row. -/
def bookRow : Row → Option CoinbaseBookRow
  | .coinbaseBook row => some row
  | _ => none

/-! ## Sessions -/

/--
A task, the sessions it has opened, the book rows these have queued and the
book of each.
-/
structure World (Text : Type) where
  conn : CoinbaseConn Text
  session : Nat
  writes : List Written
  books : Nat → Depth Level F64

/-- Before the first session. -/
def World.start (output : Output Text) : World Text where
  conn := ⟨output, false, none, []⟩
  session := 0
  writes := []
  books := fun _ => empty

/-- The book rows among the rows queued since. -/
def queuedBooks (before after : Output Text) : List CoinbaseBookRow :=
  (after.ilp.drop before.ilp.length).filterMap bookRow

/-- A step of the task; a text of a session changes its book directly. -/
def worldStep (readers : Readers Text) (product : String)
    (world : World Text) (event : CoinbaseEvent Text) : Option (World Text) :=
  (coinbaseStep readers product world.conn event).map fun conn =>
    let session := match event with
      | .connect _ => world.session + 1
      | .text _ _ | .ended _ => world.session
    { conn := conn
      session := session
      writes := world.writes ++
        (queuedBooks world.conn.output conn.output).map fun row =>
          (session, row)
      books := match event with
        | .text _ text =>
            Function.update world.books session
              (applyText readers product text (world.books session))
        | .connect _ | .ended _ => world.books }

/-- The stored rows of a session. -/
def stored (tableTime : Int64 → Int64) (world : World Text) (session : Nat) :
    List Written :=
  (store (reading tableTime).key world.writes).filter fun row =>
    row.1 = session

/-- The stored rows of each session, in the order of their numbers, replay. -/
def Replays (tableTime : Int64 → Int64) (world : World Text) : Prop :=
  ∀ (session : Nat) (rows : List Written),
    rows.Perm (stored tableTime world session) →
    rows.Pairwise (fun first second =>
      (logEntry first.2).number ≤ (logEntry second.2).number) →
    replay (rows.map fun row => logEntry row.2) = world.books session

/-! ## Frames that do no damage -/

/-- The book rows of a level2 frame. -/
def frameRows (readers : Readers Text) (moment : Moment) (product : String)
    (env : Envelope) : List CoinbaseBookRow :=
  ((bookRows readers.parseFromRfc3339
    (stampsOf readers.parseFromRfc3339 moment env) product env).map
      Prod.snd).filterMap bookRow

/-- Whether a frame has a snapshot of the product. -/
def frameWhole (product : String) (env : Envelope) : Bool :=
  (frameEvents product env).any fun event => event.1 = .snapshot

/-- A text is handled without error and none of its book rows is dropped. -/
def Delivered (readers : Readers Text) (product : String)
    (world : World Text) : CoinbaseEvent Text → Prop
  | .text moment text =>
      (handleText readers moment product text world.conn.output
          world.conn.lastSeq).result = .ok () ∧
        ∀ env ∈ level2Envelope readers text,
          let rows := bookRows readers.parseFromRfc3339
            (stampsOf readers.parseFromRfc3339 moment env) product env
          Output.kept moment.ilp 0 rows = rows.map Prod.snd
  | .connect _ | .ended _ => True

/--
A frame that its rows tell and that takes no row a replay needs.  Its number is
an `i64`.  A snapshot is all that the frame says, and has a level unless the
book has none.
-/
structure FrameSpared (tableTime : Int64 → Int64) (product : String)
    (world : World Text) (env : Envelope) (rows : List CoinbaseBookRow) :
    Prop where
  fits : rows ≠ [] → env.sequenceNum.toNat < 2 ^ 63
  alone : ∀ event ∈ frameEvents product env, event.1 = .snapshot →
    (frameEvents product env).filter speaks = [event] ∧
      (event.2 ≠ [] ∨
        Bare (logOf (reading tableTime) world.session world.writes))
  table : Spares (reading tableTime) world.writes
    (rows.map fun row => (world.session, row)) world.session
    (frameWhole product env)

/-- A text whose number does not wrap and whose frame does no damage. -/
def Harmless (tableTime : Int64 → Int64) (readers : Readers Text)
    (product : String) (world : World Text) : CoinbaseEvent Text → Prop
  | .text moment text =>
      (∀ env ∈ numberedEnvelope readers text,
        ∀ last ∈ world.conn.lastSeq, last < env.sequenceNum) ∧
      ∀ env ∈ level2Envelope readers text,
        FrameSpared tableTime product world env
          (frameRows readers moment product env)
  | .connect _ | .ended _ => True

instance (readers : Readers Text) (product : String) (world : World Text) :
    ∀ event, Decidable (Delivered readers product world event)
  | .text moment text =>
      inferInstanceAs (Decidable (
        (handleText readers moment product text world.conn.output
            world.conn.lastSeq).result = .ok () ∧
          ∀ env ∈ level2Envelope readers text,
            let rows := bookRows readers.parseFromRfc3339
              (stampsOf readers.parseFromRfc3339 moment env) product env
            Output.kept moment.ilp 0 rows = rows.map Prod.snd))
  | .connect _ | .ended _ => isTrue trivial

instance (tableTime : Int64 → Int64) (product : String) (world : World Text)
    (env : Envelope) (rows : List CoinbaseBookRow) :
    Decidable (FrameSpared tableTime product world env rows) :=
  decidable_of_iff
    ((rows ≠ [] → env.sequenceNum.toNat < 2 ^ 63) ∧
      (∀ event ∈ frameEvents product env, event.1 = .snapshot →
        (frameEvents product env).filter speaks = [event] ∧
          (event.2 ≠ [] ∨
            Bare (logOf (reading tableTime) world.session world.writes))) ∧
      Spares (reading tableTime) world.writes
        (rows.map fun row => (world.session, row)) world.session
        (frameWhole product env))
    ⟨fun all => ⟨all.1, all.2.1, all.2.2⟩,
      fun spared => ⟨spared.fits, spared.alone, spared.table⟩⟩

instance (tableTime : Int64 → Int64) (readers : Readers Text)
    (product : String) (world : World Text) :
    ∀ event, Decidable (Harmless tableTime readers product world event)
  | .text moment text =>
      -- The numbers are compared with the last one, not with every `u64`.
      have : DecidablePred fun env : Envelope =>
          ∀ last ∈ world.conn.lastSeq, last < env.sequenceNum :=
        fun _ => Option.decidableForallMem world.conn.lastSeq
      inferInstanceAs (Decidable (
        (∀ env ∈ numberedEnvelope readers text,
          ∀ last ∈ world.conn.lastSeq, last < env.sequenceNum) ∧
        ∀ env ∈ level2Envelope readers text,
          FrameSpared tableTime product world env
            (frameRows readers moment product env)))
  | .connect _ | .ended _ => isTrue trivial

/-! ## The rows of a frame -/

/-- The entries of an event. -/
def entriesOf (number : UInt64) (event : BookKind × List (Level × F64)) :
    List (Entry Int Level F64) :=
  event.2.map fun level =>
    ⟨number.toInt64.toInt, event.1 = .snapshot, level.1, level.2⟩

theorem levelRow_eq (parseFromRfc3339 : String → Option Int) (stamps : Stamps)
    (number : UInt64) (product : String) (kind : BookKind) (u : L2Update) :
    (levelRow parseFromRfc3339 stamps number product kind u).bind bookRow =
      (levelOf u).map fun level =>
        { product := product
          side := level.1.1
          kind := kind
          price := level.1.2
          size := level.2
          sequenceNum := number
          tsNs :=
            (rfc3339Nanos parseFromRfc3339 u.eventTime).getD stamps.sentNs
          receivedAtNs := stamps.sentNs
          source := sourceBook } := by
  unfold levelRow levelOf
  cases levelSide u.side with
  | none => rfl
  | some side =>
      cases F64.parseTrimmed u.priceLevel with
      | none => rfl
      | some price =>
          cases F64.parseTrimmed u.newQuantity with
          | none => rfl
          | some size => rfl

theorem entries_levelRows (parseFromRfc3339 : String → Option Int)
    (stamps : Stamps) (number : UInt64) (product : String) (kind : BookKind)
    (updates : List L2Update) :
    ((updates.filterMap (levelRow parseFromRfc3339 stamps number product
        kind)).filterMap bookRow).map logEntry =
      entriesOf number (kind, updates.filterMap levelOf) := by
  rw [List.filterMap_filterMap, List.map_filterMap, entriesOf,
    List.map_filterMap]
  apply List.filterMap_congr
  intro u _
  rw [levelRow_eq, Option.map_map]
  rfl

/-- The rows of a frame are the entries of its events. -/
theorem entries_frameRows (readers : Readers Text) (moment : Moment)
    (product : String) (env : Envelope) :
    (frameRows readers moment product env).map logEntry =
      (frameEvents product env).flatMap (entriesOf env.sequenceNum) := by
  rw [frameRows, bookRows, frameEvents]
  induction env.events.filterMap L2Event.deserialize with
  | nil => rfl
  | cons event events ih =>
      rw [List.flatMap_cons, List.map_append, List.filterMap_append,
        List.map_append, ih, List.filterMap_cons]
      by_cases other : event.productId ≠ product
      · rw [eventRows, if_pos other, if_pos other]
        rfl
      · rw [eventRows, if_neg other, if_neg other]
        cases eventKind event.typ with
        | none => rfl
        | some kind =>
            rw [List.map_map, Option.map_some]
            dsimp only
            rw [List.flatMap_cons, ← entries_levelRows
              readers.parseFromRfc3339
              (stampsOf readers.parseFromRfc3339 moment env) env.sequenceNum
              event.productId kind event.updates]
            simp [Function.comp_def]

section Events

variable {events : List (BookKind × List (Level × F64))}

/-- Events that say nothing neither change the book nor have entries. -/
theorem filter_speaks (events : List (BookKind × List (Level × F64)))
    (book : Depth Level F64) (number : UInt64) :
    (events.filter speaks).foldl applyEvent book =
        events.foldl applyEvent book ∧
      (events.filter speaks).flatMap (entriesOf number) =
        events.flatMap (entriesOf number) := by
  induction events generalizing book with
  | nil => exact ⟨rfl, rfl⟩
  | cons event events ih =>
      cases spoken : speaks event with
      | true =>
          rw [List.filter_cons_of_pos spoken]
          constructor
          · exact (ih (applyEvent book event)).1
          · rw [List.flatMap_cons, List.flatMap_cons, (ih book).2]
      | false =>
          rw [List.filter_cons_of_neg (by simp [spoken])]
          rcases event with ⟨kind, levels⟩
          simp only [speaks, decide_eq_false_iff_not, not_or, not_not] at spoken
          rcases spoken with ⟨update, rfl⟩
          constructor
          · rw [List.foldl_cons, applyEvent, if_neg update]
            exact (ih book).1
          · exact (ih book).2

/-- Setting the entries of an event sets its levels. -/
theorem setAll_entriesOf (ladder : Depth Level F64) (number : UInt64)
    (event : BookKind × List (Level × F64)) :
    setAll ladder (entriesOf number event) = event.2.foldl set ladder := by
  rw [setAll, entriesOf, List.map_map]
  congr 1
  exact List.map_id event.2

/-- Updates set their entries. -/
theorem foldl_applyEvent_updates
    (updates : ∀ event ∈ events, event.1 ≠ .snapshot)
    (book : Depth Level F64) (number : UInt64) :
    events.foldl applyEvent book =
      setAll book (events.flatMap (entriesOf number)) := by
  induction events generalizing book with
  | nil => rfl
  | cons event events ih =>
      rw [List.foldl_cons, applyEvent, if_neg (updates event (by simp)),
        ih fun other member => updates other (List.mem_cons_of_mem _ member),
        List.flatMap_cons, ← setAll_entriesOf book number event]
      simp only [setAll, List.map_append, List.foldl_append]

/--
A frame whose snapshot is all that it says sets its entries, all of one kind,
on the empty book or on the one before.
-/
theorem foldl_applyEvent
    (alone : ∀ event ∈ events, event.1 = .snapshot →
      events.filter speaks = [event])
    (book : Depth Level F64) (number : UInt64) :
    let whole := events.any fun event => event.1 = .snapshot
    events.foldl applyEvent book =
        setAll (if whole then empty else book)
          (events.flatMap (entriesOf number)) ∧
      ∀ entry ∈ events.flatMap (entriesOf number),
        entry.whole = whole ∧ entry.number = number.toInt64.toInt := by
  cases whole : events.any fun event => event.1 = .snapshot with
  | true =>
      rcases List.any_eq_true.mp whole with ⟨event, member, isSnapshot⟩
      have snapshot : event.1 = .snapshot := of_decide_eq_true isSnapshot
      have only := alone event member snapshot
      rcases filter_speaks events book number with ⟨folded, entries⟩
      rw [← folded, ← entries, only]
      simp only [List.foldl_cons, List.foldl_nil, List.flatMap_singleton]
      constructor
      · rw [applyEvent, if_pos snapshot, setAll_entriesOf]
        rfl
      · intro entry isEntry
        rcases List.mem_map.mp isEntry with ⟨level, -, rfl⟩
        exact ⟨isSnapshot, rfl⟩
  | false =>
      have updates : ∀ event ∈ events, event.1 ≠ .snapshot := by
        intro event member
        simpa using List.any_eq_false.mp whole event member
      constructor
      · exact foldl_applyEvent_updates updates book number
      · intro entry isEntry
        rcases List.mem_flatMap.mp isEntry with ⟨event, member, listed⟩
        rcases List.mem_map.mp listed with ⟨level, -, rfl⟩
        exact ⟨decide_eq_false (updates event member), rfl⟩

end Events

/-! ## The rows that a text queues -/

theorem bookRow_handleChannel {parseFromRfc3339 : String → Option Int}
    {env : Envelope} (other : env.channel ≠ channelL2Data) (moment : Moment)
    (product : String) (output : Output Text) :
    Adds (fun row => bookRow row = none) output
      (handleChannel parseFromRfc3339 moment product env output).1 := by
  unfold handleChannel
  dsimp only
  split
  next ticker =>
    apply Adds.withStatus
    apply Adds.sendAll
    intro row member
    rw [List.map_map] at member
    rcases List.mem_map.mp member with ⟨row, made, rfl⟩
    rcases List.mem_map.mp made with ⟨t, -, rfl⟩
    rfl
  next =>
    split
    · exact .none rfl
    · exact .none rfl

/-- A text queues the book rows of the level2 frame that it is. -/
theorem queuedBooks_text {readers : Readers Text} {product : String}
    {world : World Text} {moment : Moment} {text : Text}
    (delivered : Delivered readers product world (.text moment text)) :
    queuedBooks world.conn.output
        (handleText readers moment product text world.conn.output
          world.conn.lastSeq).output =
      match level2Envelope readers text with
      | some env => frameRows readers moment product env
      | none => [] := by
  rcases delivered with ⟨handled, kept⟩
  unfold level2Envelope at kept ⊢
  cases numbering : numberedEnvelope readers text with
  | none =>
      rw [coinbase_handleText_of_unnumbered numbering, queuedBooks,
        List.drop_length]
      rfl
  | some env =>
      rw [coinbase_handleText_of_numbered numbering] at handled ⊢
      rw [numbering] at kept
      cases checked : (Coinbase.checkSeq env world.conn.lastSeq).2 with
      | error e =>
          rw [checked] at handled
          cases handled
      | ok done =>
          rw [checked] at handled
          by_cases channel : env.channel = channelL2Data
          · have isFrame : (some env).filter (fun env =>
                env.channel = channelL2Data) = some env := by
              simp [Option.filter, channel]
            rw [isFrame] at kept ⊢
            have queued := (handleChannel_l2Data channel handled).1
            rw [kept env rfl] at queued
            dsimp only
            rw [queuedBooks, frameRows, queued, List.drop_left]
          · have isOther : (some env).filter (fun env =>
                env.channel = channelL2Data) = none := by
              simp [Option.filter, channel]
            rw [isOther, queuedBooks]
            rcases bookRow_handleChannel channel moment product
              world.conn.output with ⟨rows, queued, others⟩
            dsimp only
            rw [queued, List.drop_left, List.filterMap_eq_nil_iff]
            exact others

theorem lastSeq_text (readers : Readers Text) (moment : Moment)
    (product : String) (text : Text) (output : Output Text)
    (lastSeq : Option UInt64) :
    (handleText readers moment product text output lastSeq).lastSeq =
      ((numberedEnvelope readers text).map Envelope.sequenceNum).or
        lastSeq := by
  cases numbering : numberedEnvelope readers text with
  | none =>
      rw [coinbase_handleText_of_unnumbered numbering]
      rfl
  | some env =>
      rw [coinbase_handleText_of_numbered numbering]
      cases (Coinbase.checkSeq env lastSeq).2 <;> rfl

/-! ## Runs -/

/--
The table has enough of every log, no session to come has a row, and the rows
of the current one are no later than its last frame.
-/
structure Recorded (tableTime : Int64 → Int64) (world : World Text) :
    Prop where
  sound : Sound (reading tableTime) world.writes world.books
  opened : ∀ row ∈ world.writes, row.1 ≤ world.session
  below : ∀ row ∈ world.writes, row.1 = world.session →
    ∃ last ∈ world.conn.lastSeq, (logEntry row.2).number ≤ last.toNat

section Step

variable {tableTime : Int64 → Int64} {readers : Readers Text}
  {product : String} {world : World Text}

theorem mem_numberedEnvelope {text : Text} {env : Envelope}
    (isFrame : level2Envelope readers text = some env) :
    numberedEnvelope readers text = some env :=
  (Option.filter_eq_some_iff.mp isFrame).1

/-- A number of a frame with rows is stored as it is. -/
theorem FrameSpared.toInt_number {env : Envelope}
    {rows : List CoinbaseBookRow}
    (spared : FrameSpared tableTime product world env rows)
    (some_ : rows ≠ []) :
    env.sequenceNum.toInt64.toInt = env.sequenceNum.toNat := by
  have bound := spared.fits some_
  apply toInt_toInt64_of_fits
  constructor <;> omega

theorem Recorded.sound_frame (recorded : Recorded tableTime world)
    {moment : Moment} {env : Envelope}
    (later : ∀ last ∈ world.conn.lastSeq, last < env.sequenceNum)
    (spared : FrameSpared tableTime product world env
      (frameRows readers moment product env)) :
    Sound (reading tableTime)
      (world.writes ++ (frameRows readers moment product env).map
        fun row => (world.session, row))
      (Function.update world.books world.session
        ((frameEvents product env).foldl applyEvent
          (world.books world.session))) := by
  rcases foldl_applyEvent
    (fun event member snapshot => (spared.alone event member snapshot).1)
    (world.books world.session) env.sequenceNum with ⟨applied, framed⟩
  rw [← entries_frameRows readers moment] at applied framed
  rw [applied]
  by_cases none_ : frameRows readers moment product env = []
  · have unchanged : (if (frameEvents product env).any fun event =>
        event.1 = .snapshot then empty else world.books world.session) =
          world.books world.session := by
      split
      next whole =>
        rcases List.any_eq_true.mp whole with ⟨event, member, isSnapshot⟩
        rcases (spared.alone event member (of_decide_eq_true isSnapshot)).2
          with hasLevel | bare
        · have entries := entries_frameRows readers moment product env
          rw [none_, List.map_nil] at entries
          have nothing := List.flatMap_eq_nil_iff.mp entries.symm event member
          exact absurd (List.map_eq_nil_iff.mp nothing) hasLevel
        · rw [← recorded.sound.ladder world.session]
          exact ((recorded.sound.ordered world.session).replay_eq_empty
            bare).symm
      next => rfl
    rw [unchanged, none_]
    simpa [setAll] using recorded.sound
  · have entries : ((frameRows readers moment product env).map fun row =>
        (world.session, row)).map (reading tableTime).entry =
          (frameRows readers moment product env).map logEntry := by
      rw [List.map_map]
      rfl
    rw [← entries]
    have frame : IsFrame (reading tableTime)
        ((frameRows readers moment product env).map fun row =>
          (world.session, row)) world.session (frameWhole product env)
        env.sequenceNum.toInt64.toInt := by
      constructor
      · simpa using none_
      · intro row member
        rcases List.mem_map.mp member with ⟨row, -, rfl⟩
        rfl
      · intro row member
        rcases List.mem_map.mp member with ⟨row, listed, rfl⟩
        exact framed (logEntry row) (List.mem_map_of_mem listed)
    apply recorded.sound.append frame
    · intro entry member
      rcases mem_logOf.mp member with ⟨row, written, isSession, rfl⟩
      rcases recorded.below row written isSession with ⟨last, held, below⟩
      have above := UInt64.lt_iff_toNat_lt.mp (later last held)
      rw [spared.toInt_number none_]
      exact lt_of_le_of_lt below (by exact_mod_cast above)
    · exact spared.table

/-- What a delivered text makes of the world. -/
theorem worldStep_text {next : World Text} {moment : Moment} {text : Text}
    (delivered : Delivered readers product world (.text moment text))
    (taken : worldStep readers product world (.text moment text) =
      some next) :
    next.session = world.session ∧
      next.conn.lastSeq =
        ((numberedEnvelope readers text).map Envelope.sequenceNum).or
          world.conn.lastSeq ∧
      next.writes = world.writes ++
        (match level2Envelope readers text with
          | some env => frameRows readers moment product env
          | none => []).map (fun row => (world.session, row)) ∧
      next.books = Function.update world.books world.session
        (applyText readers product text (world.books world.session)) := by
  have queued := queuedBooks_text delivered
  rcases Option.map_eq_some_iff.mp taken with ⟨conn, stepped, rfl⟩
  simp only [coinbaseStep, delivered.1] at stepped
  split at stepped
  · cases stepped
    refine ⟨rfl, lastSeq_text readers moment product text _ _, ?_, rfl⟩
    dsimp only
    rw [queued]
  · cases stepped

theorem Recorded.text (recorded : Recorded tableTime world)
    {next : World Text} {moment : Moment} {text : Text}
    (delivered : Delivered readers product world (.text moment text))
    (harmless : Harmless tableTime readers product world (.text moment text))
    (taken : worldStep readers product world (.text moment text) =
      some next) :
    Recorded tableTime next := by
  rcases harmless with ⟨counts, spared⟩
  rcases worldStep_text delivered taken with
    ⟨session, lastSeq, writes, books⟩
  cases framed : level2Envelope readers text with
  | none =>
      rw [framed, List.map_nil, List.append_nil] at writes
      rw [applyText, framed, Function.update_eq_self] at books
      constructor
      · rw [writes, books]
        exact recorded.sound
      · rw [writes, session]
        exact recorded.opened
      · rw [writes, session, lastSeq]
        intro row written isSession
        rcases recorded.below row written isSession with ⟨last, held, below⟩
        cases numbering : numberedEnvelope readers text with
        | none => exact ⟨last, held, below⟩
        | some env =>
            refine ⟨env.sequenceNum, rfl, below.trans ?_⟩
            have above :=
              UInt64.lt_iff_toNat_lt.mp (counts env numbering last held)
            exact_mod_cast above.le
  | some env =>
      have numbering := mem_numberedEnvelope framed
      have spared := spared env framed
      have later := counts env numbering
      rw [framed] at writes
      rw [applyText, framed] at books
      rw [numbering] at lastSeq
      constructor
      · rw [writes, books]
        exact recorded.sound_frame later spared
      · rw [writes, session]
        intro row written
        rcases List.mem_append.mp written with old | new
        · exact recorded.opened row old
        · rcases List.mem_map.mp new with ⟨row, -, rfl⟩
          exact le_rfl
      · rw [writes, session, lastSeq]
        intro row written isSession
        refine ⟨env.sequenceNum, rfl, ?_⟩
        rcases List.mem_append.mp written with old | new
        · rcases recorded.below row old isSession with ⟨last, held, below⟩
          have above := UInt64.lt_iff_toNat_lt.mp (later last held)
          exact below.trans (by exact_mod_cast above.le)
        · rcases List.mem_map.mp new with ⟨row, listed, rfl⟩
          have number := (foldl_applyEvent
            (fun event member snapshot =>
              (spared.alone event member snapshot).1)
            empty env.sequenceNum).2
          rw [← entries_frameRows readers moment] at number
          rw [(number _ (List.mem_map_of_mem listed)).2,
            spared.toInt_number (List.ne_nil_of_mem listed)]

theorem Recorded.step (recorded : Recorded tableTime world)
    {next : World Text} {event : CoinbaseEvent Text}
    (delivered : Delivered readers product world event)
    (harmless : Harmless tableTime readers product world event)
    (taken : worldStep readers product world event = some next) :
    Recorded tableTime next := by
  cases event with
  | text moment text => exact recorded.text delivered harmless taken
  | ended outcome =>
      rcases Option.map_eq_some_iff.mp taken with ⟨conn, stepped, rfl⟩
      cases stepped
      have silent : queuedBooks world.conn.output
          (world.conn.ended outcome).output = [] := by
        simp [queuedBooks, CoinbaseConn.ended]
      constructor
      · simpa [silent] using recorded.sound
      · simpa [silent] using recorded.opened
      · intro row written
        rw [silent] at written
        exact recorded.below row (by simpa using written)
  | connect jwt =>
      rcases Option.map_eq_some_iff.mp taken with ⟨conn, stepped, rfl⟩
      simp only [coinbaseStep] at stepped
      split at stepped
      · cases stepped
      cases stepped
      have silent : queuedBooks world.conn.output
          (world.conn.connect product jwt).output = [] := by
        simp [queuedBooks, CoinbaseConn.connect]
      constructor
      · simpa [silent] using recorded.sound
      · intro row written
        rw [silent] at written
        have old : row ∈ world.writes := by simpa using written
        exact (recorded.opened row old).trans (Nat.le_succ _)
      · intro row written isSession
        rw [silent] at written
        have old : row ∈ world.writes := by simpa using written
        exact absurd (recorded.opened row old) (by
          rw [isSession]
          exact Nat.not_succ_le_self _)

end Step

/--
In every run of delivered frames that do no damage, the stored rows of every
session replay to the book that its frames make.
-/
theorem sessions_replay (tableTime : Int64 → Int64) (readers : Readers Text)
    (product : String) (output : Output Text)
    (events : List (CoinbaseEvent Text)) (final : World Text)
    (reached : run (worldStep readers product) (World.start output) events =
      some final)
    (guarded : Guarded (worldStep readers product)
      (fun world event => Delivered readers product world event ∧
        Harmless tableTime readers product world event)
      (World.start output) events) :
    Replays tableTime final := by
  have recorded : Recorded tableTime final := by
    refine
      invariant_of_guarded (Recorded tableTime)
        (fun world event next recorded guard taken =>
          recorded.step guard.1 guard.2 taken)
        ?_ guarded reached
    constructor
    · exact sound_nil (reading tableTime)
    · intro row written
      cases written
    · intro row written
      cases written
  intro session rows isStored sorted
  exact recorded.sound.replays isStored sorted

/-! ## Two sessions -/

/-- Readers of two instants, half past ten on a January morning. -/
def clockReaders : Readers Value :=
  ⟨some, fun time =>
    if time = "2024-01-15T10:30:45Z" then some 1705314645000000000
    else if time = "2024-01-15T10:30:46Z" then some 1705314646000000000
    else none⟩

/-- A level2 frame that sets the best bid. -/
def bidFrame (number : UInt64) (typ time size : String) : Value :=
  serverFrame "l2_data" number [.object [("type", .string typ),
    ("product_id", .string "BTC-USD"),
    ("updates", .array [
      .object [("side", .string "bid"), ("event_time", .string time),
        ("price_level", .string "42499.00"),
        ("new_quantity", .string size)]])]]

/-- The second session takes the key of a row that is no longer needed. -/
def sparedSessions : List (CoinbaseEvent Value) :=
  [.connect fun _ => none,
    .text .calm (bidFrame 0 "snapshot" "2024-01-15T10:30:45Z" "1.5"),
    .text .calm (bidFrame 1 "update" "2024-01-15T10:30:46Z" "0.25"),
    .ended (.error "websocket read failed"),
    .connect fun _ => none,
    .text .calm (bidFrame 0 "snapshot" "2024-01-15T10:30:45Z" "2")]

theorem sessions_replay_sparedSessions :
    ∃ final,
      run (worldStep clockReaders "BTC-USD") (World.start addedOutput)
          sparedSessions = some final ∧
        Replays (fun ns => ns / 1000) final := by
  have runs : (run (worldStep clockReaders "BTC-USD")
      (World.start addedOutput) sparedSessions).isSome := by
    decide +kernel
  rcases Option.isSome_iff_exists.mp runs with ⟨final, reached⟩
  exact ⟨final, reached,
    sessions_replay (fun ns => ns / 1000) clockReaders "BTC-USD" addedOutput
      sparedSessions final reached (by decide +kernel)⟩

/-- Two snapshots that name one time and one level. -/
def clashingSessions : List (CoinbaseEvent Value) :=
  [.connect fun _ => none,
    .text .calm (bidFrame 0 "snapshot" "2024-01-15T10:30:45Z" "1.5"),
    .ended (.error "websocket read failed"),
    .connect fun _ => none,
    .text .calm (bidFrame 0 "snapshot" "2024-01-15T10:30:45Z" "2")]

/-- The row of the clashing level. -/
def clashingRow (size : Rat) : CoinbaseBookRow where
  product := "BTC-USD"
  side := "bid"
  kind := .snapshot
  price := .finite 42499
  size := .finite size
  sequenceNum := 0
  tsNs := 1705314645000000000
  receivedAtNs := 1705314645000000000
  source := sourceBook

/-- However the table keeps its times, the first session's snapshot is lost. -/
theorem not_sessions_replay_clashingSessions :
    ¬ ∃ tableTime : Int64 → Int64,
      ∀ (readers : Readers Value) (product : String) (output : Output Value)
        (events : List (CoinbaseEvent Value)) (final : World Value),
        run (worldStep readers product) (World.start output) events =
          some final →
        Guarded (worldStep readers product) (Delivered readers product)
          (World.start output) events →
        Replays tableTime final := by
  rintro ⟨tableTime, replays⟩
  have facts : (run (worldStep clockReaders "BTC-USD")
      (World.start addedOutput) clashingSessions).map (fun final =>
        decide (final.writes = [(1, clashingRow (3 / 2)), (2, clashingRow 2)] ∧
          final.books 1 ("bid", .finite 42499) = some (.finite (3 / 2)))) =
      some true := by
    decide +kernel
  rcases Option.map_eq_some_iff.mp facts with ⟨final, reached, holds⟩
  rcases of_decide_eq_true holds with ⟨writes, book⟩
  have lost : stored tableTime final 1 = [] := by
    rw [stored, writes]
    simp [store, upsert, reading, rowKey, clashingRow]
  have replayed := replays clockReaders "BTC-USD" addedOutput
    clashingSessions final reached (by decide +kernel) 1 []
    (by rw [lost]) List.Pairwise.nil
  rw [← replayed] at book
  cases book

end ChudMoney.Feeds.Level2Log
