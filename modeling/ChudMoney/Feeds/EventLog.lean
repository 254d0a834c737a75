import ChudMoney.Feeds.Cache

/-!
# The stored event log replays to the cached books

The rows of `contract_book_live` for one ticker, in the order they were
queued, are an event log of its book: a snapshot frame is one row per level
and a delta frame one row with its signed size.  A log is replayed from its
latest snapshot on, the deltas after it in the order of their `seq`.  The
rows of one snapshot bear the same `seq` and the same time of receipt, which
is all that tells them from the rows of another one.

Cache and log are built from the same frame by different code.  They agree in
every run in which each snapshot leaves a mark on the log: a snapshot with no
level at all writes no row, and the replay goes on from the one before it.
-/

namespace ChudMoney.Feeds.EventLog

open ChudMoney.Db.Rows
open ChudMoney.Feeds.Cache
open ChudMoney.Feeds.Frames
open ChudMoney.Feeds.Shared
open ChudMoney.Feeds.Task
open ChudMoney.Kalshi.Book
open ChudMoney.Kalshi.Client
open ChudMoney.Kalshi.Exact
open ChudMoney.Kalshi.Stream
open ChudMoney.Lib.Json
open ChudMoney.Lib.Ladder
open ChudMoney.Lib.MachineInt
open ChudMoney.Lib.Runs
open ChudMoney.Lib.Text
open ChudMoney.Model

variable {Text : Type}

/-! ## Reading the log -/

/-- The `seq` and the time of receipt of a snapshot. -/
abbrev Mark := UInt64 × Int64

abbrev BookEntry := Entry Mark Nat ExactKey Int

/-- A row as an entry of the log, its price and size in fixed point. -/
def logEntry (row : ContractBookRow) : Option BookEntry := do
  let side ← Side.parse row.side
  let price ← row.price.scaled priceScale
  let size ← row.size.scaled qtyScale
  match row.kind with
  | .snapshot => some (.level (row.seq, row.receivedAtMs) (side, price) size)
  | .delta => some (.change row.seq.toNat (side, price) size)
  | .update => none

/-- The entry that a queued row adds to the log of a ticker. -/
def entryOf (ticker : String) : Row → Option BookEntry
  | .contractBook row => if row.ticker = ticker then logEntry row else none
  | _ => none

/-- The log of a ticker in the rows queued so far. -/
def bookLog (ticker : String) (ilp : List Row) : List BookEntry :=
  ilp.filterMap (entryOf ticker)

/-- The log of every cached ticker replays to its book. -/
def Replays (conn : Conn Text) : Prop :=
  ∀ ticker, ∀ book ∈ conn.output.shared.books[ticker]?,
    replay (bookLog ticker conn.output.ilp) = exact book

theorem bookLog_append (ticker : String) (first second : List Row) :
    bookLog ticker (first ++ second) =
      bookLog ticker first ++ bookLog ticker second :=
  List.filterMap_append

theorem scaled_priceToDollars (price : Int64) :
    (priceToDollars price).scaled priceScale = some price.toInt := by
  have one : (priceOne.toInt : Rat) = 10 ^ priceScale := by decide +kernel
  rw [priceToDollars, one, F64.scaled_div]

theorem scaled_qtyToContracts (qty : Int64) :
    (qtyToContracts qty).scaled qtyScale = some qty.toInt := by
  have one : ((pow10 qtyScale).toInt : Rat) = 10 ^ qtyScale := by
    decide +kernel
  rw [qtyToContracts, one, F64.scaled_div]

/-! ## The rows of a message -/

section Rows

variable (market : Market) (nowMs : Int64) (seq : UInt64) (msg : OrderbookMsg)

theorem entryOf_bookRow_snapshot (side : Side) (price size : Int64) :
    entryOf msg.marketTicker
        (bookRow market nowMs seq msg side .snapshot price size) =
      some (.level (seq, nowMs) (side, price.toInt) size.toInt) := by
  simp [entryOf, bookRow, logEntry, scaled_priceToDollars,
    scaled_qtyToContracts]

theorem entryOf_bookRow_delta (side : Side) (price size : Int64) :
    entryOf msg.marketTicker
        (bookRow market nowMs seq msg side .delta price size) =
      some (.change seq.toNat (side, price.toInt) size.toInt) := by
  simp [entryOf, bookRow, logEntry, scaled_priceToDollars,
    scaled_qtyToContracts]

/-- A snapshot adds one entry per level, all under its mark. -/
theorem bookLog_bookRows_snapshot (shape : msg.isSnapshot = true) :
    bookLog msg.marketTicker (bookRows market nowMs seq msg) =
      ((sided msg.snapshotLevels.1 msg.snapshotLevels.2).map exactLevel).map
        fun level => .level (seq, nowMs) level.1 level.2 := by
  rw [bookRows, if_pos shape]
  simp only [bookLog_append, sided, List.map_append, List.map_map]
  congr 1 <;>
    · rw [bookLog, List.filterMap_map]
      apply List.filterMap_eq_map_iff_forall_eq_some.mpr
      intro level member
      exact entryOf_bookRow_snapshot market nowMs seq msg _ _ _

/-- A delta adds one change. -/
theorem bookLog_bookRows_delta (shape : msg.isSnapshot = false) {side : Side}
    {price delta : Int64}
    (parts : msg.deltaParts = some (side, price, delta)) :
    bookLog msg.marketTicker (bookRows market nowMs seq msg) =
      [.change seq.toNat (side, price.toInt) delta.toInt] := by
  simp [bookRows, shape, parts, bookLog, entryOf_bookRow_delta]

/-- The rows of a message are about its own ticker. -/
theorem entryOf_of_mem_bookRows {ticker : String}
    (other : ticker ≠ msg.marketTicker) :
    ∀ row ∈ bookRows market nowMs seq msg, entryOf ticker row = none := by
  have apart : ∀ side kind price size,
      entryOf ticker (bookRow market nowMs seq msg side kind price size) =
        none := by
    intro side kind price size
    simp [entryOf, bookRow, Ne.symm other]
  intro row member
  rw [bookRows] at member
  split at member
  · rcases List.mem_append.mp member with yes | no
    · rcases List.mem_map.mp yes with ⟨level, _, rfl⟩
      exact apart _ _ _ _
    · rcases List.mem_map.mp no with ⟨level, _, rfl⟩
      exact apart _ _ _ _
  · split at member
    · rw [List.mem_singleton.mp member]
      exact apart _ _ _ _
    · cases member

end Rows

/-! ## Frames that leave their mark on the log -/

/--
A well-formed frame that is handled without error and loses no row to a full
queue: its payload has the shape of its type and a delta has its parts.
-/
structure MsgWellFormed (isSnapshot : Bool) (moment : Moment)
    (msg : OrderbookMsg) : Prop where
  shape : msg.isSnapshot = isSnapshot
  parts : isSnapshot = false → msg.deltaParts.isSome
  room : isSnapshot = false → moment.ilp 0 ≠ .full

/-- The levels of a snapshot in the order of their rows. -/
def snapshotRows (msg : OrderbookMsg) : List (ExactKey × Int) :=
  (sided msg.snapshotLevels.1 msg.snapshotLevels.2).map exactLevel

/--
A frame that the log can tell.  A snapshot has a level, and its mark differs
from that of a snapshot it directly follows; or it has none, and the log
already replays to the empty book.  A delta of a cached ticker is no older
than the deltas since the latest snapshot, reaches the writer, and leaves a
size that fits 64 bits.
-/
structure MsgRecorded (isSnapshot : Bool) (moment : Moment) (seq : UInt64)
    (msg : OrderbookMsg) (held : Option OrderBook) (log : List BookEntry) :
    Prop where
  marked : isSnapshot = true →
    (snapshotRows msg ≠ [] ∧
        (tailOf log).Fresh (seq, timestampMillis moment.now)) ∨
      (snapshotRows msg = [] ∧ replay log = empty)
  ordered : isSnapshot = false → held.isSome →
    ∀ change ∈ (tailOf log).changes, change.1 ≤ seq.toNat
  queued : isSnapshot = false → held.isSome → moment.ilp 0 ≠ .closed
  fits : isSnapshot = false → ∀ book ∈ held, ∀ parts ∈ msg.deltaParts,
    Fits ((exact book (parts.1, parts.2.1.toInt)).getD 0 + parts.2.2.toInt)

instance (isSnapshot : Bool) (moment : Moment) (msg : OrderbookMsg) :
    Decidable (MsgWellFormed isSnapshot moment msg) :=
  decidable_of_iff
    (msg.isSnapshot = isSnapshot ∧
      (isSnapshot = false → msg.deltaParts.isSome) ∧
      (isSnapshot = false → moment.ilp 0 ≠ .full))
    ⟨fun all => ⟨all.1, all.2.1, all.2.2⟩,
      fun msg => ⟨msg.shape, msg.parts, msg.room⟩⟩

instance (tail : Tail Mark Nat ExactKey Int) (mark : Mark) :
    Decidable (tail.Fresh mark) :=
  inferInstanceAs (Decidable (tail.mark = some mark → tail.changes ≠ []))

instance (isSnapshot : Bool) (moment : Moment) (seq : UInt64)
    (msg : OrderbookMsg) (held : Option OrderBook) (log : List BookEntry) :
    Decidable (MsgRecorded isSnapshot moment seq msg held log) :=
  decidable_of_iff
    ((isSnapshot = true →
        (snapshotRows msg ≠ [] ∧
            (tailOf log).Fresh (seq, timestampMillis moment.now)) ∨
          (snapshotRows msg = [] ∧ replay log = empty)) ∧
      (isSnapshot = false → held.isSome →
        ∀ change ∈ (tailOf log).changes, change.1 ≤ seq.toNat) ∧
      (isSnapshot = false → held.isSome → moment.ilp 0 ≠ .closed) ∧
      (isSnapshot = false → ∀ book ∈ held, ∀ parts ∈ msg.deltaParts,
        Fits ((exact book (parts.1, parts.2.1.toInt)).getD 0 +
          parts.2.2.toInt)))
    ⟨fun all => ⟨all.1, all.2.1, all.2.2.1, all.2.2.2⟩,
      fun msg => ⟨msg.marked, msg.ordered, msg.queued, msg.fits⟩⟩

/-- Every frame is well formed and is handled without error. -/
def WellFormed (readers : Readers Text) (conn : Conn Text) :
    FeedEvent Text → Prop
  | .text moment text =>
      (handleText readers moment text conn.output conn.session).result =
          .ok () ∧
        ∀ frame ∈ bookMessage readers text,
          frame.2.2.isSome ∧
            ∀ msg ∈ frame.2.2, MsgWellFormed frame.1 moment msg
  | _ => True

/-- Every frame can be told from the log. -/
def Recorded (readers : Readers Text) (conn : Conn Text) :
    FeedEvent Text → Prop
  | .text moment text =>
      ∀ frame ∈ bookMessage readers text, ∀ msg ∈ frame.2.2,
        MsgRecorded frame.1 moment frame.2.1.seq msg
          conn.output.shared.books[msg.marketTicker]?
          (bookLog msg.marketTicker conn.output.ilp)
  | _ => True

instance (readers : Readers Text) (conn : Conn Text) :
    ∀ event, Decidable (WellFormed readers conn event)
  | .text moment text =>
      inferInstanceAs (Decidable (
        (handleText readers moment text conn.output conn.session).result =
            .ok () ∧
          ∀ frame ∈ bookMessage readers text,
            frame.2.2.isSome ∧
              ∀ msg ∈ frame.2.2, MsgWellFormed frame.1 moment msg))
  | .connect _ | .refresh _ | .ended _ => isTrue trivial

instance (readers : Readers Text) (conn : Conn Text) :
    ∀ event, Decidable (Recorded readers conn event)
  | .text moment text =>
      inferInstanceAs (Decidable (
        ∀ frame ∈ bookMessage readers text, ∀ msg ∈ frame.2.2,
          MsgRecorded frame.1 moment frame.2.1.seq msg
            conn.output.shared.books[msg.marketTicker]?
            (bookLog msg.marketTicker conn.output.ilp)))
  | .connect _ | .refresh _ | .ended _ => isTrue trivial

/-! ## One frame -/

/-- A frame handled without error queues the kept ones of its rows. -/
theorem ilp_handleOrderbook {isSnapshot : Bool} {moment : Moment}
    {text : Text} {env : Envelope} {output : Output Text} {session : Session}
    (handled : (handleOrderbook isSnapshot moment text env output
      session).result = .ok ()) :
    (handleOrderbook isSnapshot moment text env output session).output.ilp =
      output.ilp ++ Output.kept moment.ilp 0
        (framedRows isSnapshot (timestampMillis moment.now) env
          output.shared.market) := by
  rcases handleOrderbook_of_inSequence (inSequence_of_result handled)
    isSnapshot moment text output with ⟨result, ilp, _⟩
  rw [ilp, Output.ilp_sendAll (result ▸ handled)]
  rfl

/-- The frame of one ticker adds nothing to the log of another. -/
theorem bookLog_kept_of_ne {isSnapshot : Bool} {nowMs : Int64}
    {env : Envelope} {msg : OrderbookMsg}
    (read : OrderbookMsg.deserialize env.msg = some msg) (market : Market)
    (ilp : Nat → SendOutcome) {ticker : String}
    (other : ticker ≠ msg.marketTicker) :
    bookLog ticker
      (Output.kept ilp 0 (framedRows isSnapshot nowMs env market)) = [] := by
  rw [bookLog, List.filterMap_eq_nil_iff]
  intro row member
  have framed := Output.mem_of_mem_kept member
  rw [framedRows, read, List.map_map] at framed
  have member : row ∈ bookRows market nowMs env.seq msg := by
    simpa using framed
  exact entryOf_of_mem_bookRows market nowMs env.seq msg other row member

/-- A snapshot makes a book of its rows, whatever was cached before. -/
theorem exact_cacheMsg_snapshot {msg : OrderbookMsg}
    (shape : msg.isSnapshot = true) (seq : UInt64)
    {books : HashMap String OrderBook} {book : OrderBook}
    (held : (cacheMsg true seq msg books)[msg.marketTicker]? = some book) :
    exact book = ofLevels (snapshotRows msg) := by
  have made : ∀ old : OrderBook, (old.applyMsg msg seq).1 = book →
      exact book = ofLevels (snapshotRows msg) := by
    rintro old rfl
    rw [OrderBook.applyMsg_of_isSnapshot shape, exact_snapshot, snapshotRows]
  rw [cacheMsg] at held
  split at held
  next old _ => exact made old (by simpa using held)
  next => exact made OrderBook.default (by simpa using held)

/-- A delta changes the book that was cached before. -/
theorem applyDelta_of_cacheMsg_delta {msg : OrderbookMsg}
    (shape : msg.isSnapshot = false) {side : Side} {price delta : Int64}
    (parts : msg.deltaParts = some (side, price, delta)) (seq : UInt64)
    {books : HashMap String OrderBook} {book : OrderBook}
    (held : (cacheMsg false seq msg books)[msg.marketTicker]? = some book) :
    ∃ old, books[msg.marketTicker]? = some old ∧
      book = old.applyDelta side price delta seq := by
  rw [cacheMsg] at held
  split at held
  next old cached =>
    refine ⟨old, cached, ?_⟩
    rw [← OrderBook.applyMsg_of_deltaParts shape parts]
    exact Eq.symm (by simpa using held)
  next absent =>
    rw [if_neg (by simp), absent] at held
    cases held

section Framed

variable {moment : Moment} {env : Envelope} {msg : OrderbookMsg}
variable {books : HashMap String OrderBook} {ilp : List Row}

theorem replays_snapshot (market : Market)
    (wellFormed : MsgWellFormed true moment msg)
    (recorded : MsgRecorded true moment env.seq msg books[msg.marketTicker]?
      (bookLog msg.marketTicker ilp))
    {book : OrderBook}
    (held : (cacheMsg true env.seq msg books)[msg.marketTicker]? =
      some book) :
    replay (bookLog msg.marketTicker (ilp ++
        bookRows market (timestampMillis moment.now) env.seq msg)) =
      exact book := by
  rw [bookLog_append, bookLog_bookRows_snapshot _ _ _ _ wellFormed.shape,
    exact_cacheMsg_snapshot wellFormed.shape env.seq held]
  rcases recorded.marked rfl with ⟨nonempty, fresh⟩ | ⟨nothing, replayed⟩
  · exact replay_append_levels fresh nonempty
  · rw [snapshotRows] at nothing ⊢
    simp [nothing, replayed]

theorem replays_delta (market : Market)
    (wellFormed : MsgWellFormed false moment msg)
    (recorded : MsgRecorded false moment env.seq msg books[msg.marketTicker]?
      (bookLog msg.marketTicker ilp))
    (replays : ∀ book ∈ books[msg.marketTicker]?,
      replay (bookLog msg.marketTicker ilp) = exact book)
    {book : OrderBook}
    (held : (cacheMsg false env.seq msg books)[msg.marketTicker]? =
      some book) :
    replay (bookLog msg.marketTicker (ilp ++ Output.kept moment.ilp 0
        ((bookRows market (timestampMillis moment.now) env.seq msg).map
          fun row => (false, row)))) =
      exact book := by
  have shape := wellFormed.shape
  rcases Option.isSome_iff_exists.mp (wellFormed.parts rfl) with
    ⟨⟨side, price, delta⟩, parts⟩
  rcases applyDelta_of_cacheMsg_delta shape parts env.seq held with
    ⟨old, cached, rfl⟩
  have present : (books[msg.marketTicker]?).isSome := by simp [cached]
  have room : moment.ilp 0 = .room := by
    have full := wellFormed.room rfl
    have closed := recorded.queued rfl present
    cases outcome : moment.ilp 0 <;> simp_all
  have kept :
      Output.kept moment.ilp 0
          ((bookRows market (timestampMillis moment.now) env.seq msg).map
            fun row => (false, row)) =
        bookRows market (timestampMillis moment.now) env.seq msg := by
    simp [bookRows, shape, parts, Output.kept, room]
  rw [kept, bookLog_append, bookLog_bookRows_delta _ _ _ _ shape parts,
    exact_applyDelta _ _ _ _ _ (recorded.fits rfl old cached _ parts),
    ← replays old cached]
  exact replay_append_change _ _ (recorded.ordered rfl present)

end Framed

/-! ## Runs -/

theorem Replays.text {readers : Readers Text} {conn next : Conn Text}
    {moment : Moment} {text : Text} (replays : Replays conn)
    (wellFormed : WellFormed readers conn (.text moment text))
    (recorded : Recorded readers conn (.text moment text))
    (taken : feedStep readers conn (.text moment text) = some next) :
    Replays next := by
  rcases wellFormed with ⟨handled, wellFormed⟩
  rw [feedStep_text handled taken]
  intro ticker book held
  dsimp only at held ⊢
  cases framed : bookFrame readers text with
  | none =>
      have untouched :=
        (handleText_of_bookFrame_eq_none framed moment conn.output
          conn.session).1
      rcases untouched.ilp with ⟨rows, queued, others⟩
      have nothing : bookLog ticker rows = [] := by
        rw [bookLog, List.filterMap_eq_nil_iff]
        intro row member
        cases row with
        | contractBook book => exact absurd rfl (others _ member book)
        | _ => rfl
      rw [untouched.books] at held
      rw [queued, bookLog_append, nothing, List.append_nil]
      exact replays ticker book held
  | some frame =>
      rcases frame with ⟨isSnapshot, env⟩
      have message :
          bookMessage readers text =
            some (isSnapshot, env, OrderbookMsg.deserialize env.msg) := by
        rw [bookMessage, framed, Option.map_some]
      rcases wellFormed _ message with ⟨present, wellFormed⟩
      rcases Option.isSome_iff_exists.mp present with ⟨msg, found⟩
      have read : OrderbookMsg.deserialize env.msg = some msg := found
      have wellFormed : MsgWellFormed isSnapshot moment msg :=
        wellFormed msg found
      have recorded : MsgRecorded isSnapshot moment env.seq msg _ _ :=
        recorded _ message msg found
      rw [handleText_of_bookFrame framed] at handled held ⊢
      rw [books_handleOrderbook (inSequence_of_result handled), framedBooks,
        read] at held
      rw [ilp_handleOrderbook handled]
      by_cases same : ticker = msg.marketTicker
      · subst ticker
        rw [framedRows, read]
        cases isSnapshot with
        | true =>
            simp only [Output.kept_waiting]
            exact replays_snapshot _ wellFormed recorded held
        | false =>
            exact replays_delta _ wellFormed recorded
              (replays msg.marketTicker) held
      · dsimp only at held
        rw [getElem?_cacheMsg_of_ne _ _ _ _ same] at held
        rw [bookLog_append, bookLog_kept_of_ne read _ _ same,
          List.append_nil]
        exact replays ticker book held

theorem Replays.step {readers : Readers Text} {conn next : Conn Text}
    {event : FeedEvent Text} (replays : Replays conn)
    (wellFormed : WellFormed readers conn event)
    (recorded : Recorded readers conn event)
    (taken : feedStep readers conn event = some next) :
    Replays next := by
  cases event with
  | text moment text => exact replays.text wellFormed recorded taken
  | ended outcome =>
      cases taken
      exact replays
  | connect markets =>
      rw [feedStep] at taken
      split at taken
      · cases taken
      cases taken
      intro ticker book held
      simp [books_connect] at held
  | refresh markets =>
      simp only [feedStep] at taken
      split at taken
      case isFalse => cases taken
      cases markets with
      | error e =>
          cases taken
          exact replays
      | ok markets =>
          cases taken
          intro ticker book held
          rw [getElem?_books_refresh] at held
          split at held
          · cases held
          · rw [ilp_refresh]
            exact replays ticker book held

/--
In every run of sessions whose frames are well formed and recorded, replaying
the rows queued for a cached ticker gives its cached book.
-/
theorem bookLog_replays_of_recorded (readers : Readers Text) (market : Market)
    (coinbase : Option CoinbaseFeedStatus) (events : List (FeedEvent Text))
    (final : Conn Text)
    (reached : run (feedStep readers) (Conn.spawned market coinbase) events =
      some final)
    (guarded : Guarded (feedStep readers)
      (fun conn event => WellFormed readers conn event ∧
        Recorded readers conn event)
      (Conn.spawned market coinbase) events) :
    ∀ ticker, ∀ book ∈ final.output.shared.books[ticker]?,
      replay (bookLog ticker final.output.ilp) = exact book := by
  refine
    invariant_of_guarded Replays
      (fun conn event next replays guard taken =>
        replays.step guard.1 guard.2 taken)
      ?_ guarded reached
  intro ticker book held
  simp [Conn.spawned] at held

/-- Two sessions with a snapshot each, and a delta in the second one. -/
def resumedSessions : List (FeedEvent Value) :=
  [.connect (.ok [.named "T"]),
    .text .calm (dataFrame "orderbook_snapshot" 7 1
      (bookMsg "T" [("yes", wholeLevels [(47, 120)])])),
    .ended (.error "websocket read failed"),
    .connect (.ok [.named "T"]),
    .text .calm (dataFrame "orderbook_snapshot" 3 5
      (bookMsg "T" [("no", wholeLevels [(52, 30)])])),
    .text .calm (dataFrame "orderbook_delta" 3 6
      (bookMsg "T" [("side", .string "no"), ("price_dollars", .string "0.5210"),
        ("delta_fp", .string "3.50")]))]

theorem bookLog_replays_resumedSessions :
    ∃ final,
      run (feedStep .parsed) (Conn.spawned btc15m none) resumedSessions =
          some final ∧
        ∀ ticker, ∀ book ∈ final.output.shared.books[ticker]?,
          replay (bookLog ticker final.output.ilp) = exact book := by
  have runs :
      (run (feedStep .parsed) (Conn.spawned btc15m none)
        resumedSessions).isSome := by
    decide +kernel
  rcases Option.isSome_iff_exists.mp runs with ⟨final, reached⟩
  refine ⟨final, reached, ?_⟩
  apply bookLog_replays_of_recorded .parsed btc15m none resumedSessions final
    reached
  decide +kernel

/-- Two sessions of which the second one finds the book of `T` empty. -/
def clearedSessions : List (FeedEvent Value) :=
  [.connect (.ok [.named "T"]),
    .text .calm (dataFrame "orderbook_snapshot" 7 1
      (bookMsg "T" [("yes", wholeLevels [(47, 120)])])),
    .ended (.error "websocket read failed"),
    .connect (.ok [.named "T"]),
    .text .calm (dataFrame "orderbook_snapshot" 3 5
      (bookMsg "T" [("yes", .array []), ("no", .array [])]))]

/--
In `clearedSessions` the cached book of `T` ends empty, and the log still
replays to the level of the first session.
-/
theorem bookLog_replays_clearedSessions_fails :
    ∃ final book,
      run (feedStep .parsed) (Conn.spawned btc15m none) clearedSessions =
          some final ∧
        Guarded (feedStep .parsed) (WellFormed .parsed)
          (Conn.spawned btc15m none) clearedSessions ∧
        final.output.shared.books["T"]? = some book ∧
        replay (bookLog "T" final.output.ilp) ≠ exact book := by
  have ends :
      (run (feedStep .parsed) (Conn.spawned btc15m none) clearedSessions).map
          (fun final =>
            ((final.output.shared.books["T"]?).map fun book =>
                exact book (.yes, 4700),
              replay (bookLog "T" final.output.ilp) (.yes, 4700))) =
        some (some none, some 12000) := by
    decide +kernel
  rcases Option.map_eq_some_iff.mp ends with ⟨final, reached, levels⟩
  rcases Prod.mk.inj levels with ⟨cached, logged⟩
  rcases Option.map_eq_some_iff.mp cached with ⟨book, held, absent⟩
  refine ⟨final, book, reached, by decide +kernel, held, ?_⟩
  intro same
  rw [same, absent] at logged
  cases logged

end ChudMoney.Feeds.EventLog
