import ChudMoney.Feeds.Frames
import ChudMoney.Kalshi.Exact

/-!
# The cached books are the fold of the frames

`Folded` is what the cache is for: per ticker, the exact ladder and the `seq`
that the ticker's frames add up to since the cache was cleared or the ticker
was removed.  A frame of type `orderbook_snapshot` resets the ladder and one of
type `orderbook_delta` changes one of its levels, whatever the cache does with
them.

The cache reads a frame by the shape of its payload rather than by its type.
It is the fold in every run in which the two agree and nothing overflows; a
snapshot frame that leaves out both sides is already enough to part them.
-/

namespace ChudMoney.Feeds.Cache

open ChudMoney.Feeds.Frames
open ChudMoney.Feeds.Shared
open ChudMoney.Feeds.Task
open ChudMoney.Kalshi.Book
open ChudMoney.Kalshi.Client
open ChudMoney.Kalshi.Exact
open ChudMoney.Kalshi.Stream
open ChudMoney.Lib.Json
open ChudMoney.Lib.Ladder
open ChudMoney.Lib.MachineInt
open ChudMoney.Lib.Runs
open ChudMoney.Model

variable {Text : Type}

/-! ## The fold -/

/-- A book as the frames of its ticker define it. -/
@[ext]
structure FoldedBook where
  levels : ExactDepth
  seq : UInt64

/-- The subscribed tickers and their books, as the events define them. -/
structure Folded where
  subscribed : TickerSet
  books : String → Option FoldedBook

namespace Folded

def start : Folded := ⟨∅, fun _ => none⟩

/-- What the message of a frame makes of its ticker's book. -/
def foldMsg (isSnapshot : Bool) (seq : UInt64) (msg : OrderbookMsg)
    (book : Option FoldedBook) : Option FoldedBook :=
  if isSnapshot then some ⟨ofLevels (exactSnapshot msg), seq⟩
  else
    match exactDelta msg with
    | some (key, delta) =>
        book.map fun book => ⟨bump book.levels key delta, seq⟩
    | none => book

def foldText (readers : Readers Text) (text : Text) (folded : Folded) :
    Folded :=
  match bookFrame readers text with
  | none => folded
  | some (isSnapshot, env) =>
      match OrderbookMsg.deserialize env.msg with
      | none => folded
      | some msg =>
          { folded with
            books := Function.update folded.books msg.marketTicker
              (foldMsg isSnapshot env.seq msg
                (folded.books msg.marketTicker)) }

/-- What one event makes of the books. -/
def step (readers : Readers Text) (folded : Folded) :
    FeedEvent Text → Folded
  | .connect (.ok markets) => ⟨Conn.openTickers markets, fun _ => none⟩
  | .connect (.error _) => start
  | .text _ text => foldText readers text folded
  | .refresh (.ok markets) =>
      let opened := Conn.openTickers markets
      { subscribed := opened
        books := fun ticker =>
          if ticker ∈ folded.subscribed ∧ ticker ∉ opened then none
          else folded.books ticker }
  | .refresh (.error _) => folded
  | .ended _ => folded

end Folded

/-- A cached book, read as a folded one. -/
def reading (book : OrderBook) : FoldedBook :=
  ⟨exact book, book.seq⟩

/-- The cache and the fold agree on every ticker. -/
structure Mirrors (conn : Conn Text) (folded : Folded) : Prop where
  subscribed : conn.subscribed = folded.subscribed
  books : ∀ ticker,
    (conn.output.shared.books[ticker]?).map reading = folded.books ticker

/-! ## Frames whose payload can be trusted -/

/--
A message as the protocol promises it: a delta names a side, a price and a
size that parse within 64 bits.
-/
structure MsgAdmitted (isSnapshot : Bool) (msg : OrderbookMsg) : Prop where
  parts : isSnapshot = false → msg.deltaParts.isSome
  scales : isSnapshot = false → DeltaScales msg

/--
A message that the cache reads as its frame means it: where it is not ignored,
the payload has the shape of the frame's type, and neither its integer levels
nor the size that a delta leaves at its level in the book held so far
overflow.
-/
structure MsgSound (isSnapshot : Bool) (msg : OrderbookMsg)
    (held : Option OrderBook) : Prop where
  shape : isSnapshot = true ∨ held.isSome → msg.isSnapshot = isSnapshot
  scales : isSnapshot = true → SnapshotScales msg
  fits : isSnapshot = false → ∀ book ∈ held, ∀ change ∈ exactDelta msg,
    Fits ((exact book change.1).getD 0 + change.2)

instance (isSnapshot : Bool) (msg : OrderbookMsg) :
    Decidable (MsgAdmitted isSnapshot msg) :=
  decidable_of_iff
    ((isSnapshot = false → msg.deltaParts.isSome) ∧
      (isSnapshot = false → DeltaScales msg))
    ⟨fun both => ⟨both.1, both.2⟩, fun msg => ⟨msg.parts, msg.scales⟩⟩

instance (isSnapshot : Bool) (msg : OrderbookMsg) (held : Option OrderBook) :
    Decidable (MsgSound isSnapshot msg held) :=
  decidable_of_iff
    ((isSnapshot = true ∨ held.isSome → msg.isSnapshot = isSnapshot) ∧
      (isSnapshot = true → SnapshotScales msg) ∧
      (isSnapshot = false → ∀ book ∈ held, ∀ change ∈ exactDelta msg,
        Fits ((exact book change.1).getD 0 + change.2)))
    ⟨fun all => ⟨all.1, all.2.1, all.2.2⟩,
      fun msg => ⟨msg.shape, msg.scales, msg.fits⟩⟩

/-- The message of the orderbook frame that a text is, if it is one. -/
def bookMessage (readers : Readers Text) (text : Text) :
    Option (Bool × Envelope × Option OrderbookMsg) :=
  (bookFrame readers text).map fun frame =>
    (frame.1, frame.2, OrderbookMsg.deserialize frame.2.msg)

/-- Every frame is handled without error and its message is as promised. -/
def Admitted (readers : Readers Text) (conn : Conn Text) :
    FeedEvent Text → Prop
  | .text moment text =>
      (handleText readers moment text conn.output conn.session).result =
          .ok () ∧
        ∀ frame ∈ bookMessage readers text,
          frame.2.2.isSome ∧ ∀ msg ∈ frame.2.2, MsgAdmitted frame.1 msg
  | _ => True

/-- The message of every frame is read by the cache as its frame means it. -/
def Sound (readers : Readers Text) (conn : Conn Text) :
    FeedEvent Text → Prop
  | .text _ text =>
      ∀ frame ∈ bookMessage readers text, ∀ msg ∈ frame.2.2,
        MsgSound frame.1 msg conn.output.shared.books[msg.marketTicker]?
  | _ => True

instance (readers : Readers Text) (conn : Conn Text) :
    ∀ event, Decidable (Admitted readers conn event)
  | .text moment text =>
      inferInstanceAs (Decidable (
        (handleText readers moment text conn.output conn.session).result =
            .ok () ∧
          ∀ frame ∈ bookMessage readers text,
            frame.2.2.isSome ∧ ∀ msg ∈ frame.2.2, MsgAdmitted frame.1 msg))
  | .connect _ | .refresh _ | .ended _ => isTrue trivial

instance (readers : Readers Text) (conn : Conn Text) :
    ∀ event, Decidable (Sound readers conn event)
  | .text _ text =>
      inferInstanceAs (Decidable (
        ∀ frame ∈ bookMessage readers text, ∀ msg ∈ frame.2.2,
          MsgSound frame.1 msg conn.output.shared.books[msg.marketTicker]?))
  | .connect _ | .refresh _ | .ended _ => isTrue trivial

/-! ## One frame -/

theorem reading_applyMsg_snapshot {msg : OrderbookMsg}
    (shape : msg.isSnapshot = true) (scales : SnapshotScales msg)
    (book : OrderBook) (seq : UInt64) :
    reading (book.applyMsg msg seq).1 =
      ⟨ofLevels (exactSnapshot msg), seq⟩ := by
  rw [OrderBook.applyMsg_of_isSnapshot shape, reading, exact_snapshot,
    snapshotLevels_exact scales, OrderBook.seq_snapshot]

/-- The book of the frame's ticker is folded as the frame says. -/
theorem reading_cacheMsg {isSnapshot : Bool} {msg : OrderbookMsg}
    {books : HashMap String OrderBook} (seq : UInt64)
    (admitted : MsgAdmitted isSnapshot msg)
    (sound : MsgSound isSnapshot msg books[msg.marketTicker]?) :
    ((cacheMsg isSnapshot seq msg books)[msg.marketTicker]?).map reading =
      Folded.foldMsg isSnapshot seq msg
        ((books[msg.marketTicker]?).map reading) := by
  cases isSnapshot with
  | true =>
      rw [cacheMsg, Folded.foldMsg, if_pos rfl]
      split <;>
        simp [reading_applyMsg_snapshot (sound.shape (.inl rfl))
          (sound.scales rfl)]
  | false =>
      rcases Option.isSome_iff_exists.mp (admitted.parts rfl) with
        ⟨⟨side, price, delta⟩, parts⟩
      have change := deltaParts_exact (admitted.scales rfl)
      rw [parts, Option.map_some] at change
      rw [cacheMsg, Folded.foldMsg, change]
      cases held : books[msg.marketTicker]? with
      | none => simp [held]
      | some book =>
          have shape := sound.shape (.inr (by simp [held]))
          have fits := sound.fits rfl book held _ change
          simp [OrderBook.applyMsg_of_deltaParts shape parts, reading,
            exact_applyDelta book side price delta seq fits]

theorem getElem?_cacheMsg_of_ne (isSnapshot : Bool) (seq : UInt64)
    (msg : OrderbookMsg) (books : HashMap String OrderBook) {ticker : String}
    (other : ticker ≠ msg.marketTicker) :
    (cacheMsg isSnapshot seq msg books)[ticker]? = books[ticker]? := by
  have distinct : ¬ msg.marketTicker = ticker := Ne.symm other
  rw [cacheMsg]
  split
  · simp [Std.ExtTreeMap.getElem?_insert, distinct]
  · split
    · simp [Std.ExtTreeMap.getElem?_insert, distinct]
    · rfl

/-! ## Runs -/

theorem Mirrors.foldText {readers : Readers Text} {conn next : Conn Text}
    {folded : Folded} {moment : Moment} {text : Text}
    (mirrors : Mirrors conn folded)
    (admitted : Admitted readers conn (.text moment text))
    (sound : Sound readers conn (.text moment text))
    (taken : feedStep readers conn (.text moment text) = some next) :
    Mirrors next (folded.foldText readers text) := by
  rcases admitted with ⟨handled, admitted⟩
  rw [feedStep_text handled taken]
  cases framed : bookFrame readers text with
  | none =>
      rw [Folded.foldText, framed]
      refine ⟨mirrors.subscribed, ?_⟩
      intro ticker
      have untouched :=
        (handleText_of_bookFrame_eq_none framed moment conn.output
          conn.session).1
      rw [untouched.books]
      exact mirrors.books ticker
  | some frame =>
      rcases frame with ⟨isSnapshot, env⟩
      have message :
          bookMessage readers text =
            some (isSnapshot, env, OrderbookMsg.deserialize env.msg) := by
        rw [bookMessage, framed, Option.map_some]
      rcases admitted _ message with ⟨present, admitted⟩
      rcases Option.isSome_iff_exists.mp present with ⟨msg, found⟩
      have read : OrderbookMsg.deserialize env.msg = some msg := found
      have admitted : MsgAdmitted isSnapshot msg := admitted msg found
      have sound : MsgSound isSnapshot msg _ := sound _ message msg found
      rw [handleText_of_bookFrame framed] at handled ⊢
      rw [Folded.foldText, framed]
      simp only [read]
      refine ⟨mirrors.subscribed, ?_⟩
      intro ticker
      rw [books_handleOrderbook (inSequence_of_result handled), framedBooks,
        read]
      dsimp only
      by_cases same : ticker = msg.marketTicker
      · subst ticker
        rw [Function.update_self, reading_cacheMsg env.seq admitted sound,
          mirrors.books]
      · rw [Function.update_of_ne same, getElem?_cacheMsg_of_ne _ _ _ _ same]
        exact mirrors.books ticker

/-- One event keeps the cache and the fold together. -/
theorem Mirrors.step {readers : Readers Text} {conn next : Conn Text}
    {folded : Folded} {event : FeedEvent Text} (mirrors : Mirrors conn folded)
    (admitted : Admitted readers conn event)
    (sound : Sound readers conn event)
    (taken : feedStep readers conn event = some next) :
    Mirrors next (folded.step readers event) := by
  cases event with
  | text moment text => exact mirrors.foldText admitted sound taken
  | ended outcome =>
      cases taken
      exact ⟨mirrors.subscribed, mirrors.books⟩
  | connect markets =>
      rw [feedStep] at taken
      split at taken
      · cases taken
      cases taken
      cases markets with
      | error e =>
          refine ⟨rfl, fun ticker => ?_⟩
          simp [books_connect, Folded.step, Folded.start]
      | ok markets =>
          refine ⟨subscribed_connect conn markets, ?_⟩
          intro ticker
          simp [books_connect, Folded.step]
  | refresh markets =>
      simp only [feedStep] at taken
      split at taken
      case isFalse => cases taken
      cases markets with
      | error e =>
          cases taken
          exact mirrors
      | ok markets =>
          cases taken
          refine ⟨subscribed_refresh conn markets, ?_⟩
          intro ticker
          rw [getElem?_books_refresh, mirrors.subscribed, Folded.step]
          dsimp only
          split
          · rfl
          · exact mirrors.books ticker

/-- The cache and the fold agree before the first event. -/
theorem mirrors_spawned (market : Market)
    (coinbase : Option CoinbaseFeedStatus) :
    Mirrors (Conn.spawned market coinbase : Conn Text) Folded.start :=
  ⟨rfl, fun ticker => by simp [Conn.spawned, Folded.start]⟩

/-- A snapshot and a delta of one ticker. -/
def quietFrames : List (FeedEvent Value) :=
  [.text .calm (dataFrame "orderbook_snapshot" 7 1
      (bookMsg "T" [("yes", wholeLevels [(47, 120)])])),
    .text .calm (dataFrame "orderbook_delta" 7 2
      (bookMsg "T" [("side", .string "no"), ("price_dollars", .string "0.5210"),
        ("delta_fp", .string "3.50")]))]

/-- A session with just these frames. -/
def quietSession : List (FeedEvent Value) :=
  .connect (.ok [.named "T"]) :: quietFrames

/-- A session in which a second snapshot of the ticker has no level at all. -/
def emptiedSession : List (FeedEvent Value) :=
  [.connect (.ok [.named "T"]),
    .text .calm (dataFrame "orderbook_snapshot" 7 1
      (bookMsg "T" [("yes", wholeLevels [(47, 120)])])),
    .text .calm (dataFrame "orderbook_snapshot" 7 2 (bookMsg "T" []))]

/--
In every run whose frames are admitted and sound, every cached book is the
fold of its ticker's frames, and no other book is cached.
-/
theorem books_eq_fold_of_sound (readers : Readers Text) (market : Market)
    (coinbase : Option CoinbaseFeedStatus) (events : List (FeedEvent Text))
    (final : Conn Text)
    (reached : run (feedStep readers) (Conn.spawned market coinbase) events =
      some final)
    (guarded : Guarded (feedStep readers)
      (fun conn event => Admitted readers conn event ∧
        Sound readers conn event)
      (Conn.spawned market coinbase) events) :
    ∀ ticker,
      (final.output.shared.books[ticker]?).map reading =
        (events.foldl (Folded.step readers) Folded.start).books ticker := by
  have mirrors :=
    simulation_of_guarded Mirrors (Folded.step readers)
      (fun conn folded event next mirrors guard taken =>
        mirrors.step guard.1 guard.2 taken)
      Folded.start (mirrors_spawned market coinbase) guarded reached
  exact mirrors.books

theorem books_eq_fold_quietSession :
    ∃ final,
      run (feedStep .parsed) (Conn.spawned btc15m none) quietSession =
          some final ∧
        ∀ ticker,
          (final.output.shared.books[ticker]?).map reading =
            (quietSession.foldl (Folded.step .parsed)
              Folded.start).books ticker := by
  have runs :
      (run (feedStep .parsed) (Conn.spawned btc15m none)
        quietSession).isSome := by
    decide +kernel
  rcases Option.isSome_iff_exists.mp runs with ⟨final, reached⟩
  refine ⟨final, reached, ?_⟩
  apply books_eq_fold_of_sound .parsed btc15m none quietSession final reached
  decide +kernel

/--
The second snapshot of `emptiedSession` empties the book of `T`, but the cache
keeps the level of the first.
-/
theorem books_ne_fold_emptiedSession :
    ∃ final,
      run (feedStep .parsed) (Conn.spawned btc15m none) emptiedSession =
          some final ∧
        Guarded (feedStep .parsed) (Admitted .parsed)
          (Conn.spawned btc15m none) emptiedSession ∧
        (final.output.shared.books["T"]?).map reading ≠
          (emptiedSession.foldl (Folded.step .parsed)
            Folded.start).books "T" := by
  have held :
      (run (feedStep .parsed) (Conn.spawned btc15m none) emptiedSession).map
          (fun final => (final.output.shared.books["T"]?).map fun book =>
            (reading book).levels (.yes, 4700)) =
        some (some (some 12000)) := by
    decide +kernel
  have folded :
      ((emptiedSession.foldl (Folded.step .parsed) Folded.start).books
          "T").map (fun book => book.levels (.yes, 4700)) =
        some none := by
    decide +kernel
  rcases Option.map_eq_some_iff.mp held with ⟨final, reached, level⟩
  refine ⟨final, reached, by decide +kernel, ?_⟩
  intro same
  rw [← same, Option.map_map, Function.comp_def, level] at folded
  cases folded

end ChudMoney.Feeds.Cache
