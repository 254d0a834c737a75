import ChudMoney.Kalshi.FixedPoint
import ChudMoney.Kalshi.Stream

/-!
# A book survives its own snapshot frame

A proxy client is handed the cached books as `orderbook_snapshot` frames.  Such
a frame is read back as the book it was written from, as long as the book's
prices have a decimal text (all but the least `i64` do) and its sizes are
positive.
-/

namespace ChudMoney.Kalshi.Book

open ChudMoney.Kalshi.Stream
open ChudMoney.Lib.Json
open ChudMoney.Lib.Ladder
open ChudMoney.Lib.MachineInt

/-- A level that a snapshot frame carries. -/
structure Printable (price size : Int64) : Prop where
  price : price ≠ Int64.minValue
  size : 0 < size

/-- Every level of a book can be written in a snapshot frame. -/
def OrderBook.Printable (book : OrderBook) : Prop :=
  Every (fun key size => Book.Printable key.2 size) book.depth

/-- Every level of a side can be written. -/
def PrintableSide (side : PriceMap) : Prop :=
  ∀ level ∈ side.toList, Printable level.1 level.2

theorem OrderBook.Printable.side {book : OrderBook}
    (printable : book.Printable) (side : Side) :
    PrintableSide (book.side side) := by
  intro level member
  exact printable (side, level.1) level.2
    (Std.ExtTreeMap.mem_toList_iff_getElem?_eq_some.mp member)

/-- A level as its frame has it. -/
def formatLevel (level : Int64 × Int64) : String × String :=
  (formatScaled level.1 priceScale, formatScaled level.2 qtyScale)

theorem parseLevel_formatLevel {level : Int64 × Int64}
    (printable : Printable level.1 level.2) :
    OrderbookMsg.parseLevel (formatLevel level) = some level := by
  have finite : level.2 ≠ Int64.minValue := by
    intro least
    have positive := printable.size
    rw [least] at positive
    exact absurd positive (by decide)
  have price : parseScaled (formatScaled level.1 priceScale) priceScale =
      some level.1 := parse_format printable.price (by decide)
  have size : parseScaled (formatScaled level.2 qtyScale) qtyScale =
      some level.2 := parse_format finite (by decide)
  simp [OrderbookMsg.parseLevel, formatLevel, price, size]

/-- The levels of a side make the side. -/
theorem collect_toList {side : PriceMap} (printable : PrintableSide side) :
    OrderBook.collect side.toList = side := by
  apply Std.ExtTreeMap.ext_getElem?
  intro price
  rw [OrderBook.getElem?_collect, ofLevels_apply]
  cases last : (side.toList.filter fun level =>
      level.1 = price ∧ 0 < level.2).getLast? with
  | none =>
      have nothing := List.getLast?_eq_none_iff.mp last
      cases held : side[price]? with
      | none => rfl
      | some size =>
          have member : (price, size) ∈ side.toList :=
            Std.ExtTreeMap.mem_toList_iff_getElem?_eq_some.mpr held
          have kept := List.filter_eq_nil_iff.mp nothing _ member
          exact absurd (decide_eq_true
            ⟨rfl, (printable _ member).size⟩) kept
  | some level =>
      have kept := List.mem_filter.mp (List.mem_of_getLast? last)
      have both := of_decide_eq_true kept.2
      have held := Std.ExtTreeMap.mem_toList_iff_getElem?_eq_some.mp kept.1
      rw [both.1] at held
      exact held.symm

theorem asVec_levelsJson (side : PriceMap) :
    Value.asVec (Value.asPair Value.asString) (OrderBook.levelsJson side) =
      some (side.toList.map formatLevel) := by
  simp only [OrderBook.levelsJson, Value.asVec]
  induction side.toList with
  | nil => rfl
  | cons level levels ih =>
      rw [List.map_cons, List.mapM_cons, ih]
      rfl

/-- The message of a snapshot frame. -/
def snapshotMsg (book : OrderBook) (marketTicker : String) : OrderbookMsg where
  marketTicker := marketTicker
  yes := none
  no := none
  yesDollars := some (book.yes.toList.map formatLevel)
  noDollars := some (book.no.toList.map formatLevel)
  price := none
  delta := none
  priceDollars := none
  deltaFp := none
  side := none
  tsMs := none

/-- A snapshot frame deserialises to its envelope and its message. -/
theorem deserialize_snapshotFrame (book : OrderBook) (marketTicker : String) :
    ∃ env, Envelope.deserialize (book.snapshotFrame marketTicker) = some env ∧
      env.typ = "orderbook_snapshot" ∧ env.seq = book.seq ∧
      OrderbookMsg.deserialize env.msg =
        some (snapshotMsg book marketTicker) := by
  refine ⟨⟨"orderbook_snapshot", none, some 0, book.seq,
    .object [("market_ticker", .string marketTicker),
      ("yes_dollars", OrderBook.levelsJson book.yes),
      ("no_dollars", OrderBook.levelsJson book.no)]⟩, ?_, rfl, rfl, ?_⟩
  · rfl
  · have yes := asVec_levelsJson book.yes
    have no := asVec_levelsJson book.no
    rw [OrderBook.levelsJson] at yes no ⊢
    rw [OrderBook.levelsJson]
    simp [OrderbookMsg.deserialize, Value.fields, Value.required,
      Value.optional, Value.asString, yes, no, snapshotMsg]

/-- Formatted levels parse. -/
theorem levels_formatLevel {side : PriceMap} (printable : PrintableSide side) :
    OrderbookMsg.levels none (some (side.toList.map formatLevel)) =
      side.toList := by
  show (side.toList.map formatLevel).filterMap OrderbookMsg.parseLevel = _
  rw [PrintableSide] at printable
  rw [List.filterMap_map]
  generalize side.toList = levels at printable ⊢
  induction levels with
  | nil => rfl
  | cons level levels ih =>
      rw [List.filterMap_cons, Function.comp_apply,
        parseLevel_formatLevel (printable level List.mem_cons_self)]
      rw [ih fun other member =>
        printable other (List.mem_cons_of_mem _ member)]

/-- Whoever applies a snapshot frame has the book it was written from. -/
theorem applyMsg_snapshotMsg {book : OrderBook} (printable : book.Printable)
    (marketTicker : String) (other : OrderBook) :
    (other.applyMsg (snapshotMsg book marketTicker) book.seq).1 = book := by
  have yes : PrintableSide book.yes := printable.side .yes
  have no : PrintableSide book.no := printable.side .no
  show other.snapshot
    (OrderbookMsg.levels none (some (book.yes.toList.map formatLevel)))
    (OrderbookMsg.levels none (some (book.no.toList.map formatLevel)))
    book.seq = book
  rw [levels_formatLevel yes, levels_formatLevel no, OrderBook.snapshot,
    collect_toList yes, collect_toList no]

/-! ## Which books can be written -/

theorem printable_default : OrderBook.default.Printable := by
  rw [OrderBook.Printable, OrderBook.depth_default]
  exact every_empty

/-- The prices of a message have a decimal text. -/
structure OrderbookMsg.Priced (msg : OrderbookMsg) : Prop where
  yes : ∀ level ∈ msg.snapshotLevels.1, level.1 ≠ Int64.minValue
  no : ∀ level ∈ msg.snapshotLevels.2, level.1 ≠ Int64.minValue
  delta : ∀ parts ∈ msg.deltaParts, parts.2.1 ≠ Int64.minValue

instance (msg : OrderbookMsg) : Decidable msg.Priced :=
  have finite : ∀ levels : List (Int64 × Int64),
      Decidable (∀ level ∈ levels, level.1 ≠ Int64.minValue) :=
    fun levels => List.decidableBAll _ levels
  have : Decidable (∀ parts ∈ msg.deltaParts, parts.2.1 ≠ Int64.minValue) :=
    Option.decidableForallMem msg.deltaParts
  have := finite msg.snapshotLevels.1
  have := finite msg.snapshotLevels.2
  decidable_of_iff
    ((∀ level ∈ msg.snapshotLevels.1, level.1 ≠ Int64.minValue) ∧
      (∀ level ∈ msg.snapshotLevels.2, level.1 ≠ Int64.minValue) ∧
      ∀ parts ∈ msg.deltaParts, parts.2.1 ≠ Int64.minValue)
    ⟨fun all => ⟨all.1, all.2.1, all.2.2⟩,
      fun priced => ⟨priced.yes, priced.no, priced.delta⟩⟩

theorem OrderBook.printable_snapshot (book : OrderBook) {yes no : Levels}
    (yesPriced : ∀ level ∈ yes, level.1 ≠ Int64.minValue)
    (noPriced : ∀ level ∈ no, level.1 ≠ Int64.minValue) (seq : UInt64) :
    (book.snapshot yes no seq).Printable := by
  rw [OrderBook.Printable, OrderBook.depth_snapshot]
  apply every_ofLevels
  intro level member positive
  rw [sided, List.mem_append, List.mem_map, List.mem_map] at member
  rcases member with ⟨level, member, rfl⟩ | ⟨level, member, rfl⟩
  · exact ⟨yesPriced level member, positive⟩
  · exact ⟨noPriced level member, positive⟩

theorem OrderBook.Printable.applyDelta {book : OrderBook}
    (printable : book.Printable) {price : Int64}
    (priced : price ≠ Int64.minValue) (side : Side) (delta : Int64)
    (seq : UInt64) : (book.applyDelta side price delta seq).Printable := by
  rw [OrderBook.Printable, OrderBook.depth_applyDelta]
  apply Every.bump printable
  intro size positive
  exact ⟨priced, positive⟩

theorem printable_applyMsg {book : OrderBook} (printable : book.Printable)
    {msg : OrderbookMsg} (priced : msg.Priced) (seq : UInt64) :
    (book.applyMsg msg seq).1.Printable := by
  rw [OrderBook.applyMsg]
  split
  · exact book.printable_snapshot priced.yes priced.no seq
  · split
    next side price delta parts =>
      exact printable.applyDelta (priced.delta _ parts) side delta seq
    next => exact printable

end ChudMoney.Kalshi.Book
