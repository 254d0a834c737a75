import ChudMoney.Kalshi.SnapshotFrame

/-!
# Books along a session

A book is reached from the empty one by applying the messages of a session,
one by one.  However its arithmetic went, every size in it is positive; and
where its prices have a decimal text, whoever reads its snapshot frame and
applies it has the same book.
-/

namespace ChudMoney.Kalshi.BookRuns

open ChudMoney.Kalshi.Book
open ChudMoney.Kalshi.Stream
open ChudMoney.Lib.Ladder

/-- The messages of a session, each with the `seq` of its envelope. -/
abbrev Frames := List (OrderbookMsg × UInt64)

/-- Apply the messages of a session in order. -/
def applyMsgs (book : OrderBook) (frames : Frames) : OrderBook :=
  frames.foldl (fun book frame => (book.applyMsg frame.1 frame.2).1) book

@[simp]
theorem applyMsgs_concat (book : OrderBook) (frames : Frames)
    (msg : OrderbookMsg) (seq : UInt64) :
    applyMsgs book (frames ++ [(msg, seq)]) =
      ((applyMsgs book frames).applyMsg msg seq).1 := by
  simp [applyMsgs]

/-- Every size in the book is positive. -/
def Positive (book : OrderBook) : Prop :=
  Every (fun _ size => 0 < size) book.depth

theorem positive_default : Positive OrderBook.default := by
  unfold Positive
  rw [OrderBook.depth_default]
  exact every_empty

/-- A message leaves only positive sizes. -/
theorem Positive.applyMsg {book : OrderBook} (positive : Positive book)
    (msg : OrderbookMsg) (seq : UInt64) :
    Positive (book.applyMsg msg seq).1 := by
  unfold Positive at positive ⊢
  cases shape : msg.isSnapshot with
  | true =>
      rw [OrderBook.applyMsg_of_isSnapshot shape, OrderBook.depth_snapshot]
      exact every_ofLevels fun _ _ isPositive => isPositive
  | false =>
      cases parts : msg.deltaParts with
      | some delta =>
          rcases delta with ⟨side, price, change⟩
          rw [OrderBook.applyMsg_of_deltaParts shape parts,
            OrderBook.depth_applyDelta]
          exact positive.bump _ _ fun _ isPositive => isPositive
      | none =>
          rw [OrderBook.applyMsg, shape, parts]
          exact positive

/-- Every size in a book that a session reaches is positive. -/
theorem positive_applyMsgs (frames : Frames) :
    Positive (applyMsgs OrderBook.default frames) := by
  induction frames using List.reverseRecOn with
  | nil => exact positive_default
  | append_singleton frames frame ih =>
      rw [applyMsgs_concat]
      exact ih.applyMsg frame.1 frame.2

/-- No price of the book is the least `i64`. -/
def Priced (book : OrderBook) : Prop :=
  ∀ side, ∀ price ∈ book.side side, price ≠ Int64.minValue

theorem Positive.printable {book : OrderBook} (positive : Positive book)
    (priced : Priced book) : book.Printable := by
  intro key size held
  refine ⟨priced key.1 key.2 ?_, positive key size held⟩
  exact Std.ExtTreeMap.mem_iff_isSome_getElem?.mpr (Option.isSome_of_mem held)

/-- No price is the least `i64` where no message brings it. -/
theorem priced_applyMsgs {frames : Frames}
    (priced : ∀ frame ∈ frames, frame.1.Priced) :
    Priced (applyMsgs OrderBook.default frames) := by
  have printable : (applyMsgs OrderBook.default frames).Printable := by
    induction frames using List.reverseRecOn with
    | nil => exact printable_default
    | append_singleton frames frame ih =>
        rw [applyMsgs_concat]
        apply printable_applyMsg
        · exact ih fun earlier member => priced earlier (by simp [member])
        · exact priced frame (by simp)
  intro side price member
  rcases Option.isSome_iff_exists.mp
    (Std.ExtTreeMap.mem_iff_isSome_getElem?.mp member) with ⟨size, held⟩
  exact (printable (side, price) size held).price

/-- The reader of a frame has an envelope, its message and then the book. -/
def Survives (book : OrderBook) (marketTicker : String)
    (other : OrderBook) : Prop :=
  ∃ env msg,
    Envelope.deserialize (book.snapshotFrame marketTicker) = some env ∧
      env.typ = "orderbook_snapshot" ∧
      OrderbookMsg.deserialize env.msg = some msg ∧
      msg.marketTicker = marketTicker ∧
      other.applyMsg msg env.seq = (book, true)

/-- Every book that a session reaches survives its own snapshot frame. -/
theorem reached_survives (frames : Frames) :
    (∀ (side : Side) (price size : Int64),
      ((applyMsgs OrderBook.default frames).side side)[price]? = some size →
        0 < size) ∧
    (Priced (applyMsgs OrderBook.default frames) →
      ∀ marketTicker other,
        Survives (applyMsgs OrderBook.default frames) marketTicker other) := by
  have positive := positive_applyMsgs frames
  generalize applyMsgs OrderBook.default frames = book at positive ⊢
  constructor
  · intro side price size held
    exact positive (side, price) size held
  · intro priced marketTicker other
    rcases deserialize_snapshotFrame book marketTicker with
      ⟨env, isEnv, typ, seq, isMsg⟩
    refine ⟨env, snapshotMsg book marketTicker, isEnv, typ, isMsg, rfl, ?_⟩
    rw [seq]
    apply Prod.ext
    · exact applyMsg_snapshotMsg (positive.printable priced) marketTicker other
    · rfl

/-- A snapshot with sub-cent and negative prices. -/
def subCentSnapshot : OrderbookMsg where
  marketTicker := "T"
  yes := none
  no := none
  yesDollars := some [("0.0330", "232.21")]
  noDollars := some [("-0.0100", "1.00")]
  price := none
  delta := none
  priceDollars := none
  deltaFp := none
  side := none
  tsMs := none

/-- A delta that empties the side of the negative price. -/
def emptyingDelta : OrderbookMsg where
  marketTicker := "T"
  yes := none
  no := none
  yesDollars := none
  noDollars := none
  price := none
  delta := none
  priceDollars := some "-0.0100"
  deltaFp := some "-1.00"
  side := some "no"
  tsMs := none

def subCentFrames : Frames :=
  [(subCentSnapshot, 7), (emptyingDelta, 8)]

/-- A book with a sub-cent price and an emptied side survives its frame. -/
theorem reached_survives_subCent :
    Survives (applyMsgs OrderBook.default subCentFrames) "T"
      OrderBook.default := by
  apply (reached_survives subCentFrames).2
  apply priced_applyMsgs
  intro frame member
  simp only [subCentFrames, List.mem_cons, List.not_mem_nil, or_false] at member
  rcases member with rfl | rfl <;> decide +kernel

end ChudMoney.Kalshi.BookRuns
