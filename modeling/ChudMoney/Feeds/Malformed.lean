import ChudMoney.Feeds.EventLog
import ChudMoney.Feeds.Gaps

/-!
# What a malformed book frame does

A payload that does not deserialise, a delta without its parts and a level
that does not parse are logged and left out; none of them ends the session.
Everything else in a frame is applied and sent to the writer in the frame's
order, and a live row that finds the queue full is counted.
-/

namespace ChudMoney.Feeds.Malformed

open ChudMoney.Coinbase.Stream
open ChudMoney.Db.Rows
open ChudMoney.Feeds.Cache
open ChudMoney.Feeds.Coinbase
open ChudMoney.Feeds.EventLog
open ChudMoney.Feeds.Frames
open ChudMoney.Feeds.Gaps
open ChudMoney.Feeds.Shared
open ChudMoney.Feeds.Task
open ChudMoney.Kalshi.Book
open ChudMoney.Lib.Json
open ChudMoney.Lib.Ladder
open ChudMoney.Lib.MachineInt
open ChudMoney.Lib.Runs
open ChudMoney.Lib.Text
open ChudMoney.Model

variable {Text : Type}

/-! ## The readable parts of a list -/

/--
The second list is what is read of the elements of the first, in their order.
An element that cannot be read is left out.
-/
inductive Readable {α β : Type} (reads : α → β → Prop) :
    List α → List β → Prop where
  | nil : Readable reads [] []
  | read {given : α} {value : β} {rest : List α} {values : List β} :
      reads given value → Readable reads rest values →
        Readable reads (given :: rest) (value :: values)
  | malformed {given : α} {rest : List α} {values : List β} :
      (∀ value, ¬ reads given value) → Readable reads rest values →
        Readable reads (given :: rest) values

/-- A decimal level as its price and size. -/
def ReadsLevel (level : String × String) (parsed : Int64 × Int64) : Prop :=
  parseScaled level.1 priceScale = some parsed.1 ∧
    parseScaled level.2 qtyScale = some parsed.2

/-- The levels of one side: the decimal ones that parse, else the integers. -/
def SideLevels (int : Option (List (Int64 × Int64)))
    (dec : Option (List (String × String))) (parsed : Levels) : Prop :=
  match dec with
  | some given => Readable ReadsLevel given parsed
  | none =>
      parsed = (int.getD []).map fun level =>
        (centsToPrice level.1, wholeToQty level.2)

/-- One row for each level of a snapshot, the yes side first. -/
def levelRows (market : Market) (nowMs : Int64) (seq : UInt64)
    (msg : OrderbookMsg) : List Row :=
  (sided msg.snapshotLevels.1 msg.snapshotLevels.2).map fun level =>
    bookRow market nowMs seq msg level.1.1 .snapshot level.1.2 level.2

/--
What an orderbook frame does to the books, and the rows it sends: nothing
unless its message deserialises; all of its levels that parse, if it has sides;
its change, if it has one; nothing otherwise.
-/
structure Effect (market : Market) (nowMs : Int64) (isSnapshot : Bool)
    (env : Kalshi.Stream.Envelope) (before after : HashMap String OrderBook)
    (rows : List Row) : Prop where
  undecoded : OrderbookMsg.deserialize env.msg = none →
    after = before ∧ rows = []
  levels : ∀ msg, OrderbookMsg.deserialize env.msg = some msg →
    msg.isSnapshot = true →
      SideLevels msg.yes msg.yesDollars msg.snapshotLevels.1 ∧
        SideLevels msg.no msg.noDollars msg.snapshotLevels.2 ∧
        rows = levelRows market nowMs env.seq msg ∧
        (isSnapshot = true ∨ (before[msg.marketTicker]?).isSome →
          ∃ book, after[msg.marketTicker]? = some book ∧
            book.depth =
              ofLevels (sided msg.snapshotLevels.1 msg.snapshotLevels.2) ∧
            book.seq = env.seq)
  change : ∀ msg, OrderbookMsg.deserialize env.msg = some msg →
    msg.isSnapshot = false → ∀ side price delta,
      msg.deltaParts = some (side, price, delta) →
        rows = [bookRow market nowMs env.seq msg side .delta price delta] ∧
          ∀ old, before[msg.marketTicker]? = some old →
            ∃ book, after[msg.marketTicker]? = some book ∧
              book.depth = bump old.depth (side, price) delta ∧
              book.seq = env.seq
  partless : ∀ msg, OrderbookMsg.deserialize env.msg = some msg →
    msg.isSnapshot = false → msg.deltaParts = none →
      rows = [] ∧ ∀ old, before[msg.marketTicker]? = some old →
        after[msg.marketTicker]? = some old

/-- A level2 frame handled without error sends its rows. -/
theorem handleChannel_l2Data {readers : Readers Text} {moment : Moment}
    {product : String} {env : Coinbase.Stream.Envelope} {output : Output Text}
    (channel : env.channel = channelL2Data)
    (handled : (handleChannel readers.parseFromRfc3339 moment product env
      output).2 = .ok ()) :
    let rows := Coinbase.bookRows readers.parseFromRfc3339
      (stampsOf readers.parseFromRfc3339 moment env) product env
    let after :=
      (handleChannel readers.parseFromRfc3339 moment product env output).1
    after.ilp = output.ilp ++ Output.kept moment.ilp 0 rows ∧
      coinbaseDropped after.shared.status =
        (coinbaseDropped output.shared.status).map
          (· + .ofNat (Output.lost moment.ilp 0 rows)) := by
  have other : ¬ env.channel = channelTicker := by
    rw [channel]
    decide
  simp only [handleChannel, if_neg other, if_pos channel] at handled ⊢
  split at handled
  next e failed => cases handled
  next done =>
    simp only [Output.ilp_withStatus]
    constructor
    · exact Output.ilp_sendAll done
    · have counted := congrArg coinbaseDropped (Output.status_sendAll done)
      rw [coinbaseDropped_iterate_countDropped] at counted
      rw [← counted]
      simp [coinbaseDropped, Coinbase.withStatus, Output.withStatus,
        Function.comp_def]

/-- A level of a known side, with a price and a size that parse, as its row. -/
def ReadsUpdate (parseFromRfc3339 : String → Option Int) (stamps : Stamps)
    (sequenceNum : UInt64) (product : String) (kind : BookKind)
    (u : L2Update) (row : Row) : Prop :=
  ∃ side price size,
    (u.side = "bid" ∧ side = "bid" ∨ u.side = "offer" ∧ side = "offer") ∧
      F64.parseTrimmed u.priceLevel = some price ∧
      F64.parseTrimmed u.newQuantity = some size ∧
      row = .coinbaseBook {
        product := product
        side := side
        kind := kind
        price := price
        size := size
        sequenceNum := sequenceNum
        tsNs := (rfc3339Nanos parseFromRfc3339 u.eventTime).getD stamps.sentNs
        receivedAtNs := stamps.sentNs
        source := Coinbase.sourceBook }

theorem levelSide_eq_some_iff (given side : String) :
    levelSide given = some side ↔
      given = "bid" ∧ side = "bid" ∨ given = "offer" ∧ side = "offer" := by
  rw [levelSide]
  split
  next bid => simp [bid, eq_comm]
  next other =>
    split
    next offer => simp [offer, eq_comm]
    next unknown => simp [other, unknown]

theorem levelRow_eq_some_iff {parseFromRfc3339 : String → Option Int}
    {stamps : Stamps} {sequenceNum : UInt64} {product : String}
    {kind : BookKind} (u : L2Update) (row : Row) :
    levelRow parseFromRfc3339 stamps sequenceNum product kind u = some row ↔
      ReadsUpdate parseFromRfc3339 stamps sequenceNum product kind u row := by
  simp only [levelRow, Option.bind_eq_bind, Option.bind_eq_some_iff,
    Option.pure_def, Option.some.injEq, levelSide_eq_some_iff]
  constructor
  · rintro ⟨side, known, price, readPrice, size, readSize, rfl⟩
    exact ⟨side, price, size, known, readPrice, readSize, rfl⟩
  · rintro ⟨side, price, size, known, readPrice, readSize, rfl⟩
    exact ⟨side, known, price, readPrice, size, readSize, rfl⟩

/-- A level2 frame with a readable level and one of an unknown side. -/
def level2Frame : Value :=
  serverFrame "l2_data" 2 [.object [("type", .string "update"),
    ("product_id", .string "BTC-USD"),
    ("updates", .array [
      .object [("side", .string "bid"), ("price_level", .string "42499.00"),
        ("new_quantity", .string "0")],
      .object [("side", .string "ask"), ("price_level", .string "42501.00"),
        ("new_quantity", .string "1.25")]])]]

/-- The state of a Coinbase task whose market has just been added. -/
def addedOutput : Output Value :=
  (Conn.spawned btc15m (some (.default "BTC-USD"))).output

end ChudMoney.Feeds.Malformed
