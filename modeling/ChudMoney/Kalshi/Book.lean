import ChudMoney.Lib.Json
import ChudMoney.Lib.Ladder
import ChudMoney.Lib.MachineInt
import Std.Data.ExtTreeMap

/-!
# Order books rebuilt from `orderbook_snapshot` and `orderbook_delta`

Both sides of a Kalshi book are resting bids.  Prices are fixed point in units
of $0.0001 and sizes in hundredths of a contract, whichever of the two wire
forms (integer cents and whole contracts, or decimal strings) carried them.

The arithmetic is that of a release build: it wraps.  `OrderBook.depth` reads
a book as the ladder of its `(side, price)` keys, and the two theorems
`depth_snapshot` and `depth_applyDelta` say that the two updates of a book are
the two updates of a ladder.
-/

namespace ChudMoney.Kalshi.Book

open ChudMoney.Lib.Json
open ChudMoney.Lib.Ladder
open ChudMoney.Lib.MachineInt
open ChudMoney.Lib.Text

/-- $1.00 in price units. -/
def priceOne : Int64 := 10000

def priceScale : Nat := 4

def qtyScale : Nat := 2

/-- One side of a book as `(price, size)` pairs. -/
abbrev Levels := List (Int64 × Int64)

/-! ## Fixed point -/

/-- `10_i64.pow(scale)`. -/
def pow10 (scale : Nat) : Int64 :=
  Int64.ofInt (10 ^ scale)

def centsToPrice (cents : Int64) : Int64 :=
  cents * (priceOne / 100)

def wholeToQty (n : Int64) : Int64 :=
  n * pow10 qtyScale

/-- A fixed-point price back to dollars, not yet rounded. -/
def priceToDollars (price : Int64) : F64 :=
  .finite (price.toInt / priceOne.toInt)

/-- A fixed-point size back to contracts, not yet rounded. -/
def qtyToContracts (qty : Int64) : F64 :=
  .finite (qty.toInt / (pow10 qtyScale).toInt)

/-- `str::parse::<i64>` of a nonempty list of ASCII digits. -/
def parseDigits (digits : List Char) : Option Int64 :=
  checked (digitsValue digits)

/-- The digits of a part of the number, where an empty part is zero. -/
def parsePart (digits : List Char) : Option Int64 :=
  if digits.isEmpty then some 0 else parseDigits digits

/--
Parse a decimal string into an integer scaled by `10^scale`, truncating extra
fractional digits.
-/
def parseScaled (s : String) (scale : Nat) : Option Int64 := do
  let s := trim s.toList
  let (neg, s) := match s with
    | '-' :: rest => (true, rest)
    | '+' :: rest => (false, rest)
    | s => (false, s)
  let (intPart, fracPart) := (splitOnce '.' s).getD (s, [])
  if intPart.isEmpty && fracPart.isEmpty then none
  if !intPart.all Char.isDigit || !fracPart.all Char.isDigit then none
  let taken := fracPart.take scale
  let frac := taken ++ List.replicate (scale - taken.length) '0'
  let intV ← parsePart intPart
  let fracV ← parsePart frac
  let v ← checkedAdd (← checkedMul intV (pow10 scale)) fracV
  return if neg then -v else v

/-- `{}` of an `i64`. -/
def displayI64 (v : Int64) : List Char :=
  (if v < 0 then ['-'] else []) ++ Nat.toDigits 10 v.toInt.natAbs

/-- `{:0width$}` of an `i64`. -/
def displayPadded (width : Nat) (v : Int64) : List Char :=
  if v < 0 then '-' :: zeroPadded (width - 1) v.toInt.natAbs
  else zeroPadded width v.toInt.natAbs

/-- Format a scaled integer as a decimal string with `scale` digits. -/
def formatScaled (v : Int64) (scale : Nat) : String :=
  let div := pow10 scale
  let sign := if v < 0 then ['-'] else []
  let v := abs v
  String.ofList
    (sign ++ displayI64 (v / div) ++ '.' :: displayPadded scale (v % div))

/-! ## Messages -/

inductive Side where
  | yes
  | no
  deriving DecidableEq, Repr

namespace Side

def parse (s : String) : Option Side :=
  if s = "yes" then some .yes
  else if s = "no" then some .no
  else none

def asStr : Side → String
  | .yes => "yes"
  | .no => "no"

@[simp]
theorem parse_asStr (side : Side) : parse side.asStr = some side := by
  cases side <;> simp [parse, asStr]

end Side

/-- `msg` of an `orderbook_snapshot` or `orderbook_delta` frame. -/
structure OrderbookMsg where
  marketTicker : String
  yes : Option (List (Int64 × Int64))
  no : Option (List (Int64 × Int64))
  yesDollars : Option (List (String × String))
  noDollars : Option (List (String × String))
  price : Option Int64
  delta : Option Int64
  priceDollars : Option String
  deltaFp : Option String
  side : Option String
  tsMs : Option Int64
  deriving DecidableEq

namespace OrderbookMsg

/-- `serde_json::from_value::<OrderbookMsg>`. -/
def deserialize (value : Value) : Option OrderbookMsg := do
  let [marketTicker, yes, no, yesDollars, noDollars, price, delta,
      priceDollars, deltaFp, side, tsMs] ←
    value.fields
      [["market_ticker"], ["yes"], ["no"],
        ["yes_dollars", "yes_dollars_fp"], ["no_dollars", "no_dollars_fp"],
        ["price"], ["delta"], ["price_dollars"], ["delta_fp"], ["side"],
        ["ts_ms"]] | none
  return {
    marketTicker := ← Value.required Value.asString marketTicker
    yes := ← Value.optional (Value.asVec (Value.asPair Value.asI64)) yes
    no := ← Value.optional (Value.asVec (Value.asPair Value.asI64)) no
    yesDollars :=
      ← Value.optional (Value.asVec (Value.asPair Value.asString)) yesDollars
    noDollars :=
      ← Value.optional (Value.asVec (Value.asPair Value.asString)) noDollars
    price := ← Value.optional Value.asI64 price
    delta := ← Value.optional Value.asI64 delta
    priceDollars := ← Value.optional Value.asString priceDollars
    deltaFp := ← Value.optional Value.asString deltaFp
    side := ← Value.optional Value.asString side
    tsMs := ← Value.optional Value.asI64 tsMs }

def isSnapshot (msg : OrderbookMsg) : Bool :=
  msg.yes.isSome || msg.no.isSome || msg.yesDollars.isSome ||
    msg.noDollars.isSome

/-- One decimal level; `None` when its price or its size does not parse. -/
def parseLevel (level : String × String) : Option (Int64 × Int64) := do
  let price ← parseScaled level.1 priceScale
  let size ← parseScaled level.2 qtyScale
  return (price, size)

def levels (int : Option (List (Int64 × Int64)))
    (dec : Option (List (String × String))) : Levels :=
  match dec, int with
  | some rows, _ => rows.filterMap parseLevel
  | none, some rows =>
      rows.map fun row => (centsToPrice row.1, wholeToQty row.2)
  | none, none => []

/-- Both sides of a snapshot as `(price, size)` levels, yes then no. -/
def snapshotLevels (msg : OrderbookMsg) : Levels × Levels :=
  (levels msg.yes msg.yesDollars, levels msg.no msg.noDollars)

/-- The price of a delta; the decimal form goes first. -/
def deltaPrice (msg : OrderbookMsg) : Option Int64 :=
  match msg.priceDollars, msg.price with
  | some s, _ => parseScaled s priceScale
  | none, some c => some (centsToPrice c)
  | none, none => none

/-- The signed size change of a delta; the decimal form goes first. -/
def deltaChange (msg : OrderbookMsg) : Option Int64 :=
  match msg.deltaFp, msg.delta with
  | some s, _ => parseScaled s qtyScale
  | none, some d => some (wholeToQty d)
  | none, none => none

/-- A delta's `(side, price, signed size change)`, if the frame is one. -/
def deltaParts (msg : OrderbookMsg) : Option (Side × Int64 × Int64) := do
  let side ← Side.parse (← msg.side)
  let price ← msg.deltaPrice
  let delta ← msg.deltaChange
  return (side, price, delta)

end OrderbookMsg

/-! ## Frames as Kalshi writes them -/

/-- A side of a snapshot in whole cents and contracts. -/
def wholeLevels (levels : List (UInt64 × UInt64)) : Value :=
  .array (levels.map fun level =>
    .array [.number (.posInt level.1), .number (.posInt level.2)])

/-- `msg` of an orderbook frame. -/
def bookMsg (marketTicker : String) (payload : List (String × Value)) :
    Value :=
  .object (("market_ticker", .string marketTicker) :: payload)

/-! ## Books -/

/-- `BTreeMap<i64, i64>`: price to resting size. -/
abbrev PriceMap := Std.ExtTreeMap Int64 Int64

structure OrderBook where
  yes : PriceMap
  no : PriceMap
  seq : UInt64
  deriving DecidableEq

namespace OrderBook

/-- `OrderBook::default()`. -/
def default : OrderBook := ⟨∅, ∅, 0⟩

/-- `filter(|(_, q)| *q > 0).collect()`. -/
def collect (levels : Levels) : PriceMap :=
  (levels.filter fun level => 0 < level.2).foldl
    (fun side level => side.insert level.1 level.2) ∅

def snapshot (_book : OrderBook) (yes no : Levels) (seq : UInt64) :
    OrderBook :=
  ⟨collect yes, collect no, seq⟩

/-- `apply_delta` on the side it names. -/
def addAt (levels : PriceMap) (price delta : Int64) : PriceMap :=
  let qty := levels.getD price 0 + delta
  let levels := levels.insert price qty
  if qty ≤ 0 then levels.erase price else levels

def applyDelta (book : OrderBook) (side : Side) (price delta : Int64)
    (seq : UInt64) : OrderBook :=
  match side with
  | .yes => { book with yes := addAt book.yes price delta, seq := seq }
  | .no => { book with no := addAt book.no price delta, seq := seq }

/--
Apply a parsed `orderbook_snapshot` or `orderbook_delta` `msg`; `false` if the
message had neither shape.
-/
def applyMsg (book : OrderBook) (msg : OrderbookMsg) (seq : UInt64) :
    OrderBook × Bool :=
  if msg.isSnapshot then
    let (yes, no) := msg.snapshotLevels
    (book.snapshot yes no seq, true)
  else
    match msg.deltaParts with
    | some (side, price, delta) =>
        (book.applyDelta side price delta seq, true)
    | none => (book, false)

/-- The levels of one side as `[price, size]` decimal strings. -/
def levelsJson (side : PriceMap) : Value :=
  .array (side.toList.map fun level =>
    .array [.string (formatScaled level.1 priceScale),
      .string (formatScaled level.2 qtyScale)])

/-- Serialize as an `orderbook_snapshot` envelope. -/
def snapshotFrame (book : OrderBook) (marketTicker : String) : Value :=
  .object [
    ("type", .string "orderbook_snapshot"),
    ("sid", .number (.posInt 0)),
    ("seq", .number (.posInt book.seq)),
    ("msg", .object [
      ("market_ticker", .string marketTicker),
      ("yes_dollars", levelsJson book.yes),
      ("no_dollars", levelsJson book.no)])]

/-- The side of a book that holds a key. -/
def side (book : OrderBook) : Side → PriceMap
  | .yes => book.yes
  | .no => book.no

/-- A book as the ladder of its `(side, price)` keys. -/
def depth (book : OrderBook) : Depth (Side × Int64) Int64 :=
  fun key => (book.side key.1)[key.2]?

end OrderBook

/-- Levels of both sides under their `(side, price)` keys. -/
def sided (yes no : Levels) : List ((Side × Int64) × Int64) :=
  yes.map (fun level => ((.yes, level.1), level.2)) ++
    no.map (fun level => ((.no, level.1), level.2))

/-! ## Books as ladders -/

namespace OrderBook

theorem getElem?_collect (levels : Levels) (price : Int64) :
    (collect levels)[price]? = ofLevels levels price := by
  have fold : ∀ (kept : Levels) (side : PriceMap)
      (ladder : Depth Int64 Int64), (∀ price, side[price]? = ladder price) →
      (kept.foldl (fun side level => side.insert level.1 level.2) side)[price]? =
        kept.foldl place ladder price := by
    intro kept
    induction kept with
    | nil => exact fun side ladder same => same price
    | cons level kept ih =>
        intro side ladder same
        apply ih
        intro other
        rw [Std.ExtTreeMap.getElem?_insert, place]
        by_cases equal : level.1 = other
        · subst other
          simp
        · simp [equal, Ne.symm equal, same]
  exact fold _ _ _ (fun price => by simp [empty])

theorem getElem?_addAt (levels : PriceMap) (price delta other : Int64) :
    (addAt levels price delta)[other]? =
      bump (fun price => levels[price]?) price delta other := by
  have held : levels.getD price 0 = (levels[price]?).getD 0 :=
    Std.ExtTreeMap.getD_eq_getD_getElem?
  by_cases same : other = price
  · subst other
    by_cases rests : (levels[price]?).getD 0 + delta ≤ 0
    · have absent : ¬ 0 < (levels[price]?).getD 0 + delta :=
        Int64.not_lt.mpr rests
      simp [addAt, held, rests, keep, absent]
    · have present : 0 < (levels[price]?).getD 0 + delta :=
        Int64.not_le.mp rests
      simp [addAt, held, rests, keep, present]
  · rw [bump_of_ne _ _ same]
    have distinct : ¬ price = other := Ne.symm same
    by_cases rests : (levels[price]?).getD 0 + delta ≤ 0 <;>
      simp [addAt, held, rests, Std.ExtTreeMap.getElem?_erase,
        Std.ExtTreeMap.getElem?_insert, distinct]

/-- A snapshot is a reset of the ladder. -/
theorem depth_snapshot (book : OrderBook) (yes no : Levels) (seq : UInt64) :
    (book.snapshot yes no seq).depth = ofLevels (sided yes no) := by
  funext key
  rcases key with ⟨side, price⟩
  cases side with
  | yes =>
      have apart : ∀ level ∈ no.map fun level =>
          (((Side.no, level.1), level.2) : (Side × Int64) × Int64),
          level.1 ≠ (Side.yes, price) := by
        rintro _ member
        rcases List.mem_map.mp member with ⟨level, _, rfl⟩
        simp
      have named := ofLevels_map_key
        (fun (first second : Int64)
            (same : (Side.yes, first) = (.yes, second)) =>
          (Prod.mk.inj same).2) yes price
      rw [sided, ofLevels_append_of_forall_ne apart, named]
      exact getElem?_collect yes price
  | no =>
      have apart : ∀ level ∈ yes.map fun level =>
          (((Side.yes, level.1), level.2) : (Side × Int64) × Int64),
          level.1 ≠ (Side.no, price) := by
        rintro _ member
        rcases List.mem_map.mp member with ⟨level, _, rfl⟩
        simp
      have named := ofLevels_map_key
        (fun (first second : Int64) (same : (Side.no, first) = (.no, second)) =>
          (Prod.mk.inj same).2) no price
      rw [sided, ofLevels_append_of_forall_ne_left apart, named]
      exact getElem?_collect no price

/-- A delta is a signed change of the ladder. -/
theorem depth_applyDelta (book : OrderBook) (side : Side)
    (price delta : Int64) (seq : UInt64) :
    (book.applyDelta side price delta seq).depth =
      bump book.depth (side, price) delta := by
  funext key
  rcases key with ⟨other, at_⟩
  by_cases same : other = side
  · subst other
    have moved :
        (book.applyDelta side price delta seq).depth (side, at_) =
          (addAt (book.side side) price delta)[at_]? := by
      cases side <;> rfl
    rw [moved, getElem?_addAt]
    by_cases equal : at_ = price
    · subst at_
      simp [bump, depth]
    · rw [bump_of_ne _ _ equal, bump_of_ne _ _ (by simp [equal]), depth]
  · rw [bump_of_ne _ _ (by simp [same])]
    cases side <;> cases other <;> first | exact absurd rfl same | rfl

@[simp]
theorem seq_snapshot (book : OrderBook) (yes no : Levels) (seq : UInt64) :
    (book.snapshot yes no seq).seq = seq :=
  rfl

@[simp]
theorem seq_applyDelta (book : OrderBook) (side : Side)
    (price delta : Int64) (seq : UInt64) :
    (book.applyDelta side price delta seq).seq = seq := by
  cases side <;> rfl

@[simp]
theorem depth_default : default.depth = empty := by
  funext key
  rcases key with ⟨side, price⟩
  cases side <;> simp [depth, default, OrderBook.side, empty]

theorem applyMsg_of_isSnapshot {msg : OrderbookMsg}
    (shape : msg.isSnapshot = true) (book : OrderBook) (seq : UInt64) :
    (book.applyMsg msg seq).1 =
      book.snapshot msg.snapshotLevels.1 msg.snapshotLevels.2 seq := by
  rw [OrderBook.applyMsg, if_pos shape]

theorem applyMsg_of_deltaParts {msg : OrderbookMsg}
    (shape : msg.isSnapshot = false) {side : Side} {price delta : Int64}
    (parts : msg.deltaParts = some (side, price, delta)) (book : OrderBook)
    (seq : UInt64) :
    (book.applyMsg msg seq).1 = book.applyDelta side price delta seq := by
  simp [OrderBook.applyMsg, shape, parts]

/-- Two books with the same ladder and the same `seq` are the same book. -/
theorem ext_depth {first second : OrderBook}
    (depth : first.depth = second.depth) (seq : first.seq = second.seq) :
    first = second := by
  have yes : first.yes = second.yes :=
    Std.ExtTreeMap.ext_getElem? fun price => congrFun depth (.yes, price)
  have no : first.no = second.no :=
    Std.ExtTreeMap.ext_getElem? fun price => congrFun depth (.no, price)
  cases first
  cases second
  simp_all

end OrderBook

end ChudMoney.Kalshi.Book
