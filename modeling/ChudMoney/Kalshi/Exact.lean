import ChudMoney.Kalshi.Book

/-!
# Books and messages read exactly

A book read exactly is a ladder over unbounded integers: prices in units of
$0.0001 and sizes in hundredths of a contract, as in the book, but without a
word size.  The levels and the change of a message are read the same way from
its two wire forms.

The two updates of a book are exact as long as nothing they compute leaves 64
bits: the integer forms must scale, and the size that a change leaves at its
level must fit.
-/

namespace ChudMoney.Kalshi.Exact

open ChudMoney.Kalshi.Book
open ChudMoney.Lib.Ladder
open ChudMoney.Lib.MachineInt

/-- A side and a price as an unbounded integer. -/
abbrev ExactKey := Side × Int

/-- The ladder of a book, read exactly. -/
abbrev ExactDepth := Depth ExactKey Int

/-! ## Keys and levels -/

def exactKey (key : Side × Int64) : ExactKey :=
  (key.1, key.2.toInt)

/-- The key that an exact key stands for, if the price fits 64 bits. -/
def machineKey (key : ExactKey) : Option (Side × Int64) :=
  (checked key.2).map fun price => (key.1, price)

theorem machineKey_eq_some_iff (key : ExactKey) (old : Side × Int64) :
    machineKey key = some old ↔ exactKey old = key := by
  rcases key with ⟨side, price⟩
  rcases old with ⟨oldSide, oldPrice⟩
  simp only [machineKey, exactKey, Option.map_eq_some_iff, Prod.mk.injEq,
    checked_eq_some_iff]
  constructor
  · rintro ⟨_, same, rfl, rfl⟩
    exact ⟨rfl, same⟩
  · rintro ⟨rfl, same⟩
    exact ⟨oldPrice, same, rfl, rfl⟩

/-- A level under its key, read exactly. -/
def exactLevel (level : (Side × Int64) × Int64) : ExactKey × Int :=
  (exactKey level.1, level.2.toInt)

/-- A book read exactly. -/
def exact (book : OrderBook) : ExactDepth :=
  mapSize Int64.toInt (expand machineKey book.depth)

@[simp]
theorem exact_default : exact OrderBook.default = empty := by
  simp [exact]

/-- A snapshot resets the exact ladder to its levels. -/
theorem exact_snapshot (book : OrderBook) (yes no : Levels) (seq : UInt64) :
    exact (book.snapshot yes no seq) =
      ofLevels ((sided yes no).map exactLevel) := by
  rw [exact, OrderBook.depth_snapshot,
    expand_ofLevels machineKey_eq_some_iff,
    mapSize_ofLevels toInt_pos_iff, List.map_map]
  rfl

/-- A change is made exactly if what it leaves at its level fits. -/
theorem exact_applyDelta (book : OrderBook) (side : Side)
    (price delta : Int64) (seq : UInt64)
    (fits : Fits ((exact book (side, price.toInt)).getD 0 + delta.toInt)) :
    exact (book.applyDelta side price delta seq) =
      bump (exact book) (side, price.toInt) delta.toInt := by
  have held :
      (exact book (side, price.toInt)).getD 0 =
        ((expand machineKey book.depth (side, price.toInt)).getD 0).toInt := by
    rw [exact, mapSize]
    cases expand machineKey book.depth (side, price.toInt) <;> rfl
  rw [exact, OrderBook.depth_applyDelta,
    expand_bump machineKey_eq_some_iff]
  apply mapSize_bump toInt_pos_iff
  · rfl
  · exact toInt_add_of_fits (held ▸ fits)

/-! ## Messages -/

/-- The levels of one side of a snapshot, read exactly. -/
def exactLevels (int : Option (List (Int64 × Int64)))
    (dec : Option (List (String × String))) : List (Int × Int) :=
  match dec, int with
  | some rows, _ =>
      (rows.filterMap OrderbookMsg.parseLevel).map fun level =>
        (level.1.toInt, level.2.toInt)
  | none, some rows =>
      rows.map fun row => (row.1.toInt * 100, row.2.toInt * 100)
  | none, none => []

/-- Both sides of a snapshot, read exactly. -/
def exactSnapshot (msg : OrderbookMsg) : List (ExactKey × Int) :=
  (exactLevels msg.yes msg.yesDollars).map
      (fun level => ((.yes, level.1), level.2)) ++
    (exactLevels msg.no msg.noDollars).map
      fun level => ((.no, level.1), level.2)

def exactPrice (msg : OrderbookMsg) : Option Int :=
  match msg.priceDollars, msg.price with
  | some s, _ => (parseScaled s priceScale).map Int64.toInt
  | none, some c => some (c.toInt * 100)
  | none, none => none

def exactChange (msg : OrderbookMsg) : Option Int :=
  match msg.deltaFp, msg.delta with
  | some s, _ => (parseScaled s qtyScale).map Int64.toInt
  | none, some d => some (d.toInt * 100)
  | none, none => none

/-- The side, price and change of a delta, read exactly. -/
def exactDelta (msg : OrderbookMsg) : Option (ExactKey × Int) := do
  let side ← Side.parse (← msg.side)
  let price ← exactPrice msg
  let delta ← exactChange msg
  return ((side, price), delta)

/-- The integer rows of a side, where they are read, scale within 64 bits. -/
def RowsScale (int : Option (List (Int64 × Int64)))
    (dec : Option (List (String × String))) : Prop :=
  dec = none → ∀ rows ∈ int, ∀ row ∈ rows,
    Fits (row.1.toInt * 100) ∧ Fits (row.2.toInt * 100)

/-- The integer levels of a snapshot scale within 64 bits. -/
def SnapshotScales (msg : OrderbookMsg) : Prop :=
  RowsScale msg.yes msg.yesDollars ∧ RowsScale msg.no msg.noDollars

/-- The integer price and change of a delta scale within 64 bits. -/
def DeltaScales (msg : OrderbookMsg) : Prop :=
  (msg.priceDollars = none → ∀ c ∈ msg.price, Fits (c.toInt * 100)) ∧
    (msg.deltaFp = none → ∀ d ∈ msg.delta, Fits (d.toInt * 100))

-- The quantifiers run over the rows, not over every pair of 64-bit integers.
instance (int : Option (List (Int64 × Int64)))
    (dec : Option (List (String × String))) : Decidable (RowsScale int dec) :=
  have rowsScale : DecidablePred fun rows : List (Int64 × Int64) =>
      ∀ row ∈ rows, Fits (row.1.toInt * 100) ∧ Fits (row.2.toInt * 100) :=
    fun rows => List.decidableBAll _ rows
  have : Decidable (∀ rows ∈ int, ∀ row ∈ rows,
      Fits (row.1.toInt * 100) ∧ Fits (row.2.toInt * 100)) :=
    @Option.decidableForallMem _ _ rowsScale int
  inferInstanceAs (Decidable (dec = none → _))

instance (msg : OrderbookMsg) : Decidable (SnapshotScales msg) :=
  inferInstanceAs (Decidable (RowsScale _ _ ∧ RowsScale _ _))

instance (msg : OrderbookMsg) : Decidable (DeltaScales msg) :=
  have : Decidable (∀ c ∈ msg.price, Fits (c.toInt * 100)) :=
    Option.decidableForallMem msg.price
  have : Decidable (∀ d ∈ msg.delta, Fits (d.toInt * 100)) :=
    Option.decidableForallMem msg.delta
  inferInstanceAs (Decidable ((_ → _) ∧ (_ → _)))

theorem toInt_centsToPrice {cents : Int64} (fits : Fits (cents.toInt * 100)) :
    (centsToPrice cents).toInt = cents.toInt * 100 := by
  have scale : (priceOne / 100).toInt = 100 := by decide
  rw [centsToPrice, toInt_mul_of_fits (by rwa [scale]), scale]

theorem toInt_wholeToQty {n : Int64} (fits : Fits (n.toInt * 100)) :
    (wholeToQty n).toInt = n.toInt * 100 := by
  have scale : (pow10 qtyScale).toInt = 100 := by decide
  rw [wholeToQty, toInt_mul_of_fits (by rwa [scale]), scale]

/-- The levels of a side that scales are its exact levels. -/
theorem levels_exact {int : Option (List (Int64 × Int64))}
    {dec : Option (List (String × String))} (scales : RowsScale int dec) :
    (OrderbookMsg.levels int dec).map
        (fun level => (level.1.toInt, level.2.toInt)) =
      exactLevels int dec := by
  cases dec with
  | some rows => rfl
  | none =>
      cases int with
      | none => rfl
      | some rows =>
          simp only [OrderbookMsg.levels, exactLevels, List.map_map]
          apply List.map_congr_left
          intro row member
          have fits := scales rfl rows rfl row member
          simp [toInt_centsToPrice fits.1, toInt_wholeToQty fits.2]

theorem snapshotLevels_exact {msg : OrderbookMsg}
    (scales : SnapshotScales msg) :
    (sided msg.snapshotLevels.1 msg.snapshotLevels.2).map exactLevel =
      exactSnapshot msg := by
  rw [exactSnapshot, ← levels_exact scales.1, ← levels_exact scales.2]
  simp only [sided, OrderbookMsg.snapshotLevels, List.map_append,
    List.map_map]
  rfl

theorem deltaPrice_exact {msg : OrderbookMsg} (scales : DeltaScales msg) :
    exactPrice msg = msg.deltaPrice.map Int64.toInt := by
  rw [exactPrice, OrderbookMsg.deltaPrice]
  cases dollars : msg.priceDollars with
  | some s => rfl
  | none =>
      cases cents : msg.price with
      | none => rfl
      | some c => simp [toInt_centsToPrice (scales.1 dollars c cents)]

theorem deltaChange_exact {msg : OrderbookMsg} (scales : DeltaScales msg) :
    exactChange msg = msg.deltaChange.map Int64.toInt := by
  rw [exactChange, OrderbookMsg.deltaChange]
  cases decimal : msg.deltaFp with
  | some s => rfl
  | none =>
      cases whole : msg.delta with
      | none => rfl
      | some d => simp [toInt_wholeToQty (scales.2 decimal d whole)]

/-- The parts of a delta that scales are its exact parts. -/
theorem deltaParts_exact {msg : OrderbookMsg} (scales : DeltaScales msg) :
    exactDelta msg =
      msg.deltaParts.map fun parts =>
        ((parts.1, parts.2.1.toInt), parts.2.2.toInt) := by
  rw [exactDelta, OrderbookMsg.deltaParts, deltaPrice_exact scales,
    deltaChange_exact scales]
  simp only [Option.bind_eq_bind, Option.map_bind, Option.bind_map,
    Function.comp_def]
  rfl

end ChudMoney.Kalshi.Exact
