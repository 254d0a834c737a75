import ChudMoney.Kalshi.Exact
import ChudMoney.Kalshi.ParseScaled

/-!
# The two forms of an orderbook frame

A frame carries its prices and sizes as integers, in cents and contracts, or
as decimal strings, in dollars and contracts, or both at once; each field
chooses for itself.  Where the integers scale within 64 bits, a frame that
writes the same values means the same as the integer frame.
-/

namespace ChudMoney.Kalshi.Forms

open ChudMoney.Kalshi.Book
open ChudMoney.Kalshi.Exact
open ChudMoney.Kalshi.ParseScaled
open ChudMoney.Lib.Decimals
open ChudMoney.Lib.MachineInt
open ChudMoney.Lib.Text

/-! ## Values as texts -/

/-- The text is a decimal number of this value, white space aside. -/
def Writes (text : String) (value : Rat) : Prop :=
  ∃ decimal : Decimal, decimal.text = trim text.toList ∧ decimal.value = value

theorem writes_iff {text : String} {value : Rat} :
    (ofText (trim text.toList)).any (fun decimal => decimal.value = value) =
      true ↔ Writes text value := by
  unfold Writes
  simp only [← ofText_eq_some_iff]
  cases ofText (trim text.toList) <;> simp

instance (text : String) (value : Rat) : Decidable (Writes text value) :=
  decidable_of_iff _ writes_iff

/-- Cents as a decimal dollar string. -/
abbrev WritesPrice (text : String) (cents : Int64) : Prop :=
  Writes text (cents.toInt / 100)

/-- Whole contracts as a decimal contract string. -/
abbrev WritesSize (text : String) (contracts : Int64) : Prop :=
  Writes text contracts.toInt

/-- The levels of a side as pairs of decimal strings. -/
def WritesRows (texts : List (String × String))
    (rows : List (Int64 × Int64)) : Prop :=
  List.Forall₂
    (fun text row => WritesPrice text.1 row.1 ∧ WritesSize text.2 row.2)
    texts rows

/-- A text of a whole count of units that fits is parsed as the count. -/
theorem parseScaled_of_writes {text : String} {value : Rat} {scale : Nat}
    (small : scale ≤ 18) (writes : Writes text value) {count : Int64}
    (whole : value * 10 ^ scale = count.toInt)
    (finite : count.toInt ≠ -2 ^ 63) :
    parseScaled text scale = some count := by
  rcases writes with ⟨decimal, isText, rfl⟩
  have units := decimal.signum_mul_floor scale
  rw [decimal.floor_value, whole, Decimal.towardZero_intCast] at units
  rw [parseScaled_text small isText]
  refine ⟨?_, units.symm⟩
  have greatest : Int64.maxValue.toInt = 2 ^ 63 - 1 := by decide
  have bounds := fits_toInt count
  rw [greatest]
  unfold Decimal.signum at units
  split at units <;> omega

theorem parseScaled_price {text : String} {cents : Int64}
    (writes : WritesPrice text cents) (fits : Fits (cents.toInt * 100)) :
    parseScaled text priceScale = some (centsToPrice cents) := by
  have scaled := toInt_centsToPrice fits
  apply parseScaled_of_writes (by decide) writes
  · rw [scaled, priceScale]
    push_cast
    ring
  · rw [scaled]
    omega

theorem parseScaled_size {text : String} {contracts : Int64}
    (writes : WritesSize text contracts) (fits : Fits (contracts.toInt * 100)) :
    parseScaled text qtyScale = some (wholeToQty contracts) := by
  have scaled := toInt_wholeToQty fits
  apply parseScaled_of_writes (by decide) writes
  · rw [scaled, qtyScale]
    push_cast
    ring
  · rw [scaled]
    omega

/-! ## Frames in both forms -/

/--
The two fields of a frame that carry one value of an integer frame: the
integer as it is, a text that writes it, or both.
-/
def SameField {Whole Text : Type} (writes : Text → Whole → Prop)
    (legacy whole : Option Whole) : Option Text → Prop
  | none => whole = legacy
  | some text =>
      (whole = none ∨ whole = legacy) ∧ ∃ value ∈ legacy, writes text value

/-- The frame has no decimal strings. -/
structure Legacy (msg : OrderbookMsg) : Prop where
  yesDollars : msg.yesDollars = none
  noDollars : msg.noDollars = none
  priceDollars : msg.priceDollars = none
  deltaFp : msg.deltaFp = none

/-- A frame that writes the values of an integer frame, field by field. -/
structure SameFrame (legacy other : OrderbookMsg) : Prop where
  yes : SameField WritesRows legacy.yes other.yes other.yesDollars
  no : SameField WritesRows legacy.no other.no other.noDollars
  price : SameField WritesPrice legacy.price other.price other.priceDollars
  delta : SameField WritesSize legacy.delta other.delta other.deltaFp
  side : other.side = legacy.side

theorem SameField.isSome {Whole Text : Type} {writes : Text → Whole → Prop}
    {legacy whole : Option Whole} {text : Option Text}
    (same : SameField writes legacy whole text) :
    (whole.isSome || text.isSome) = legacy.isSome := by
  cases text with
  | none =>
      rw [SameField] at same
      simp [same]
  | some text =>
      rcases same with ⟨-, value, isLegacy, -⟩
      rw [Option.mem_def.mp isLegacy]
      simp

/-- Rows that write integer levels are parsed as these levels. -/
theorem filterMap_parseLevel {texts : List (String × String)}
    {rows : List (Int64 × Int64)} (writes : WritesRows texts rows)
    (fits : ∀ row ∈ rows,
      Fits (row.1.toInt * 100) ∧ Fits (row.2.toInt * 100)) :
    texts.filterMap OrderbookMsg.parseLevel =
      rows.map fun row => (centsToPrice row.1, wholeToQty row.2) := by
  unfold WritesRows at writes
  induction writes with
  | nil => rfl
  | @cons text row texts rows both _ ih =>
      have rowFits := fits row List.mem_cons_self
      have level : OrderbookMsg.parseLevel text =
          some (centsToPrice row.1, wholeToQty row.2) := by
        rw [OrderbookMsg.parseLevel, parseScaled_price both.1 rowFits.1,
          parseScaled_size both.2 rowFits.2]
        rfl
      rw [List.filterMap_cons, level, List.map_cons]
      rw [ih fun other member => fits other (List.mem_cons_of_mem row member)]

theorem levels_same {legacy whole : Option (List (Int64 × Int64))}
    {texts : Option (List (String × String))}
    (same : SameField WritesRows legacy whole texts)
    (scales : RowsScale legacy none) :
    OrderbookMsg.levels whole texts = OrderbookMsg.levels legacy none := by
  cases texts with
  | none =>
      rw [SameField] at same
      rw [same]
  | some texts =>
      rcases same with ⟨-, rows, isLegacy, writes⟩
      have parsed := filterMap_parseLevel writes (scales rfl rows isLegacy)
      rw [Option.mem_def.mp isLegacy]
      exact parsed

theorem deltaPrice_same {legacy other : OrderbookMsg} (old : Legacy legacy)
    (scales : DeltaScales legacy) (same : SameFrame legacy other) :
    other.deltaPrice = legacy.deltaPrice := by
  have field := same.price
  unfold OrderbookMsg.deltaPrice
  rw [old.priceDollars]
  cases text : other.priceDollars with
  | none =>
      rw [text, SameField] at field
      rw [field]
  | some text_ =>
      rw [text] at field
      rcases field with ⟨-, cents, isLegacy, writes⟩
      rw [Option.mem_def.mp isLegacy]
      exact parseScaled_price writes
        (scales.1 old.priceDollars cents isLegacy)

theorem deltaChange_same {legacy other : OrderbookMsg} (old : Legacy legacy)
    (scales : DeltaScales legacy) (same : SameFrame legacy other) :
    other.deltaChange = legacy.deltaChange := by
  have field := same.delta
  unfold OrderbookMsg.deltaChange
  rw [old.deltaFp]
  cases text : other.deltaFp with
  | none =>
      rw [text, SameField] at field
      rw [field]
  | some text_ =>
      rw [text] at field
      rcases field with ⟨-, contracts, isLegacy, writes⟩
      rw [Option.mem_def.mp isLegacy]
      exact parseScaled_size writes
        (scales.2 old.deltaFp contracts isLegacy)

/-- The two forms of a frame mean the same. -/
theorem forms_agree {legacy other : OrderbookMsg} (old : Legacy legacy)
    (levels : SnapshotScales legacy) (delta : DeltaScales legacy)
    (same : SameFrame legacy other) :
    other.isSnapshot = legacy.isSnapshot ∧
      other.snapshotLevels = legacy.snapshotLevels ∧
      other.deltaParts = legacy.deltaParts ∧
      ∀ (book : OrderBook) (seq : UInt64),
        book.applyMsg other seq = book.applyMsg legacy seq := by
  have snapshot : other.isSnapshot = legacy.isSnapshot := by
    have yes := same.yes.isSome
    have no := same.no.isSome
    unfold OrderbookMsg.isSnapshot
    rw [old.yesDollars, old.noDollars, ← yes, ← no]
    simp only [Option.isSome_none, Bool.or_false, Bool.or_assoc,
      Bool.or_left_comm]
  have sides : other.snapshotLevels = legacy.snapshotLevels := by
    have yes := levels.1
    have no := levels.2
    rw [old.yesDollars] at yes
    rw [old.noDollars] at no
    unfold OrderbookMsg.snapshotLevels
    rw [old.yesDollars, old.noDollars, levels_same same.yes yes,
      levels_same same.no no]
  have parts : other.deltaParts = legacy.deltaParts := by
    unfold OrderbookMsg.deltaParts
    rw [same.side, deltaPrice_same old delta same,
      deltaChange_same old delta same]
  refine ⟨snapshot, sides, parts, ?_⟩
  intro book seq
  unfold OrderBook.applyMsg
  rw [snapshot, sides, parts]

/-- A snapshot in cents and whole contracts. -/
def centsSnapshot : OrderbookMsg where
  marketTicker := "T"
  yes := some [(47, 120)]
  no := some [(51, 80)]
  yesDollars := none
  noDollars := none
  price := none
  delta := none
  priceDollars := none
  deltaFp := none
  side := none
  tsMs := none

/-- The same snapshot: yes in decimal strings, no in both forms. -/
def mixedSnapshot : OrderbookMsg where
  marketTicker := "T"
  yes := none
  no := some [(51, 80)]
  yesDollars := some [("0.470", "120.00")]
  noDollars := some [("0.51", "80")]
  price := none
  delta := none
  priceDollars := none
  deltaFp := none
  side := none
  tsMs := none

theorem sameFrame_mixedSnapshot : SameFrame centsSnapshot mixedSnapshot where
  yes := ⟨Or.inl rfl, _, rfl,
    .cons ⟨by decide +kernel, by decide +kernel⟩ .nil⟩
  no := ⟨Or.inr rfl, _, rfl,
    .cons ⟨by decide +kernel, by decide +kernel⟩ .nil⟩
  price := rfl
  delta := rfl
  side := rfl

theorem forms_agree_mixedSnapshot :
    mixedSnapshot.isSnapshot = centsSnapshot.isSnapshot ∧
      mixedSnapshot.snapshotLevels = centsSnapshot.snapshotLevels :=
  have agree := forms_agree ⟨rfl, rfl, rfl, rfl⟩
    (by decide +kernel : SnapshotScales centsSnapshot)
    (by decide +kernel) sameFrame_mixedSnapshot
  ⟨agree.1, agree.2.1⟩

end ChudMoney.Kalshi.Forms
