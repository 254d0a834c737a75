import ChudMoney.Kalshi.BookRuns
import ChudMoney.Kalshi.Exact
import ChudMoney.Kalshi.ParseScaled
import ChudMoney.Lib.Checked
import ChudMoney.Lib.Runs

/-!
# Orderbook arithmetic of a debug build

The functions of a book once more, with every `i64` operation checked as a
debug build checks it.  The decimal strings never overflow: their scaling is
checked by the program itself.  What can overflow is the scaling of the integer
forms and the size that a delta leaves at its level, and nothing else can where
these do not.
-/

namespace ChudMoney.Kalshi.Overflow

open ChudMoney.Kalshi.Book
open ChudMoney.Kalshi.BookRuns
open ChudMoney.Kalshi.Exact
open ChudMoney.Kalshi.ParseScaled
open ChudMoney.Lib.Checked
open ChudMoney.Lib.Decimals
open ChudMoney.Lib.Json
open ChudMoney.Lib.MachineInt
open ChudMoney.Lib.Runs
open ChudMoney.Lib.Text

/-! ## The functions of a debug build -/

def centsToPriceDebug (cents : Int64) : Debug Int64 := do
  mulDebug cents (← divDebug priceOne 100)

def wholeToQtyDebug (n : Int64) : Debug Int64 := do
  mulDebug n (← powDebug qtyScale)

/-- `parse_scaled`: `None`, or a panic. -/
def parseScaledDebug (s : String) (scale : Nat) : OptionT Option Int64 := do
  let s := trim s.toList
  let (neg, s) := match s with
    | '-' :: rest => (true, rest)
    | '+' :: rest => (false, rest)
    | s => (false, s)
  let (intPart, fracPart) := (splitOnce '.' s).getD (s, [])
  if intPart.isEmpty && fracPart.isEmpty then failure
  else if !intPart.all Char.isDigit || !fracPart.all Char.isDigit then failure
  else do
    let intV ← returned (parsePart intPart)
    let fracV ← returned (parsePart (scaledFraction scale fracPart))
    let unit ← executed (powDebug scale)
    let product ← returned (checkedMul intV unit)
    let v ← returned (checkedAdd product fracV)
    if neg then executed (negDebug v) else return v

def formatScaledDebug (v : Int64) (scale : Nat) : Debug String := do
  let div ← powDebug scale
  let sign := if v < 0 then ['-'] else []
  let v ← absDebug v
  let whole ← divDebug v div
  let fraction ← remDebug v div
  return String.ofList
    (sign ++ displayI64 whole ++ '.' :: displayPadded scale fraction)

/-- One decimal level; `None` when its price or its size does not parse. -/
def parseLevelDebug (level : String × String) :
    OptionT Option (Int64 × Int64) := do
  let price ← parseScaledDebug level.1 priceScale
  let size ← parseScaledDebug level.2 qtyScale
  return (price, size)

def levelsDebug (int : Option (List (Int64 × Int64)))
    (dec : Option (List (String × String))) : Debug Levels :=
  match dec, int with
  | some rows, _ => do
      let parsed ← rows.mapM fun row => (parseLevelDebug row).run
      return parsed.filterMap id
  | none, some rows =>
      rows.mapM fun row => do
        return (← centsToPriceDebug row.1, ← wholeToQtyDebug row.2)
  | none, none => some []

def deltaPriceDebug (msg : OrderbookMsg) : OptionT Option Int64 :=
  match msg.priceDollars, msg.price with
  | some s, _ => parseScaledDebug s priceScale
  | none, some c => executed (centsToPriceDebug c)
  | none, none => failure

def deltaChangeDebug (msg : OrderbookMsg) : OptionT Option Int64 :=
  match msg.deltaFp, msg.delta with
  | some s, _ => parseScaledDebug s qtyScale
  | none, some d => executed (wholeToQtyDebug d)
  | none, none => failure

def deltaPartsDebug (msg : OrderbookMsg) :
    OptionT Option (Side × Int64 × Int64) := do
  let side ← returned (msg.side.bind Side.parse)
  let price ← deltaPriceDebug msg
  let delta ← deltaChangeDebug msg
  return (side, price, delta)

/-- `apply_delta` on the side it names. -/
def addAtDebug (levels : PriceMap) (price delta : Int64) : Debug PriceMap := do
  let qty ← addDebug (levels.getD price 0) delta
  let levels := levels.insert price qty
  return if qty ≤ 0 then levels.erase price else levels

def applyDeltaDebug (book : OrderBook) (side : Side) (price delta : Int64)
    (seq : UInt64) : Debug OrderBook :=
  match side with
  | .yes => do
      return { book with yes := ← addAtDebug book.yes price delta, seq := seq }
  | .no => do
      return { book with no := ← addAtDebug book.no price delta, seq := seq }

def applyMsgDebug (book : OrderBook) (msg : OrderbookMsg) (seq : UInt64) :
    Debug (OrderBook × Bool) :=
  if msg.isSnapshot then do
    let yes ← levelsDebug msg.yes msg.yesDollars
    let no ← levelsDebug msg.no msg.noDollars
    return (book.snapshot yes no seq, true)
  else do
    match ← (deltaPartsDebug msg).run with
    | some (side, price, delta) =>
        return (← applyDeltaDebug book side price delta seq, true)
    | none => return (book, false)

def levelsJsonDebug (side : PriceMap) : Debug Value := do
  let rows ← side.toList.mapM fun level => do
    let price ← formatScaledDebug level.1 priceScale
    let size ← formatScaledDebug level.2 qtyScale
    return Value.array [.string price, .string size]
  return .array rows

def snapshotFrameDebug (book : OrderBook) (marketTicker : String) :
    Debug Value := do
  let yes ← levelsJsonDebug book.yes
  let no ← levelsJsonDebug book.no
  return .object [
    ("type", .string "orderbook_snapshot"),
    ("sid", .number (.posInt 0)),
    ("seq", .number (.posInt book.seq)),
    ("msg", .object [
      ("market_ticker", .string marketTicker),
      ("yes_dollars", yes),
      ("no_dollars", no)])]

/-! ## Numbers -/

theorem computes_pow {exponent : Nat} (small : exponent ≤ 18) :
    Computes (powDebug exponent) True (pow10 exponent) := by
  have power := toInt_pow10 small
  have fits : Fits ((10 : Int) ^ exponent) := by
    have bounds := fits_toInt (pow10 exponent)
    rw [power] at bounds
    exact_mod_cast bounds
  apply Computes.congr (computes_checked fun _ => ?_) (iff_true_intro fits)
  rw [power]
  push_cast
  rfl

theorem computes_centsToPrice (cents : Int64) :
    Computes (centsToPriceDebug cents) (Fits (cents.toInt * 100))
      (centsToPrice cents) := by
  have scale : (priceOne / 100).toInt = 100 := by decide
  have product := @computes_mul cents (priceOne / 100)
  rw [scale] at product
  exact Computes.congr
    (Computes.bind (computes_div (by decide)) fun _ => product)
    (by rw [true_and])

theorem computes_wholeToQty (n : Int64) :
    Computes (wholeToQtyDebug n) (Fits (n.toInt * 100)) (wholeToQty n) := by
  have scale : (pow10 qtyScale).toInt = 100 := by decide
  have product := @computes_mul n (pow10 qtyScale)
  rw [scale] at product
  exact Computes.congr
    (Computes.bind (computes_pow (by decide)) fun _ => product)
    (by rw [true_and])

/-- What `parseScaledDebug` makes of the digits around the point. -/
def parsePartsDebug (scale : Nat) (whole places : List Char) (neg : Bool) :
    OptionT Option Int64 := do
  let intV ← returned (parsePart whole)
  let fracV ← returned (parsePart (scaledFraction scale places))
  let unit ← executed (powDebug scale)
  let product ← returned (checkedMul intV unit)
  let v ← returned (checkedAdd product fracV)
  if neg then executed (negDebug v) else return v

/-- Past the checks a decimal text is scaled without an overflow. -/
theorem computes_parseParts {scale : Nat} (small : scale ≤ 18)
    (whole places : List Char) (neg : Bool) :
    Computes (parsePartsDebug scale whole places neg).run True
      (parseParts scale whole places neg) := by
  have last : ∀ v : Int64, Computes
      (if neg then executed (negDebug v) else return v :
        OptionT Option Int64).run
      (neg = true → Fits (-v.toInt)) (some (if neg then -v else v)) := by
    intro v
    cases neg with
    | true => exact (computes_executed computes_neg).congr (by simp)
    | false => exact (computes_pure (some v)).congr (by simp)
  have steps := computes_bind (computes_returned (parsePart whole))
    fun intV isWhole =>
      computes_bind
        (computes_returned (parsePart (scaledFraction scale places)))
        fun fracV isPlaces =>
          computes_bind (computes_executed (computes_pow small))
            fun unit isUnit =>
              computes_bind (computes_returned (checkedMul intV unit))
                fun product isProduct =>
                  computes_bind (computes_returned (checkedAdd product fracV))
                    fun v isSum => last v
  refine Computes.congr steps (iff_true_intro ⟨trivial, ?_⟩)
  intro intV isWhole
  refine ⟨trivial, fun fracV isPlaces => ⟨trivial, fun unit isUnit =>
    ⟨trivial, fun product isProduct => ⟨trivial, fun v isSum _ => ?_⟩⟩⟩⟩
  rw [parsePart_eq, checked_eq_some_iff] at isWhole isPlaces
  cases isUnit
  have product_ := checked_eq_some_iff.mp isProduct
  have sum := checked_eq_some_iff.mp isSum
  have bound := fits_toInt v
  have nonneg : 0 ≤ product.toInt := by
    rw [product_, isWhole, toInt_pow10 small]
    positivity
  constructor <;> omega

theorem parseScaledDebug_parts (s : String) (scale : Nat) :
    parseScaledDebug s scale =
      (ofText (trim s.toList)).elim failure fun decimal =>
        parsePartsDebug scale decimal.whole decimal.places decimal.negative := by
  unfold parseScaledDebug
  generalize trim s.toList = text
  dsimp only
  split
  all_goals simp only [split_eq]
  next rest =>
    exact guarded_parts failure (parsePartsDebug scale) true
      (rfl : takeSign ('-' :: rest) = _) (by decide)
  next rest =>
    exact guarded_parts failure (parsePartsDebug scale) false
      (rfl : takeSign ('+' :: rest) = _) (by decide)
  next minus plus =>
    exact guarded_parts failure (parsePartsDebug scale) false
      (takeSign_of_unsigned minus plus) (by decide)

/-- A decimal text is parsed without an overflow. -/
theorem computes_parseScaled (s : String) {scale : Nat} (small : scale ≤ 18) :
    Computes (parseScaledDebug s scale).run True (parseScaled s scale) := by
  rw [parseScaledDebug_parts, parseScaled_parts]
  cases ofText (trim s.toList) with
  | none => exact computes_failure
  | some decimal =>
      exact computes_parseParts small decimal.whole decimal.places
        decimal.negative

theorem computes_formatScaled (v : Int64) {scale : Nat} (small : scale ≤ 18) :
    Computes (formatScaledDebug v scale) (v ≠ Int64.minValue)
      (formatScaled v scale) := by
  have positive : 0 < (pow10 scale).toInt := by
    rw [toInt_pow10 small]
    positivity
  unfold formatScaledDebug formatScaled
  refine Computes.congr (Computes.bind (computes_pow small) fun _ =>
    Computes.bind computes_abs fun _ =>
      Computes.bind (computes_div positive) fun _ =>
        Computes.bind (computes_rem positive) fun _ => computes_pure _) ?_
  simp

/-! ## Messages -/

theorem computes_parseLevel (level : String × String) :
    Computes (parseLevelDebug level).run True
      (OrderbookMsg.parseLevel level) := by
  have steps := computes_bind
    (computes_parseScaled level.1 (by decide : priceScale ≤ 18))
    fun price _ => computes_bind
      (computes_parseScaled level.2 (by decide : qtyScale ≤ 18))
      fun size _ => computes_pure (some (price, size))
  exact Computes.congr steps (by simp)

theorem computes_levels (int : Option (List (Int64 × Int64)))
    (dec : Option (List (String × String))) :
    Computes (levelsDebug int dec) (RowsScale int dec)
      (OrderbookMsg.levels int dec) := by
  cases dec with
  | some rows =>
      have kept : (rows.map OrderbookMsg.parseLevel).filterMap id =
          OrderbookMsg.levels int (some rows) := by
        rw [List.filterMap_map]
        rfl
      rw [← kept]
      unfold levelsDebug
      refine Computes.congr (Computes.bind
        (computes_mapM fun row _ => computes_parseLevel row)
        fun _ => computes_pure _) ?_
      simp [RowsScale]
  | none =>
      cases int with
      | none => exact (computes_pure []).congr (by simp [RowsScale])
      | some rows =>
          unfold levelsDebug
          refine Computes.congr (computes_mapM fun row _ =>
            Computes.bind (computes_centsToPrice row.1) fun _ =>
              Computes.bind (computes_wholeToQty row.2) fun _ =>
                computes_pure _) ?_
          simp [RowsScale]

/-- The integer price of a delta, where it is read, scales. -/
def PriceScales (msg : OrderbookMsg) : Prop :=
  msg.priceDollars = none → ∀ c ∈ msg.price, Fits (c.toInt * 100)

/-- The integer change of a delta, where it is read, scales. -/
def ChangeScales (msg : OrderbookMsg) : Prop :=
  msg.deltaFp = none → ∀ d ∈ msg.delta, Fits (d.toInt * 100)

theorem computes_deltaPrice (msg : OrderbookMsg) :
    Computes (deltaPriceDebug msg).run (PriceScales msg) msg.deltaPrice := by
  unfold deltaPriceDebug OrderbookMsg.deltaPrice PriceScales
  cases msg.priceDollars with
  | some s =>
      exact (computes_parseScaled s (by decide)).congr (by simp)
  | none =>
      cases msg.price with
      | some c =>
          exact (computes_executed (computes_centsToPrice c)).congr (by simp)
      | none => exact computes_failure.congr (by simp)

theorem computes_deltaChange (msg : OrderbookMsg) :
    Computes (deltaChangeDebug msg).run (ChangeScales msg)
      msg.deltaChange := by
  unfold deltaChangeDebug OrderbookMsg.deltaChange ChangeScales
  cases msg.deltaFp with
  | some s =>
      exact (computes_parseScaled s (by decide)).congr (by simp)
  | none =>
      cases msg.delta with
      | some d =>
          exact (computes_executed (computes_wholeToQty d)).congr (by simp)
      | none => exact computes_failure.congr (by simp)

/-- A delta is read side first, then its price, then its change. -/
def DeltaReads (msg : OrderbookMsg) : Prop :=
  ∀ side, msg.side.bind Side.parse = some side →
    PriceScales msg ∧ (msg.deltaPrice.isSome = true → ChangeScales msg)

theorem computes_deltaParts (msg : OrderbookMsg) :
    Computes (deltaPartsDebug msg).run (DeltaReads msg) msg.deltaParts := by
  have same : msg.deltaParts =
      (msg.side.bind Side.parse).bind fun side =>
        msg.deltaPrice.bind fun price =>
          msg.deltaChange.bind fun delta => some (side, price, delta) := by
    unfold OrderbookMsg.deltaParts
    cases msg.side <;> rfl
  rw [same]
  unfold deltaPartsDebug
  refine Computes.congr (computes_bind (computes_returned _) fun side _ =>
    computes_bind (computes_deltaPrice msg) fun price _ =>
      computes_bind (computes_deltaChange msg) fun delta _ =>
        computes_pure _) ?_
  simp only [DeltaReads, true_and, implies_true, and_true,
    Option.isSome_iff_exists, forall_exists_index]

/-! ## Books -/

/-- The size that a delta leaves at its level fits. -/
def SizeFits (book : OrderBook) (parts : Side × Int64 × Int64) : Prop :=
  Fits (((book.side parts.1).getD parts.2.1 0).toInt + parts.2.2.toInt)

theorem computes_addAt (levels : PriceMap) (price delta : Int64) :
    Computes (addAtDebug levels price delta)
      (Fits ((levels.getD price 0).toInt + delta.toInt))
      (OrderBook.addAt levels price delta) := by
  unfold addAtDebug OrderBook.addAt
  refine Computes.congr (Computes.bind computes_add fun _ =>
    computes_pure _) ?_
  rw [and_true]

theorem computes_applyDelta (book : OrderBook) (side : Side)
    (price delta : Int64) (seq : UInt64) :
    Computes (applyDeltaDebug book side price delta seq)
      (SizeFits book (side, price, delta))
      (book.applyDelta side price delta seq) := by
  cases side with
  | yes =>
      exact Computes.congr (Computes.bind (computes_addAt book.yes price delta)
        fun _ => computes_pure _) (by rw [and_true]; rfl)
  | no =>
      exact Computes.congr (Computes.bind (computes_addAt book.no price delta)
        fun _ => computes_pure _) (by rw [and_true]; rfl)

/-- Nothing overflows when the message is applied to the book. -/
structure StepFits (book : OrderBook) (msg : OrderbookMsg) : Prop where
  snapshot : msg.isSnapshot = true → SnapshotScales msg
  delta : msg.isSnapshot = false → DeltaReads msg
  size : msg.isSnapshot = false → ∀ parts, msg.deltaParts = some parts →
    SizeFits book parts

theorem computes_applyMsg (book : OrderBook) (msg : OrderbookMsg)
    (seq : UInt64) :
    Computes (applyMsgDebug book msg seq) (StepFits book msg)
      (book.applyMsg msg seq) := by
  unfold applyMsgDebug OrderBook.applyMsg
  by_cases shape : msg.isSnapshot = true
  · have isSnapshot : StepFits book msg ↔ SnapshotScales msg := by
      constructor
      · exact fun fits => fits.snapshot shape
      · intro scales
        constructor
        · exact fun _ => scales
        · exact fun other => absurd (shape.symm.trans other) (by decide)
        · exact fun other => absurd (shape.symm.trans other) (by decide)
    rw [if_pos shape, if_pos shape]
    refine Computes.congr (Computes.bind (computes_levels _ _) fun _ =>
      Computes.bind (computes_levels _ _) fun _ => computes_pure _) ?_
    rw [isSnapshot, and_true, SnapshotScales]
  · have isDelta : StepFits book msg ↔ DeltaReads msg ∧
        ∀ parts, msg.deltaParts = some parts → SizeFits book parts := by
      have other := Bool.eq_false_of_not_eq_true shape
      constructor
      · exact fun fits => ⟨fits.delta other, fits.size other⟩
      · rintro ⟨reads, size⟩
        exact ⟨fun same => absurd same shape, fun _ => reads, fun _ => size⟩
    rw [if_neg shape, if_neg shape]
    refine Computes.congr (Computes.bind (computes_deltaParts msg)
      fun _ => ?_) isDelta.symm
    cases msg.deltaParts with
    | some parts =>
        rcases parts with ⟨side, price, delta⟩
        refine Computes.congr (Computes.bind
          (computes_applyDelta book side price delta seq)
          fun _ => computes_pure _) ?_
        simp
    | none => exact (computes_pure _).congr (by simp)

theorem computes_levelsJson (side : PriceMap) :
    Computes (levelsJsonDebug side)
      (∀ level ∈ side.toList,
        level.1 ≠ Int64.minValue ∧ level.2 ≠ Int64.minValue)
      (OrderBook.levelsJson side) := by
  unfold levelsJsonDebug OrderBook.levelsJson
  refine Computes.congr (Computes.bind (computes_mapM fun level _ =>
    Computes.bind (computes_formatScaled level.1 (by decide)) fun _ =>
      Computes.bind (computes_formatScaled level.2 (by decide)) fun _ =>
        computes_pure _) fun _ => computes_pure _) ?_
  simp only [and_true]

theorem Positive.ne_minValue {size : Int64} (positive : 0 < size) :
    size ≠ Int64.minValue := by
  rintro rfl
  exact absurd positive (by decide)

/-- The frame of a book that can be written is written without an overflow. -/
theorem snapshotFrameDebug_of_printable {book : OrderBook}
    (printable : book.Printable) (marketTicker : String) :
    (snapshotFrameDebug book marketTicker).isSome = true := by
  have sides : ∀ side, ∀ level ∈ (book.side side).toList,
      level.1 ≠ Int64.minValue ∧ level.2 ≠ Int64.minValue := by
    intro side level member
    have kept := printable.side side level member
    exact ⟨kept.price, Positive.ne_minValue kept.size⟩
  have yes := (computes_levelsJson book.yes).value (sides .yes)
  have no := (computes_levelsJson book.no).value (sides .no)
  unfold snapshotFrameDebug
  rw [yes, no]
  rfl

theorem ne_minValue_of_parseScaled {s : String} {scale : Nat}
    (small : scale ≤ 18) {v : Int64} (parsed : parseScaled s scale = some v) :
    v ≠ Int64.minValue := by
  rw [parseScaled_eq s small] at parsed
  rcases Option.bind_eq_some_iff.mp parsed with ⟨decimal, isRead, -⟩
  rw [← parseScaled_eq s small,
    parseScaled_text small (ofText_eq_some_iff.mp isRead)] at parsed
  rintro rfl
  have greatest : Int64.maxValue.toInt = 2 ^ 63 - 1 := by decide
  have least : Int64.minValue.toInt = -2 ^ 63 := by decide
  rw [greatest, least] at parsed
  unfold Decimal.signum at parsed
  split at parsed <;> omega

theorem ne_minValue_centsToPrice {cents : Int64}
    (fits : Fits (cents.toInt * 100)) :
    centsToPrice cents ≠ Int64.minValue := by
  intro least
  have scaled := toInt_centsToPrice fits
  have isLeast : Int64.minValue.toInt = -2 ^ 63 := by decide
  rw [least, isLeast] at scaled
  omega

theorem priced_levels {int : Option (List (Int64 × Int64))}
    {dec : Option (List (String × String))} (scales : RowsScale int dec) :
    ∀ level ∈ OrderbookMsg.levels int dec, level.1 ≠ Int64.minValue := by
  intro level member
  cases dec with
  | some rows =>
      rcases List.mem_filterMap.mp member with ⟨row, -, parsed⟩
      unfold OrderbookMsg.parseLevel at parsed
      rcases Option.bind_eq_some_iff.mp parsed with ⟨price, isPrice, rest⟩
      rcases Option.bind_eq_some_iff.mp rest with ⟨size, -, same⟩
      cases same
      exact ne_minValue_of_parseScaled (by decide) isPrice
  | none =>
      cases int with
      | none => exact absurd member List.not_mem_nil
      | some rows =>
          rcases List.mem_map.mp member with ⟨row, isRow, rfl⟩
          exact ne_minValue_centsToPrice (scales rfl rows rfl row isRow).1

theorem priced_deltaPrice {msg : OrderbookMsg} (scales : PriceScales msg)
    {price : Int64} (isPrice : msg.deltaPrice = some price) :
    price ≠ Int64.minValue := by
  unfold OrderbookMsg.deltaPrice at isPrice
  unfold PriceScales at scales
  cases text : msg.priceDollars with
  | some s =>
      rw [text] at isPrice
      exact ne_minValue_of_parseScaled (by decide) isPrice
  | none =>
      cases cents : msg.price with
      | none =>
          rw [text, cents] at isPrice
          cases isPrice
      | some c =>
          rw [text, cents] at isPrice
          cases isPrice
          exact ne_minValue_centsToPrice (scales text c cents)

/-- A message that overflows nowhere leaves a book that can be written. -/
theorem StepFits.printable {book : OrderBook} {msg : OrderbookMsg}
    (fits : StepFits book msg) (printable : book.Printable) (seq : UInt64) :
    (book.applyMsg msg seq).1.Printable := by
  cases shape : msg.isSnapshot with
  | true =>
      have scales := fits.snapshot shape
      rw [OrderBook.applyMsg_of_isSnapshot shape]
      exact book.printable_snapshot (priced_levels scales.1)
        (priced_levels scales.2) seq
  | false =>
      cases parts : msg.deltaParts with
      | none =>
          rw [OrderBook.applyMsg, shape, parts]
          exact printable
      | some delta =>
          rcases delta with ⟨side, price, change⟩
          rw [OrderBook.applyMsg_of_deltaParts shape parts]
          apply printable.applyDelta
          unfold OrderbookMsg.deltaParts at parts
          rcases Option.bind_eq_some_iff.mp parts with ⟨text, isText, rest⟩
          rcases Option.bind_eq_some_iff.mp rest with ⟨other, isSide, rest⟩
          rcases Option.bind_eq_some_iff.mp rest with ⟨first, isPrice, rest⟩
          rcases Option.bind_eq_some_iff.mp rest with ⟨second, -, same⟩
          cases same
          have reads := fits.delta shape side (by rw [isText]; exact isSide)
          exact priced_deltaPrice reads.1 isPrice

/-! ## Runs -/

/-- The messages of a session applied by a debug build. -/
def applyMsgsDebug (book : OrderBook) (frames : Frames) : Debug OrderBook :=
  frames.foldlM
    (fun book frame => (applyMsgDebug book frame.1 frame.2).map Prod.fst) book

/-- Every message of the session fits the book it meets. -/
def AllFit (frames : Frames) : Prop :=
  ∀ past msg seq, past ++ [(msg, seq)] <+: frames →
    StepFits (applyMsgs OrderBook.default past) msg

/--
No message of the session overflows, and neither does a snapshot frame of the
book after any of them.
-/
def OverflowFree (frames : Frames) : Prop :=
  ∀ past, past <+: frames →
    ∃ book, applyMsgsDebug OrderBook.default past = some book ∧
      ∀ marketTicker, (snapshotFrameDebug book marketTicker).isSome = true

theorem allFit_concat {frames : Frames} {msg : OrderbookMsg} {seq : UInt64} :
    AllFit (frames ++ [(msg, seq)]) ↔
      AllFit frames ∧ StepFits (applyMsgs OrderBook.default frames) msg := by
  constructor
  · intro fits
    exact ⟨fun past msg seq before =>
      fits past msg seq (before.trans (List.prefix_append _ _)),
      fits frames msg seq (List.prefix_refl _)⟩
  · rintro ⟨fits, last⟩ past other number before
    rcases List.prefix_concat_iff.mp before with same | earlier
    · rcases List.append_inj' same rfl with ⟨rfl, tail⟩
      cases tail
      exact last
    · exact fits past other number earlier

theorem AllFit.printable {frames : Frames} (fits : AllFit frames) :
    (applyMsgs OrderBook.default frames).Printable := by
  induction frames using List.reverseRecOn with
  | nil => exact printable_default
  | append_singleton frames frame ih =>
      rcases frame with ⟨msg, seq⟩
      rcases allFit_concat.mp fits with ⟨before, last⟩
      rw [applyMsgs_concat]
      exact last.printable (ih before) seq

/-- A debug build applies the messages that fit, and panics at one that not. -/
theorem computes_applyMsgs (frames : Frames) :
    Computes (applyMsgsDebug OrderBook.default frames) (AllFit frames)
      (applyMsgs OrderBook.default frames) := by
  induction frames using List.reverseRecOn with
  | nil =>
      refine Computes.congr (computes_pure OrderBook.default)
        (iff_of_true trivial ?_)
      intro past msg seq before
      exact absurd (List.prefix_nil.mp before) (by simp)
  | append_singleton frames frame ih =>
      rcases frame with ⟨msg, seq⟩
      rw [applyMsgs_concat]
      unfold applyMsgsDebug at ih ⊢
      rw [List.foldlM_append]
      refine Computes.congr (Computes.bind ih fun _ =>
        Computes.bind ((computes_applyMsg _ msg seq).map Prod.fst) fun _ =>
          computes_pure _) ?_
      rw [allFit_concat, and_true]

/--
Orderbook arithmetic overflows nowhere in a session iff every message fits the
book it meets.
-/
theorem overflowFree_iff (frames : Frames) :
    OverflowFree frames ↔ AllFit frames := by
  constructor
  · intro free
    rcases free frames (List.prefix_refl _) with ⟨book, computed, -⟩
    exact (computes_applyMsgs frames).fits (by rw [computed]; rfl)
  · intro fits past before
    have earlier : AllFit past :=
      fun first msg seq isPrefix => fits first msg seq (isPrefix.trans before)
    refine ⟨_, (computes_applyMsgs past).value earlier, ?_⟩
    exact snapshotFrameDebug_of_printable earlier.printable

/-- A delta whose price in cents is an `i64`, but not in units of $0.0001. -/
def hugePrice : OrderbookMsg where
  marketTicker := "T"
  yes := none
  no := none
  yesDollars := none
  noDollars := none
  price := some 92233720368547759
  delta := some 1
  priceDollars := none
  deltaFp := none
  side := some "yes"
  tsMs := none

theorem not_overflowFree_hugePrice : ¬ OverflowFree [(hugePrice, 1)] := by
  intro free
  rcases free _ (List.prefix_refl _) with ⟨book, computed, -⟩
  have panics : applyMsgsDebug OrderBook.default [(hugePrice, 1)] = none := by
    decide +kernel
  rw [panics] at computed
  cases computed

end ChudMoney.Kalshi.Overflow
