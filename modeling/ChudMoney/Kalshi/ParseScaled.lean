import ChudMoney.Kalshi.FixedPoint
import ChudMoney.Lib.Decimals

/-!
# The decimal parser computes truncated fixed point

`parseScaled` splits a text at its sign and its first point, checks digits and
has three places where it can overflow.  Together they come to this: the text
is a decimal number, its units are an `i64`, and they are what is returned,
under the number's sign.
-/

namespace ChudMoney.Kalshi.ParseScaled

open ChudMoney.Kalshi.Book
open ChudMoney.Lib.Decimals
open ChudMoney.Lib.MachineInt
open ChudMoney.Lib.Text

/-! ## The parts of a number -/

theorem parsePart_eq (digits : List Char) :
    parsePart digits = checked (digitsValue digits) := by
  cases digits with
  | nil =>
      have zero : checked (digitsValue []) = some 0 :=
        checked_eq_some_iff.mpr (by simp [digitsValue])
      rw [zero]
      rfl
  | cons c rest => rw [parsePart, if_neg (by simp), parseDigits]

/-- What `parseScaled` makes of the digits around the point, and the sign. -/
def parseParts (scale : Nat) (whole places : List Char) (negative : Bool) :
    Option Int64 := do
  let intV ← parsePart whole
  let fracV ← parsePart (scaledFraction scale places)
  let v ← checkedAdd (← checkedMul intV (pow10 scale)) fracV
  return if negative then -v else v

/-- The three checks of the parts check their units. -/
theorem parseParts_eq {scale : Nat} (small : scale ≤ 18) (whole : List Char)
    {places : List Char} (digits : Digits places) (negative : Bool) :
    parseParts scale whole places negative =
      (checked ((digitsValue whole * 10 ^ scale +
        digitsValue places * 10 ^ scale / 10 ^ places.length : Nat) : Int)).map
          fun v => if negative then -v else v := by
  have below : digitsValue places * 10 ^ scale / 10 ^ places.length <
      10 ^ scale := by
    rw [Nat.div_lt_iff_lt_mul (Nat.pow_pos (by decide)), Nat.mul_comm]
    exact Nat.mul_lt_mul_of_pos_left (digitsValue_lt digits)
      (Nat.pow_pos (by decide))
  have power : (pow10 scale).toInt = ((10 ^ scale : Nat) : Int) :=
    toInt_pow10 small
  have bound : 10 ^ scale ≤ 10 ^ 18 := Nat.pow_le_pow_right (by decide) small
  have positive : 0 < 10 ^ scale := Nat.pow_pos (by decide)
  rw [parseParts, parsePart_eq, parsePart_eq, scaledFraction,
    digitsValue_fill digits]
  generalize digitsValue places * 10 ^ scale / 10 ^ places.length = fraction
    at below ⊢
  generalize digitsValue whole = whole
  generalize 10 ^ scale = unit at power below bound positive ⊢
  ext v
  simp only [Option.bind_eq_bind, Option.bind_eq_some_iff, Option.pure_def,
    Option.some.injEq, Option.map_eq_some_iff, checkedAdd, checkedMul,
    checked_eq_some_iff, power]
  constructor
  · rintro ⟨intV, isWhole, fracV, isFraction, product, isProduct, sum, isSum,
      rfl⟩
    refine ⟨sum, ?_, rfl⟩
    rw [isSum, isProduct, isWhole, isFraction]
    push_cast
    rfl
  · rintro ⟨sum, isSum, rfl⟩
    have sumBound := (fits_toInt sum).2
    have wholeLe : whole ≤ whole * unit := Nat.le_mul_of_pos_right _ positive
    have wholeFits : Fits (whole : Int) := by constructor <;> omega
    have productFits : Fits ((whole * unit : Nat) : Int) := by
      constructor <;> omega
    have fractionFits : Fits (fraction : Int) := by constructor <;> omega
    refine ⟨_, toInt_ofInt_of_fits wholeFits, _,
      toInt_ofInt_of_fits fractionFits, Int64.ofInt (whole * unit : Nat), ?_,
      sum, ?_, rfl⟩
    · rw [toInt_ofInt_of_fits productFits, toInt_ofInt_of_fits wholeFits]
      push_cast
      rfl
    · rw [toInt_ofInt_of_fits productFits, toInt_ofInt_of_fits fractionFits,
        isSum]
      push_cast
      rfl

/-! ## What is parsed -/

theorem split_eq (text : List Char) :
    (splitOnce '.' text).getD (text, []) =
      ((takeWhole text).1, (takeWhole text).2.getD []) := by
  unfold takeWhole
  cases splitOnce '.' text <;> rfl

/-- The two checks of `parseScaled` refuse what is not shaped like a number. -/
theorem shaped_iff (whole : List Char) (fraction : Option (List Char)) :
    Shaped whole fraction ↔
      ¬ (whole.isEmpty && (fraction.getD []).isEmpty) = true ∧
        ¬ (!whole.all Char.isDigit || !(fraction.getD []).all Char.isDigit) =
          true := by
  have kept : (!whole.all Char.isDigit ||
      !(fraction.getD []).all Char.isDigit) = true ↔
        ¬ (Digits whole ∧ Digits (fraction.getD [])) := by
    rw [← Bool.not_and, Bool.not_eq_true', ← Bool.not_eq_true,
      Bool.and_eq_true, List.all_eq_true, List.all_eq_true]
    rfl
  rw [kept, not_not, Bool.and_eq_true, List.isEmpty_iff, List.isEmpty_iff]
  unfold Shaped
  cases fraction with
  | none =>
      have empty : Digits [] := fun c member => absurd member List.not_mem_nil
      simp [empty, and_comm]
  | some digits =>
      simp only [Option.getD_some, Option.mem_some_iff]
      simp
      tauto

/-- The checks leave only the parts of a number to `read`. -/
theorem guarded_parts {Result : Type} (refused : Result)
    (read : List Char → List Char → Bool → Result) (neg : Bool)
    {text sign body : List Char} (split : takeSign text = (sign, body))
    (isSign : neg = decide (sign = ['-'])) :
    (if ((takeWhole body).1.isEmpty &&
          ((takeWhole body).2.getD []).isEmpty) = true then refused
      else if (!(takeWhole body).1.all Char.isDigit ||
          !((takeWhole body).2.getD []).all Char.isDigit) = true then refused
      else read (takeWhole body).1 ((takeWhole body).2.getD []) neg) =
      (ofText text).elim refused fun decimal =>
        read decimal.whole decimal.places decimal.negative := by
  have isShaped := shaped_iff (takeWhole body).1 (takeWhole body).2
  unfold ofText
  simp only [split]
  by_cases shaped : Shaped (takeWhole body).1 (takeWhole body).2
  · have checks := isShaped.mp shaped
    rw [if_neg checks.1, if_neg checks.2, dif_pos shaped, isSign]
    rfl
  · have refuses := mt isShaped.mpr shaped
    rw [dif_neg shaped, Option.elim_none]
    by_cases nothing : ((takeWhole body).1.isEmpty &&
        ((takeWhole body).2.getD []).isEmpty) = true
    · rw [if_pos nothing]
    · rw [if_neg nothing, if_pos (not_not.mp fun letters =>
        refuses ⟨nothing, letters⟩)]

theorem takeSign_of_unsigned {text : List Char}
    (minus : ∀ rest, text = '-' :: rest → False)
    (plus : ∀ rest, text = '+' :: rest → False) :
    takeSign text = ([], text) := by
  unfold takeSign
  split
  next rest => exact (minus rest rfl).elim
  next rest => exact (plus rest rfl).elim
  next => rfl

/-- The text that is parsed is one decimal number, or none. -/
theorem parseScaled_parts (s : String) (scale : Nat) :
    parseScaled s scale =
      (ofText (trim s.toList)).elim none fun decimal =>
        parseParts scale decimal.whole decimal.places decimal.negative := by
  unfold parseScaled
  generalize trim s.toList = text
  dsimp only
  split
  all_goals simp only [split_eq, Option.bind_eq_bind, Option.bind_none]
  next rest =>
    exact guarded_parts none (parseParts scale) true
      (rfl : takeSign ('-' :: rest) = _) (by decide)
  next rest =>
    exact guarded_parts none (parseParts scale) false
      (rfl : takeSign ('+' :: rest) = _) (by decide)
  next minus plus =>
    exact guarded_parts none (parseParts scale) false
      (takeSign_of_unsigned minus plus) (by decide)

/-- A text is parsed as the units of the number it writes. -/
theorem parseScaled_eq (s : String) {scale : Nat} (small : scale ≤ 18) :
    parseScaled s scale =
      (ofText (trim s.toList)).bind fun decimal =>
        (checked (decimal.units scale)).map fun v =>
          if decimal.negative then -v else v := by
  rw [parseScaled_parts]
  cases ofText (trim s.toList) with
  | none => rfl
  | some decimal =>
      rw [Option.elim_some, Option.bind_some]
      exact parseParts_eq small decimal.whole decimal.placesDigits
        decimal.negative

/-- A number whose units fit is parsed as its units, under its sign. -/
theorem parseScaled_text {s : String} {scale : Nat} (small : scale ≤ 18)
    {decimal : Decimal} (isText : decimal.text = trim s.toList) {v : Int64} :
    parseScaled s scale = some v ↔
      (decimal.units scale : Int) ≤ Int64.maxValue.toInt ∧
        v.toInt = decimal.signum * decimal.units scale := by
  have greatest : Int64.maxValue.toInt = 2 ^ 63 - 1 := by decide
  rw [parseScaled_eq s small, ofText_eq_some_iff.mpr isText, Option.bind_some,
    Option.map_eq_some_iff, greatest]
  unfold Decimal.signum
  generalize decimal.units scale = units
  constructor
  · rintro ⟨sum, isSum, rfl⟩
    have isUnits := checked_eq_some_iff.mp isSum
    have bound := fits_toInt sum
    refine ⟨by omega, ?_⟩
    split
    · rw [Int64.toInt_neg, isUnits, Int.bmod_eq_of_le (by omega) (by omega)]
      omega
    · rw [isUnits, Int.one_mul]
  · rintro ⟨bound, isSigned⟩
    have fits : Fits (units : Int) := by constructor <;> omega
    have isUnits := toInt_ofInt_of_fits fits
    refine ⟨Int64.ofInt units, checked_eq_some_iff.mpr isUnits, ?_⟩
    apply Int64.toInt_inj.mp
    rw [isSigned]
    split
    · rw [Int64.toInt_neg, isUnits, Int.bmod_eq_of_le (by omega) (by omega)]
      omega
    · rw [isUnits, Int.one_mul]

/--
A text is parsed iff it is a decimal number whose value, scaled and cut off,
fits; and the result is that value.
-/
theorem parseScaled_exact (s : String) {scale : Nat} (small : scale ≤ 18) :
    ((parseScaled s scale).isSome = true ↔
      ∃ decimal : Decimal, decimal.text = trim s.toList ∧
        ⌊|decimal.value| * 10 ^ scale⌋ ≤ Int64.maxValue.toInt) ∧
    ∀ (decimal : Decimal) (v : Int64), decimal.text = trim s.toList →
      parseScaled s scale = some v →
        v.toInt = decimal.signum * ⌊|decimal.value| * 10 ^ scale⌋ ∧
          v.toInt = Decimal.towardZero (decimal.value * 10 ^ scale) := by
  constructor
  · constructor
    · intro parsed
      rcases Option.isSome_iff_exists.mp parsed with ⟨v, isParsed⟩
      have read := parseScaled_eq s small
      rw [isParsed] at read
      rcases Option.bind_eq_some_iff.mp read.symm with ⟨decimal, isRead, -⟩
      have isText := ofText_eq_some_iff.mp isRead
      refine ⟨decimal, isText, ?_⟩
      rw [decimal.floor_value]
      exact ((parseScaled_text small isText).mp isParsed).1
    · rintro ⟨decimal, isText, bound⟩
      rw [decimal.floor_value] at bound
      have least : -2 ^ 63 ≤ decimal.signum * (decimal.units scale : Int) ∧
          decimal.signum * (decimal.units scale : Int) < 2 ^ 63 := by
        have greatest : Int64.maxValue.toInt = 2 ^ 63 - 1 := by decide
        unfold Decimal.signum
        split <;> omega
      have parsed := (parseScaled_text small isText).mpr
        ⟨bound, toInt_ofInt_of_fits least⟩
      rw [parsed]
      rfl
  · intro decimal v isText parsed
    have exact_ := ((parseScaled_text small isText).mp parsed).2
    rw [← decimal.signum_mul_floor, decimal.floor_value]
    exact ⟨exact_, exact_⟩

/-- `-232.219`. -/
def cutNumber : Decimal where
  sign := ['-']
  whole := ['2', '3', '2']
  fraction := some ['2', '1', '9']
  isSign := Or.inr (Or.inr rfl)
  wholeDigits := by decide
  fractionDigits := by
    rintro digits ⟨⟩
    decide
  nonempty := Or.inl (by decide)

/-- Extra digits are cut off toward zero. -/
theorem parseScaled_exact_cut :
    (-23221 : Int64).toInt =
        cutNumber.signum * ⌊|cutNumber.value| * 10 ^ 2⌋ ∧
      (-23221 : Int64).toInt =
        Decimal.towardZero (cutNumber.value * 10 ^ 2) := by
  have parsed : parseScaled "-232.219" 2 = some (-23221) := by
    decide +kernel
  exact (parseScaled_exact "-232.219" (by decide)).2 cutNumber (-23221)
    (by decide) parsed

end ChudMoney.Kalshi.ParseScaled
