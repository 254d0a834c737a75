import ChudMoney.Kalshi.Book

/-!
# Reading back what is formatted

`formatScaled` writes a sign, the digits of the whole part and exactly as many
digits of the fraction as the scale has.  `parseScaled` reads the same number
from such a text.
-/

namespace ChudMoney.Kalshi.Book

open ChudMoney.Lib
open ChudMoney.Lib.MachineInt
open ChudMoney.Lib.Text

/-! ## Texts of digits -/

theorem digits_ne_dot {digits : List Char}
    (all : ∀ c ∈ digits, c.isDigit = true) : '.' ∉ digits := by
  intro member
  exact absurd (all '.' member) (by decide)

/-- A text of an optional sign and digits around a point is trimmed already. -/
theorem trim_decimal {sign whole fraction : List Char}
    (isSign : sign = [] ∨ sign = ['-'])
    (wholeDigits : ∀ c ∈ whole, c.isDigit = true)
    (fractionDigits : ∀ c ∈ fraction, c.isDigit = true)
    (nonempty : fraction ≠ []) :
    trim (sign ++ whole ++ '.' :: fraction) =
      sign ++ whole ++ '.' :: fraction := by
  apply trim_eq_self
  · intro c first
    rcases isSign with rfl | rfl
    · cases whole with
      | nil =>
          cases first
          decide
      | cons d whole =>
          cases first
          exact isWhitespace_of_isDigit (wholeDigits c List.mem_cons_self)
    · cases first
      decide
  · intro c last
    rw [List.getLast?_append, List.getLast?_cons,
      List.getLast?_eq_some_getLast nonempty] at last
    cases last
    exact isWhitespace_of_isDigit
      (fractionDigits _ (List.getLast_mem nonempty))

/-- The digits that `parseScaled` takes of a fraction, filled up with zeros. -/
def scaledFraction (scale : Nat) (fraction : List Char) : List Char :=
  fraction.take scale ++
    List.replicate (scale - (fraction.take scale).length) '0'

/-- What a decimal text with a point is parsed as. -/
theorem parseScaled_decimal {sign whole fraction : List Char} {scale : Nat}
    (isSign : sign = [] ∨ sign = ['-'])
    (wholeDigits : ∀ c ∈ whole, c.isDigit = true) (wholeNonempty : whole ≠ [])
    (fractionDigits : ∀ c ∈ fraction, c.isDigit = true)
    (nonempty : fraction ≠ []) :
    parseScaled (String.ofList (sign ++ whole ++ '.' :: fraction)) scale =
      (do
        let intV ← parsePart whole
        let fracV ← parsePart (scaledFraction scale fraction)
        let v ← checkedAdd (← checkedMul intV (pow10 scale)) fracV
        return if sign = ['-'] then -v else v) := by
  have split : splitOnce '.' (whole ++ '.' :: fraction) =
      some (whole, fraction) :=
    splitOnce_append (digits_ne_dot wholeDigits) fraction
  have wholeAll : whole.all Char.isDigit = true :=
    List.all_eq_true.mpr wholeDigits
  have fractionAll : fraction.all Char.isDigit = true :=
    List.all_eq_true.mpr fractionDigits
  have full : whole.isEmpty = false := by
    simpa using wholeNonempty
  rw [parseScaled, String.toList_ofList,
    trim_decimal isSign wholeDigits fractionDigits nonempty]
  rcases isSign with rfl | rfl
  · cases whole with
    | nil => exact absurd rfl wholeNonempty
    | cons d whole =>
        have digit := wholeDigits d List.mem_cons_self
        have minus : d ≠ '-' := by
          rintro rfl
          exact absurd digit (by decide)
        have plus : d ≠ '+' := by
          rintro rfl
          exact absurd digit (by decide)
        rw [List.cons_append] at split
        simp [minus, plus, split, wholeAll, fractionAll, scaledFraction]
  · simp [split, full, wholeAll, fractionAll, scaledFraction]

/-! ## The formatted text -/

theorem toInt_pow10 {scale : Nat} (small : scale ≤ 18) :
    (pow10 scale).toInt = ((10 ^ scale : Nat) : Int) := by
  have bound : 10 ^ scale ≤ 10 ^ 18 := Nat.pow_le_pow_right (by decide) small
  rw [pow10, toInt_ofInt_of_fits]
  · push_cast
    rfl
  · have cast : ((10 ^ scale : Nat) : Int) = (10 : Int) ^ scale := by
      push_cast
      rfl
    have nonneg := Int.natCast_nonneg (10 ^ scale)
    rw [Fits, ← cast]
    omega

theorem toInt_div_pow10 {value : Int64} {n scale : Nat} (small : scale ≤ 18)
    (isNat : value.toInt = n) :
    (value / pow10 scale).toInt = ((n / 10 ^ scale : Nat) : Int) := by
  have bound := (fits_toInt value).2
  have le : n / 10 ^ scale ≤ n := Nat.div_le_self _ _
  rw [Int64.toInt_div, isNat, toInt_pow10 small, ← Int.ofNat_tdiv]
  generalize n / 10 ^ scale = quotient at le ⊢
  apply Int.bmod_eq_of_le <;> omega

theorem toInt_mod_pow10 {value : Int64} {n scale : Nat} (small : scale ≤ 18)
    (isNat : value.toInt = n) :
    (value % pow10 scale).toInt = ((n % 10 ^ scale : Nat) : Int) := by
  rw [Int64.toInt_mod, isNat, toInt_pow10 small, ← Int.ofNat_tmod]

theorem not_neg_of_toInt_eq {value : Int64} {n : Nat}
    (isNat : value.toInt = n) : ¬ value < 0 := by
  rw [Int64.lt_iff_toInt_lt, isNat]
  exact not_lt.mpr (Int.natCast_nonneg n)

theorem formatScaled_eq {v : Int64} (finite : v ≠ Int64.minValue)
    {scale : Nat} (small : scale ≤ 18) :
    formatScaled v scale =
      String.ofList ((if v < 0 then ['-'] else []) ++
        Nat.toDigits 10 (v.toInt.natAbs / 10 ^ scale) ++
          '.' :: zeroPadded scale (v.toInt.natAbs % 10 ^ scale)) := by
  have magnitude := toInt_abs finite
  have whole := toInt_div_pow10 small magnitude
  have fraction := toInt_mod_pow10 small magnitude
  rw [formatScaled, displayI64, displayPadded,
    if_neg (not_neg_of_toInt_eq whole), if_neg (not_neg_of_toInt_eq fraction),
    whole, fraction]
  rfl

/-! ## The round trip -/

/-- A text of digits in range is the number it denotes. -/
theorem parsePart_digits {digits : List Char} {n : Nat} {value : Int64}
    (nonempty : digits ≠ []) (denotes : digitsValue digits = n)
    (isNat : value.toInt = n) : parsePart digits = some value := by
  rw [parsePart, if_neg (by simpa using nonempty), parseDigits, denotes]
  exact checked_eq_some_iff.mpr isNat

/-- The fraction of a formatted number, at its own scale. -/
theorem parsePart_scaledFraction {scale n : Nat} {value : Int64}
    (bound : n < 10 ^ scale) (isNat : value.toInt = n) :
    parsePart (scaledFraction scale (zeroPadded scale n)) = some value := by
  cases scale with
  | zero =>
      have zero : value = 0 := by
        apply Int64.toInt_inj.mp
        rw [isNat]
        simp at bound
        simp [bound]
      rw [zero]
      rfl
  | succ scale =>
      have length := length_zeroPadded (Nat.succ_pos scale) bound
      have whole : scaledFraction (scale + 1) (zeroPadded (scale + 1) n) =
          zeroPadded (scale + 1) n := by
        rw [scaledFraction, List.take_of_length_le (le_of_eq length), length]
        simp
      rw [whole]
      apply parsePart_digits ?_ (digitsValue_zeroPadded _ n) isNat
      intro empty
      rw [empty] at length
      cases length

/-- The whole part of a number can be scaled back. -/
theorem checkedMul_div_pow10 {value : Int64} {n scale : Nat}
    (small : scale ≤ 18) (isNat : value.toInt = n) :
    ∃ product, checkedMul (value / pow10 scale) (pow10 scale) = some product ∧
      product.toInt = ((n / 10 ^ scale * 10 ^ scale : Nat) : Int) := by
  have bound := (fits_toInt value).2
  have le : n / 10 ^ scale * 10 ^ scale ≤ n := Nat.div_mul_le_self _ _
  have fits : Fits ((n / 10 ^ scale * 10 ^ scale : Nat) : Int) := by
    generalize n / 10 ^ scale * 10 ^ scale = product at le ⊢
    constructor <;> omega
  refine ⟨Int64.ofInt ((n / 10 ^ scale * 10 ^ scale : Nat) : Int), ?_,
    toInt_ofInt_of_fits fits⟩
  apply checked_eq_some_iff.mpr
  rw [toInt_ofInt_of_fits fits, toInt_div_pow10 small isNat, toInt_pow10 small,
    Int.natCast_mul]

theorem zeroPadded_ne_nil (width n : Nat) : zeroPadded width n ≠ [] :=
  List.append_ne_nil_of_right_ne_nil _ Nat.toDigits_ne_nil

/-- A formatted number is parsed as the number. -/
theorem parse_format {v : Int64} (finite : v ≠ Int64.minValue) {scale : Nat}
    (small : scale ≤ 18) :
    parseScaled (formatScaled v scale) scale = some v := by
  have magnitude := toInt_abs finite
  have whole := toInt_div_pow10 small magnitude
  have fraction := toInt_mod_pow10 small magnitude
  have below : v.toInt.natAbs % 10 ^ scale < 10 ^ scale :=
    Nat.mod_lt _ (Nat.pow_pos (by decide))
  have isSign : (if v < 0 then ['-'] else []) = [] ∨
      (if v < 0 then ['-'] else []) = ['-'] := by
    split
    · exact Or.inr rfl
    · exact Or.inl rfl
  rw [formatScaled_eq finite small,
    parseScaled_decimal isSign (fun c => isDigit_of_mem_toDigits)
      Nat.toDigits_ne_nil (fun c => isDigit_of_mem_zeroPadded)
      (zeroPadded_ne_nil _ _),
    parsePart_digits Nat.toDigits_ne_nil (digitsValue_toDigits _) whole,
    parsePart_scaledFraction below fraction]
  rcases checkedMul_div_pow10 small magnitude with ⟨product, multiplied, exact_⟩
  have total : checkedAdd product (abs v % pow10 scale) = some (abs v) := by
    apply checked_eq_some_iff.mpr
    rw [magnitude, exact_, fraction, ← Int.natCast_add, Nat.mul_comm,
      Nat.div_add_mod]
  simp only [Option.bind_eq_bind, Option.bind_some, multiplied, total]
  by_cases negative : v < 0
  · have opposite : -MachineInt.abs v = v := by
      rw [MachineInt.abs, if_pos negative, Int64.neg_neg]
    simp [negative, opposite]
  · have same : MachineInt.abs v = v := by
      rw [MachineInt.abs, if_neg negative]
    simp [negative, same]

end ChudMoney.Kalshi.Book
