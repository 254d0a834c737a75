import ChudMoney.Lib.Text
import Mathlib.Algebra.Order.Ring.Int
import Mathlib.Algebra.Order.Group.Unbundled.Int

/-!
# 64-bit signed arithmetic

`i64` is Lean's `Int64`, whose operators wrap as a release build's do.  The
checked and saturating operations compute the exact integer first; the
lemmas say when a wrapping operation is exact.
-/

namespace ChudMoney.Lib.MachineInt

open ChudMoney.Lib.Text

/-- The integers an `i64` can hold. -/
abbrev Fits (value : Int) : Prop :=
  -2 ^ 63 ≤ value ∧ value < 2 ^ 63

/-- The `i64` of an exact result, or `None` when it overflows. -/
def checked (value : Int) : Option Int64 :=
  if Fits value then some (Int64.ofInt value) else none

/-- `i64::checked_add`. -/
def checkedAdd (left right : Int64) : Option Int64 :=
  checked (left.toInt + right.toInt)

/-- `i64::checked_mul`. -/
def checkedMul (left right : Int64) : Option Int64 :=
  checked (left.toInt * right.toInt)

/-- The `i64` nearest to an exact result. -/
def saturate (value : Int) : Int64 :=
  Int64.ofInt (max (-2 ^ 63) (min (2 ^ 63 - 1) value))

/-- `i64::saturating_add`. -/
def saturatingAdd (left right : Int64) : Int64 :=
  saturate (left.toInt + right.toInt)

/-- `i64::saturating_mul`. -/
def saturatingMul (left right : Int64) : Int64 :=
  saturate (left.toInt * right.toInt)

/-- `i64::abs`; the least value has no absolute value and is its own. -/
def abs (value : Int64) : Int64 :=
  if value < 0 then -value else value

/-- `str::parse::<i64>`. -/
def parseI64 (text : String) : Option Int64 :=
  let (negative, digits) := F64.sign text.toList
  if digits.isEmpty || !digits.all Char.isDigit then none
  else checked (if negative then -digitsValue digits else digitsValue digits)

/-! ## Instants

An instant is its exact number of nanoseconds since the epoch.
-/

/-- `DateTime::timestamp_millis`. -/
def timestampMillis (instant : Int) : Int64 :=
  Int64.ofInt (instant / 1000000)

/-- `DateTime::timestamp_micros`. -/
def timestampMicros (instant : Int) : Int64 :=
  Int64.ofInt (instant / 1000)

/-- `DateTime::timestamp_nanos_opt`. -/
def timestampNanosOpt (instant : Int) : Option Int64 :=
  checked instant

/-- The instants between `DateTime::MIN_UTC` and `DateTime::MAX_UTC`. -/
abbrev InChrono (instant : Int) : Prop :=
  -8334601228800000000000 ≤ instant ∧ instant ≤ 8210266876799999999999

/-- `DateTime<Utc>`. -/
abbrev DateTime : Type :=
  { instant : Int // InChrono instant }

/-- `DateTime::from_timestamp` of whole seconds that fit a `u32`. -/
def fromSeconds (secs : UInt32) : DateTime :=
  ⟨secs.toNat * 1000000000, by
    have bound := secs.toNat_lt
    constructor <;> omega⟩

/-! ## When an operation is exact -/

theorem fits_toInt (value : Int64) : Fits value.toInt :=
  ⟨value.le_toInt, value.toInt_lt⟩

theorem toInt_ofInt_of_fits {value : Int} (fits : Fits value) :
    (Int64.ofInt value).toInt = value :=
  Int64.toInt_ofInt_of_le fits.1 fits.2

theorem toInt_timestampMillis {instant : Int} (inChrono : InChrono instant) :
    (timestampMillis instant).toInt = instant / 1000000 := by
  apply toInt_ofInt_of_fits
  constructor <;> omega

/-- The start of an instant's millisecond is an instant. -/
theorem inChrono_timestampMillis (time : DateTime) :
    InChrono ((timestampMillis time.val).toInt * 1000000) := by
  have bounds := time.property
  rw [toInt_timestampMillis time.property]
  constructor <;> omega

theorem toInt_timestampMicros {instant : Int} (inChrono : InChrono instant) :
    (timestampMicros instant).toInt = instant / 1000 := by
  apply toInt_ofInt_of_fits
  constructor <;> omega

theorem toInt_add_of_fits {left right : Int64}
    (fits : Fits (left.toInt + right.toInt)) :
    (left + right).toInt = left.toInt + right.toInt := by
  rw [Int64.toInt_add]
  exact Int.bmod_eq_of_le (by omega) (by omega)

theorem toInt_sub_of_fits {left right : Int64}
    (fits : Fits (left.toInt - right.toInt)) :
    (left - right).toInt = left.toInt - right.toInt := by
  rw [Int64.toInt_sub]
  exact Int.bmod_eq_of_le (by omega) (by omega)

theorem toInt_mul_of_fits {left right : Int64}
    (fits : Fits (left.toInt * right.toInt)) :
    (left * right).toInt = left.toInt * right.toInt := by
  rw [Int64.toInt_mul]
  exact Int.bmod_eq_of_le (by omega) (by omega)

/-- A quotient by a positive number is rounded towards zero. -/
theorem toInt_div_of_pos {left right : Int64} (positive : 0 < right.toInt) :
    (0 ≤ left.toInt → (left / right).toInt = left.toInt / right.toInt) ∧
      (left.toInt ≤ 0 → (left / right).toInt ≤ 0) := by
  have bounds := fits_toInt left
  have small : ∀ n : Int, 0 ≤ n → 0 ≤ n / right.toInt ∧
      n / right.toInt ≤ n :=
    fun n nonneg => ⟨Int.ediv_nonneg nonneg positive.le,
      Int.ediv_le_self _ nonneg⟩
  rw [Int64.toInt_div]
  constructor
  · intro nonneg
    have quotient := small _ nonneg
    rw [Int.tdiv_eq_ediv_of_nonneg nonneg,
      Int.bmod_eq_of_le (by omega) (by omega)]
  · intro nonpos
    have quotient := small (-left.toInt) (by omega)
    rw [← Int.neg_neg left.toInt, Int.neg_tdiv,
      Int.tdiv_eq_ediv_of_nonneg (by omega),
      Int.bmod_eq_of_le (by omega) (by omega)]
    omega

theorem checked_eq_some_iff {value : Int} {result : Int64} :
    checked value = some result ↔ result.toInt = value := by
  constructor
  · intro computed
    simp only [checked, Option.ite_none_right_eq_some,
      Option.some.injEq] at computed
    rcases computed with ⟨fits, rfl⟩
    exact toInt_ofInt_of_fits fits
  · rintro rfl
    rw [checked, if_pos (fits_toInt result), Int64.ofInt_toInt]

theorem toInt_saturate (value : Int) :
    (saturate value).toInt = max (-2 ^ 63) (min (2 ^ 63 - 1) value) :=
  toInt_ofInt_of_fits (by omega)

theorem toInt_min (left right : Int64) :
    (min left right).toInt = min left.toInt right.toInt := by
  show (if left ≤ right then left else right).toInt = _
  rw [Int.min_def]
  simp only [Int64.le_iff_toInt_le]
  split <;> rfl

theorem toInt_max (left right : Int64) :
    (max left right).toInt = max left.toInt right.toInt := by
  show (if left ≤ right then right else left).toInt = _
  rw [Int.max_def]
  simp only [Int64.le_iff_toInt_le]
  split <;> rfl

theorem toInt_pos_iff (value : Int64) : 0 < value.toInt ↔ 0 < value := by
  rw [Int64.lt_iff_toInt_lt]
  simp

theorem toInt_abs {value : Int64} (finite : value ≠ Int64.minValue) :
    (abs value).toInt = value.toInt.natAbs := by
  have notLeast : value.toInt ≠ -2 ^ 63 := by
    intro least
    exact finite (Int64.toInt_inj.mp (by simpa using least))
  have bounds := fits_toInt value
  have sign : value < 0 ↔ value.toInt < 0 := by
    simp [Int64.lt_iff_toInt_lt]
  by_cases negative : value.toInt < 0
  · rw [abs, if_pos (sign.mpr negative), Int64.toInt_neg,
      Int.bmod_eq_of_le (by omega) (by omega)]
    omega
  · rw [abs, if_neg (mt sign.mp negative)]
    omega

end ChudMoney.Lib.MachineInt
