import Mathlib.Data.Int.Log
import Mathlib.Data.Rat.Floor

/-!
# Text primitives and decimal numbers

The standard-library text functions that the program uses on strings, as
functions on character lists: trimming by Unicode white space, splitting at
the first separator, reading and padding ASCII digits.

A decimal text is read as the double nearest to the number that it denotes, as
is an integer.  A quotient of fixed-point integers is a number still, and
becomes a double where it is written (`F64.rounded`).
-/

namespace ChudMoney.Lib.Text

/-- Unicode `White_Space`, which `str::trim` removes. -/
def isWhitespace (c : Char) : Bool :=
  let n := c.toNat
  (0x9 ≤ n && n ≤ 0xD) || n == 0x20 || n == 0x85 || n == 0xA0 ||
    n == 0x1680 || (0x2000 ≤ n && n ≤ 0x200A) || n == 0x2028 ||
    n == 0x2029 || n == 0x202F || n == 0x205F || n == 0x3000

/-- `str::trim`. -/
def trim (text : List Char) : List Char :=
  ((text.dropWhile isWhitespace).reverse.dropWhile isWhitespace).reverse

/-- `str::split_once`: the parts around the first separator, if any. -/
def splitOnce (separator : Char) : List Char → Option (List Char × List Char)
  | [] => none
  | c :: rest =>
      if c = separator then some ([], rest)
      else (splitOnce separator rest).map fun parts => (c :: parts.1, parts.2)

/-- The number written by a list of ASCII digits. -/
def digitsValue (digits : List Char) : Nat :=
  Nat.ofDigitChars 10 digits 0

/-- `{:0width$}` of a natural number. -/
def zeroPadded (width n : Nat) : List Char :=
  let digits := Nat.toDigits 10 n
  List.replicate (width - digits.length) '0' ++ digits

/-- A text whose ends are no white space is its own trimming. -/
theorem trim_eq_self {text : List Char}
    (first : ∀ c ∈ text.head?, isWhitespace c = false)
    (last : ∀ c ∈ text.getLast?, isWhitespace c = false) :
    trim text = text := by
  have dropped : ∀ list : List Char,
      (∀ c ∈ list.head?, isWhitespace c = false) →
        list.dropWhile isWhitespace = list := by
    intro list edge
    cases list with
    | nil => rfl
    | cons c rest => simp [edge c (by simp)]
  rw [trim, dropped text first,
    dropped text.reverse (by simpa [List.head?_reverse] using last),
    List.reverse_reverse]

theorem splitOnce_append {separator : Char} {before : List Char}
    (absent : separator ∉ before) (after : List Char) :
    splitOnce separator (before ++ separator :: after) =
      some (before, after) := by
  induction before with
  | nil => simp [splitOnce]
  | cons c rest ih =>
      simp only [List.mem_cons, not_or] at absent
      simp [splitOnce, Ne.symm absent.1, ih absent.2]

theorem splitOnce_some {separator : Char} {text before after : List Char}
    (split : splitOnce separator text = some (before, after)) :
    before ++ separator :: after = text := by
  induction text generalizing before with
  | nil => cases split
  | cons c rest ih =>
      rw [splitOnce] at split
      split at split
      · cases split
        subst c
        rfl
      · rcases Option.map_eq_some_iff.mp split with ⟨⟨front, back⟩, found, same⟩
        cases same
        rw [List.cons_append, ih found]

theorem splitOnce_of_notMem {separator : Char} {text : List Char}
    (absent : separator ∉ text) : splitOnce separator text = none := by
  induction text with
  | nil => rfl
  | cons c rest ih =>
      simp only [List.mem_cons, not_or] at absent
      rw [splitOnce, if_neg (Ne.symm absent.1), ih absent.2]
      rfl

theorem isWhitespace_of_isDigit {c : Char} (digit : c.isDigit = true) :
    isWhitespace c = false := by
  simp only [Char.isDigit, Bool.and_eq_true, decide_eq_true_eq] at digit
  have lower : 48 ≤ c.toNat := digit.1
  have upper : c.toNat ≤ 57 := digit.2
  simp only [isWhitespace, Bool.or_eq_false_iff, Bool.and_eq_false_iff,
    decide_eq_false_iff_not, beq_eq_false_iff_ne]
  omega

theorem isDigit_of_mem_toDigits {n : Nat} {c : Char}
    (member : c ∈ Nat.toDigits 10 n) : c.isDigit = true :=
  Nat.isDigit_of_mem_toDigits (by omega) (by omega) member

@[simp]
theorem digitsValue_toDigits (n : Nat) :
    digitsValue (Nat.toDigits 10 n) = n :=
  Nat.ofDigitChars_ten_toDigits

theorem isDigit_of_mem_zeroPadded {width n : Nat} {c : Char}
    (member : c ∈ zeroPadded width n) : c.isDigit = true := by
  rcases List.mem_append.mp member with padding | digit
  · rw [List.eq_of_mem_replicate padding]
    decide
  · exact isDigit_of_mem_toDigits digit

@[simp]
theorem digitsValue_zeroPadded (width n : Nat) :
    digitsValue (zeroPadded width n) = n := by
  simp [digitsValue, zeroPadded, Nat.ofDigitChars_append,
    Nat.ofDigitChars_replicate_zero]

/-- A number below `10 ^ width` fills exactly `width` places. -/
theorem length_zeroPadded {width n : Nat} (positive : 0 < width)
    (bound : n < 10 ^ width) : (zeroPadded width n).length = width := by
  have fits : (Nat.toDigits 10 n).length ≤ width :=
    (Nat.length_toDigits_le_iff (by omega) positive).mpr bound
  simp only [zeroPadded, List.length_append, List.length_replicate]
  omega

/-! ## Doubles -/

/-- A number, or what a double is besides; a zero has no sign. -/
inductive F64 where
  | nan
  | infinite (negative : Bool)
  | finite (value : Rat)
  deriving DecidableEq, Repr

namespace F64

/-! ### Rounding -/

/-- The exponent of the last place of the doubles about a number. -/
def lastPlace (value : Rat) : Int :=
  max (Int.log 2 |value| - 52) (-1074)

/-- The nearest integer; of two that are as near, the even one. -/
def roundTiesEven (value : Rat) : Int :=
  let below := ⌊value⌋
  let rest := value - below
  if rest < 1 / 2 ∨ rest = 1 / 2 ∧ 2 ∣ below then below else below + 1

/-- The double nearest to a number, infinite when it is too large for one. -/
def nearest (value : Rat) : F64 :=
  let unit : Rat := 2 ^ lastPlace value
  let rounded := roundTiesEven (value / unit) * unit
  if 2 ^ 1024 ≤ |rounded| then infinite (value < 0) else finite rounded

/-- The double that a number becomes. -/
def rounded : F64 → F64
  | finite value => nearest value
  | special => special

theorem roundTiesEven_intCast (n : Int) : roundTiesEven n = n := by
  simp [roundTiesEven]

theorem abs_roundTiesEven_le {value : Rat} {bound : Int}
    (inside : |value| ≤ bound) : |roundTiesEven value| ≤ bound := by
  rcases abs_le.mp inside with ⟨low, high⟩
  have floorLow : -bound ≤ ⌊value⌋ :=
    Int.le_floor.mpr (by push_cast; exact low)
  have floorHigh : ⌊value⌋ ≤ bound := by
    exact_mod_cast (Int.floor_le value).trans high
  rw [roundTiesEven]
  split
  next => exact abs_le.mpr ⟨floorLow, floorHigh⟩
  next up =>
    have above : ⌊value⌋ ≠ bound := by
      intro whole
      apply up
      left
      rw [whole]
      linarith
    rw [abs_le]
    omega

/-- A multiple of a place that is no finer than its last one is a double. -/
theorem nearest_of_multiple {place digits : Int}
    (coarse : lastPlace (digits * 2 ^ place) ≤ place)
    (bound : |(digits * 2 ^ place : Rat)| < 2 ^ 1024) :
    nearest (digits * 2 ^ place) = finite (digits * 2 ^ place) := by
  rcases Int.le.dest coarse with ⟨shift, isShift⟩
  have gap : place - lastPlace (digits * 2 ^ place) = shift := by
    omega
  have units : (digits * 2 ^ place : Rat) / 2 ^ lastPlace (digits * 2 ^ place) =
      ((digits * 2 ^ shift : Int) : Rat) := by
    rw [mul_div_assoc, ← zpow_sub₀ (by decide), gap]
    push_cast
    rfl
  have whole :
      (roundTiesEven ((digits * 2 ^ place : Rat) /
          2 ^ lastPlace (digits * 2 ^ place)) : Rat) *
        2 ^ lastPlace (digits * 2 ^ place) = digits * 2 ^ place := by
    rw [units, roundTiesEven_intCast, ← units,
      div_mul_cancel₀ _ (zpow_ne_zero _ (by decide))]
  rw [nearest]
  simp only [whole]
  rw [if_neg (not_le.mpr bound)]

/-- A number of at most 53 binary digits is a double. -/
theorem nearest_of_few {place digits : Int} (least : -1074 ≤ place)
    (few : |digits| < 2 ^ 53)
    (bound : |(digits * 2 ^ place : Rat)| < 2 ^ 1024) :
    nearest (digits * 2 ^ place) = finite (digits * 2 ^ place) := by
  by_cases zero : digits = 0
  · rw [zero, Int.cast_zero, zero_mul]
    decide +kernel
  have unit : (0 : Rat) < 2 ^ place := zpow_pos (by decide) place
  have positive : 0 < |(digits * 2 ^ place : Rat)| :=
    abs_pos.mpr (mul_ne_zero (by exact_mod_cast zero) unit.ne')
  have small :
      |(digits * 2 ^ place : Rat)| < ((2 : Nat) : Rat) ^ (53 + place) := by
    rw [abs_mul, abs_of_pos unit, Nat.cast_ofNat, zpow_add₀ (by decide)]
    apply mul_lt_mul_of_pos_right _ unit
    exact_mod_cast few
  have log := (Int.lt_zpow_iff_log_lt (by decide) positive).mp small
  exact nearest_of_multiple (max_le (by omega) least) bound

/-- What is rounded once is a double. -/
theorem rounded_nearest (value : Rat) :
    (nearest value).rounded = nearest value := by
  rw [nearest]
  split
  next => rfl
  next bounded =>
    rw [not_le] at bounded
    set place := lastPlace value
    set digits := roundTiesEven (value / 2 ^ place)
    have least : -1074 ≤ place := le_max_right _ _
    have unit : (0 : Rat) < 2 ^ place := zpow_pos (by decide) place
    have digits_le : |digits| ≤ 2 ^ 53 := by
      apply abs_roundTiesEven_le
      have spans : Int.log 2 |value| + 1 ≤ 53 + place := by
        have := le_max_left (Int.log 2 |value| - 52) (-1074)
        rw [← lastPlace] at this
        omega
      rw [abs_div, abs_of_pos unit, div_le_iff₀ unit]
      calc |value| ≤ 2 ^ (Int.log 2 |value| + 1) :=
            (Int.lt_zpow_succ_log_self (by decide) |value|).le
        _ ≤ 2 ^ (53 + place) := zpow_le_zpow_right₀ (by decide) spans
        _ = ((2 ^ 53 : Int) : Rat) * 2 ^ place := by
            rw [zpow_add₀ (by decide)]
            norm_num
    rcases digits_le.lt_or_eq with few | carried
    · exact nearest_of_few least few bounded
    · -- The digits carried into the next place, which leaves fewer of them.
      rcases (dvd_abs 2 digits).mp (carried ▸ by decide) with ⟨half, isHalf⟩
      have few : |half| < 2 ^ 53 := by
        rw [isHalf, abs_mul, abs_two] at carried
        omega
      have moved : (digits * 2 ^ place : Rat) = half * 2 ^ (1 + place) := by
        rw [isHalf, zpow_add₀ (by decide), zpow_one]
        push_cast
        ring
      rw [moved] at bounded ⊢
      exact nearest_of_few (by omega) few bounded

/-! ### Texts -/

/-- The text after an optional sign, and whether the sign was `-`. -/
def sign : List Char → Bool × List Char
  | '-' :: rest => (true, rest)
  | '+' :: rest => (false, rest)
  | text => (false, text)

/-- `Digit+ | Digit+ '.' Digit* | Digit* '.' Digit+` as a rational. -/
def mantissa (text : List Char) : Option Rat :=
  let (whole, fraction) := (splitOnce '.' text).getD (text, [])
  if whole.isEmpty && fraction.isEmpty then none
  else if whole.all Char.isDigit && fraction.all Char.isDigit then
    some ((digitsValue (whole ++ fraction) : Rat) / 10 ^ fraction.length)
  else none

/-- `Sign? Digit+` as an integer. -/
def exponent (text : List Char) : Option Int :=
  let (negative, digits) := sign text
  if digits.isEmpty || !digits.all Char.isDigit then none
  else some (if negative then -(digitsValue digits : Int) else digitsValue digits)

/-- A decimal number with an optional exponent. -/
def number (text : List Char) : Option Rat :=
  match splitOnce 'e' (text.map Char.toLower) with
  | none => mantissa text
  | some (before, after) => do
      let value ← mantissa before
      let power ← exponent after
      return value * (10 : Rat) ^ power

/-- `str::parse::<f64>`. -/
def parse (text : String) : Option F64 :=
  let (negative, body) := sign text.toList
  let lower := body.map Char.toLower
  if lower = "inf".toList ∨ lower = "infinity".toList then
    some (infinite negative)
  else if lower = "nan".toList then
    some nan
  else
    (number body).map fun value =>
      nearest (if negative then -value else value)

/-- `str::trim` and then `str::parse::<f64>`. -/
def parseTrimmed (text : String) : Option F64 :=
  parse (String.ofList (trim text.toList))

/-- A text is read as a double. -/
theorem rounded_of_parse {text : String} {value : F64}
    (read : parse text = some value) : value.rounded = value := by
  rw [parse] at read
  dsimp only at read
  split at read
  · cases read
    rfl
  split at read
  · cases read
    rfl
  rcases Option.map_eq_some_iff.mp read with ⟨number, -, rfl⟩
  exact rounded_nearest _

/-! ### Fixed point -/

/-- The integer that a number is in units of `10 ^ -scale`, if it is one. -/
def scaled (scale : Nat) : F64 → Option Int
  | finite value =>
      let units := value * 10 ^ scale
      if units.den = 1 then some units.num else none
  | _ => none

theorem scaled_div (scale : Nat) (units : Int) :
    (finite ((units : Rat) / 10 ^ scale)).scaled scale = some units := by
  have power : (10 : Rat) ^ scale ≠ 0 := pow_ne_zero scale (by decide)
  simp [scaled, div_mul_cancel₀ _ power]

end F64

example : F64.parseTrimmed " -232.5e1 " = some (.finite (-2325)) := by
  decide +kernel

example : F64.parse "0.1" = some (.finite (3602879701896397 / 2 ^ 55)) := by
  decide +kernel

example : F64.parse "42499.00000000000000001" = F64.parse "42499.00" := by
  decide +kernel

example : F64.parse "1e400" = some (.infinite false) := by
  decide +kernel

end ChudMoney.Lib.Text
