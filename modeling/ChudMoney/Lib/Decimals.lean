import ChudMoney.Lib.Text
import Mathlib.Data.List.Induction
import Mathlib.Data.Rat.Floor
import Mathlib.Tactic.Linarith
import Mathlib.Tactic.Positivity
import Mathlib.Tactic.Ring

/-!
# Decimal numbers as texts have them

A decimal number is written as at most one sign, digits and at most one point
among them.  A `Decimal` is such a text in parts; its value is a rational
number, and `units scale` is the value without its sign in units of
`10 ^ -scale`, cut off at the point.

`ofText` reads the parts of a text, and it reads exactly the texts that
`text` writes.
-/

namespace ChudMoney.Lib.Decimals

open ChudMoney.Lib.Text

/-- A text of ASCII digits. -/
def Digits (text : List Char) : Prop :=
  ∀ c ∈ text, c.isDigit = true

instance (text : List Char) : Decidable (Digits text) :=
  List.decidableBAll _ text

/-- A decimal number in the parts of its text; `none` is no point. -/
structure Decimal where
  sign : List Char
  whole : List Char
  fraction : Option (List Char)
  isSign : sign = [] ∨ sign = ['+'] ∨ sign = ['-']
  wholeDigits : Digits whole
  fractionDigits : ∀ digits ∈ fraction, Digits digits
  nonempty : whole ≠ [] ∨ ∃ digits ∈ fraction, digits ≠ []

namespace Decimal

/-- The digits after the point. -/
def places (decimal : Decimal) : List Char :=
  decimal.fraction.getD []

/-- What follows the sign. -/
def body (decimal : Decimal) : List Char :=
  decimal.whole ++ decimal.fraction.elim [] fun digits => '.' :: digits

def text (decimal : Decimal) : List Char :=
  decimal.sign ++ decimal.body

def negative (decimal : Decimal) : Bool :=
  decimal.sign = ['-']

/-- The value without its sign. -/
def magnitude (decimal : Decimal) : Rat :=
  digitsValue decimal.whole +
    digitsValue decimal.places / 10 ^ decimal.places.length

def value (decimal : Decimal) : Rat :=
  if decimal.negative then -decimal.magnitude else decimal.magnitude

/-- The value without its sign, cut off to whole units of `10 ^ -scale`. -/
def units (decimal : Decimal) (scale : Nat) : Nat :=
  digitsValue decimal.whole * 10 ^ scale +
    digitsValue decimal.places * 10 ^ scale / 10 ^ decimal.places.length

theorem placesDigits (decimal : Decimal) : Digits decimal.places := by
  unfold places
  cases part : decimal.fraction with
  | none => exact fun c member => absurd member List.not_mem_nil
  | some digits => exact decimal.fractionDigits digits part

/-! ## Units -/

theorem magnitude_nonneg (decimal : Decimal) : 0 ≤ decimal.magnitude := by
  unfold magnitude
  positivity

theorem abs_value (decimal : Decimal) :
    |decimal.value| = decimal.magnitude := by
  unfold value
  split
  · rw [abs_neg, abs_of_nonneg decimal.magnitude_nonneg]
  · rw [abs_of_nonneg decimal.magnitude_nonneg]

/-- The units of a number are its value, scaled and cut off. -/
theorem floor_value (decimal : Decimal) (scale : Nat) :
    ⌊|decimal.value| * 10 ^ scale⌋ = decimal.units scale := by
  have scaled : |decimal.value| * 10 ^ scale =
      ((digitsValue decimal.whole * 10 ^ scale : Nat) : Int) +
        ((digitsValue decimal.places * 10 ^ scale : Nat) : Rat) /
          ((10 ^ decimal.places.length : Nat) : Rat) := by
    rw [abs_value, magnitude]
    push_cast
    ring
  rw [scaled, Int.floor_intCast_add, Rat.floor_natCast_div_natCast, units]
  push_cast
  rfl

/-- `-1` for a number written with a minus, and else `1`. -/
def signum (decimal : Decimal) : Int :=
  if decimal.negative then -1 else 1

theorem value_eq_signum_mul (decimal : Decimal) :
    decimal.value = decimal.signum * |decimal.value| := by
  rw [abs_value]
  unfold value signum
  split <;> simp

/-- A rational number without what follows its point. -/
def towardZero (value : Rat) : Int :=
  if 0 ≤ value then ⌊value⌋ else ⌈value⌉

theorem signum_mul_floor (decimal : Decimal) (scale : Nat) :
    decimal.signum * ⌊|decimal.value| * 10 ^ scale⌋ =
      towardZero (decimal.value * 10 ^ scale) := by
  have scaled : decimal.value * 10 ^ scale =
      decimal.signum * (|decimal.value| * 10 ^ scale) := by
    rw [← mul_assoc, ← value_eq_signum_mul]
  have nonneg : 0 ≤ |decimal.value| * 10 ^ scale := by positivity
  rw [scaled]
  generalize |decimal.value| * 10 ^ scale = size at nonneg ⊢
  unfold towardZero signum
  by_cases negative : decimal.negative = true
  · rw [if_pos negative, Int.cast_neg, Int.cast_one, neg_one_mul, neg_one_mul,
      Int.ceil_neg]
    split
    next nonpos =>
      have zero : size = 0 := by linarith
      simp [zero]
    next => rfl
  · rw [if_neg negative, Int.cast_one, one_mul, one_mul, if_pos nonneg]

/-- A whole count of units is cut off nowhere. -/
theorem towardZero_intCast (count : Int) : towardZero count = count := by
  simp [towardZero]

end Decimal

/-! ## Digits at a scale -/

theorem digitsValue_append (first second : List Char) :
    digitsValue (first ++ second) =
      digitsValue first * 10 ^ second.length + digitsValue second := by
  rw [digitsValue, Nat.ofDigitChars_append,
    Nat.ofDigitChars_eq_ofDigitChars_zero, Nat.mul_comm]
  rfl

theorem digitsValue_zeros (count : Nat) :
    digitsValue (List.replicate count '0') = 0 := by
  simp [digitsValue]

theorem digitsValue_lt {digits : List Char} (all : Digits digits) :
    digitsValue digits < 10 ^ digits.length := by
  induction digits using List.reverseRecOn with
  | nil => decide
  | append_singleton digits c ih =>
      have front := ih fun d member => all d (by simp [member])
      have digit : c.isDigit = true := all c (by simp)
      have last : digitsValue [c] < 10 := by
        simp only [Char.isDigit, Bool.and_eq_true, decide_eq_true_eq] at digit
        have upper : c.toNat ≤ 57 := digit.2
        simp [digitsValue, Nat.ofDigitChars_cons]
        omega
      rw [digitsValue_append, List.length_append, List.length_singleton,
        pow_one, pow_succ]
      omega

/--
The first digits of a fraction, filled up with zeros, are the fraction cut off
at the scale.
-/
theorem digitsValue_fill {digits : List Char} (all : Digits digits)
    (scale : Nat) :
    digitsValue (digits.take scale ++
        List.replicate (scale - (digits.take scale).length) '0') =
      digitsValue digits * 10 ^ scale / 10 ^ digits.length := by
  rw [digitsValue_append, digitsValue_zeros, Nat.add_zero,
    List.length_replicate, List.length_take]
  rcases Nat.le_total digits.length scale with short | long
  · rw [List.take_of_length_le short, Nat.min_eq_right short]
    have power : 10 ^ scale =
        10 ^ (scale - digits.length) * 10 ^ digits.length := by
      rw [← pow_add, Nat.sub_add_cancel short]
    rw [power, ← Nat.mul_assoc, Nat.mul_div_cancel _ (by positivity)]
  · rw [Nat.min_eq_left long, Nat.sub_self, pow_zero, Nat.mul_one]
    have parts := digitsValue_append (digits.take scale) (digits.drop scale)
    rw [List.take_append_drop, List.length_drop] at parts
    have rest : digitsValue (digits.drop scale) <
        10 ^ (digits.length - scale) := by
      have bound := @digitsValue_lt (digits.drop scale)
        fun c member => all c (List.mem_of_mem_drop member)
      rwa [List.length_drop] at bound
    have power : 10 ^ digits.length =
        10 ^ (digits.length - scale) * 10 ^ scale := by
      rw [← pow_add, Nat.sub_add_cancel long]
    rw [power, Nat.mul_div_mul_right _ _ (by positivity), parts,
      Nat.mul_comm, Nat.mul_add_div (by positivity),
      Nat.div_eq_of_lt rest, Nat.add_zero]

/-! ## Reading a text -/

/-- The sign of a text and what follows it. -/
def takeSign : List Char → List Char × List Char
  | '-' :: rest => (['-'], rest)
  | '+' :: rest => (['+'], rest)
  | text => ([], text)

theorem takeSign_isSign (text : List Char) :
    (takeSign text).1 = [] ∨ (takeSign text).1 = ['+'] ∨
      (takeSign text).1 = ['-'] := by
  unfold takeSign
  split <;> simp

theorem takeSign_append (text : List Char) :
    (takeSign text).1 ++ (takeSign text).2 = text := by
  unfold takeSign
  split <;> rfl

/-- The parts of a text around its first point. -/
def takeWhole (text : List Char) : List Char × Option (List Char) :=
  match splitOnce '.' text with
  | some (whole, fraction) => (whole, some fraction)
  | none => (text, none)

/-- The parts between which a text can be a decimal number. -/
def Shaped (whole : List Char) (fraction : Option (List Char)) : Prop :=
  Digits whole ∧ (∀ digits ∈ fraction, Digits digits) ∧
    (whole ≠ [] ∨ ∃ digits ∈ fraction, digits ≠ [])

instance (whole : List Char) (fraction : Option (List Char)) :
    Decidable (Shaped whole fraction) :=
  inferInstanceAs (Decidable (_ ∧ _ ∧ _))

/-- The decimal number that a text writes, if it writes one. -/
def ofText (text : List Char) : Option Decimal :=
  if shaped : Shaped (takeWhole (takeSign text).2).1
      (takeWhole (takeSign text).2).2 then
    some ⟨(takeSign text).1, (takeWhole (takeSign text).2).1,
      (takeWhole (takeSign text).2).2, takeSign_isSign text, shaped.1,
      shaped.2.1, shaped.2.2⟩
  else none

theorem takeWhole_append (text : List Char) :
    (takeWhole text).1 ++
      (takeWhole text).2.elim [] (fun digits => '.' :: digits) = text := by
  unfold takeWhole
  split
  next whole fraction split => exact splitOnce_some split
  next => exact List.append_nil text

theorem Digits.notMem {digits : List Char} (all : Digits digits) {c : Char}
    (other : c.isDigit = false) : c ∉ digits := by
  intro member
  rw [all c member] at other
  cases other

theorem Decimal.takeWhole_body (decimal : Decimal) :
    takeWhole decimal.body = (decimal.whole, decimal.fraction) := by
  have absent : '.' ∉ decimal.whole := decimal.wholeDigits.notMem (by decide)
  unfold takeWhole Decimal.body
  cases decimal.fraction with
  | none =>
      rw [Option.elim_none, List.append_nil, splitOnce_of_notMem absent]
  | some digits => rw [Option.elim_some, splitOnce_append absent]

theorem takeSign_of_ne {c : Char} (minus : c ≠ '-') (plus : c ≠ '+')
    (rest : List Char) : takeSign (c :: rest) = ([], c :: rest) := by
  unfold takeSign
  split
  next same => exact absurd (List.cons.inj same).1 minus
  next same => exact absurd (List.cons.inj same).1 plus
  next => rfl

theorem Decimal.takeSign_body (decimal : Decimal) :
    takeSign decimal.body = ([], decimal.body) := by
  cases start : decimal.whole with
  | cons c rest =>
      have digit := decimal.wholeDigits c (by simp [start])
      unfold Decimal.body
      rw [start]
      apply takeSign_of_ne <;> (rintro rfl; cases digit)
  | nil =>
      rcases decimal.nonempty with whole | ⟨digits, isFraction, -⟩
      · exact absurd start whole
      · unfold Decimal.body
        rw [start, Option.mem_def.mp isFraction]
        rfl

theorem Decimal.takeSign_text (decimal : Decimal) :
    takeSign decimal.text = (decimal.sign, decimal.body) := by
  unfold Decimal.text
  rcases decimal.isSign with none | plus | minus
  · rw [none]
    exact decimal.takeSign_body
  · rw [plus]
    rfl
  · rw [minus]
    rfl

/-- A text is read as the one number that it writes. -/
theorem ofText_eq_some_iff {text : List Char} {decimal : Decimal} :
    ofText text = some decimal ↔ decimal.text = text := by
  constructor
  · intro isRead
    unfold ofText at isRead
    split at isRead
    next =>
      cases isRead
      unfold Decimal.text Decimal.body
      rw [takeWhole_append, takeSign_append]
    next => cases isRead
  · rintro rfl
    have sign := decimal.takeSign_text
    have whole := decimal.takeWhole_body
    unfold ofText
    simp only [sign, whole]
    exact dif_pos ⟨decimal.wholeDigits, decimal.fractionDigits,
      decimal.nonempty⟩

end ChudMoney.Lib.Decimals
