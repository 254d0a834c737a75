import ChudMoney.Lib.MachineInt

/-!
# Computations that panic when they overflow

A debug build checks every `i64` operation: it computes what a release build
computes, or panics.  `Computes panicking fits value` says that a computation
has this value exactly where nothing in it overflows, and panics elsewhere.

The rules build such a statement along the computation: the condition of a
sequence is the condition of its first part and that of the rest.
-/

namespace ChudMoney.Lib.Checked

open ChudMoney.Lib.MachineInt

variable {α β : Type}

/-- The result of a function of a debug build; `none` is the panic. -/
abbrev Debug (α : Type) := Option α

/-- The computation has this value if it fits, and else panics. -/
structure Computes (panicking : Debug α) (fits : Prop) (value : α) : Prop where
  value : fits → panicking = some value
  fits : panicking.isSome = true → fits

variable {panicking : Debug α} {fits other : Prop} {value : α}

theorem Computes.congr (computes : Computes panicking fits value)
    (same : fits ↔ other) : Computes panicking other value :=
  propext same ▸ computes

/-! ## Sequences -/

theorem computes_pure (value : α) : Computes (some value) True value :=
  ⟨fun _ => rfl, fun _ => trivial⟩

theorem Computes.bind {next : α → Debug β} {rest : Prop} {result : β}
    (first : Computes panicking fits value)
    (then_ : fits → Computes (next value) rest result) :
    Computes (panicking >>= next) (fits ∧ rest) result := by
  constructor
  · rintro ⟨isFirst, isRest⟩
    rw [first.value isFirst]
    exact (then_ isFirst).value isRest
  · intro computed
    have isFirst : fits := by
      apply first.fits
      cases panicking with
      | none => cases computed
      | some _ => rfl
    rw [first.value isFirst] at computed
    exact ⟨isFirst, (then_ isFirst).fits computed⟩

theorem Computes.map (computes : Computes panicking fits value)
    (finish : α → β) : Computes (panicking.map finish) fits (finish value) := by
  constructor
  · intro all
    rw [computes.value all]
    rfl
  · intro computed
    apply computes.fits
    simpa using computed

/-- A list is computed item by item. -/
theorem computes_mapM {items : List α} {step : α → Debug β} {each : α → Prop}
    {result : α → β}
    (computes : ∀ item ∈ items, Computes (step item) (each item) (result item)) :
    Computes (items.mapM step) (∀ item ∈ items, each item)
      (items.map result) := by
  induction items with
  | nil => exact (computes_pure []).congr (by simp)
  | cons item items ih =>
      have first := computes item List.mem_cons_self
      have rest := ih fun other member =>
        computes other (List.mem_cons_of_mem item member)
      have tail : Computes
          (items.mapM step >>= fun results => some (result item :: results))
          ((∀ item ∈ items, each item) ∧ True)
          (result item :: items.map result) :=
        rest.bind fun _ => computes_pure (result item :: items.map result)
      have both : Computes
          (step item >>= fun head =>
            items.mapM step >>= fun results => some (head :: results))
          (each item ∧ (∀ item ∈ items, each item) ∧ True)
          (result item :: items.map result) := first.bind fun _ => tail
      rw [List.mapM_cons]
      exact both.congr (by simp)

/-! ## Functions that may also return `None` -/

/-- A step that cannot overflow. -/
def returned (result : Option α) : OptionT Option α :=
  OptionT.mk (some result)

/-- A step that cannot return `None`. -/
def executed (panicking : Debug α) : OptionT Option α :=
  OptionT.lift panicking

theorem computes_returned (result : Option α) :
    Computes (returned result).run True result :=
  computes_pure result

theorem computes_executed (computes : Computes panicking fits value) :
    Computes (executed panicking).run fits (some value) := by
  have same : (executed panicking).run = panicking.map some := by
    cases panicking <;> rfl
  rw [same]
  exact computes.map some

theorem computes_failure :
    Computes (failure : OptionT Option α).run True none :=
  computes_pure none

/-- The rest is computed where the first part returns a value. -/
theorem computes_bind {first : OptionT Option α} {result : Option α}
    {next : α → OptionT Option β} {rest : α → Prop} {then_ : α → Option β}
    (computes : Computes first.run fits result)
    (following : ∀ value, result = some value →
      Computes (next value).run (rest value) (then_ value)) :
    Computes (first >>= next).run
      (fits ∧ ∀ value, result = some value → rest value)
      (result.bind then_) := by
  rw [OptionT.run_bind]
  cases result with
  | none =>
      refine Computes.congr (Computes.bind computes fun _ =>
        computes_pure (none : Option β)) (by simp)
  | some value =>
      refine Computes.congr (Computes.bind computes fun _ =>
        following value rfl) (by simp)

/-! ## Operations -/

section Operations

variable (left right : Int64)

def addDebug : Debug Int64 :=
  checked (left.toInt + right.toInt)

def mulDebug : Debug Int64 :=
  checked (left.toInt * right.toInt)

def negDebug : Debug Int64 :=
  checked (-left.toInt)

/-- `i64::abs`. -/
def absDebug : Debug Int64 :=
  checked left.toInt.natAbs

/-- `/`, which also panics on a zero divisor. -/
def divDebug : Debug Int64 :=
  if right = 0 then none else checked (left.toInt.tdiv right.toInt)

/-- `%` panics where `/` does. -/
def remDebug : Debug Int64 :=
  (divDebug left right).map fun _ => left % right

/-- `10_i64.pow(exponent)`. -/
def powDebug (exponent : Nat) : Debug Int64 :=
  checked (10 ^ exponent)

variable {left right}

/-- A checked result is the wrapped one where it fits. -/
theorem computes_checked {exact_ : Int} {wrapped : Int64}
    (same : Fits exact_ → wrapped.toInt = exact_) :
    Computes (checked exact_) (Fits exact_) wrapped := by
  constructor
  · exact fun fits => checked_eq_some_iff.mpr (same fits)
  · intro computed
    rcases Option.isSome_iff_exists.mp computed with ⟨result, isResult⟩
    rw [← checked_eq_some_iff.mp isResult]
    exact fits_toInt result

theorem computes_add :
    Computes (addDebug left right) (Fits (left.toInt + right.toInt))
      (left + right) :=
  computes_checked toInt_add_of_fits

theorem computes_mul :
    Computes (mulDebug left right) (Fits (left.toInt * right.toInt))
      (left * right) :=
  computes_checked toInt_mul_of_fits

theorem computes_neg :
    Computes (negDebug left) (Fits (-left.toInt)) (-left) := by
  apply computes_checked
  intro fits
  rw [Int64.toInt_neg]
  exact Int.bmod_eq_of_le (by omega) (by omega)

theorem computes_abs :
    Computes (absDebug left) (left ≠ Int64.minValue) (abs left) := by
  have bounds := fits_toInt left
  have least : Int64.minValue.toInt = -2 ^ 63 := by decide
  have fits : Fits (left.toInt.natAbs : Int) ↔ left ≠ Int64.minValue := by
    rw [ne_eq, ← Int64.toInt_inj, least]
    constructor
    · intro inside same
      omega
    · intro finite
      constructor <;> omega
  have computed : Computes (absDebug left) (Fits (left.toInt.natAbs : Int))
      (abs left) :=
    computes_checked fun inside => toInt_abs (fits.mp inside)
  exact computed.congr fits

/-- A division by a positive number cannot overflow. -/
theorem computes_div (positive : 0 < right.toInt) :
    Computes (divDebug left right) True (left / right) := by
  have bounds := fits_toInt left
  have nonzero : right ≠ 0 := by
    rintro rfl
    exact absurd positive (by decide)
  have small := Int.natAbs_tdiv_le_natAbs left.toInt right.toInt
  have sign : 0 ≤ left.toInt → 0 ≤ left.toInt.tdiv right.toInt :=
    fun nonneg => Int.tdiv_nonneg nonneg positive.le
  have opposite : left.toInt ≤ 0 → left.toInt.tdiv right.toInt ≤ 0 := by
    intro nonpos
    have flipped := Int.tdiv_nonneg (Int.neg_nonneg.mpr nonpos) positive.le
    rw [Int.neg_tdiv] at flipped
    omega
  have fits : Fits (left.toInt.tdiv right.toInt) := by
    constructor <;> omega
  unfold divDebug
  rw [if_neg nonzero]
  apply Computes.congr (computes_checked fun _ => ?_) (iff_true_intro fits)
  rw [Int64.toInt_div]
  exact Int.bmod_eq_of_le (by omega) (by omega)

theorem computes_rem (positive : 0 < right.toInt) :
    Computes (remDebug left right) True (left % right) :=
  (computes_div positive).map fun _ => left % right

end Operations

end ChudMoney.Lib.Checked
