import ChudMoney.Lib.Calendar
import ChudMoney.Lib.Text

/-!
# Timestamps as texts

`to_rfc3339_opts` of a UTC instant in microseconds.  A year outside of 0 to
9999 is written with its sign.
-/

namespace ChudMoney.Lib.Rfc3339

open ChudMoney.Lib.Calendar
open ChudMoney.Lib.Text

/-- `{:04}` of a year of four digits and `{:+05}` of any other. -/
def yearText (year : Int) : List Char :=
  if 0 ≤ year ∧ year ≤ 9999 then zeroPadded 4 year.natAbs
  else (if year < 0 then '-' else '+') :: zeroPadded 4 year.natAbs

/-- The text of an instant in microseconds, to the microsecond. -/
def rfc3339Micros (us : Int) : String :=
  let day := us / 86400000000
  let rest := (us % 86400000000).toNat
  let (year, month) := (yearOf day, monthOf day)
  String.ofList (yearText year ++ '-' :: zeroPadded 2 month ++
    '-' :: zeroPadded 2 (day - monthStart year month + 1).toNat ++
    'T' :: zeroPadded 2 (rest / 3600000000) ++
    ':' :: zeroPadded 2 (rest / 60000000 % 60) ++
    ':' :: zeroPadded 2 (rest / 1000000 % 60) ++
    '.' :: zeroPadded 6 (rest % 1000000) ++ ['Z'])

example : rfc3339Micros 1500000 = "1970-01-01T00:00:01.500000Z" := by
  decide +kernel

example : rfc3339Micros (-62167219200000001) =
    "-0001-12-31T23:59:59.999999Z" := by
  decide +kernel

/-- The characters of a timestamp. -/
def stampChar (c : Char) : Bool :=
  c.isDigit || ['-', '+', 'T', ':', '.', 'Z'].contains c

theorem stampChar_zeroPadded {width n : Nat} :
    ∀ c ∈ zeroPadded width n, stampChar c = true := by
  intro c member
  rw [stampChar, isDigit_of_mem_zeroPadded member, Bool.true_or]

theorem stampChar_yearText {year : Int} :
    ∀ c ∈ yearText year, stampChar c = true := by
  intro c member
  unfold yearText at member
  split at member
  · exact stampChar_zeroPadded c member
  · rcases List.mem_cons.mp member with rfl | digit
    · split <;> decide
    · exact stampChar_zeroPadded c digit

/-- A timestamp is written with digits, its separators and no others. -/
theorem stampChar_rfc3339Micros {us : Int} :
    ∀ c ∈ (rfc3339Micros us).toList, stampChar c = true := by
  intro c member
  rw [rfc3339Micros, String.toList_ofList] at member
  simp only [List.mem_append, List.mem_cons, List.not_mem_nil,
    or_false] at member
  rcases member with ((((((year | rfl | month) | rfl | day) | rfl | hour) |
    rfl | minute) | rfl | second) | rfl | micro) | rfl
  · exact stampChar_yearText c year
  · decide
  · exact stampChar_zeroPadded c month
  · decide
  · exact stampChar_zeroPadded c day
  · decide
  · exact stampChar_zeroPadded c hour
  · decide
  · exact stampChar_zeroPadded c minute
  · decide
  · exact stampChar_zeroPadded c second
  · decide
  · exact stampChar_zeroPadded c micro
  · decide

end ChudMoney.Lib.Rfc3339
