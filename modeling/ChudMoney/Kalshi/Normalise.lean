import ChudMoney.Kalshi.ParseScaled
import ChudMoney.Lib.Codecs

/-!
# Fixed point numbers are written in one way

`formatScaled` and `parseScaled` are a codec of the 64-bit integers other than
the least one, which no text is parsed as.
-/

namespace ChudMoney.Kalshi.Normalise

open ChudMoney.Kalshi.Book
open ChudMoney.Kalshi.ParseScaled
open ChudMoney.Lib.Codecs
open ChudMoney.Lib.Decimals

/-- The units of a number are an `i64` before they get its sign. -/
theorem ne_minValue_of_parse {s : String} {scale : Nat} (small : scale ≤ 18)
    {v : Int64} (parsed : parseScaled s scale = some v) :
    v ≠ Int64.minValue := by
  have read := parsed
  rw [parseScaled_eq s small] at read
  rcases Option.bind_eq_some_iff.mp read with ⟨decimal, isText, -⟩
  rcases (parseScaled_text small (ofText_eq_some_iff.mp isText)).mp parsed with
    ⟨bound, isSigned⟩
  have greatest : Int64.maxValue.toInt = 2 ^ 63 - 1 := by decide
  have least : Int64.minValue.toInt = -2 ^ 63 := by decide
  rintro rfl
  rw [least, Decimal.signum] at isSigned
  split at isSigned <;> omega

/-- The fixed point numbers of a scale, as texts. -/
def fixedPoint {scale : Nat} (small : scale ≤ 18) : Codec String Int64 where
  read s := parseScaled s scale
  write v := formatScaled v scale
  domain := {v | v ≠ Int64.minValue}
  read_write _ finite := parse_format finite small
  mem_of_read _ _ parsed := ne_minValue_of_parse small parsed

/-- The text that `formatScaled` gives for what a wire string is parsed as. -/
def normalised (scale : Nat) (s : String) : Option String :=
  (parseScaled s scale).map fun v => formatScaled v scale

theorem fixedPoint_normal {scale : Nat} (small : scale ≤ 18) :
    (fixedPoint small).normal = normalised scale :=
  rfl

/--
The magnitude of the least integer is no `i64`: it is formatted with two signs,
which no text of a number has.
-/
theorem parse_format_minValue {scale : Nat} (small : scale ≤ 18) :
    parseScaled (formatScaled Int64.minValue scale) scale = none := by
  decide +revert +kernel

/-- Different numbers are formatted differently, the least one included. -/
theorem formatScaled_injective {scale : Nat} (small : scale ≤ 18) :
    Function.Injective fun v => formatScaled v scale := by
  have apart : ∀ v, v ≠ Int64.minValue →
      formatScaled v scale ≠ formatScaled Int64.minValue scale := by
    intro v finite same
    have parsed := parse_format finite small
    rw [same, parse_format_minValue small] at parsed
    cases parsed
  intro v w same
  by_cases isLeast : v = Int64.minValue
  · by_cases isLeastToo : w = Int64.minValue
    · exact isLeast.trans isLeastToo.symm
    · rw [isLeast] at same
      exact absurd same.symm (apart w isLeastToo)
  · by_cases isLeast' : w = Int64.minValue
    · rw [isLeast'] at same
      exact absurd same (apart v isLeast)
    · have one : v ∈ (fixedPoint small).domain := isLeast
      have two : w ∈ (fixedPoint small).domain := isLeast'
      exact (fixedPoint small).write_injOn one two same

/-- Wire strings share a normal form if and only if they are parsed alike. -/
theorem normalised_eq_iff {scale : Nat} (small : scale ≤ 18) (s t : String) :
    normalised scale s = normalised scale t ↔
      parseScaled s scale = parseScaled t scale := by
  rw [← fixedPoint_normal small]
  exact (fixedPoint small).normal_eq_iff s t

/--
What is formatted is parsed back, what is parsed is parsed again from its
format, and a normalised text stays as it is.
-/
theorem format_parse_inverse {scale : Nat} (small : scale ≤ 18) :
    (∀ v, v ≠ Int64.minValue →
      parseScaled (formatScaled v scale) scale = some v) ∧
      (Function.Injective fun v => formatScaled v scale) ∧
      (∀ s v, parseScaled s scale = some v →
        parseScaled (formatScaled v scale) scale = some v) ∧
      ∀ s, (normalised scale s).bind (normalised scale) =
        normalised scale s := by
  refine ⟨?_, formatScaled_injective small, ?_, ?_⟩
  · intro v finite
    exact parse_format finite small
  · intro s v parsed
    exact parse_format (ne_minValue_of_parse small parsed) small
  · intro s
    rw [← fixedPoint_normal small]
    exact (fixedPoint small).normal_bind_normal s

/-- A size of two places, and a wire string with one more than that. -/
theorem format_parse_inverse_size :
    parseScaled (formatScaled (-23221) 2) 2 = some (-23221) ∧
      formatScaled (-23221) 2 ≠ formatScaled 23221 2 ∧
      parseScaled (formatScaled 23221 2) 2 = some 23221 ∧
      (normalised 2 "232.219").bind (normalised 2) =
        normalised 2 "232.219" := by
  have inverse := format_parse_inverse (by decide : 2 ≤ 18)
  refine ⟨inverse.1 (-23221) (by decide), ?_, ?_, inverse.2.2.2 "232.219"⟩
  · intro same
    exact absurd (inverse.2.1 same) (by decide)
  · exact inverse.2.2.1 "232.219" 23221 (by decide +kernel)

end ChudMoney.Kalshi.Normalise
