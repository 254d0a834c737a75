import Mathlib.Data.Set.Function

/-!
# Texts that are read as values

A codec writes a value as one of the texts that are read as it.  The text it
writes is the normal form of all of them.
-/

namespace ChudMoney.Lib.Codecs

/-- Every value in `domain` is read from what is written, and no other is. -/
structure Codec (Text Value : Type) where
  read : Text → Option Value
  write : Value → Text
  domain : Set Value
  read_write : ∀ value ∈ domain, read (write value) = some value
  mem_of_read : ∀ text value, read text = some value → value ∈ domain

namespace Codec

variable {Text Value : Type} (codec : Codec Text Value)

/-- The text written for what is read. -/
def normal (text : Text) : Option Text :=
  (codec.read text).map codec.write

/-- Different values are written as different texts. -/
theorem write_injOn : Set.InjOn codec.write codec.domain := by
  intro one isOne two isTwo same
  apply Option.some_injective
  rw [← codec.read_write one isOne, same, codec.read_write two isTwo]

/-- What has been read is read again from what is written for it. -/
theorem read_again {text : Text} {value : Value}
    (isRead : codec.read text = some value) :
    codec.read (codec.write value) = some value :=
  codec.read_write value (codec.mem_of_read text value isRead)

/-- A normal form is its own normal form. -/
theorem normal_bind_normal (text : Text) :
    (codec.normal text).bind codec.normal = codec.normal text := by
  rw [normal]
  cases isRead : codec.read text with
  | none => rfl
  | some value =>
      rw [Option.map_some, Option.bind_some, normal, codec.read_again isRead,
        Option.map_some]

/-- Texts share a normal form if and only if they are read alike. -/
theorem normal_eq_iff (one two : Text) :
    codec.normal one = codec.normal two ↔ codec.read one = codec.read two := by
  constructor
  · intro same
    rw [normal, normal] at same
    cases isOne : codec.read one with
    | none =>
        rw [isOne, Option.map_none] at same
        exact (Option.map_eq_none_iff.mp same.symm).symm
    | some value =>
        rw [isOne, Option.map_some] at same
        rcases Option.map_eq_some_iff.mp same.symm with ⟨other, isTwo, alike⟩
        have equal := codec.write_injOn (codec.mem_of_read _ _ isTwo)
          (codec.mem_of_read _ _ isOne) alike
        rw [isTwo, equal]
  · intro same
    rw [normal, normal, same]

end Codec

end ChudMoney.Lib.Codecs
