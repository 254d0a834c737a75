import ChudMoney.Lib.Text

/-!
# JSON values and derived struct readers

`Value` is a parsed JSON value with serde_json's three kinds of number.  The
readers below follow the `Deserialize` implementations that serde derives: a
struct is read from an object by field name or alias, or from an array by
position; a defaulted field may be missing; an `Option` field may be `null`.
Unknown keys are ignored and a field met twice is an error.
-/

namespace ChudMoney.Lib.Json

open ChudMoney.Lib.Text

/-- `serde_json::Number`. -/
inductive Number where
  | posInt (value : UInt64)
  | negInt (value : Int64)
  | float (value : F64)
  deriving DecidableEq

/-- `serde_json::Value`. -/
inductive Value where
  | null
  | bool (value : Bool)
  | number (value : Number)
  | string (value : String)
  | array (items : List Value)
  | object (entries : List (String × Value))

namespace Value

def asString : Value → Option String
  | .string value => some value
  | _ => none

def asU64 : Value → Option UInt64
  | .number (.posInt value) => some value
  | _ => none

def asI64 : Value → Option Int64
  | .number (.posInt value) =>
      if value.toNat < 2 ^ 63 then some (Int64.ofNat value.toNat) else none
  | .number (.negInt value) => some value
  | _ => none

/-- `Vec<T>`. -/
def asVec {α : Type} (item : Value → Option α) : Value → Option (List α)
  | .array items => items.mapM item
  | _ => none

/-- `[T; 2]`. -/
def asPair {α : Type} (item : Value → Option α) : Value → Option (α × α)
  | .array [first, second] => do return (← item first, ← item second)
  | _ => none

/--
The values of a struct's fields, each given by its names.  `none` inside the
list is a missing field; `none` outside is a value no struct is read from.
-/
def fields (names : List (List String)) : Value → Option (List (Option Value))
  | .object entries =>
      names.mapM fun aliases =>
        match entries.filter fun entry => entry.1 ∈ aliases with
        | [] => some none
        | [entry] => some (some entry.2)
        | _ => none
  | .array items =>
      if items.length ≤ names.length then
        some (items.map some ++
          List.replicate (names.length - items.length) none)
      else none
  | _ => none

/-- A field that must be present. -/
def required {α : Type} (read : Value → Option α) (field : Option Value) :
    Option α :=
  field.bind read

/-- A `#[serde(default)]` field. -/
def defaulted {α : Type} (default : α) (read : Value → Option α) :
    Option Value → Option α
  | none => some default
  | some value => read value

/-- A `#[serde(default)]` field of `Option` type. -/
def optional {α : Type} (read : Value → Option α) :
    Option Value → Option (Option α)
  | none => some none
  | some .null => some none
  | some value => (read value).map some

end Value

/--
What the program relies on from its parsing libraries: `serde_json::from_str`
up to the value it reads, and `DateTime::parse_from_rfc3339` up to the instant.
-/
structure Readers (Text : Type) where
  fromStr : Text → Option Value
  parseFromRfc3339 : String → Option Int

/-- Texts that are already parsed, and no readable instant. -/
def Readers.parsed : Readers Value := ⟨some, fun _ => none⟩

end ChudMoney.Lib.Json
