import ChudMoney.Lib.Json
import ChudMoney.Lib.Patterns

/-!
# JSON schemas

A schema is made of the keywords of the JSON Schema vocabulary.  A keyword for
one type of value asks nothing of a value of another type.
-/

namespace ChudMoney.Lib.Schemas

open ChudMoney.Lib.Json
open ChudMoney.Lib.Patterns

/-- The types that `type` names. -/
inductive JsonType where
  | object
  | array
  | string
  deriving DecidableEq, Repr

def JsonType.Has : JsonType → Value → Prop
  | .object, .object _ | .array, .array _ | .string, .string _ => True
  | _, _ => False

inductive Schema where
  | always
  | both (first second : Schema)
  | ofType (type : JsonType)
  | enum (texts : List String)
  | unless (schema : Schema)
  | pattern (text : String)
  | minLength (least : Nat)
  | maxLength (most : Nat)
  | minItems (least : Nat)
  | items (schema : Schema)
  | required (names : List String)
  | onlyProperties (names : List String)
  | property (name : String) (schema : Schema)

namespace Schema

/-- Several keywords. -/
def all (schemas : List Schema) : Schema :=
  schemas.foldr .both .always

/-- An object with these properties and no others. -/
def object (names : List String) (properties : List (String × Schema)) :
    Schema :=
  all
    ([.ofType .object, .onlyProperties (properties.map Prod.fst),
      .required names] ++
        properties.map fun entry => .property entry.1 entry.2)

/-- The value is valid under the schema. -/
def Valid : Schema → Value → Prop
  | .always, _ => True
  | .both first second, value => Valid first value ∧ Valid second value
  | .ofType type, value => type.Has value
  | .enum texts, value => ∃ text ∈ texts, value = .string text
  | .unless schema, value => ¬ Valid schema value
  | .pattern text, .string s => Accepts text s
  | .minLength least, .string s => least ≤ s.length
  | .maxLength most, .string s => s.length ≤ most
  | .minItems least, .array values => least ≤ values.length
  | .items schema, .array values => ∀ value ∈ values, Valid schema value
  | .required names, .object entries =>
      ∀ name ∈ names, ∃ value, (name, value) ∈ entries
  | .onlyProperties names, .object entries =>
      ∀ entry ∈ entries, entry.1 ∈ names
  | .property name schema, .object entries =>
      ∀ value, (name, value) ∈ entries → Valid schema value
  | _, _ => True

@[simp]
theorem valid_all {schemas : List Schema} {value : Value} :
    Valid (all schemas) value ↔ ∀ schema ∈ schemas, Valid schema value := by
  induction schemas with
  | nil => simp [all, Valid]
  | cons schema schemas ih =>
      rw [List.forall_mem_cons, ← ih]
      rfl

/-- What an object schema asks of an object. -/
theorem valid_object {names : List String}
    {properties : List (String × Schema)} {entries : List (String × Value)} :
    Valid (object names properties) (.object entries) ↔
      (∀ entry ∈ entries, entry.1 ∈ properties.map Prod.fst) ∧
        (∀ name ∈ names, ∃ value, (name, value) ∈ entries) ∧
          ∀ entry ∈ properties, ∀ value, (entry.1, value) ∈ entries →
            Valid entry.2 value := by
  rw [object, valid_all, List.forall_mem_append, List.forall_mem_map]
  simp only [List.forall_mem_cons, Valid, JsonType.Has, true_and]
  simp [and_assoc]

end Schema

end ChudMoney.Lib.Schemas
