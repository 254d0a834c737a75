import ChudMoney.Lib.Json
import ChudMoney.Lib.JsonArray
import Mathlib

/-!
# Compact JSON texts

What serde_json writes for a value: no white space, and in strings only
quotes, backslashes and control characters escaped.  How a double is printed
is a parameter.
-/

namespace ChudMoney.Lib.Json

open ChudMoney.Lib.JsonArray
open ChudMoney.Lib.Text

/-- One hexadecimal digit. -/
def hexDigit (n : Nat) : Char :=
  "0123456789abcdef".toList.getD n '0'

/-- A character inside a JSON string. -/
def escape (c : Char) : List Char :=
  if c = '"' then ['\\', '"']
  else if c = '\\' then ['\\', '\\']
  else if c.toNat = 0x8 then ['\\', 'b']
  else if c.toNat = 0x9 then ['\\', 't']
  else if c.toNat = 0xA then ['\\', 'n']
  else if c.toNat = 0xC then ['\\', 'f']
  else if c.toNat = 0xD then ['\\', 'r']
  else if c.toNat < 0x20 then
    ['\\', 'u', '0', '0', hexDigit (c.toNat / 16), hexDigit (c.toNat % 16)]
  else [c]

/-- The text of a string. -/
def quote (text : String) : String :=
  String.ofList ('"' :: (text.toList.flatMap escape ++ ['"']))

/-- The text of a number. -/
def Number.write (writeF64 : F64 → String) : Number → String
  | .posInt value => toString value.toNat
  | .negInt value => toString value.toInt
  | .float value => writeF64 value

mutual

/-- `serde_json::Value::to_string`. -/
def Value.write (writeF64 : F64 → String) : Value → String
  | .null => "null"
  | .bool value => if value then "true" else "false"
  | .number value => value.write writeF64
  | .string value => quote value
  | .array items => arrayText (writeItems writeF64 items)
  | .object entries =>
      "\x7b" ++ ",".intercalate (writeEntries writeF64 entries) ++ "\x7d"

def writeItems (writeF64 : F64 → String) : List Value → List String
  | [] => []
  | value :: items => value.write writeF64 :: writeItems writeF64 items

def writeEntries (writeF64 : F64 → String) :
    List (String × Value) → List String
  | [] => []
  | entry :: entries =>
      writeEntry writeF64 entry :: writeEntries writeF64 entries

def writeEntry (writeF64 : F64 → String) : String × Value → String
  | (key, value) => quote key ++ ":" ++ value.write writeF64

end

example : (Value.object [("a", .array [.null, .string "\t\""])]).write
    (fun _ => "0.5") = "\x7b\"a\":[null,\"\\t\\\"\"]\x7d" := by
  decide

theorem utf8ByteSize_ofList (chars : List Char) :
    (String.ofList chars).utf8ByteSize = (chars.map Char.utf8Size).sum := by
  induction chars with
  | nil => rfl
  | cons c chars ih =>
      rw [← List.singleton_append, String.ofList_append,
        String.utf8ByteSize_append, ih, ← String.singleton_eq_ofList,
        String.utf8ByteSize_singleton]
      rfl

/-- Characters without an escape are printed as they are. -/
theorem flatMap_escape {chars : List Char}
    (plain : ∀ c ∈ chars, escape c = [c]) : chars.flatMap escape = chars := by
  induction chars with
  | nil => rfl
  | cons c chars ih =>
      have rest : ∀ other ∈ chars, escape other = [other] :=
        fun other member => plain other (List.mem_cons_of_mem c member)
      rw [List.flatMap_cons, plain c List.mem_cons_self, ih rest]
      rfl

/-! ## Strings as elements of an array -/

/-- A hexadecimal digit is not one of the characters a scanner minds. -/
theorem hexDigit_plain (n : Nat) : hexDigit n ≠ '\\' ∧ hexDigit n ≠ '"' := by
  by_cases small : n < 16
  · have digits : ∀ digit : Fin 16,
        hexDigit digit ≠ '\\' ∧ hexDigit digit ≠ '"' := by decide
    exact digits ⟨n, small⟩
  · have zero : hexDigit n = '0' := by
      rw [hexDigit, List.getD_eq_getElem?_getD, List.getElem?_eq_none]
      · rfl
      · exact Nat.le_of_not_lt small
    rw [zero]
    decide

/-- An escaped character leaves the scanner inside the string. -/
theorem element_escape (depth : Nat) (c : Char) (rest : List Char) :
    Element depth (.quoted depth) (escape c ++ rest) ↔
      Element depth (.quoted depth) rest := by
  unfold escape
  split_ifs with isQuote isSlash _ _ _ _ _ _
  all_goals
    simp [Element, Place.next, hexDigit_plain]
  all_goals simp_all

/-- A string is an element of an array at any depth. -/
theorem isElement_quote (depth : Nat) (text : String) :
    IsElement depth (quote text) := by
  have inside : ∀ chars : List Char,
      Element depth (.quoted depth) (chars.flatMap escape ++ ['"']) := by
    intro chars
    induction chars with
    | nil => simp [Element, Place.next]
    | cons c chars ih =>
        rw [List.flatMap_cons, List.append_assoc, element_escape]
        exact ih
  constructor
  · simp [quote]
  · rw [quote, String.toList_ofList]
    exact ⟨by simp [Ends], inside text.toList⟩

/-! ## Other texts as elements of an array -/

/-- The characters that a scanner minds outside strings. -/
def marks : List Char :=
  ['"', '[', ']', '{', '}', ',']

/-- A text without any of these characters is an element. -/
theorem isElement_of_plain {depth : Nat} {text : String}
    (nonempty : text ≠ "") (plain : ∀ c ∈ text.toList, c ∉ marks) :
    IsElement depth text := by
  refine ⟨nonempty, ?_⟩
  revert plain
  generalize text.toList = chars
  intro plain
  induction chars with
  | nil => rfl
  | cons c chars ih =>
      have unmarked := plain c (by simp)
      simp only [marks, List.mem_cons, List.not_mem_nil, or_false,
        not_or] at unmarked
      constructor
      · simp [Ends, unmarked]
      · have stays : (Place.plain depth).next c = .plain depth := by
          simp [Place.next, unmarked]
        rw [stays]
        exact ih fun other member => plain other (List.mem_cons_of_mem _ member)

/-- A decimal integer is an element. -/
theorem isElement_toString (depth : Nat) (value : Int) :
    IsElement depth (toString value) := by
  have digit : ∀ c : Char, c.isDigit = true → c ∉ marks := by
    intro c digit marked
    simp only [marks, List.mem_cons, List.not_mem_nil, or_false] at marked
    rcases marked with rfl | rfl | rfl | rfl | rfl | rfl <;>
      exact absurd digit (by decide)
  cases value with
  | ofNat n =>
      show IsElement depth n.repr
      apply isElement_of_plain (Nat.repr_ne_empty)
      intro c member
      rw [Nat.toList_repr] at member
      exact digit c (isDigit_of_mem_toDigits member)
  | negSucc n =>
      show IsElement depth ("-" ++ (n + 1).repr)
      apply isElement_of_plain (by simp)
      intro c member
      rw [String.toList_append, Nat.toList_repr] at member
      rcases List.mem_append.mp member with sign | inDigits
      · rw [List.mem_singleton.mp sign]
        decide
      · exact digit c (isDigit_of_mem_toDigits inDigits)

end ChudMoney.Lib.Json
