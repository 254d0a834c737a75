import ChudMoney.Lib.JsonText
import ChudMoney.Lib.MachineInt

/-!
# Reading compact JSON

A reader of the scalars of JSON and of arrays of them, after the grammar: no
white space, no control character in a string, no leading zeros.  What was
written is read back, and what is read is one line.

How a decimal text becomes a double is a parameter.
-/

namespace ChudMoney.Lib.Json

open ChudMoney.Lib.JsonArray
open ChudMoney.Lib.MachineInt
open ChudMoney.Lib.Text

/-! ## Strings -/

/-- The value of a hexadecimal digit. -/
def hexValue (c : Char) : Option Nat :=
  if c.isDigit then some (c.toNat - 48)
  else if 'a' ≤ c ∧ c ≤ 'f' then some (c.toNat - 87)
  else if 'A' ≤ c ∧ c ≤ 'F' then some (c.toNat - 55)
  else none

/-- The character behind a backslash. -/
def unescape (c : Char) : Option Char :=
  if c = '"' ∨ c = '\\' ∨ c = '/' then some c
  else if c = 'b' then some (Char.ofNat 0x8)
  else if c = 't' then some (Char.ofNat 0x9)
  else if c = 'n' then some (Char.ofNat 0xA)
  else if c = 'f' then some (Char.ofNat 0xC)
  else if c = 'r' then some (Char.ofNat 0xD)
  else none

/-- Where in a string a reader is; the code of a character may be underway. -/
inductive Reading where
  | plain
  | escaped
  | hex (left : Nat) (code : Nat)

/--
The characters of a string, up to the quote that ends the text.  Half of a
surrogate pair is not read.
-/
def readChars : Reading → List Char → Option (List Char)
  | _, [] => none
  | .plain, c :: rest =>
      if c = '"' then if rest = [] then some [] else none
      else if c = '\\' then readChars .escaped rest
      else if c.toNat < 0x20 then none
      else (readChars .plain rest).map (c :: ·)
  | .escaped, c :: rest =>
      if c = 'u' then readChars (.hex 3 0) rest
      else (unescape c).bind fun c => (readChars .plain rest).map (c :: ·)
  | .hex left code, c :: rest =>
      (hexValue c).bind fun digit =>
        let code := code * 16 + digit
        match left with
        | left + 1 => readChars (.hex left code) rest
        | 0 =>
            if code.isValidChar then
              (readChars .plain rest).map (Char.ofNat code :: ·)
            else none

theorem hexValue_hexDigit {n : Nat} (small : n < 16) :
    hexValue (hexDigit n) = some n := by
  have digits : ∀ n : Fin 16, hexValue (hexDigit n) = some n.val := by
    decide
  exact digits ⟨n, small⟩

/-- An escaped character is read back. -/
theorem readChars_escape (c : Char) (rest : List Char) :
    readChars .plain (escape c ++ rest) =
      (readChars .plain rest).map (c :: ·) := by
  have ofCode : ∀ n, c.toNat = n → c = Char.ofNat n := by
    rintro n rfl
    exact (Char.ofNat_toNat c).symm
  unfold escape
  split_ifs with quote slash backspace tab newline feed return_ control
  · rw [quote]
    rfl
  · rw [slash]
    rfl
  · rw [ofCode _ backspace]
    rfl
  · rw [ofCode _ tab]
    rfl
  · rw [ofCode _ newline]
    rfl
  · rw [ofCode _ feed]
    rfl
  · rw [ofCode _ return_]
    rfl
  · have high : hexValue (hexDigit (c.toNat / 16)) = some (c.toNat / 16) :=
      hexValue_hexDigit (by omega)
    have low : hexValue (hexDigit (c.toNat % 16)) = some (c.toNat % 16) :=
      hexValue_hexDigit (by omega)
    have zero : hexValue '0' = some 0 := rfl
    have code : c.toNat / 16 * 16 + c.toNat % 16 = c.toNat :=
      Nat.div_add_mod' _ _
    have valid : c.toNat.isValidChar := c.valid
    simp [readChars, zero, high, low, code, valid]
  · simp [readChars, quote, slash, control]

/-- The text of a string without its quotes. -/
def readString (text : String) : Option String :=
  match text.toList with
  | '"' :: rest => (readChars .plain rest).map String.ofList
  | _ => none

/-- A string is read back, whatever characters it has. -/
theorem readString_quote (text : String) :
    readString (quote text) = some text := by
  have body : ∀ chars : List Char,
      readChars .plain (chars.flatMap escape ++ ['"']) = some chars := by
    intro chars
    induction chars with
    | nil => rfl
    | cons c chars ih =>
        rw [List.flatMap_cons, List.append_assoc, readChars_escape, ih]
        rfl
  rw [readString, quote, String.toList_ofList]
  simp [body]

/-! ## Numbers -/

/-- What follows an optional fraction. -/
def readFraction : List Char → Option (List Char)
  | '.' :: rest =>
      if (rest.takeWhile Char.isDigit).isEmpty then none
      else some (rest.dropWhile Char.isDigit)
  | rest => some rest

/-- Nothing, or an exponent and nothing else. -/
def isExponent : List Char → Bool
  | [] => true
  | c :: rest =>
      let digits := (F64.sign rest).2
      (c = 'e' || c = 'E') && !digits.isEmpty && digits.all Char.isDigit

/-- The digits of a number start with a zero only if it is the only one. -/
def isWhole (digits : List Char) : Bool :=
  !digits.isEmpty && (digits.head? != some '0' || digits.length == 1)

/-- `serde_json::Number::from(i64)`. -/
def Number.ofI64 (value : Int64) : Number :=
  if 0 ≤ value.toInt then .posInt (.ofNat value.toInt.toNat) else .negInt value

/-- An integer, or `None` when it is too large or is the negative zero. -/
def integerOf (negative : Bool) (n : Nat) : Option Number :=
  if negative then
    if 0 < n then (checked (-n)).map .negInt else none
  else if n < 2 ^ 64 then some (.posInt (.ofNat n)) else none

/-- A number without its sign; one that is no integer is a double. -/
def readMagnitude (float : Option F64) (negative : Bool) (body : List Char) :
    Option Number :=
  let digits := body.takeWhile Char.isDigit
  if isWhole digits then
    match body.dropWhile Char.isDigit with
    | [] => (integerOf negative (digitsValue digits)).or (float.map .float)
    | rest =>
        (readFraction rest).bind fun rest =>
          if isExponent rest then float.map .float else none
  else none

/-- A number of JSON. -/
def readNumber (parseF64 : String → Option F64) (text : String) :
    Option Number :=
  match text.toList with
  | '-' :: rest => readMagnitude (parseF64 text) true rest
  | body => readMagnitude (parseF64 text) false body

/-- A positive number is written without a leading zero. -/
theorem head?_toDigits {n : Nat} (positive : 0 < n) :
    (Nat.toDigits 10 n).head? ≠ some '0' := by
  induction n using Nat.strong_induction_on with
  | h n ih =>
      by_cases small : n < 10
      · have digits : ∀ n : Fin 10, 0 < n.val → n.val.digitChar ≠ '0' := by
          decide
        rw [Nat.toDigits_of_lt_base small]
        simpa using digits ⟨n, small⟩ positive
      · have shorter := ih (n / 10) (by omega) (by omega)
        rw [Nat.toDigits_of_base_le (by omega) (by omega),
          List.head?_append_of_ne_nil _ Nat.toDigits_ne_nil]
        exact shorter

theorem isWhole_toDigits (n : Nat) : isWhole (Nat.toDigits 10 n) = true := by
  by_cases zero : n = 0
  · subst zero
    rfl
  · have head := head?_toDigits (Nat.pos_of_ne_zero zero)
    simp [isWhole, head, Nat.toDigits_ne_nil]

/-- Digits alone are an integer. -/
theorem readMagnitude_toDigits (float : Option F64) (negative : Bool) (n : Nat) :
    readMagnitude float negative (Nat.toDigits 10 n) =
      (integerOf negative n).or (float.map .float) := by
  have digits : ∀ c ∈ Nat.toDigits 10 n, c.isDigit = true :=
    fun c member => isDigit_of_mem_toDigits member
  have all : (Nat.toDigits 10 n).takeWhile Char.isDigit = Nat.toDigits 10 n :=
    List.takeWhile_eq_self_iff.mpr digits
  have none_ : (Nat.toDigits 10 n).dropWhile Char.isDigit = [] :=
    List.dropWhile_eq_nil_iff.mpr digits
  simp [readMagnitude, all, none_, isWhole_toDigits]

/-- An `i64` is read back as the same number. -/
theorem readNumber_toString (parseF64 : String → Option F64) (value : Int64) :
    readNumber parseF64 (toString value.toInt) =
      some (Number.ofI64 value) := by
  have bounds := fits_toInt value
  cases sign : value.toInt with
  | ofNat n =>
      rw [sign, Int.ofNat_eq_natCast] at bounds
      have text : (toString (Int.ofNat n)).toList = Nat.toDigits 10 n :=
        Nat.toList_repr
      have unsigned : readNumber parseF64 (toString (Int.ofNat n)) =
          readMagnitude (parseF64 (toString (Int.ofNat n))) false
            (Nat.toDigits 10 n) := by
        rw [readNumber, text]
        split
        next rest written =>
          have digit : ('-').isDigit = true :=
            isDigit_of_mem_toDigits (n := n) (by rw [written]; simp)
          exact absurd digit (by decide)
        next => rfl
      have small : n < 2 ^ 64 := by omega
      rw [unsigned, readMagnitude_toDigits, integerOf, if_neg (by simp),
        if_pos small, Option.some_or, Number.ofI64, sign]
      simp
  | negSucc n =>
      have text : (toString (Int.negSucc n)).toList =
          '-' :: Nat.toDigits 10 (n + 1) := by
        show ("-" ++ (n + 1).repr).toList = _
        rw [String.toList_append, Nat.toList_repr]
        rfl
      have held : checked (-((n + 1 : Nat) : Int)) = some value := by
        apply checked_eq_some_iff.mpr
        rw [sign]
        rfl
      have negative : ¬ 0 ≤ value.toInt := by
        rw [sign]
        simp
      rw [readNumber, text]
      show readMagnitude _ true _ = _
      rw [readMagnitude_toDigits, integerOf, if_pos rfl, if_pos (by omega),
        held, Number.ofI64, if_neg negative]
      rfl

/-! ## The characters of a text that is read -/

/-- The characters that a number is written with. -/
def numberChar (c : Char) : Bool :=
  c.isDigit || ['-', '+', '.', 'e', 'E'].contains c

theorem numberChar_of_isExponent {text : List Char}
    (exponent : isExponent text = true) : ∀ c ∈ text, numberChar c = true := by
  cases text with
  | nil => simp
  | cons mark rest =>
      simp only [isExponent, Bool.and_eq_true, Bool.or_eq_true,
        decide_eq_true_eq, List.all_eq_true] at exponent
      rcases exponent with ⟨⟨isMark, -⟩, digits⟩
      have marked : numberChar mark = true := by
        rcases isMark with rfl | rfl <;> decide
      have later : ∀ c ∈ (F64.sign rest).2, numberChar c = true := by
        intro c member
        rw [numberChar, digits c member, Bool.true_or]
      have signed : ∀ c ∈ rest, numberChar c = true := by
        revert later
        rw [F64.sign.eq_def]
        split
        · intro later c member
          rcases List.mem_cons.mp member with rfl | inside
          · decide
          · exact later c inside
        · intro later c member
          rcases List.mem_cons.mp member with rfl | inside
          · decide
          · exact later c inside
        · exact id
      intro c member
      rcases List.mem_cons.mp member with rfl | inside
      · exact marked
      · exact signed c inside

theorem numberChar_of_takeWhile {text : List Char} :
    ∀ c ∈ text.takeWhile Char.isDigit, numberChar c = true := by
  intro c member
  rw [numberChar, List.mem_takeWhile_imp member, Bool.true_or]

theorem numberChar_of_readFraction {text rest : List Char}
    (fraction : readFraction text = some rest)
    (later : ∀ c ∈ rest, numberChar c = true) :
    ∀ c ∈ text, numberChar c = true := by
  rw [readFraction.eq_def] at fraction
  split at fraction
  · split at fraction
    · cases fraction
    · cases fraction
      rename_i tail _
      intro c member
      rcases List.mem_cons.mp member with rfl | inside
      · decide
      · rw [← List.takeWhile_append_dropWhile (p := Char.isDigit) (l := tail),
          List.mem_append] at inside
        rcases inside with digit | other
        · exact numberChar_of_takeWhile c digit
        · exact later c other
  · cases fraction
    exact later

theorem numberChar_of_readMagnitude {float : Option F64} {negative : Bool}
    {body : List Char} {number : Number}
    (read : readMagnitude float negative body = some number) :
    body ≠ [] ∧ ∀ c ∈ body, numberChar c = true := by
  unfold readMagnitude at read
  dsimp only at read
  split at read
  next whole =>
    constructor
    · rintro rfl
      cases whole
    · intro c member
      rw [← List.takeWhile_append_dropWhile (p := Char.isDigit) (l := body),
        List.mem_append] at member
      rcases member with digit | other
      · exact numberChar_of_takeWhile c digit
      · split at read
        next none_ =>
          rw [none_] at other
          cases other
        next =>
          rcases Option.bind_eq_some_iff.mp read with ⟨rest, fraction, tail⟩
          split at tail
          next exponent =>
            exact numberChar_of_readFraction fraction
              (numberChar_of_isExponent exponent) c other
          next => cases tail
  next => cases read

/-- A number is written with the characters of numbers. -/
theorem numberChar_of_readNumber {parseF64 : String → Option F64}
    {text : String} {number : Number}
    (read : readNumber parseF64 text = some number) :
    text ≠ "" ∧ ∀ c ∈ text.toList, numberChar c = true := by
  rw [readNumber] at read
  constructor
  · rintro rfl
    exact (numberChar_of_readMagnitude read).1 rfl
  · split at read
    next rest written =>
      rw [written]
      intro c member
      rcases List.mem_cons.mp member with rfl | inside
      · decide
      · exact (numberChar_of_readMagnitude read).2 c inside
    next => exact (numberChar_of_readMagnitude read).2

/-- A number is an element of an array. -/
theorem isElement_of_readNumber {parseF64 : String → Option F64}
    {text : String} {number : Number} (depth : Nat)
    (read : readNumber parseF64 text = some number) : IsElement depth text := by
  rcases numberChar_of_readNumber read with ⟨nonempty, chars⟩
  apply isElement_of_plain nonempty
  intro c member marked
  have number := chars c member
  simp only [marks, List.mem_cons, List.not_mem_nil, or_false] at marked
  rcases marked with rfl | rfl | rfl | rfl | rfl | rfl <;>
    exact absurd number (by decide)

/-- No line feed and no carriage return. -/
def IsLine (text : String) : Prop :=
  '\n' ∉ text.toList ∧ '\r' ∉ text.toList

theorem IsLine.append {first second : String} (one : IsLine first)
    (two : IsLine second) : IsLine (first ++ second) := by
  simp only [IsLine, String.toList_append, List.mem_append, not_or]
  exact ⟨⟨one.1, two.1⟩, ⟨one.2, two.2⟩⟩

theorem isLine_of_readNumber {parseF64 : String → Option F64} {text : String}
    {number : Number} (read : readNumber parseF64 text = some number) :
    IsLine text := by
  have chars := (numberChar_of_readNumber read).2
  constructor
  · intro member
    exact absurd (chars _ member) (by decide)
  · intro member
    exact absurd (chars _ member) (by decide)

theorem le_hexDigit {n : Nat} (small : n < 16) : 0x20 ≤ (hexDigit n).toNat := by
  have digits : ∀ n : Fin 16, 0x20 ≤ (hexDigit n).toNat := by
    decide
  exact digits ⟨n, small⟩

/-- What a character is escaped to has no control characters. -/
theorem le_of_mem_escape {c written : Char} (member : written ∈ escape c) :
    0x20 ≤ written.toNat := by
  have short : ∀ mark : Char, 0x20 ≤ mark.toNat →
      written ∈ ['\\', mark] → 0x20 ≤ written.toNat := by
    intro mark printable inside
    rcases List.mem_cons.mp inside with rfl | last
    · decide
    · rw [List.mem_singleton.mp last]
      exact printable
  unfold escape at member
  split_ifs at member with
    quote slash backspace tab newline feed return_ control
  · exact short _ (by decide) member
  · exact short _ (by decide) member
  · exact short _ (by decide) member
  · exact short _ (by decide) member
  · exact short _ (by decide) member
  · exact short _ (by decide) member
  · exact short _ (by decide) member
  · simp only [List.mem_cons, List.not_mem_nil, or_false] at member
    rcases member with rfl | rfl | rfl | rfl | rfl | rfl
    · decide
    · decide
    · decide
    · decide
    · exact le_hexDigit (by omega)
    · exact le_hexDigit (by omega)
  · rw [List.mem_singleton.mp member]
    exact not_lt.mp control

/-- Control characters are escaped in a string. -/
theorem isLine_quote (text : String) : IsLine (quote text) := by
  have printable : ∀ c ∈ (quote text).toList, 0x20 ≤ c.toNat := by
    intro c member
    rw [quote, String.toList_ofList, List.mem_cons, List.mem_append,
      List.mem_singleton] at member
    rcases member with rfl | inside | rfl
    · decide
    · rcases List.mem_flatMap.mp inside with ⟨written, -, escaped⟩
      exact le_of_mem_escape escaped
    · decide
  constructor
  · intro member
    exact absurd (printable _ member) (by decide)
  · intro member
    exact absurd (printable _ member) (by decide)

/-- An array of lines is a line. -/
theorem isLine_arrayText {items : List String}
    (lines : ∀ item ∈ items, IsLine item) : IsLine (arrayText items) := by
  have bracket : IsLine "[" ∧ IsLine "]" ∧ IsLine "," := by
    refine ⟨⟨?_, ?_⟩, ⟨?_, ?_⟩, ⟨?_, ?_⟩⟩ <;> decide
  have inner : IsLine (",".intercalate items) := by
    induction items with
    | nil => constructor <;> simp
    | cons item items ih =>
        have first := lines item (by simp)
        cases items with
        | nil =>
            rw [String.intercalate_singleton]
            exact first
        | cons next later =>
            rw [String.intercalate_cons_cons]
            apply (first.append bracket.2.2).append
            exact ih fun other member =>
              lines other (List.mem_cons_of_mem _ member)
  exact (bracket.1.append inner).append bracket.2.1

/-! ## Scalars and arrays of them -/

/-- A number, a string or a literal. -/
def readScalar (parseF64 : String → Option F64) (text : String) :
    Option Value :=
  if text = "null" then some .null
  else if text = "true" then some (.bool true)
  else if text = "false" then some (.bool false)
  else
    ((readString text).map .string).or
      ((readNumber parseF64 text).map .number)

/-- An array of scalars. -/
def readScalars (parseF64 : String → Option F64) (text : String) :
    Option (List Value) :=
  (readArray text).bind fun items => items.mapM (readScalar parseF64)

theorem readScalar_quote (parseF64 : String → Option F64) (text : String) :
    readScalar parseF64 (quote text) = some (.string text) := by
  have quoted : (quote text).toList.head? = some '"' := by
    rw [quote, String.toList_ofList]
    rfl
  have literal : ∀ word : String, word.toList.head? ≠ some '"' →
      quote text ≠ word := by
    rintro word other rfl
    exact other quoted
  rw [readScalar, if_neg (literal _ (by decide)),
    if_neg (literal _ (by decide)), if_neg (literal _ (by decide)),
    readString_quote]
  rfl

theorem readScalar_of_readNumber {parseF64 : String → Option F64}
    {text : String} {number : Number}
    (read : readNumber parseF64 text = some number) :
    readScalar parseF64 text = some (.number number) := by
  have chars := (numberChar_of_readNumber read).2
  have literal : ∀ word : String, (∃ c ∈ word.toList, numberChar c = false) →
      text ≠ word := by
    rintro word ⟨c, member, other⟩ rfl
    exact absurd (chars c member) (by rw [other]; decide)
  have unquoted : readString text = none := by
    rw [readString]
    split
    next rest written =>
      have number := chars '"' (by rw [written]; simp)
      exact absurd number (by decide)
    next => rfl
  rw [readScalar, if_neg (literal _ ⟨'u', by decide, by decide⟩),
    if_neg (literal _ ⟨'u', by decide, by decide⟩),
    if_neg (literal _ ⟨'s', by decide, by decide⟩), unquoted, read]
  rfl

/-- An array is read item by item. -/
theorem readScalars_arrayText {Item : Type} {parseF64 : String → Option F64}
    {items : List Item} {text : Item → String} {value : Item → Value}
    (elements : ∀ item ∈ items, IsElement 0 (text item))
    (read : ∀ item ∈ items,
      readScalar parseF64 (text item) = some (value item)) :
    readScalars parseF64 (arrayText (items.map text)) =
      some (items.map value) := by
  have written : ∀ item ∈ items.map text, IsElement 0 item := by
    intro item member
    rcases List.mem_map.mp member with ⟨source, listed, rfl⟩
    exact elements source listed
  rw [readScalars, readArray_arrayText written]
  clear elements written
  show (items.map text).mapM (readScalar parseF64) = _
  induction items with
  | nil => rfl
  | cons item items ih =>
      have rest := ih fun other member =>
        read other (List.mem_cons_of_mem _ member)
      rw [List.map_cons, List.mapM_cons, read item (by simp), rest]
      rfl

end ChudMoney.Lib.Json
