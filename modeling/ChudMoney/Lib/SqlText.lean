import Mathlib.Data.List.Basic

/-!
# Literals in a statement text

A scanner cuts the text of a statement into plain pieces and the literals
between them.  A literal runs from a quote to the next quote that is not
doubled; a doubled quote stands for one.

A statement that is written with its values quoted and their quotes doubled is
cut into the pieces and values that it was written from, whatever the values
are.
-/

namespace ChudMoney.Lib.SqlText

/-! ## Reading -/

inductive Piece where
  | plain (text : String)
  | literal (value : String)
  deriving DecidableEq, Repr

/-- Where the scanner is, with what it has read there. -/
inductive Scanning where
  | plain (text : List Char)
  | inside (value : List Char)
  /-- Behind a quote in a literal, which the next character may double. -/
  | quoted (value : List Char)

/-- The pieces of a text; `None` when its last literal does not end. -/
def scan : Scanning → List Char → Option (List Piece)
  | .plain text, [] => some [.plain (String.ofList text)]
  | .inside _, [] => none
  | .quoted value, [] => some [.literal (String.ofList value), .plain ""]
  | .plain text, c :: rest =>
      if c = '\'' then
        (scan (.inside []) rest).map (.plain (String.ofList text) :: ·)
      else scan (.plain (text ++ [c])) rest
  | .inside value, c :: rest =>
      if c = '\'' then scan (.quoted value) rest
      else scan (.inside (value ++ [c])) rest
  | .quoted value, c :: rest =>
      if c = '\'' then scan (.inside (value ++ [c])) rest
      else
        (scan (.plain [c]) rest).map (.literal (String.ofList value) :: ·)

/-- The pieces of a statement: plain text first and last. -/
def read (statement : String) : Option (List Piece) :=
  scan (.plain []) statement.toList

/-! ## Texts without quotes -/

/-- No quote in a text. -/
def Unquoted (text : String) : Prop :=
  '\'' ∉ text.toList

instance (text : String) : Decidable (Unquoted text) :=
  inferInstanceAs (Decidable (¬ _))

theorem Unquoted.append {first second : String} (one : Unquoted first)
    (two : Unquoted second) : Unquoted (first ++ second) := by
  rw [Unquoted, String.toList_append, List.mem_append, not_or]
  exact ⟨one, two⟩

theorem unquoted_intercalate {separator : String} (plain : Unquoted separator)
    {texts : List String} (all : ∀ text ∈ texts, Unquoted text) :
    Unquoted (separator.intercalate texts) := by
  induction texts with
  | nil =>
      rw [String.intercalate_nil]
      decide
  | cons text texts ih =>
      have first := all text (by simp)
      cases texts with
      | nil =>
          rw [String.intercalate_singleton]
          exact first
      | cons next later =>
          rw [String.intercalate_cons_cons]
          apply (first.append plain).append
          exact ih fun other member =>
            all other (List.mem_cons_of_mem _ member)

/-! ## Writing -/

/-- Every quote written twice. -/
def doubled : List Char → List Char
  | [] => []
  | c :: rest =>
      if c = '\'' then '\'' :: '\'' :: doubled rest else c :: doubled rest

/-- `replace('\'', "''")`. -/
def doubleQuotes (value : String) : String :=
  String.ofList (doubled value.toList)

/-- A value without a quote is written as it is. -/
theorem doubleQuotes_eq_self {value : String} (plain : Unquoted value) :
    doubleQuotes value = value := by
  have same : ∀ chars : List Char, '\'' ∉ chars → doubled chars = chars := by
    intro chars plain
    induction chars with
    | nil => rfl
    | cons c chars ih =>
        simp only [List.mem_cons, not_or] at plain
        rw [doubled, if_neg (Ne.symm plain.1), ih plain.2]
  rw [doubleQuotes, same _ plain, String.ofList_toList]

/-- Plain texts, each with the value quoted behind it, and the last text. -/
def render : List (String × String) → String → String
  | [], last => last
  | part :: parts, last =>
      part.1 ++ "'" ++ doubleQuotes part.2 ++ "'" ++ render parts last

/-- The pieces that a statement is written from. -/
def pieces : List (String × String) → String → List Piece
  | [], last => [.plain last]
  | part :: parts, last =>
      .plain part.1 :: .literal part.2 :: pieces parts last

/-- No plain text has a quote, and there is one between any two values. -/
def Separated : List (String × String) → String → Prop
  | [], last => Unquoted last
  | part :: parts, last =>
      Unquoted part.1 ∧ (∀ next ∈ parts.head?, next.1 ≠ "") ∧
        Separated parts last

/-! ## What is written is read -/

theorem scan_plain {text : List Char} (plain : '\'' ∉ text)
    (before rest : List Char) :
    scan (.plain before) (text ++ rest) =
      scan (.plain (before ++ text)) rest := by
  induction text generalizing before with
  | nil => simp
  | cons c text ih =>
      simp only [List.mem_cons, not_or] at plain
      rw [List.cons_append, scan, if_neg (Ne.symm plain.1), ih plain.2]
      simp

/-- A value is passed whatever quotes it has, and however many. -/
theorem scan_doubled (value before rest : List Char) :
    scan (.inside before) (doubled value ++ rest) =
      scan (.inside (before ++ value)) rest := by
  induction value generalizing before with
  | nil => simp [doubled]
  | cons c value ih =>
      rw [doubled]
      split
      next quote =>
        rw [List.cons_append, List.cons_append, scan, if_pos rfl, scan,
          if_pos rfl, ih, quote]
        simp
      next other =>
        rw [List.cons_append, scan, if_neg other, ih]
        simp

/-- A literal ends at its closing quote unless another quote follows. -/
theorem scan_quoted {rest : List Char} (apart : rest.head? ≠ some '\'')
    (value : List Char) :
    scan (.quoted value) rest =
      (scan (.plain []) rest).map (.literal (String.ofList value) :: ·) := by
  cases rest with
  | nil => rfl
  | cons c rest =>
      have other : c ≠ '\'' := by simpa using apart
      rw [scan, if_neg other, scan, if_neg other]
      rfl

/-- A value between quotes is one literal. -/
theorem scan_value {rest : List Char} (apart : rest.head? ≠ some '\'')
    (value : String) :
    scan (.inside []) ((doubleQuotes value).toList ++ '\'' :: rest) =
      (scan (.plain []) rest).map (.literal value :: ·) := by
  rw [doubleQuotes, String.toList_ofList, scan_doubled, List.nil_append, scan,
    if_pos rfl, scan_quoted apart, String.ofList_toList]

/-- What follows a value does not start with a quote. -/
theorem head?_render {parts : List (String × String)} {last : String}
    (separated : Separated parts last)
    (apart : ∀ next ∈ parts.head?, next.1 ≠ "") :
    (render parts last).toList.head? ≠ some '\'' := by
  cases parts with
  | nil =>
      intro quote
      exact separated (List.mem_of_mem_head? quote)
  | cons part parts =>
      have nonempty : part.1.toList ≠ [] := by
        simpa using apart part rfl
      simp only [render, String.append_assoc, String.toList_append]
      rw [List.head?_append_of_ne_nil _ nonempty]
      intro quote
      exact separated.1 (List.mem_of_mem_head? quote)

/-- A statement is read as the pieces that it was written from. -/
theorem read_render {parts : List (String × String)} {last : String}
    (separated : Separated parts last) :
    read (render parts last) = some (pieces parts last) := by
  induction parts with
  | nil =>
      have whole := scan_plain separated [] []
      rw [List.append_nil] at whole
      rw [read, render, whole, List.nil_append, scan, String.ofList_toList]
      rfl
  | cons part parts ih =>
      have later := ih separated.2.2
      have text : (render (part :: parts) last).toList =
          part.1.toList ++ '\'' :: ((doubleQuotes part.2).toList ++
            '\'' :: (render parts last).toList) := by
        simp [render]
      rw [read] at later
      rw [read, text, scan_plain separated.1, List.nil_append, scan, if_pos rfl,
        scan_value (head?_render separated.2.2 separated.2.1), later,
        String.ofList_toList]
      rfl

end ChudMoney.Lib.SqlText
