import ChudMoney.Lib.Text
import Mathlib.Data.List.Basic

/-!
# Statements that create tables

A statement declares the columns of a table with their types, the column of
the time that its rows are ordered by, and the columns whose values tell rows
apart: a row replaces the one with the same values there.

Only statements of one shape are read; what follows the type of a column is
about its storage, and is skipped.
-/

namespace ChudMoney.Lib.CreateTable

open ChudMoney.Lib.Text

inductive SqlType where
  | symbol
  | double
  | long
  | timestamp
  deriving DecidableEq, Repr

structure Statement where
  table : String
  columns : List (String × SqlType)
  designated : String
  keys : List String
  deriving DecidableEq, Repr

/-! ## Reading a statement -/

/-- The parts between blanks. -/
def words (text : List Char) : List String :=
  ((text.splitOn ' ').filter fun word => word ≠ []).map String.ofList

def readType : String → Option SqlType
  | "SYMBOL" => some .symbol
  | "DOUBLE" => some .double
  | "LONG" => some .long
  | "TIMESTAMP" => some .timestamp
  | _ => none

/-- A name, its type, and what the storage of the column is told. -/
def readColumn (text : List Char) : Option (String × SqlType) :=
  match words text with
  | name :: type :: _ => (readType type).map fun type => (name, type)
  | _ => none

def readChars (text : List Char) : Option Statement :=
  match text.splitOn '(' with
  | [opening, columns, designated, keys] =>
      match words opening, splitOnce ')' columns, splitOnce ')' designated,
          splitOnce ')' keys with
      | ["CREATE", "TABLE", "IF", "NOT", "EXISTS", table],
          some (columns, middle), some (designated, later),
          some (keys, ending) =>
          if words middle = ["TIMESTAMP"] ∧
              words later = ["PARTITION", "BY", "DAY", "WAL", "DEDUP", "UPSERT",
                "KEYS"] ∧
              ending = [';'] then
            ((columns.splitOn ',').mapM readColumn).map fun columns =>
              ⟨table, columns, String.ofList designated,
                (keys.splitOn ',').flatMap words⟩
          else none
      | _, _, _, _ => none
  | _ => none

def readCreateTable (text : String) : Option Statement :=
  readChars text.toList

/-! ## Rows of a table -/

/--
A row, as the names and types of the values it gives, fits a table: each value
has a column of its own and of its type, the time is given apart, and no value
that tells rows apart is missing.
-/
structure Fits (statement : Statement) (given : List (String × SqlType)) :
    Prop where
  declared : ∀ entry ∈ given, entry ∈ statement.columns
  once : (given.map Prod.fst).Nodup
  apart : statement.designated ∉ given.map Prod.fst
  keyed : ∀ key ∈ statement.keys,
    key = statement.designated ∨ key ∈ given.map Prod.fst

/-- A row that gives fewer values fits too, if those that tell it apart stay. -/
theorem Fits.sublist {statement : Statement}
    {given fewer : List (String × SqlType)} (fits : Fits statement given)
    (sublist : fewer.Sublist given)
    (keyed : ∀ key ∈ statement.keys,
      key = statement.designated ∨ key ∈ fewer.map Prod.fst) :
    Fits statement fewer where
  declared entry member := fits.declared entry (sublist.subset member)
  once := fits.once.sublist (sublist.map Prod.fst)
  apart member := fits.apart ((sublist.map Prod.fst).subset member)
  keyed := keyed

end ChudMoney.Lib.CreateTable
