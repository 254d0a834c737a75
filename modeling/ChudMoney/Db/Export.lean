import ChudMoney.Db.Rows
import ChudMoney.Lib.MachineInt
import ChudMoney.Lib.Windows
import Mathlib.Data.List.Sort

/-!
# Reading one table window by window

`streamData` walks a range as consecutive half-open windows, one bounded query
each, and adapts the size of the next window to the rows of the last one.  It
is given fuel; with as much of it as the range is long it always ends.
-/

namespace ChudMoney.Db.Export

open ChudMoney.Db.Rows
open ChudMoney.Lib.MachineInt
open ChudMoney.Lib.Text
open ChudMoney.Lib.Windows

/-! ## Tables -/

/-- A table that can be exported row by row. -/
inductive DataTable where
  | indexValuesLive
  | indexValuesHist
  | contractCandlesHist
  | contractTickerLive
  | contractBookLive
  | coinbaseTickerLive
  | coinbaseBookLive
  deriving DecidableEq, Repr

/-- The market field that a table's rows are selected by. -/
inductive KeySource where
  | indexId
  | seriesTicker
  | coinbaseProduct
  deriving DecidableEq, Repr

namespace DataTable

def all : List DataTable :=
  [indexValuesLive, indexValuesHist, contractCandlesHist, contractTickerLive,
    contractBookLive, coinbaseTickerLive, coinbaseBookLive]

def name : DataTable → String
  | indexValuesLive => Table.live.name
  | indexValuesHist => Table.hist.name
  | contractCandlesHist => candlesTable
  | contractTickerLive => contractTickerTable
  | contractBookLive => contractBookTable
  | coinbaseTickerLive => coinbaseTickerTable
  | coinbaseBookLive => coinbaseBookTable

/-- Short URL-friendly name accepted by `parse`. -/
def aliasName : DataTable → String
  | indexValuesLive => "index-live"
  | indexValuesHist => "index-hist"
  | contractCandlesHist => "candles"
  | contractTickerLive => "ticker"
  | contractBookLive => "book"
  | coinbaseTickerLive => "coinbase-ticker"
  | coinbaseBookLive => "coinbase-book"

/-- `replace('-', "_")`. -/
def underscored (text : List Char) : List Char :=
  text.map fun c => if c = '-' then '_' else c

/--
The table name or alias, case-insensitively and with `-` and `_`
interchangeable.
-/
def parse (text : String) : Option DataTable :=
  let wanted := underscored ((trim text.toList).map Char.toLower)
  all.find? fun table =>
    table.name.toList = wanted ∨ underscored table.aliasName.toList = wanted

def keySource : DataTable → KeySource
  | indexValuesLive | indexValuesHist => .indexId
  | contractCandlesHist | contractTickerLive | contractBookLive =>
      .seriesTicker
  | coinbaseTickerLive | coinbaseBookLive => .coinbaseProduct

/-- Every table is found under its name and under its alias. -/
theorem parse_name (table : DataTable) :
    parse table.name = some table ∧ parse table.aliasName = some table := by
  cases table <;> decide

end DataTable

/-! ## Stored rows -/

/-- One table of QuestDB as the export sees it. -/
structure Questdb (Stored : Type) where
  rows : List Stored
  key : Stored → String
  ts : Stored → Int64
  /--
  The rows that a window query returns for a key, and the error that cut it
  short, if any.
  -/
  window : String → Int64 → Int64 → List Stored × Option String
  /-- `data_bounds`: the first and the last `ts`, unless the table is empty. -/
  dataBounds : Option (Int64 × Int64)

variable {Stored : Type}

/-- The time of a row as an integer. -/
def Questdb.time (db : Questdb Stored) (row : Stored) : Int :=
  (db.ts row).toInt

/-- The rows of one key. -/
def Questdb.ofKey (db : Questdb Stored) (key : String) : List Stored :=
  db.rows.filter fun row => db.key row = key

/--
What is relied on of QuestDB: a window query returns the rows of the key in
the window in the order of `ts`, and the bounds are those of the whole table.
-/
structure Questdb.Lawful (db : Questdb Stored) : Prop where
  window : ∀ key lo hi,
    Slice db.time (db.ofKey key) lo.toInt hi.toInt (db.window key lo hi).1 ∧
      (db.window key lo hi).2 = none
  empty : db.dataBounds = none ↔ db.rows = []
  bounds : ∀ first last, db.dataBounds = some (first, last) →
    (∀ row ∈ db.rows, first ≤ db.ts row ∧ db.ts row ≤ last) ∧
      (∃ row ∈ db.rows, db.ts row = first) ∧ ∃ row ∈ db.rows, db.ts row = last

/-- A table kept as a list of keyed times, and queried as QuestDB is. -/
def Questdb.ofRows (rows : List (String × Int64)) :
    Questdb (String × Int64) where
  rows := rows
  key := Prod.fst
  ts := Prod.snd
  window key lo hi :=
    ((rows.filter fun row => row.1 = key ∧ lo ≤ row.2 ∧ row.2 < hi).insertionSort
      fun first second => first.2.toInt ≤ second.2.toInt, none)
  dataBounds :=
    match (rows.map fun row => row.2.toInt).min?,
        (rows.map fun row => row.2.toInt).max? with
    | some first, some last => some (Int64.ofInt first, Int64.ofInt last)
    | _, _ => none

theorem Questdb.lawful_ofRows (rows : List (String × Int64)) :
    (ofRows rows).Lawful := by
  have total : Std.Total fun first second : String × Int64 =>
      first.2.toInt ≤ second.2.toInt := ⟨fun _ _ => le_total _ _⟩
  have transitive : IsTrans (String × Int64) fun first second =>
      first.2.toInt ≤ second.2.toInt := ⟨fun _ _ _ => le_trans⟩
  constructor
  · intro key lo hi
    refine ⟨⟨?_, ?_⟩, rfl⟩
    · apply (List.perm_insertionSort _ _).trans
      apply List.Perm.of_eq
      rw [ofKey, List.filter_filter]
      apply List.filter_congr
      rintro ⟨rowKey, ts⟩ _
      simp only [Questdb.time, ofRows, Int64.le_iff_toInt_le,
        Int64.lt_iff_toInt_lt, Bool.decide_and]
      rw [Bool.and_comm]
    · exact List.pairwise_insertionSort _ _
  · cases rows with
    | nil => simp [ofRows]
    | cons row rows => simp [ofRows, List.min?_cons, List.max?_cons]
  · intro first last bounds
    simp only [ofRows] at bounds
    split at bounds
    next low high lowest highest =>
      cases bounds
      rw [List.min?_eq_some_iff] at lowest
      rw [List.max?_eq_some_iff] at highest
      rcases lowest with ⟨lowMember, low_le⟩
      rcases highest with ⟨highMember, le_high⟩
      rcases List.mem_map.mp lowMember with ⟨firstRow, firstMember, rfl⟩
      rcases List.mem_map.mp highMember with ⟨lastRow, lastMember, rfl⟩
      simp only [Int64.ofInt_toInt]
      refine ⟨?_, ⟨firstRow, firstMember, rfl⟩, lastRow, lastMember, rfl⟩
      intro row member
      have listed : row.2.toInt ∈ rows.map fun row => row.2.toInt :=
        List.mem_map_of_mem member
      exact ⟨Int64.le_iff_toInt_le.mpr (low_le _ listed),
        Int64.le_iff_toInt_le.mpr (le_high _ listed)⟩
    next => cases bounds

/-! ## Windows -/

/-- First window of a data stream, in µs. -/
def windowStart : Int64 := 60000000

def windowMin : Int64 := 1000000

def windowMax : Int64 := 86400000000

/-- Rows a window aims for. -/
def windowTargetRows : Nat := 50000

/--
The half-open window starting at `cursor`, clipped to `endUs`; `None` once the
range is exhausted.
-/
def nextWindow (cursor endUs sizeUs : Int64) : Option (Int64 × Int64) :=
  if cursor < endUs then
    some (cursor, min (saturatingAdd cursor sizeUs) endUs)
  else none

/--
The next window size after one of `sizeUs` returned `rows`: doubled while
sparse, halved while dense, clamped to `[windowMin, windowMax]`.
-/
def nextSize (sizeUs : Int64) (rows : Nat) : Int64 :=
  let next :=
    if windowTargetRows < rows then sizeUs / 2
    else if rows < windowTargetRows / 4 then saturatingMul sizeUs 2
    else sizeUs
  max windowMin (min next windowMax)

/--
The rows that the windows of a range return, and the error that ended them;
`none` when the fuel ran out first.
-/
def walk (window : Int64 → Int64 → List Stored × Option String)
    (endUs : Int64) : Nat → Int64 → Int64 → Option (List Stored × Option String)
  | 0, _, _ => none
  | fuel + 1, cursor, size =>
      match nextWindow cursor endUs size with
      | none => some ([], none)
      | some (lo, hi) =>
          match window lo hi with
          | (rows, some e) => some (rows, some e)
          | (rows, none) =>
              (walk window endUs fuel hi (nextSize size rows.length)).map
                fun rest => (rows ++ rest.1, rest.2)

/-- `stream_data`: every row of a key with `ts` in `[startUs, endUs)`. -/
def streamData (db : Questdb Stored) (fuel : Nat) (key : String)
    (startUs endUs : Int64) : Option (List Stored × Option String) :=
  walk (db.window key) endUs fuel startUs windowStart

/-! ## The walk reads the range -/

theorem windowMin_le_nextSize (sizeUs : Int64) (rows : Nat) :
    windowMin.toInt ≤ (nextSize sizeUs rows).toInt := by
  rw [nextSize, toInt_max]
  exact le_max_left _ _

/-- A window starts at the cursor, moves it on and stays in the range. -/
theorem nextWindow_spec {cursor endUs size lo hi : Int64}
    (positive : 0 < size.toInt)
    (next : nextWindow cursor endUs size = some (lo, hi)) :
    lo = cursor ∧ cursor.toInt < hi.toInt ∧ hi.toInt ≤ endUs.toInt := by
  rw [nextWindow] at next
  split at next
  next open_ =>
    cases next
    have below := Int64.lt_iff_toInt_lt.mp open_
    have bounds := fits_toInt endUs
    refine ⟨rfl, ?_, ?_⟩
    · rw [toInt_min, saturatingAdd, toInt_saturate]
      omega
    · rw [toInt_min]
      exact min_le_right _ _
  next => cases next

/--
With fuel for the length of the range the walk ends, and returns the slice of
the range.
-/
theorem walk_slice {db : Questdb Stored} (lawful : db.Lawful) (key : String)
    (endUs : Int64) {fuel : Nat} {cursor size : Int64}
    (enough : (endUs.toInt - cursor.toInt).toNat < fuel)
    (positive : 0 < size.toInt) :
    ∃ rows, walk (db.window key) endUs fuel cursor size = some (rows, none) ∧
      Slice db.time (db.ofKey key) cursor.toInt endUs.toInt rows := by
  induction fuel generalizing cursor size with
  | zero => exact absurd enough (Nat.not_lt_zero _)
  | succ fuel ih =>
      rw [walk]
      cases next : nextWindow cursor endUs size with
      | none =>
          refine ⟨[], rfl, Slice.nil ?_⟩
          by_contra open_
          have below := Int64.lt_iff_toInt_lt.mpr (not_le.mp open_)
          rw [nextWindow, if_pos below] at next
          cases next
      | some window =>
          rcases window with ⟨lo, hi⟩
          rcases nextWindow_spec positive next with ⟨rfl, moved, inside⟩
          rcases lawful.window key lo hi with ⟨slice, succeeded⟩
          have rest :
              0 < (nextSize size (db.window key lo hi).1.length).toInt :=
            lt_of_lt_of_le (by decide) (windowMin_le_nextSize _ _)
          rcases @ih hi _ (by omega) rest with ⟨rows, walked, after⟩
          have answer : db.window key lo hi =
              ((db.window key lo hi).1, none) := Prod.ext rfl succeeded
          refine ⟨(db.window key lo hi).1 ++ rows, ?_, ?_⟩
          · dsimp only
            rw [answer]
            simp [walked]
          · exact slice.append (le_of_lt moved) inside after

/--
What is relied on of window queries that may fail: each returns the first rows
of its window, and all of them unless it failed.
-/
def Questdb.Answers (db : Questdb Stored)
    (window : String → Int64 → Int64 → List Stored × Option String) : Prop :=
  ∀ key lo hi, ∃ rest,
    Slice db.time (db.ofKey key) lo.toInt hi.toInt
        ((window key lo hi).1 ++ rest) ∧
      ((window key lo hi).2 = none → rest = [])

theorem Questdb.Lawful.answers {db : Questdb Stored} (lawful : db.Lawful) :
    db.Answers db.window := by
  intro key lo hi
  rcases lawful.window key lo hi with ⟨slice, -⟩
  exact ⟨[], by rwa [List.append_nil], fun _ => rfl⟩

/-- A query may fail before its first row. -/
theorem Questdb.answers_failing (db : Questdb Stored) (error : String) :
    db.Answers fun _ _ _ => ([], some error) := by
  intro key lo hi
  rcases Slice.exists db.time (db.ofKey key) lo.toInt hi.toInt with
    ⟨rest, slice⟩
  exact ⟨rest, slice, fun succeeded => nomatch succeeded⟩

/-- A walk returns the first rows of its range, all of them if none failed. -/
theorem walk_answers {db : Questdb Stored}
    {window : String → Int64 → Int64 → List Stored × Option String}
    (answers : db.Answers window) (key : String) (endUs : Int64) {fuel : Nat}
    {cursor size : Int64} (positive : 0 < size.toInt)
    {out : List Stored × Option String}
    (walked : walk (window key) endUs fuel cursor size = some out) :
    ∃ rest, Slice db.time (db.ofKey key) cursor.toInt endUs.toInt
        (out.1 ++ rest) ∧ (out.2 = none → rest = []) := by
  induction fuel generalizing cursor size out with
  | zero => cases walked
  | succ fuel ih =>
      rw [walk] at walked
      cases next : nextWindow cursor endUs size with
      | none =>
          rw [next] at walked
          cases walked
          refine ⟨[], Slice.nil ?_, fun _ => rfl⟩
          by_contra open_
          have below := Int64.lt_iff_toInt_lt.mpr (not_le.mp open_)
          rw [nextWindow, if_pos below] at next
          cases next
      | some bounds =>
          rcases bounds with ⟨lo, hi⟩
          rcases nextWindow_spec positive next with ⟨rfl, moved, inside⟩
          rw [next] at walked
          rcases answers key lo hi with ⟨cut, slice, whole⟩
          rcases answer : window key lo hi with ⟨rows, _ | e⟩
          · simp only [answer, Option.map_eq_some_iff] at walked
            rcases walked with ⟨later, rested, rfl⟩
            have rest : 0 < (nextSize size rows.length).toInt :=
              lt_of_lt_of_le (by decide) (windowMin_le_nextSize _ _)
            rcases ih rest rested with ⟨left, after, all⟩
            rw [answer, whole (by rw [answer]), List.append_nil] at slice
            refine ⟨left, ?_, all⟩
            rw [List.append_assoc]
            exact slice.append (le_of_lt moved) inside after
          · simp only [answer, Option.some.injEq] at walked
            subst walked
            rw [answer] at slice
            rcases Slice.exists db.time (db.ofKey key) hi.toInt endUs.toInt
              with ⟨later, after⟩
            refine ⟨cut ++ later, ?_, fun succeeded => nomatch succeeded⟩
            rw [← List.append_assoc]
            exact slice.append (le_of_lt moved) inside after

/-- More fuel does not change the result of a walk that ended. -/
theorem walk_mono {window : Int64 → Int64 → List Stored × Option String}
    {endUs : Int64} {fuel more : Nat} {cursor size : Int64}
    {out : List Stored × Option String}
    (walked : walk window endUs fuel cursor size = some out)
    (enough : fuel ≤ more) :
    walk window endUs more cursor size = some out := by
  induction fuel generalizing more cursor size out with
  | zero => cases walked
  | succ fuel ih =>
      rcases Nat.exists_eq_add_of_le' enough with ⟨extra, rfl⟩
      show walk window endUs (extra + fuel + 1) cursor size = some out
      rw [walk] at walked ⊢
      cases next : nextWindow cursor endUs size with
      | none =>
          rw [next] at walked
          exact walked
      | some bounds =>
          rw [next] at walked
          rcases answer : window bounds.1 bounds.2 with ⟨rows, _ | e⟩
          · simp only [answer, Option.map_eq_some_iff] at walked ⊢
            rcases walked with ⟨rest, rested, rfl⟩
            exact ⟨rest, ih rested (Nat.le_add_left _ _), rfl⟩
          · simp only [answer] at walked ⊢
            exact walked

end ChudMoney.Db.Export
