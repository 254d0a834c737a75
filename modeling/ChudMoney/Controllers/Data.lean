import ChudMoney.AppError
import ChudMoney.Db.Export
import ChudMoney.Lib.Json
import ChudMoney.Model.Market

/-!
# Bulk export of one table for one market

`GET /{tag}/data/{table}?start=&end=`: the request is admitted, clipped to
what the table holds and read window by window.  The clipping adds one to the
table's last `ts`, which wraps when that is the greatest `i64`.
-/

namespace ChudMoney.Controllers.Data

open ChudMoney.Db.Export
open ChudMoney.Lib.Json
open ChudMoney.Lib.MachineInt
open ChudMoney.Lib.Text
open ChudMoney.Lib.Windows
open ChudMoney.Model

variable {Text Stored : Type}

/-- Concurrent exports allowed process-wide. -/
def dataStreams : Nat := 2

structure RangeQuery where
  start : Option String
  «end» : Option String

/-- What the handler reads of a request. -/
structure Request where
  tag : String
  table : String
  range : RangeQuery
  lastEventId : Option String

/-- An admitted export. -/
structure Admitted where
  table : DataTable
  key : String
  start : Option Int64
  «end» : Option Int64

/-- The rows of one answer, and the error that ended them, if any. -/
structure Exported (Stored : Type) where
  range : Option (Int64 × Int64)
  rows : List Stored
  error : Option String
  deriving DecidableEq

section Range

variable (readers : Readers Text)

/-- An RFC3339 timestamp as microseconds since the epoch. -/
def parseTs (text : String) : Option Int64 :=
  (readers.parseFromRfc3339 (String.ofList (trim text.toList))).map
    timestampMicros

/-- One bound of a range; it may be absent. -/
def parseBound (name : String) :
    Option String → Except AppError (Option Int64)
  | none => .ok none
  | some text =>
      match parseTs readers text with
      | some us => .ok (some us)
      | none => .error (.badRequest (name ++ " must be an RFC3339 timestamp"))

/-- `start`/`end` as microseconds, unless the range is empty or inverted. -/
def parseRange (start «end» : Option String) :
    Except AppError (Option Int64 × Option Int64) := do
  let start ← parseBound readers "start" start
  let «end» ← parseBound readers "end" «end»
  match start, «end» with
  | some s, some e =>
      if e ≤ s then throw (.badRequest "start must be before end")
      else return (start, «end»)
  | _, _ => return (start, «end»)

end Range

/-- The key of a market's rows in a table. -/
def tableKey (tag : String) (market : Market) (table : DataTable) :
    Except AppError String :=
  match table.keySource with
  | .indexId => .ok market.indexId
  | .seriesTicker => .ok market.seriesTicker
  | .coinbaseProduct =>
      match market.coinbaseProduct with
      | some product => .ok product
      | none => .error (.badRequest
          ("market '" ++ tag ++ "' has no coinbase_product"))

/-- The tables that an unknown table name is answered with. -/
def knownTables : String :=
  ", ".intercalate (DataTable.all.map fun table =>
    table.name ++ " (" ++ table.aliasName ++ ")")

/--
The first half of `stream`: everything up to the permit.  `find` looks up a
market document by tag and `permits` is the number of exports that may still
start.
-/
def accept (readers : Readers Text) (find : Find) (permits : Nat)
    (request : Request) : Except AppError Admitted := do
  let market ← findMarket find request.tag
  let some table := DataTable.parse request.table
    | throw (.notFound
        ("table '" ++ request.table ++ "'; known tables: " ++ knownTables))
  let key ← tableKey request.tag market table
  let (start, «end») ←
    parseRange readers request.range.start request.range.end
  let resumed := request.lastEventId.bind (parseTs readers)
  if permits = 0 then
    throw (.tooManyRequests
      ("at most " ++ toString dataStreams ++ " data streams may run at once"))
  return { table := table, key := key, start := resumed.or start, «end» := «end» }

/-- `start`, no earlier than the table's first `ts`. -/
def clipStart (minUs : Int64) (start : Option Int64) : Int64 :=
  start.elim minUs fun s => max s minUs

/-- `end`, no later than one past the table's last `ts`. -/
def clipEnd (maxUs : Int64) («end» : Option Int64) : Int64 :=
  «end».elim (maxUs + 1) fun e => min e (maxUs + 1)

/-- The part of the requested range that the table's bounds cover. -/
def clip (bounds : Option (Int64 × Int64)) (start «end» : Option Int64) :
    Option (Int64 × Int64) :=
  match bounds with
  | none => none
  | some (minUs, maxUs) =>
      if clipStart minUs start < clipEnd maxUs «end» then
        some (clipStart minUs start, clipEnd maxUs «end»)
      else none

/-- The second half of `stream`, with fuel for the windows. -/
def exported (db : Questdb Stored) (admitted : Admitted) (fuel : Nat) :
    Option (Exported Stored) :=
  match clip db.dataBounds admitted.start admitted.end with
  | none => some { range := none, rows := [], error := none }
  | some (startUs, endUs) =>
      (streamData db fuel admitted.key startUs endUs).map fun out =>
        { range := some (startUs, endUs), rows := out.1, error := out.2 }

/-- `GET /{tag}/data/{table}`. -/
def stream (readers : Readers Text) (find : Find)
    (questdb : DataTable → Questdb Stored) (permits : Nat) (request : Request)
    (fuel : Nat) : Except AppError (Option (Exported Stored)) := do
  let admitted ← accept readers find permits request
  return exported (questdb admitted.table) admitted fuel

/-! ## What an export returns -/

/-- A row in the requested range; an absent bound is no bound. -/
def Requested (db : Questdb Stored) (admitted : Admitted) (row : Stored) :
    Prop :=
  (∀ s ∈ admitted.start, s ≤ db.ts row) ∧ ∀ e ∈ admitted.end, db.ts row < e

instance (db : Questdb Stored) (admitted : Admitted) :
    DecidablePred (Requested db admitted) :=
  fun row =>
    have : Decidable (∀ s ∈ admitted.start, s ≤ db.ts row) :=
      Option.decidableForallMem admitted.start
    have : Decidable (∀ e ∈ admitted.end, db.ts row < e) :=
      Option.decidableForallMem admitted.end
    inferInstanceAs (Decidable (_ ∧ _))

/--
With enough fuel the export always ends without an error, and its rows are
the requested rows of the key, each once and in the order of `ts`.
-/
def Exact (db : Questdb Stored) (admitted : Admitted)
    (answer : Nat → Option (Exported Stored)) : Prop :=
  ∃ enough rows,
    (∀ fuel, enough ≤ fuel → ∃ out, answer fuel = some out ∧
      out.rows = rows ∧ out.error = none) ∧
    rows.Perm ((db.ofKey admitted.key).filter fun row =>
      Requested db admitted row) ∧
    rows.Pairwise fun first second => db.ts first ≤ db.ts second

/-- The table's last `ts` has a successor. -/
def EndFits (db : Questdb Stored) : Prop :=
  ∀ row ∈ db.rows, db.ts row ≠ Int64.maxValue

instance (db : Questdb Stored) : Decidable (EndFits db) :=
  inferInstanceAs (Decidable (∀ row ∈ db.rows, db.ts row ≠ Int64.maxValue))

theorem mem_ofKey {db : Questdb Stored} {key : String} {row : Stored}
    (member : row ∈ db.ofKey key) : row ∈ db.rows :=
  List.mem_of_mem_filter member

/-- Below the greatest `i64` the successor is exact. -/
theorem toInt_succ {last : Int64} (below : last ≠ Int64.maxValue) :
    (last + 1).toInt = last.toInt + 1 := by
  have bounds := fits_toInt last
  have strict : last.toInt ≠ 2 ^ 63 - 1 := by
    intro greatest
    exact below (Int64.toInt_inj.mp (greatest.trans (by decide)))
  have one : (1 : Int64).toInt = 1 := rfl
  rw [toInt_add_of_fits (by rw [one]; omega), one]

theorem le_maxValue (value : Int64) : value ≤ Int64.maxValue := by
  have bound := (fits_toInt value).2
  rw [Int64.le_iff_toInt_le, show Int64.maxValue.toInt = 2 ^ 63 - 1 from rfl]
  omega

/-- A table whose last `ts` has no successor is clipped to nothing. -/
theorem clip_maxValue (first : Int64) (start «end» : Option Int64) :
    clip (some (first, Int64.maxValue)) start «end» = none := by
  have wrapped : (Int64.maxValue + 1 : Int64) = Int64.minValue := by decide
  have least : ∀ value : Int64, ¬ value < Int64.minValue := by
    intro value below
    have bound := (fits_toInt value).1
    have lower := Int64.lt_iff_toInt_lt.mp below
    rw [show Int64.minValue.toInt = -2 ^ 63 from rfl] at lower
    omega
  have clipped : clipEnd Int64.maxValue «end» = Int64.minValue := by
    rw [clipEnd, wrapped]
    cases «end» with
    | none => rfl
    | some e =>
        apply Int64.toInt_inj.mp
        have bound := (fits_toInt e).1
        show (min e Int64.minValue).toInt = _
        rw [toInt_min, show Int64.minValue.toInt = -2 ^ 63 from rfl]
        omega
  rw [clip, clipped, if_neg (least _)]

/-- Clipping the start loses no row of the table. -/
theorem clipped_start_le_iff {first ts : Int64} (inside : first ≤ ts)
    (start : Option Int64) :
    clipStart first start ≤ ts ↔ ∀ s ∈ start, s ≤ ts := by
  cases start with
  | none => simp [clipStart, inside]
  | some s =>
      rw [Int64.le_iff_toInt_le] at inside
      simp only [clipStart, Option.elim_some, Option.mem_def,
        Option.some.injEq, forall_eq', Int64.le_iff_toInt_le, toInt_max]
      omega

/-- Clipping the end loses no row of the table, if the last has a successor. -/
theorem lt_clipped_end_iff {last ts : Int64} (below : last ≠ Int64.maxValue)
    (inside : ts ≤ last) («end» : Option Int64) :
    ts < clipEnd last «end» ↔ ∀ e ∈ «end», ts < e := by
  rw [Int64.le_iff_toInt_le] at inside
  cases «end» with
  | none =>
      simp only [clipEnd, Option.elim_none, Int64.lt_iff_toInt_lt,
        toInt_succ below]
      simp only [Option.mem_def, reduceCtorEq, false_implies, implies_true,
        iff_true]
      omega
  | some e =>
      simp only [clipEnd, Option.elim_some, Option.mem_def,
        Option.some.injEq, forall_eq', Int64.lt_iff_toInt_lt, toInt_min,
        toInt_succ below]
      omega

/-- The rows of the clipped range are those requested. -/
theorem requested_iff_clipped {db : Questdb Stored} {admitted : Admitted}
    {first last : Int64} {row : Stored} (below : last ≠ Int64.maxValue)
    (inside : first ≤ db.ts row ∧ db.ts row ≤ last) :
    Requested db admitted row ↔
      clipStart first admitted.start ≤ db.ts row ∧
        db.ts row < clipEnd last admitted.end := by
  rw [Requested, clipped_start_le_iff inside.1,
    lt_clipped_end_iff below inside.2]

/-- An export clipped to nothing is exact when nothing was requested. -/
theorem exact_of_clip_none {db : Questdb Stored} {admitted : Admitted}
    (clipped : clip db.dataBounds admitted.start admitted.end = none) :
    Exact db admitted (exported db admitted) ↔
      ∀ row ∈ db.ofKey admitted.key, ¬ Requested db admitted row := by
  have answer : ∀ fuel, exported db admitted fuel =
      some { range := none, rows := [], error := none } := by
    intro fuel
    rw [exported, clipped]
  constructor
  · rintro ⟨enough, rows, ends, rowsPerm, -⟩ row member requested
    rcases ends enough le_rfl with ⟨out, isOut, rfl, -⟩
    rw [answer, Option.some.injEq] at isOut
    subst isOut
    have kept : row ∈ (db.ofKey admitted.key).filter fun row =>
        Requested db admitted row :=
      List.mem_filter.mpr ⟨member, decide_eq_true requested⟩
    exact absurd (rowsPerm.mem_iff.mpr kept) List.not_mem_nil
  · intro nothing
    refine ⟨0, [], ?_, ?_, List.Pairwise.nil⟩
    · intro fuel _
      exact ⟨_, answer fuel, rfl, rfl⟩
    · apply List.Perm.of_eq
      symm
      apply List.filter_eq_nil_iff.mpr
      intro row member kept
      exact nothing row member (of_decide_eq_true kept)

/-- An export clipped to the requested rows reads exactly them. -/
theorem exact_of_clip_some {db : Questdb Stored} (lawful : db.Lawful)
    {admitted : Admitted} {startUs endUs : Int64}
    (clipped : clip db.dataBounds admitted.start admitted.end =
      some (startUs, endUs))
    (covers : ∀ row ∈ db.rows, Requested db admitted row ↔
      startUs ≤ db.ts row ∧ db.ts row < endUs) :
    Exact db admitted (exported db admitted) := by
  have positive : 0 < windowStart.toInt := by decide
  rcases walk_slice lawful admitted.key endUs
    (Nat.lt_succ_self (endUs.toInt - startUs.toInt).toNat) positive
    with ⟨rows, walked, slice⟩
  refine ⟨(endUs.toInt - startUs.toInt).toNat + 1, rows, ?_, ?_, ?_⟩
  · intro fuel enough
    refine ⟨⟨some (startUs, endUs), rows, none⟩, ?_, rfl, rfl⟩
    rw [exported, clipped]
    dsimp only
    rw [streamData, walk_mono walked enough]
    rfl
  · refine slice.perm.trans (List.Perm.of_eq (List.filter_congr ?_))
    intro row member
    apply decide_eq_decide.mpr
    rw [covers row (mem_ofKey member), Int64.le_iff_toInt_le,
      Int64.lt_iff_toInt_lt]
    rfl
  · refine slice.sorted.imp ?_
    intro first second ordered
    exact Int64.le_iff_toInt_le.mpr ordered

/-- A table whose last `ts` has a successor is exported exactly. -/
theorem exact_of_bounds {db : Questdb Stored} (lawful : db.Lawful)
    {admitted : Admitted} {first last : Int64}
    (bounds : db.dataBounds = some (first, last))
    (below : last ≠ Int64.maxValue)
    (inside : ∀ row ∈ db.rows, first ≤ db.ts row ∧ db.ts row ≤ last) :
    Exact db admitted (exported db admitted) := by
  have clipped := congrArg (fun b => clip b admitted.start admitted.end) bounds
  rw [clip] at clipped
  split at clipped
  next =>
    apply exact_of_clip_some lawful clipped
    intro row member
    exact requested_iff_clipped below (inside row member)
  next inverted =>
    apply (exact_of_clip_none clipped).mpr
    intro row member requested
    have both := (requested_iff_clipped below
      (inside row (mem_ofKey member))).mp requested
    exact inverted (Int64.lt_of_le_of_lt both.1 both.2)

/--
An export is exact if and only if the table's last `ts` is below the greatest
`i64` or the key has no row in the requested range.
-/
theorem exact_iff {db : Questdb Stored} (lawful : db.Lawful)
    (admitted : Admitted) :
    Exact db admitted (exported db admitted) ↔
      EndFits db ∨ ∀ row ∈ db.ofKey admitted.key, ¬ Requested db admitted row := by
  cases bounds : db.dataBounds with
  | none =>
      have empty : db.rows = [] := lawful.empty.mp bounds
      have clipped : clip db.dataBounds admitted.start admitted.end = none := by
        rw [bounds]
        rfl
      rw [exact_of_clip_none clipped]
      simp [EndFits, Questdb.ofKey, empty]
  | some ends =>
      rcases ends with ⟨first, last⟩
      rcases lawful.bounds first last bounds with ⟨inside, -, greatest⟩
      rcases greatest with ⟨lastRow, lastMember, isLast⟩
      by_cases below : last = Int64.maxValue
      · subst below
        have clipped :
            clip db.dataBounds admitted.start admitted.end = none := by
          rw [bounds]
          exact clip_maxValue first admitted.start admitted.end
        have full : ¬ EndFits db := fun fits => fits lastRow lastMember isLast
        rw [exact_of_clip_none clipped, or_iff_right full]
      · have fits : EndFits db := by
          intro row member isMax
          have upper := Int64.le_iff_toInt_le.mp (inside row member).2
          rw [isMax] at upper
          exact below (Int64.toInt_inj.mp
            (le_antisymm (Int64.le_iff_toInt_le.mp (le_maxValue last)) upper))
        refine iff_of_true ?_ (Or.inl fits)
        exact exact_of_bounds lawful bounds below inside

/-- What an admitted request asks for. -/
theorem accept_ok {readers : Readers Text} {find : Find}
    {permits : Nat} {request : Request} {admitted : Admitted}
    (accepted : accept readers find permits request = .ok admitted) :
    ∃ market start,
      find request.tag = .ok (some market) ∧
      DataTable.parse request.table = some admitted.table ∧
      tableKey request.tag market admitted.table = .ok admitted.key ∧
      parseRange readers request.range.start request.range.end =
        .ok (start, admitted.end) ∧
      admitted.start =
        (request.lastEventId.bind (parseTs readers)).or start ∧
      0 < permits := by
  unfold accept at accepted
  cases found : findMarket find request.tag with
  | error e =>
      rw [found] at accepted
      cases accepted
  | ok market =>
      cases parsed : DataTable.parse request.table with
      | none =>
          rw [found, parsed] at accepted
          cases accepted
      | some table =>
          simp only [found, parsed, bind, Except.bind] at accepted
          cases keyed : tableKey request.tag market table with
          | error e =>
              rw [keyed] at accepted
              cases accepted
          | ok key =>
              simp only [keyed] at accepted
              cases ranged : parseRange readers request.range.start
                  request.range.end with
              | error e =>
                  rw [ranged] at accepted
                  cases accepted
              | ok bounds =>
                  rw [ranged] at accepted
                  by_cases busy : permits = 0
                  · rw [busy] at accepted
                    cases accepted
                  · simp only [if_neg busy] at accepted
                    cases accepted
                    exact ⟨market, bounds.1, find_of_findMarket found, rfl, keyed,
                      rfl, rfl, Nat.pos_of_ne_zero busy⟩

/-- An admitted request is answered with its export. -/
theorem answer_eq_exported {readers : Readers Text}
    {find : Find} {questdb : DataTable → Questdb Stored}
    {permits : Nat} {request : Request} {admitted : Admitted}
    (accepted : accept readers find permits request = .ok admitted)
    {answer : Nat → Option (Exported Stored)} :
    (∀ fuel, stream readers find questdb permits request fuel =
      .ok (answer fuel)) ↔
      answer = exported (questdb admitted.table) admitted := by
  have answered : ∀ fuel, stream readers find questdb permits request fuel =
      .ok (exported (questdb admitted.table) admitted fuel) := by
    intro fuel
    rw [stream, accepted]
    rfl
  constructor
  · intro answers
    funext fuel
    have both := (answers fuel).symm.trans (answered fuel)
    injection both
  · rintro rfl
    exact answered

/--
A request is answered with exactly the rows of its range if and only if the
table's last `ts` is below the greatest `i64` or the range holds no row of the
key; what a window query returns decides the next window, never the rows.
-/
theorem stream_exact_iff {readers : Readers Text}
    {find : Find} {questdb : DataTable → Questdb Stored}
    {permits : Nat} {request : Request} {admitted : Admitted}
    (lawful : ∀ table, (questdb table).Lawful)
    (accepted : accept readers find permits request = .ok admitted) :
    (∃ answer,
      (∀ fuel, stream readers find questdb permits request fuel =
        .ok (answer fuel)) ∧
      Exact (questdb admitted.table) admitted answer) ↔
      EndFits (questdb admitted.table) ∨
        ∀ row ∈ (questdb admitted.table).ofKey admitted.key,
          ¬ Requested (questdb admitted.table) admitted row := by
  rw [← exact_iff (lawful admitted.table)]
  constructor
  · rintro ⟨answer, answers, exact_⟩
    exact (answer_eq_exported accepted).mp answers ▸ exact_
  · intro exact_
    exact ⟨_, (answer_eq_exported accepted).mpr rfl, exact_⟩

/-- `GET /btc-15m/data/book`. -/
def bookRequest : Request where
  tag := "btc-15m"
  table := "book"
  range := { start := none, «end» := none }
  lastEventId := none

def bookAdmitted : Admitted where
  table := .contractBookLive
  key := "KXBTC15M"
  start := none
  «end» := none

/-- A table with rows of two keys, some at one time. -/
def bookTable : Questdb (String × Int64) :=
  .ofRows [("KXBTC15M", 60000001), ("KXETH15M", 0), ("KXBTC15M", 60000001),
    ("KXBTC15M", 5)]

theorem stream_exact_bookTable :
    ∃ answer,
      (∀ fuel, stream Readers.parsed (fun _ => .ok (some btc15m))
        (fun _ => bookTable) 2 bookRequest fuel = .ok (answer fuel)) ∧
      Exact bookTable bookAdmitted answer :=
  (stream_exact_iff (fun _ => Questdb.lawful_ofRows _)
    (show accept Readers.parsed (fun _ => .ok (some btc15m)) 2 bookRequest =
      .ok bookAdmitted by rfl)).mpr
    (Or.inl (by decide +kernel))

/-- A table with a row at the greatest `ts`. -/
def fullTable : Questdb (String × Int64) :=
  .ofRows [("KXBTC15M", 0), ("KXBTC15M", Int64.maxValue)]

/-- An open-ended export of that table returns none of its rows. -/
theorem stream_not_exact_fullTable :
    fullTable.Lawful ∧
      accept Readers.parsed (fun _ => .ok (some btc15m)) 2 bookRequest =
        .ok bookAdmitted ∧
      ¬ ∃ answer,
        (∀ fuel, stream Readers.parsed (fun _ => .ok (some btc15m))
          (fun _ => fullTable) 2 bookRequest fuel = .ok (answer fuel)) ∧
        Exact fullTable bookAdmitted answer := by
  have accepted : accept Readers.parsed (fun _ => .ok (some btc15m)) 2 bookRequest =
      .ok bookAdmitted := rfl
  refine ⟨Questdb.lawful_ofRows _, accepted, ?_⟩
  rintro ⟨answer, answers, exact_⟩
  rw [(answer_eq_exported accepted).mp answers] at exact_
  have nothing := (exact_of_clip_none (by decide +kernel)).mp exact_
  exact nothing ("KXBTC15M", 0) (by decide +kernel) (by decide +kernel)

end ChudMoney.Controllers.Data
