import ChudMoney.Db.Rows
import ChudMoney.Feeds.Shared
import Mathlib.Data.Finset.Card
import Mathlib.Data.Int.Interval

/-!
# The table of candles

`contract_candles_hist` keeps one row per ticker and period.  A backfill asks
it how many it has of each ticker of a series.
-/

namespace ChudMoney.Db.Candles

open ChudMoney.Db.Rows
open ChudMoney.Feeds.Shared
open ChudMoney.Lib.MachineInt

/-- `contract_candles_hist`, `DEDUP UPSERT KEYS(ts, ticker)`. -/
structure CandleTable where
  rows : List CandleRow
  deduped : (rows.map fun row => (row.tsMs, row.ticker)).Nodup

/-- How often each ticker occurs. -/
def tally (tickers : List String) : HashMap String Int64 :=
  tickers.foldl
    (fun counts ticker => counts.insert ticker (counts.getD ticker 0 + 1)) ∅

namespace CandleTable

variable (table : CandleTable)

/--
The candles per ticker of one series, for periods ending within
`[startMs, endMs]`.
-/
def candleCounts (series : String) (startMs endMs : Int64) :
    HashMap String Int64 :=
  tally ((table.rows.filter fun row =>
    row.seriesTicker = series && startMs ≤ row.tsMs && row.tsMs ≤ endMs).map
      CandleRow.ticker)

/-- The ends of the periods that the table has a candle for, in ms. -/
def ends (series ticker : String) : Finset Int :=
  ((table.rows.filter fun row =>
    row.seriesTicker = series && row.ticker = ticker).map fun row =>
      row.tsMs.toInt).toFinset

end CandleTable

/-- The occurrences are counted, up to the size of an `i64`. -/
theorem getD_tally (tickers : List String) (ticker : String) :
    (tally tickers).getD ticker 0 = Int64.ofNat (tickers.count ticker) := by
  induction tickers using List.reverseRecOn with
  | nil => simp [tally]
  | append_singleton earlier last ih =>
      have step : tally (earlier ++ [last]) =
          (tally earlier).insert last ((tally earlier).getD last 0 + 1) := by
        simp only [tally, List.foldl_append, List.foldl_cons, List.foldl_nil]
      rw [step, Std.ExtTreeMap.getD_insert, List.count_append]
      by_cases same : last = ticker
      · subst same
        simp [ih]
      · simp [same, ih]

section Counts

variable {table : CandleTable} {series ticker : String}
variable {startMs endMs : Int64}

theorem mem_ends {tsMs : Int} :
    tsMs ∈ table.ends series ticker ↔ ∃ row ∈ table.rows,
      row.seriesTicker = series ∧ row.ticker = ticker ∧
        row.tsMs.toInt = tsMs := by
  simp [CandleTable.ends, and_assoc]

/-- The rows of one ticker that a query counts. -/
def countedRows (table : CandleTable) (series ticker : String)
    (startMs endMs : Int64) : List CandleRow :=
  table.rows.filter fun row =>
    row.ticker = ticker &&
      (row.seriesTicker = series && startMs ≤ row.tsMs && row.tsMs ≤ endMs)

/-- A ticker has no two candles of one period. -/
theorem nodup_countedRows :
    ((countedRows table series ticker startMs endMs).map fun row =>
      row.tsMs.toInt).Nodup := by
  have apart : (countedRows table series ticker startMs endMs).Pairwise
      fun first second =>
        (first.tsMs, first.ticker) ≠ (second.tsMs, second.ticker) :=
    (List.pairwise_map.mp table.deduped).sublist List.filter_sublist
  apply List.pairwise_map.mpr
  apply apart.imp_of_mem
  intro first second isFirst isSecond differ same
  have firstTicker : first.ticker = ticker := by
    simpa using (Bool.and_eq_true_iff.mp (List.mem_filter.mp isFirst).2).1
  have secondTicker : second.ticker = ticker := by
    simpa using (Bool.and_eq_true_iff.mp (List.mem_filter.mp isSecond).2).1
  apply differ
  rw [firstTicker, secondTicker, Int64.toInt_inj.mp same]

/-- What a query counts are the periods of the ticker that end in the range. -/
theorem toFinset_countedRows :
    ((countedRows table series ticker startMs endMs).map fun row =>
      row.tsMs.toInt).toFinset =
      (table.ends series ticker).filter fun tsMs =>
        startMs.toInt ≤ tsMs ∧ tsMs ≤ endMs.toInt := by
  ext tsMs
  rw [Finset.mem_filter, mem_ends, List.mem_toFinset, List.mem_map]
  simp only [countedRows, List.mem_filter, Bool.and_eq_true,
    decide_eq_true_eq, Int64.le_iff_toInt_le]
  constructor
  · rintro ⟨row, ⟨member, isTicker, ⟨isSeries, after⟩, before⟩, rfl⟩
    exact ⟨⟨row, member, isSeries, isTicker, rfl⟩, after, before⟩
  · rintro ⟨⟨row, member, isSeries, isTicker, rfl⟩, after, before⟩
    exact ⟨row, ⟨member, isTicker, ⟨isSeries, after⟩, before⟩, rfl⟩

/-- The count of a ticker, in a range that is not absurdly long. -/
theorem toInt_candleCounts (short : endMs.toInt - startMs.toInt < 2 ^ 62) :
    ((table.candleCounts series startMs endMs).getD ticker 0).toInt =
      ((table.ends series ticker).filter fun tsMs =>
        startMs.toInt ≤ tsMs ∧ tsMs ≤ endMs.toInt).card := by
  have counted : ((table.candleCounts series startMs endMs).getD ticker 0) =
      Int64.ofNat (countedRows table series ticker startMs endMs).length := by
    rw [CandleTable.candleCounts, getD_tally, List.count_eq_length_filter,
      List.filter_map, List.length_map, List.filter_filter]
    rfl
  have length := List.toFinset_card_of_nodup
    (@nodup_countedRows table series ticker startMs endMs)
  rw [toFinset_countedRows, List.length_map] at length
  have inside : ((table.ends series ticker).filter fun tsMs =>
      startMs.toInt ≤ tsMs ∧ tsMs ≤ endMs.toInt) ⊆
        Finset.Icc startMs.toInt endMs.toInt := by
    intro tsMs member
    exact Finset.mem_Icc.mpr (Finset.mem_filter.mp member).2
  have few := Finset.card_le_card inside
  rw [Int.card_Icc] at few
  rw [counted, ← length]
  exact Int64.toInt_ofNat_of_lt (by omega)

end Counts

end ChudMoney.Db.Candles
