import ChudMoney.Controllers.CandleCursor
import ChudMoney.Controllers.ContractsRun
import ChudMoney.Db.Candles
import Mathlib

/-!
# What the count of a market's candles says

A backfill skips a market with as many candles as whole minutes fit into its
clipped lifetime.  One minute more may end in it than fit into it, and then a
market is skipped with one candle missing.
-/

namespace ChudMoney.Controllers.CandleCounts

open ChudMoney.Controllers.CandleCursor
open ChudMoney.Controllers.ContractsLoop
open ChudMoney.Controllers.ContractsRun
open ChudMoney.Controllers.Ingest (overlaps tiers)
open ChudMoney.Controllers.IngestJobs
open ChudMoney.Controllers.IngestLoop
open ChudMoney.Controllers.Periods
open ChudMoney.Controllers.RunJob
open ChudMoney.Controllers.Throttled
open ChudMoney.Db.Candles
open ChudMoney.Db.Rows
open ChudMoney.Feeds.Shared
open ChudMoney.Kalshi.Client
open ChudMoney.Kalshi.Rest
open ChudMoney.Lib.MachineInt
open ChudMoney.Lib.Programs
open ChudMoney.Lib.Programs.Program
open ChudMoney.Lib.SortDedup
open ChudMoney.Model

def periodMs : Int := 60000

section Markets

variable (job : IngestJob) (market : SeriesMarket) (table : CandleTable)

/-- A period of the market ends at `tsMs`, inside the range of the job. -/
structure PeriodEnd (tsMs : Int) : Prop where
  whole : periodMs ∣ tsMs
  opened : market.openMs.toInt < tsMs
  later : max market.openMs.toInt job.startMs.toInt ≤ tsMs
  before : tsMs ≤ min market.closeMs.toInt job.endMs.toInt

/-- The table has no candles of a market but such of its lifetime. -/
def OnlyLifetime (series : String) : Prop :=
  ∀ tsMs ∈ table.ends series market.ticker,
    periodMs ∣ tsMs ∧ market.openMs.toInt < tsMs ∧
      tsMs ≤ market.closeMs.toInt

/-- The counts that a task is answered are those of the table. -/
def Reads (env : Env) : Prop :=
  ∀ n series startMs endMs counts,
    env.candleCounts n series startMs endMs = .ok counts →
      counts = table.candleCounts series startMs endMs

/-- A period that ends in the range and has no candle. -/
def Missing (tsMs : Int) : Prop :=
  PeriodEnd job market tsMs ∧
    tsMs ∉ table.ends job.seriesTicker market.ticker

/--
Whatever backfill finds the table as it is, it skips the market only when no
candle is missing, and the market has closed or the range is over.
-/
def SkippedComplete : Prop :=
  ∀ (env : Env) (fuel : Nat) (now : Int64), Reads table env →
    .skippedMarket market now ∈
      (runJob env ingestTimespan fuel (spawn job)).2.log →
    (∀ tsMs, ¬ Missing job market table tsMs) ∧
      (market.closeMs ≤ now ∨ job.endMs ≤ now)

/-- The market's clipped lifetime, in ms. -/
def lifetime : Int :=
  (toMs job market).toInt - (fromMs job market).toInt

/-- One period more ends in the clipped lifetime than fit into it. -/
def Extra : Prop :=
  if market.openMs.toInt < job.startMs.toInt then
    job.startMs.toInt % periodMs = 0 ∨
      (toMs job market).toInt % periodMs < job.startMs.toInt % periodMs
  else (toMs job market).toInt % periodMs < market.openMs.toInt % periodMs

/-- A minute fits in, one more ends in it, and one candle is missing. -/
structure Slip : Prop where
  minute : periodMs ≤ lifetime job market
  extra : Extra job market
  missing : ∃! tsMs, Missing job market table tsMs

end Markets

/-! ## Counting periods -/

section Periods

variable {job : IngestJob} {market : SeriesMarket} {table : CandleTable}

/-- The periods of the market that end inside the range. -/
noncomputable def periodEnds (job : IngestJob) (market : SeriesMarket) : Finset Int :=
  (Finset.Ioc (max market.openMs.toInt (job.startMs.toInt - 1))
    (toMs job market).toInt).filter (periodMs ∣ ·)

/-- Those that the table has a candle of. -/
def heldEnds (job : IngestJob) (market : SeriesMarket) (table : CandleTable) :
    Finset Int :=
  (table.ends job.seriesTicker market.ticker).filter fun tsMs =>
    job.startMs.toInt ≤ tsMs ∧ tsMs ≤ job.endMs.toInt

theorem mem_periodEnds {tsMs : Int} :
    tsMs ∈ periodEnds job market ↔ PeriodEnd job market tsMs := by
  rw [periodEnds, Finset.mem_filter, Finset.mem_Ioc, toMs, toInt_min]
  constructor
  · rintro ⟨⟨later, before⟩, whole⟩
    exact ⟨whole, by omega, by omega, before⟩
  · rintro ⟨whole, opened, later, before⟩
    exact ⟨⟨by omega, before⟩, whole⟩

/-- The multiples of a period after one time and up to another. -/
theorem card_multiples {first last : Int} (ordered : first ≤ last) :
    (((Finset.Ioc first last).filter (periodMs ∣ ·)).card : Int) =
      last / periodMs - first / periodMs := by
  have floors : ∀ time : Int, ⌊(time : ℚ) / (60000 : Int)⌋ = time / 60000 := by
    intro time
    simpa using Rat.floor_intCast_div_natCast time 60000
  rw [periodMs, Int.Ioc_filter_dvd_card _ _ (by decide), floors, floors]
  omega

/-- As many periods end in a lifetime as fit into it, or one more. -/
theorem card_periodEnds (minute : periodMs ≤ lifetime job market) :
    ((periodEnds job market).card : Int) =
        lifetime job market / periodMs + 1 ∧ Extra job market ∨
      ((periodEnds job market).card : Int) =
        lifetime job market / periodMs ∧ ¬ Extra job market := by
  simp only [lifetime, Extra, fromMs, toInt_max, periodMs] at minute ⊢
  rw [periodEnds, card_multiples (by omega)]
  generalize (toMs job market).toInt = last at *
  generalize market.openMs.toInt = opened at *
  generalize job.startMs.toInt = start at *
  simp only [periodMs]
  by_cases inside : opened < start
  · rw [if_pos inside]
    omega
  · rw [if_neg inside]
    omega

/-- What the code computes of the counts. -/
theorem candlesComplete_iff (start : InMillis job.startMs.toInt)
    (end_ : InMillis job.endMs.toInt)
    (overlapping : overlaps market job.startMs job.endMs = true)
    {candles now : Int64} :
    candlesComplete candles (fromMs job market) (toMs job market) now = true ↔
      (toMs job market).toInt ≤ now.toInt ∧ periodMs ≤ lifetime job market ∧
        lifetime job market / periodMs ≤ candles.toInt := by
  have inside : market.openMs.toInt < job.endMs.toInt ∧
      job.startMs.toInt < market.closeMs.toInt := by
    simpa [overlaps, Int64.lt_iff_toInt_lt, and_comm] using overlapping
  have bounds : -16544868105600000 < lifetime job market ∧
      lifetime job market < 16544868105600000 := by
    rw [lifetime, fromMs, toMs, toInt_max, toInt_min]
    omega
  have difference : (toMs job market - fromMs job market).toInt =
      lifetime job market := by
    apply toInt_sub_of_fits
    rw [lifetime] at bounds
    constructor <;> omega
  have period : candlePeriodMs.toInt = periodMs := by decide
  have expected := @toInt_div_of_pos (toMs job market - fromMs job market)
    candlePeriodMs (by decide)
  rw [difference, period] at expected
  simp only [candlesComplete, Bool.and_eq_true, decide_eq_true_eq,
    Int64.le_iff_toInt_le, Int64.lt_iff_toInt_lt, and_assoc]
  rw [show (0 : Int64).toInt = 0 from rfl]
  unfold periodMs at *
  rcases le_or_gt 0 (lifetime job market) with nonneg | negative
  · rw [expected.1 nonneg]
    omega
  · have nothing := expected.2 negative.le
    omega

/-- The periods that the market lacks. -/
noncomputable def missingEnds (job : IngestJob) (market : SeriesMarket)
    (table : CandleTable) : Finset Int :=
  (periodEnds job market).filter fun tsMs =>
    tsMs ∉ table.ends job.seriesTicker market.ticker

theorem mem_missingEnds {tsMs : Int} :
    tsMs ∈ missingEnds job market table ↔ Missing job market table tsMs := by
  rw [missingEnds, Finset.mem_filter, mem_periodEnds]
  rfl

/-- The candles held and those missing make up the periods. -/
theorem card_heldEnds (only : OnlyLifetime market table job.seriesTicker) :
    (heldEnds job market table).card + (missingEnds job market table).card =
      (periodEnds job market).card := by
  have held : heldEnds job market table =
      (periodEnds job market).filter fun tsMs =>
        tsMs ∈ table.ends job.seriesTicker market.ticker := by
    ext tsMs
    rw [heldEnds, Finset.mem_filter, Finset.mem_filter, mem_periodEnds]
    constructor
    · rintro ⟨isHeld, later, before⟩
      rcases only tsMs isHeld with ⟨whole, opened, closed⟩
      exact ⟨⟨whole, opened, by omega, by omega⟩, isHeld⟩
    · rintro ⟨⟨whole, opened, later, before⟩, isHeld⟩
      exact ⟨isHeld, by omega, by omega⟩
  rw [held, missingEnds]
  exact Finset.card_filter_add_card_filter_not _

/-- With a candle for each minute that fits in, no more than one is missing. -/
theorem slip_of_missing (only : OnlyLifetime market table job.seriesTicker)
    (minute : periodMs ≤ lifetime job market)
    (enough : lifetime job market / periodMs ≤
      ((heldEnds job market table).card : Int))
    {tsMs : Int} (missing : Missing job market table tsMs) :
    Slip job market table := by
  have parts := card_heldEnds only
  have some_ : 0 < (missingEnds job market table).card :=
    Finset.card_pos.mpr ⟨tsMs, mem_missingEnds.mpr missing⟩
  rcases card_periodEnds minute with ⟨more, extra⟩ | ⟨all, -⟩
  · have one : (missingEnds job market table).card = 1 := by omega
    rcases Finset.card_eq_one.mp one with ⟨only, isOnly⟩
    have unique : ∀ other, Missing job market table other ↔ other = only := by
      intro other
      rw [← mem_missingEnds, isOnly, Finset.mem_singleton]
    exact ⟨minute, extra, only, (unique only).mpr rfl,
      fun other isMissing => (unique other).mp isMissing⟩
  · omega

/-- Where one more ends in than fits in, and one is missing, all are counted. -/
theorem Slip.enough (only : OnlyLifetime market table job.seriesTicker)
    (slip : Slip job market table) :
    lifetime job market / periodMs ≤
      ((heldEnds job market table).card : Int) := by
  have parts := card_heldEnds only
  rcases slip.missing with ⟨tsMs, missing, unique⟩
  have one : missingEnds job market table = {tsMs} := by
    ext other
    rw [mem_missingEnds, Finset.mem_singleton]
    constructor
    · exact unique other
    · rintro rfl
      exact missing
  rw [one, Finset.card_singleton] at parts
  rcases card_periodEnds slip.minute with ⟨more, -⟩ | ⟨-, none_⟩
  · omega
  · exact absurd slip.extra none_

end Periods

/-! ## Skipping by the counts -/

section Skips

variable {env : Env} {job : IngestJob} {market : SeriesMarket}
variable {table : CandleTable} {n m : Nat}

theorem toInt_counted (start : InMillis job.startMs.toInt)
    (end_ : InMillis job.endMs.toInt) :
    ((table.candleCounts job.seriesTicker job.startMs job.endMs).getD
      market.ticker 0).toInt = ((heldEnds job market table).card : Int) := by
  rw [heldEnds, toInt_candleCounts (by omega)]

/-- A market is complete only by the candles that the table holds. -/
theorem complete_held (start : InMillis job.startMs.toInt)
    (end_ : InMillis job.endMs.toInt)
    (overlapping : overlaps market job.startMs job.endMs = true)
    (reads : Reads table env)
    (complete : Complete env job (storedCandles env job n) market m) :
    (toMs job market).toInt ≤ (nowMs env m).toInt ∧
      periodMs ≤ lifetime job market ∧
        lifetime job market / periodMs ≤
          ((heldEnds job market table).card : Int) := by
  rcases (candlesComplete_iff start end_ overlapping).mp complete with
    ⟨ended, minute, enough⟩
  refine ⟨ended, minute, ?_⟩
  have empty : ((∅ : HashMap String Int64).getD market.ticker 0).toInt = 0 := by
    simp
  unfold storedCandles at enough
  split at enough
  · rw [empty] at enough
    omega
  · split at enough
    · rename_i counts answer
      rw [reads n _ _ _ _ answer, toInt_counted start end_] at enough
      exact enough
    · rw [empty] at enough
      omega

/-- A market with enough candles is complete once it is over. -/
theorem complete_of_held (start : InMillis job.startMs.toInt)
    (end_ : InMillis job.endMs.toInt)
    (overlapping : overlaps market job.startMs job.endMs = true)
    (unforced : job.force = false)
    (answers : env.candleCounts n job.seriesTicker job.startMs job.endMs =
      .ok (table.candleCounts job.seriesTicker job.startMs job.endMs))
    (ended : (toMs job market).toInt ≤ (nowMs env m).toInt)
    (minute : periodMs ≤ lifetime job market)
    (enough : lifetime job market / periodMs ≤
      ((heldEnds job market table).card : Int)) :
    Complete env job (storedCandles env job n) market m := by
  have counts : storedCandles env job n =
      table.candleCounts job.seriesTicker job.startMs job.endMs := by
    simp [storedCandles, unforced, answers]
  rw [Complete, counts]
  apply (candlesComplete_iff start end_ overlapping).mpr
  rw [toInt_counted start end_]
  exact ⟨ended, minute, enough⟩

/-- A skip says that the market is over and its candles suffice. -/
def SkipEarned (job : IngestJob) (market : SeriesMarket)
    (table : CandleTable) (effect : Effect) : Prop :=
  ∀ now, effect = .skippedMarket market now →
    (toMs job market).toInt ≤ now.toInt ∧ periodMs ≤ lifetime job market ∧
      lifetime job market / periodMs ≤
        ((heldEnds job market table).card : Int)

/-- Every skip of a run is earned. -/
theorem runJob_skips (contracts : job.kind = .contracts)
    (start : InMillis job.startMs.toInt) (end_ : InMillis job.endMs.toInt)
    (overlapping : overlaps market job.startMs job.endMs = true)
    (reads : Reads table env) (fuel : Nat) :
    ∀ effect ∈ (runJob env ingestTimespan fuel (spawn job)).2.log,
      SkipEarned job market table effect := by
  have quiet : Quiet (SkipEarned job market table) := by
    constructor
    · rintro call attempt clock - now ⟨⟩
    · rintro delay now ⟨⟩
    · rintro published now ⟨⟩
  have permits : PermitsListed env (spawn job) fuel
      (SkipEarned job market table) := by
    intro markets _ other _ n
    constructor
    · rintro m complete now ⟨⟩
      exact complete_held start end_ overlapping reads complete
    · rintro m - tier attempt clock now ⟨⟩
    · rintro m - candle now ⟨⟩
  rcases (@runJob_does _ _ _ _ ingestTimespan quiet contracts permits).1
    with ⟨-, more, log, earned⟩
  rw [log]
  exact earned

end Skips

/-! ## A series with one market -/

/-- An instant that `timestampMillis` takes to these ms. -/
def instant (ms : Int64) : Int :=
  ms.toInt * 1000000

/-- A client that lists one market, in its tier. -/
def listingClient (job : IngestJob) (market : SeriesMarket) : KalshiClient where
  send _ := .ok ⟨200, ""⟩
  readValue _ := .error "expected value at line 1 column 1"
  readMarketsPage _ := .ok
    { cursor := ""
      markets := [{ OpenMarket.named market.ticker with
        openTime := "open"
        closeTime := "close"
        floorStrike := market.floorStrike }] }
  readCutoff _ := .ok
    (match market.tier with
      | .live => instant job.startMs
      | .historical => instant job.endMs)
  parseFromRfc3339 text :=
    some (instant (if text = "open" then market.openMs else market.closeMs))
  toRfc3339Millis _ := "1970-01-01T00:00:00.000Z"
  writeF64 _ := "0.5"

/-- The client lists one market, and the counts are those of a table. -/
def listingEnv (job : IngestJob) (market : SeriesMarket) (table : CandleTable)
    (now : DateTime) : Env where
  client _ := listingClient job market
  took _ := 50000000
  utcNow _ := now
  isOpen _ := true
  indexCounts _ _ _ _ _ := .ok ∅
  candleCounts _ series startMs endMs :=
    .ok (table.candleCounts series startMs endMs)
  writeF64 _ := "0.5"

/-- A program that always returns the same. -/
def Returns {α : Type} (program : TaskM α) (value : α) : Prop :=
  ∀ task, (program task).1 = .ok value

section Listing

variable {α β : Type} {program : TaskM α} {next : α → TaskM β}
variable {value : α} {result : β}
variable {job : IngestJob} {market : SeriesMarket} {table : CandleTable}
variable {now : DateTime}

theorem Returns.bind (first : Returns program value)
    (rest : Returns (next value) result) :
    Returns (program >>= next) result := by
  intro task
  have returned := first task
  rw [bind_apply]
  revert returned
  rcases program task with ⟨out, after⟩
  rintro ⟨⟩
  exact rest after

theorem returns_throttled {env : Env} {call : Call}
    {method : KalshiClient → Except KalshiError α}
    (answers : ∀ n, method (env.client n) = .ok value) (fuel : Nat) :
    Returns (throttled env call method (fuel + 1)) value := by
  intro task
  simp only [throttled, throttledLoop, bind_apply, read_apply, andThen_ok,
    attemptCall, answers, modifyJob_apply, pure_apply]

theorem timestampMillis_instant (ms : Int64) :
    timestampMillis (instant ms) = ms := by
  rw [timestampMillis, instant, Int.mul_ediv_cancel _ (by decide),
    Int64.ofInt_toInt]

theorem listed_page (series : String) (startMs : Int64)
    (cursor : Option String) :
    (listingClient job market).seriesMarketsPage series market.tier startMs
      cursor = .ok ([market], none) := by
  have parsed : seriesMarket (listingClient job market).parseFromRfc3339
      market.tier { OpenMarket.named market.ticker with
        openTime := "open"
        closeTime := "close"
        floorStrike := market.floorStrike } = some market := by
    simp [seriesMarket, parseMillis, listingClient, timestampMillis_instant,
      OpenMarket.named]
  show Except.ok ([_].filterMap (seriesMarket
    (listingClient job market).parseFromRfc3339 market.tier), none) = _
  rw [List.filterMap_cons, parsed]
  rfl

theorem tiers_listed (before : job.startMs < job.endMs) :
    tiers job.startMs job.endMs (timestampMillis
      (match market.tier with
        | .live => instant job.startMs
        | .historical => instant job.endMs)) = [market.tier] := by
  cases tier : market.tier with
  | live =>
      simp only [tiers, timestampMillis_instant, before, if_true,
        Int64.lt_irrefl, if_false, List.nil_append]
  | historical =>
      simp only [tiers, timestampMillis_instant, before, if_true,
        Int64.lt_irrefl, if_false, List.append_nil]

/-- The one market is listed. -/
theorem marketsInRange_listed (task : Task)
    (before : task.job.startMs < task.job.endMs)
    (overlapping : overlaps market task.job.startMs task.job.endMs = true)
    (fuel : Nat) :
    (marketsInRange (listingEnv task.job market table now) (fuel + 1) task).1 =
      .ok [market] := by
  have cutoff := @returns_throttled _ _ (listingEnv task.job market table now)
    .historicalCutoff (fun client => client.historicalCutoff) (fun _ => rfl)
    fuel
  have pages : Returns (readPages (listingEnv task.job market table now)
      task.job market.tier (fuel + 1) (fuel + 1) none) [market] := by
    unfold readPages
    apply Returns.bind (returns_throttled (fun _ => listed_page _ _ _) fuel)
    intro task
    simp [overlapping]
  have listed : Returns (readTiers (listingEnv task.job market table now)
      task.job (fuel + 1) [market.tier]) [market] := by
    unfold readTiers
    exact pages.bind fun _ => rfl
  unfold marketsInRange
  rw [bind_apply, getJob_apply, andThen_ok]
  refine Returns.bind cutoff ?_ task
  rw [tiers_listed before]
  exact listed.bind fun _ => rfl

/-- A turn that finds its market complete notes the skip. -/
theorem turn_skips {env : Env} {existing : HashMap String Int64} {task : Task}
    (same : SameSpan job task.job)
    (complete : Complete env job existing market task.asked) (fuel : Nat) :
    wp (turn env existing fuel market)
      (fun out after => out = .ok () ∧
        .skippedMarket market (nowMs env task.asked) ∈ after.log) task := by
  unfold turn
  rw [wp_bind, wp_getJob, continues_ok, wp_bind, wp_ask, continues_ok,
    fromMs_same same, toMs_same same]
  rw [Complete, nowMs] at complete
  rw [if_pos complete]
  refine ⟨rfl, ?_⟩
  apply List.mem_append_left
  exact List.mem_append_right _ (List.mem_singleton_self _)

/-- So does the loop over the one market. -/
theorem turns_skips {env : Env} {task : Task} (same : SameSpan job task.job)
    (complete : ∀ n m, Complete env job (storedCandles env job n) market m)
    (fuel : Nat) :
    wp (existingCandles env >>= fun existing =>
        turns env existing fuel [market] >>= fun _ =>
          modifyJob fun job => { job with cursorMs := job.endMs })
      (fun _ after => ∃ m, .skippedMarket market (nowMs env m) ∈ after.log)
      task := by
  rcases existingCandles_apply env task with ⟨asked, stored⟩
  rw [wp_bind]
  unfold wp
  rw [stored, continues_ok, storedCandles_same same]
  unfold turns
  rw [bind_assoc, wp_bind]
  have sameTold : SameSpan job { task with asked := asked }.job := same
  apply wp_mono (turn_skips sameTold (complete _ _) fuel)
  rintro _ last ⟨rfl, skipped⟩
  exact ⟨_, skipped⟩

/-- The one market is skipped if the counts are enough. -/
theorem contractsLoop_skips {env : Env} {task : Task} {fuel : Nat}
    (listed : (marketsInRange env fuel task).1 = .ok [market])
    (complete : ∀ n m,
      Complete env task.job (storedCandles env task.job n) market m) :
    wp (contractsLoop env fuel)
      (fun _ after => ∃ m, .skippedMarket market (nowMs env m) ∈ after.log)
      task := by
  have quiet : Quiet fun _ => True :=
    ⟨fun _ _ _ _ => trivial, fun _ => trivial, fun _ => trivial⟩
  have listing := (@marketsInRange_does env _ quiet task fuel).1
  unfold contractsLoop
  rw [wp_bind]
  unfold wp
  rcases ran : marketsInRange env fuel task with ⟨out, after⟩
  rw [ran] at listed listing
  cases listed
  have same := listing.1.trans (quiet.progress (f := fun job =>
    { job with marketsTotal := [market].length })
      (fun _ => ⟨rfl, rfl, rfl, rfl⟩) after).1
  exact turns_skips same complete fuel

/-- A task writes after its loop, and keeps what is in the log. -/
theorem runJob_listed_skips {env : Env} {fuel : Nat}
    (contracts : job.kind = .contracts)
    (listed : (marketsInRange env fuel (spawn job)).1 = .ok [market])
    (complete : ∀ n m, Complete env job (storedCandles env job n) market m) :
    ∃ m, .skippedMarket market (nowMs env m) ∈
      (runJob env ingestTimespan fuel (spawn job)).2.log := by
  have runs : wp (runJob env ingestTimespan fuel)
      (fun _ after => ∃ m, .skippedMarket market (nowMs env m) ∈ after.log)
      (spawn job) := by
    unfold runJob
    rw [wp_bind, wp_getJob, continues_ok, wp_bind, wp_attempt]
    have isLoop : loop env ingestTimespan fuel (spawn job).job.kind =
        contractsLoop env fuel := by
      show loop env ingestTimespan fuel job.kind = _
      rw [contracts]
      rfl
    rw [isLoop]
    apply wp_mono (contractsLoop_skips listed complete)
    rintro out after ⟨m, skipped⟩
    have closed : ∀ outcome, .skippedMarket market (nowMs env m) ∈
        (close env outcome after).2.log :=
      fun outcome => List.mem_append_left _ skipped
    cases out with
    | ok value => exact ⟨m, closed (.ok value)⟩
    | error e => exact ⟨m, closed (.error e)⟩
    | panic => exact ⟨m, skipped⟩
    | pending => exact ⟨m, skipped⟩
  exact runs

end Listing

/-! ## When a skip says that no candle is missing -/

section Sound

variable {job : IngestJob} {market : SeriesMarket} {table : CandleTable}

theorem skippedComplete_of_not_slip (contracts : job.kind = .contracts)
    (start : InMillis job.startMs.toInt) (end_ : InMillis job.endMs.toInt)
    (overlapping : overlaps market job.startMs job.endMs = true)
    (only : OnlyLifetime market table job.seriesTicker)
    (noSlip : ¬ Slip job market table) : SkippedComplete job market table := by
  intro env fuel now reads skipped
  rcases runJob_skips contracts start end_ overlapping reads fuel _ skipped now
    rfl with ⟨ended, minute, enough⟩
  constructor
  · exact fun tsMs missing =>
      noSlip (slip_of_missing only minute enough missing)
  · rw [toMs, toInt_min] at ended
    rw [Int64.le_iff_toInt_le, Int64.le_iff_toInt_le]
    omega

theorem not_skippedComplete_of_slip (contracts : job.kind = .contracts)
    (unforced : job.force = false)
    (start : InMillis job.startMs.toInt) (end_ : InMillis job.endMs.toInt)
    (overlapping : overlaps market job.startMs job.endMs = true)
    (only : OnlyLifetime market table job.seriesTicker) (now : DateTime)
    (ended : timestampMillis now = job.endMs) (slip : Slip job market table) :
    ¬ SkippedComplete job market table := by
  intro sound
  have minute := slip.minute
  rw [lifetime, fromMs, toMs, toInt_max, toInt_min, periodMs] at minute
  have before : job.startMs < job.endMs := by
    rw [Int64.lt_iff_toInt_lt]
    omega
  let env := listingEnv job market table now
  have complete : ∀ n m,
      Complete env job (storedCandles env job n) market m := by
    intro n m
    apply complete_of_held start end_ overlapping unforced rfl
    · show (toMs job market).toInt ≤ (timestampMillis now).toInt
      rw [ended, toMs, toInt_min]
      exact min_le_right _ _
    · exact slip.minute
    · exact slip.enough only
  have listed :=
    @marketsInRange_listed market table now (spawn job) before overlapping 0
  rcases runJob_listed_skips contracts listed complete with ⟨m, skipped⟩
  have reads : Reads table env := by
    rintro n series startMs endMs counts ⟨⟩
    rfl
  rcases slip.missing with ⟨tsMs, missing, -⟩
  exact (sound env 1 _ reads skipped).1 tsMs missing

end Sound

theorem inMillis_timestampMillis (time : DateTime) :
    InMillis (timestampMillis time).toInt := by
  have bounds := time.property
  rw [toInt_timestampMillis time.property]
  constructor <;> omega

/--
A skip says that no candle is missing, unless one period more ends in the
clipped lifetime than fit into it and just one candle is missing.
-/
theorem skippedComplete_iff (req : IngestRequest) (doc : Market)
    (jobId : String) (created : Int) (market : SeriesMarket)
    (table : CandleTable) (contracts : req.kind = .contracts)
    (unforced : req.force = false)
    (overlapping : overlaps market (timestampMillis req.start)
      (timestampMillis req.end) = true)
    (only : OnlyLifetime market table doc.seriesTicker) :
    SkippedComplete (req.job doc jobId created) market table ↔
      ¬ Slip (req.job doc jobId created) market table := by
  have start : InMillis (req.job doc jobId created).startMs.toInt :=
    inMillis_timestampMillis req.start
  have end_ : InMillis (req.job doc jobId created).endMs.toInt :=
    inMillis_timestampMillis req.end
  have now : timestampMillis req.end = (req.job doc jobId created).endMs := rfl
  have isContracts : (req.job doc jobId created).kind = .contracts := contracts
  have isUnforced : (req.job doc jobId created).force = false := unforced
  have overlaps_ : overlaps market (req.job doc jobId created).startMs
      (req.job doc jobId created).endMs = true := overlapping
  have onlySeries : OnlyLifetime market table
      (req.job doc jobId created).seriesTicker := only
  constructor
  · intro sound slip
    exact not_skippedComplete_of_slip isContracts isUnforced start end_
      overlaps_ onlySeries req.end now slip sound
  · intro noSlip
    exact skippedComplete_of_not_slip isContracts start end_ overlaps_
      onlySeries noSlip

/-! ## A range that has a market whole, and one that cuts it -/

/-- A market of a quarter of an hour. -/
def quarter : SeriesMarket where
  ticker := "KXBTC15M-70JAN010015-15"
  openMs := 0
  closeMs := 900000
  floorStrike := none
  tier := .historical

/-- The first hour. -/
def wholeRequest : IngestRequest where
  tag := "btc-15m"
  kind := .contracts
  start := fromSeconds 0
  «end» := fromSeconds 3600
  force := false

/-- From five minutes into the market on. -/
def lateRequest : IngestRequest :=
  { wholeRequest with start := fromSeconds 300 }

/-- The candles of the minutes 5 to 14. -/
def lateRows : List CandleRow :=
  (List.range' 5 10).map fun n => candleRow "KXBTC15M" quarter (candleAt n)

def lateTable : CandleTable where
  rows := lateRows
  deduped := by decide +kernel

/-- Over the whole market, it is not skipped with these. -/
theorem skippedComplete_quarter :
    SkippedComplete (wholeRequest.job btc15m "5f0c" 0) quarter lateTable := by
  have only : OnlyLifetime quarter lateTable btc15m.seriesTicker := by
    unfold OnlyLifetime
    decide +kernel
  apply (skippedComplete_iff wholeRequest btc15m "5f0c" 0 quarter lateTable rfl
    rfl (by decide +kernel) only).mpr
  intro slip
  have extra := slip.extra
  have start : (wholeRequest.job btc15m "5f0c" 0).startMs.toInt = 0 := by
    decide +kernel
  have last : (toMs (wholeRequest.job btc15m "5f0c" 0) quarter).toInt =
      900000 := by
    decide +kernel
  have opened : quarter.openMs.toInt = 0 := by decide
  rw [Extra, start, last, opened, if_neg (by decide)] at extra
  exact absurd extra (by decide)

def lateJob : IngestJob :=
  lateRequest.job btc15m "5f0c" 0

theorem missing_late (tsMs : Int) :
    Missing lateJob quarter lateTable tsMs ↔ tsMs = 900000 := by
  have start : lateJob.startMs.toInt = 300000 := by decide +kernel
  have end_ : lateJob.endMs.toInt = 3600000 := by decide +kernel
  have opened : quarter.openMs.toInt = 0 := by decide
  have closed : quarter.closeMs.toInt = 900000 := by decide
  have held : ∀ n ∈ List.range' 5 10,
      60000 * (n : Int) ∈ lateTable.ends "KXBTC15M" quarter.ticker := by
    decide +kernel
  have last : 900000 ∉ lateTable.ends "KXBTC15M" quarter.ticker := by
    decide +kernel
  constructor
  · rintro ⟨⟨⟨n, rfl⟩, -, later, before⟩, isMissing⟩
    rw [opened, start, periodMs] at later
    rw [closed, end_, periodMs] at before
    rw [periodMs] at isMissing ⊢
    by_contra other
    apply isMissing
    have isHeld := held n.toNat (List.mem_range'_1.mpr (by omega))
    rwa [Int.toNat_of_nonneg (by omega)] at isHeld
  · rintro rfl
    refine ⟨⟨by decide, by decide, ?_, ?_⟩, last⟩
    · rw [opened, start]
      decide
    · rw [closed, end_]
      decide

theorem slip_late : Slip lateJob quarter lateTable := by
  have lifetime_ : lifetime lateJob quarter = 600000 := by decide +kernel
  have start : lateJob.startMs.toInt = 300000 := by decide +kernel
  constructor
  · rw [lifetime_]
    decide
  · rw [Extra, start, if_pos (by decide)]
    exact Or.inl (by decide)
  · exact ⟨900000, (missing_late _).mpr rfl,
      fun tsMs missing => (missing_late tsMs).mp missing⟩

/-- The candle of the last minute is missing, and the market is skipped. -/
theorem not_skippedComplete_quarter :
    ¬ ∀ (req : IngestRequest) (doc : Market) (jobId : String) (created : Int)
      (market : SeriesMarket) (table : CandleTable), req.kind = .contracts →
      req.force = false →
      overlaps market (timestampMillis req.start) (timestampMillis req.end) =
        true →
      OnlyLifetime market table doc.seriesTicker →
      SkippedComplete (req.job doc jobId created) market table := by
  intro skipped
  have only : OnlyLifetime quarter lateTable btc15m.seriesTicker := by
    unfold OnlyLifetime
    decide +kernel
  have overlapping : overlaps quarter lateJob.startMs lateJob.endMs = true := by
    decide +kernel
  have sound := skipped lateRequest btc15m "5f0c" 0 quarter lateTable rfl rfl
    overlapping only
  have start : InMillis lateJob.startMs.toInt :=
    inMillis_timestampMillis lateRequest.start
  have end_ : InMillis lateJob.endMs.toInt :=
    inMillis_timestampMillis lateRequest.end
  exact not_skippedComplete_of_slip rfl rfl start end_ overlapping only
    lateRequest.end rfl slip_late sound

end ChudMoney.Controllers.CandleCounts
