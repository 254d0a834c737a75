import ChudMoney.Controllers.CandleCounts

/-!
# A finished backfill that is submitted again

Once a contracts backfill is done and its rows are stored, the counts of a
second one over the same range are enough for every market that was open for a
minute of it.  So only shorter ones are asked for again.
-/

namespace ChudMoney.Controllers.Resubmission

open ChudMoney.Controllers.CandleCounts
open ChudMoney.Controllers.CandleCursor
open ChudMoney.Controllers.ContractsLoop
open ChudMoney.Controllers.ContractsRun
open ChudMoney.Controllers.Ingest (overlaps closeKey)
open ChudMoney.Controllers.IngestJobs
open ChudMoney.Controllers.IngestLoop
open ChudMoney.Controllers.RunJob
open ChudMoney.Controllers.Throttled
open ChudMoney.Db.Candles
open ChudMoney.Db.Rows
open ChudMoney.Feeds.Shared
open ChudMoney.Kalshi.Client
open ChudMoney.Kalshi.Rest
open ChudMoney.Lib.MachineInt
open ChudMoney.Lib.Programs
open ChudMoney.Lib.Programs.Program
open ChudMoney.Lib.SortDedup
open ChudMoney.Model

/-- The same request, without force. -/
def unforced (req : IngestRequest) : IngestRequest :=
  { req with force := false }

/-- The table has a candle of the row's ticker and period. -/
def Holds (table : CandleTable) (row : CandleRow) : Prop :=
  row.tsMs.toInt ∈ table.ends row.seriesTicker row.ticker

instance (table : CandleTable) : DecidablePred (Holds table) :=
  fun _ => inferInstanceAs (Decidable (_ ∈ _))

/-- A later table: nothing is lost, and every row that was queued is stored. -/
structure Stored (table later : CandleTable) (log : List Effect) : Prop where
  kept : ∀ row ∈ table.rows, Holds later row
  queued : ∀ row, .queued (.candle row) ∈ log → Holds later row

/-- Any answer about a market's candles has one for each of its periods. -/
def Full (env : Env) (job : IngestJob) (market : SeriesMarket) : Prop :=
  ∀ candles, Answered env job market candles →
    ∀ tsMs, PeriodEnd job market tsMs →
      ∃ candle ∈ candles, candle.endMs.toInt = tsMs

/-- What is asked and queued is about markets clipped to less than a minute. -/
def OnlyShort (job : IngestJob) (markets : List SeriesMarket) :
    Effect → Prop
  | .called (.marketCandlesticks series ticker _ startMs endMs) _ _ =>
      ∃ market ∈ markets, lifetime job market < periodMs ∧
        series = job.seriesTicker ∧ ticker = market.ticker ∧
          startMs = fromMs job market ∧ endMs = toMs job market
  | .queued row =>
      ∃ market ∈ markets, lifetime job market < periodMs ∧
        ∃ candle, row = .candle (candleRow job.seriesTicker market candle)
  | _ => True

section Listed

variable {env : Env} {job : IngestJob} {task : Task}

theorem overlaps_readPages (tier : Tier) (callFuel fuel : Nat)
    (cursor : Option String) :
    wp (readPages env job tier callFuel fuel cursor)
      (Ended True True fun markets _ =>
        ∀ market ∈ markets, overlaps market job.startMs job.endMs = true)
      task := by
  induction fuel generalizing cursor task with
  | zero => exact trivial
  | succ fuel ih =>
      unfold readPages
      apply ended_bind (ended_any _ task)
      rintro ⟨page, next⟩ after -
      have first : ∀ market ∈ page.filter fun market =>
          overlaps market job.startMs job.endMs,
          overlaps market job.startMs job.endMs = true :=
        fun market member => (List.mem_filter.mp member).2
      dsimp only
      split
      · exact first
      · apply ended_bind (ended_any _ after)
        intro _ slept _
        apply ended_bind (ih next)
        intro rest last later market member
        exact (List.mem_append.mp member).elim (first market) (later market)

theorem overlaps_readTiers (fuel : Nat) (tiers : List Tier) :
    wp (readTiers env job fuel tiers)
      (Ended True True fun markets _ =>
        ∀ market ∈ markets, overlaps market job.startMs job.endMs = true)
      task := by
  induction tiers generalizing task with
  | nil => exact fun market member => absurd member List.not_mem_nil
  | cons tier rest ih =>
      unfold readTiers
      apply ended_bind (overlaps_readPages tier fuel fuel none)
      intro markets middle first
      apply ended_bind ih
      intro more last later market member
      exact (List.mem_append.mp member).elim (first market) (later market)

/-- The markets that are listed were open during the range. -/
theorem overlaps_listed {fuel : Nat} {markets : List SeriesMarket}
    (listed : (marketsInRange env fuel task).1 = .ok markets) :
    ∀ market ∈ markets,
      overlaps market task.job.startMs task.job.endMs = true := by
  have ended : wp (marketsInRange env fuel)
      (Ended True True fun markets _ => ∀ market ∈ markets,
        overlaps market task.job.startMs task.job.endMs = true) task := by
    unfold marketsInRange
    rw [wp_bind, wp_getJob, continues_ok]
    apply ended_bind (ended_any _ task)
    intro cutoff after _
    apply ended_bind (overlaps_readTiers fuel _)
    intro all last inside market member
    exact inside market (mem_of_mem_sortDedup member)
  unfold wp at ended
  rw [listed] at ended
  exact ended

end Listed

/-! ## What the first run leaves -/

section First

variable {env : Env} {job : IngestJob} {market : SeriesMarket} {task : Task}
variable {table later : CandleTable} {n : Nat}

/-- A later table holds what an earlier one did. -/
theorem Stored.heldEnds_subset (stored : Stored table later task.log) :
    heldEnds job market table ⊆ heldEnds job market later := by
  intro tsMs member
  rw [heldEnds, Finset.mem_filter] at member ⊢
  refine ⟨?_, member.2⟩
  rcases mem_ends.mp member.1 with ⟨row, isRow, series, ticker, rfl⟩
  rw [← series, ← ticker]
  exact stored.kept row isRow

/-- A market that has passed has a candle for each minute that fits in. -/
theorem Passed.held (start : InMillis job.startMs.toInt)
    (end_ : InMillis job.endMs.toInt)
    (overlapping : overlaps market job.startMs job.endMs = true)
    (reads : Reads table env) (full : Full env job market)
    (stored : Stored table later task.log)
    (minute : periodMs ≤ lifetime job market)
    (passed : Passed env job (storedCandles env job n) market task) :
    lifetime job market / periodMs ≤
      ((heldEnds job market later).card : Int) := by
  rcases passed with ⟨m, complete⟩ | ⟨candles, answered, queued⟩
  · have enough := (complete_held start end_ overlapping reads complete).2.2
    have more := Finset.card_le_card
      (@Stored.heldEnds_subset job market _ _ _ stored)
    omega
  · have all : periodEnds job market ⊆ heldEnds job market later := by
      intro tsMs member
      have period := mem_periodEnds.mp member
      rcases full candles answered tsMs period with ⟨candle, isCandle, rfl⟩
      have inside := period.later
      have before := period.before
      rw [heldEnds, Finset.mem_filter]
      refine ⟨?_, by omega, by omega⟩
      exact stored.queued (candleRow job.seriesTicker market candle)
        (queued candle isCandle)
    have most := Finset.card_le_card all
    rcases card_periodEnds minute with ⟨more, -⟩ | ⟨exact_, -⟩ <;> omega

end First

/-! ## What the second run does -/

section Second

variable {env : Env} {job : IngestJob} {markets : List SeriesMarket}

theorem quiet_onlyShort : Quiet (OnlyShort job markets) := by
  constructor
  · intro call attempt clock listing
    cases call with
    | historicalCutoff => exact trivial
    | seriesMarketsPage series tier minCloseMs cursor => exact trivial
    | marketCandlesticks series ticker tier startMs endMs => exact listing.elim
    | cfHistoryValues indexId timestampMs timespan => exact listing.elim
  · exact fun _ => trivial
  · exact fun _ => trivial

/-- When a market of a minute is complete, only shorter ones are fetched. -/
theorem permits_onlyShort {existing : HashMap String Int64}
    {market : SeriesMarket} (member : market ∈ markets)
    (complete : ∀ m, periodMs ≤ lifetime job market →
      Complete env job existing market m) :
    Permits env job existing (OnlyShort job markets) market := by
  have short : ∀ m, ¬ Complete env job existing market m →
      lifetime job market < periodMs :=
    fun m incomplete => not_le.mp (mt (complete m) incomplete)
  constructor
  · exact fun _ _ => trivial
  · intro m incomplete tier attempt clock
    exact ⟨market, member, short m incomplete, rfl, rfl, rfl, rfl⟩
  · intro m incomplete candle
    exact ⟨market, member, short m incomplete, candle, rfl⟩

theorem runJob_onlyShort {fuel : Nat} (contracts : job.kind = .contracts)
    (listed : (marketsInRange env fuel (spawn job)).1 = .ok markets)
    (complete : ∀ market ∈ markets, periodMs ≤ lifetime job market →
      ∀ n m, Complete env job (storedCandles env job n) market m) :
    ∀ effect ∈ (runJob env ingestTimespan fuel (spawn job)).2.log,
      OnlyShort job markets effect := by
  have permits : PermitsListed env (spawn job) fuel
      (OnlyShort job markets) := by
    intro others isListed market member n
    rw [listed] at isListed
    cases isListed
    apply permits_onlyShort member
    exact fun m minute => complete market member minute n m
  rcases (@runJob_does _ _ _ _ ingestTimespan quiet_onlyShort contracts
    permits).1 with ⟨-, more, log, short⟩
  rw [log]
  exact short

end Second

/-- Once a job is done, each of its markets has passed. -/
theorem runJob_passed {env : Env} {job : IngestJob} {fuel : Nat}
    {markets : List SeriesMarket} (contracts : job.kind = .contracts)
    (listed : (marketsInRange env fuel (spawn job)).1 = .ok markets)
    (ended : (runJob env ingestTimespan fuel (spawn job)).1 = .ok ())
    (done : (runJob env ingestTimespan fuel (spawn job)).2.job.status = .done) :
    AllPassed env job markets
      (runJob env ingestTimespan fuel (spawn job)).2 := by
  have quiet : Quiet fun _ => True :=
    ⟨fun _ _ _ _ => trivial, fun _ => trivial, fun _ => trivial⟩
  have permits : PermitsListed env (spawn job) fuel fun _ => True :=
    fun _ _ _ _ _ => ⟨fun _ _ => trivial, fun _ _ _ _ _ => trivial,
      fun _ _ _ => trivial⟩
  rcases (@runJob_does _ _ _ _ ingestTimespan quiet contracts permits).2
    () ended done with ⟨others, isListed, passed⟩
  rw [listed] at isListed
  cases isListed
  exact passed

/-- A later job over the same range finds a market with its candles complete. -/
theorem complete_again {again : Env} {job next : IngestJob}
    {market : SeriesMarket} {stored : CandleTable}
    (start : InMillis job.startMs.toInt) (end_ : InMillis job.endMs.toInt)
    (overlapping : overlaps market job.startMs job.endMs = true)
    (sameStart : next.startMs = job.startMs) (sameEnd : next.endMs = job.endMs)
    (series : next.seriesTicker = job.seriesTicker)
    (unforced : next.force = false)
    (answers : ∀ n series startMs endMs,
      again.candleCounts n series startMs endMs =
        .ok (stored.candleCounts series startMs endMs))
    (ended : ∀ n, next.endMs ≤ nowMs again n)
    (minute : periodMs ≤ lifetime next market)
    (enough : periodMs ≤ lifetime job market →
      lifetime job market / periodMs ≤
        ((heldEnds job market stored).card : Int)) (n m : Nat) :
    Complete again next (storedCandles again next n) market m := by
  have sameLifetime : lifetime next market = lifetime job market := by
    simp only [lifetime, fromMs, toMs, sameStart, sameEnd]
  have sameHeld : heldEnds next market stored = heldEnds job market stored := by
    simp only [heldEnds, sameStart, sameEnd, series]
  apply @complete_of_held _ _ _ stored
  · rw [sameStart]
    exact start
  · rw [sameEnd]
    exact end_
  · rw [sameStart, sameEnd]
    exact overlapping
  · exact unforced
  · exact answers n _ _ _
  · rw [toMs, toInt_min]
    exact (min_le_right _ _).trans (Int64.le_iff_toInt_le.mp (ended m))
  · exact minute
  · rw [sameLifetime] at minute ⊢
    rw [sameHeld]
    exact enough minute

/--
A contracts backfill that is submitted again once it is done and stored asks
for no candles and queues none, but of markets clipped to less than a minute.
-/
theorem resubmission_onlyShort (env again : Env) (req : IngestRequest)
    (doc : Market) (jobId laterId : String) (created later : Int)
    (fuel laterFuel : Nat) (markets : List SeriesMarket)
    (table stored : CandleTable) (contracts : req.kind = .contracts)
    (listed : (marketsInRange env fuel
      (spawn (req.job doc jobId created))).1 = .ok markets)
    (ended : (runJob env ingestTimespan fuel
      (spawn (req.job doc jobId created))).1 = .ok ())
    (done : (runJob env ingestTimespan fuel
      (spawn (req.job doc jobId created))).2.job.status = .done)
    (reads : Reads table env)
    (full : ∀ market ∈ markets, Full env (req.job doc jobId created) market)
    (isStored : Stored table stored (runJob env ingestTimespan fuel
      (spawn (req.job doc jobId created))).2.log)
    (relisted : (marketsInRange again laterFuel
      (spawn ((unforced req).job doc laterId later))).1 =
        .ok markets)
    (answers : ∀ n series startMs endMs,
      again.candleCounts n series startMs endMs =
        .ok (stored.candleCounts series startMs endMs))
    (past : ∀ n, timestampMillis req.end ≤ nowMs again n) :
    ∀ effect ∈ (runJob again ingestTimespan laterFuel
        (spawn ((unforced req).job doc laterId later))).2.log,
      OnlyShort ((unforced req).job doc laterId later) markets
        effect := by
  have start : InMillis (req.job doc jobId created).startMs.toInt :=
    inMillis_timestampMillis req.start
  have end_ : InMillis (req.job doc jobId created).endMs.toInt :=
    inMillis_timestampMillis req.end
  have isContracts : (req.job doc jobId created).kind = .contracts := contracts
  rcases runJob_passed isContracts listed ended done with ⟨n, passed⟩
  apply runJob_onlyShort contracts relisted
  intro market member minute
  have overlapping := overlaps_listed listed market member
  refine complete_again start end_ overlapping ?_ ?_ ?_ rfl answers past minute
    ?_
  · rfl
  · rfl
  · rfl
  · intro long
    exact Passed.held start end_ overlapping reads (full market member)
      isStored long (passed market member)

/-! ## A backfill of two markets, submitted twice -/

/-- Nothing was stored before. -/
def emptyTable : CandleTable where
  rows := []
  deduped := by decide

/-- The candles of both markets. -/
def storedTable : CandleTable where
  rows := (sequential.map seriesMinutes).flatMap fun market =>
    (minutesContent market).map (candleRow "KXBTC15M" market)
  deduped := by decide +kernel

/-- The same service, when the candles are stored. -/
def laterEnv : Env :=
  { minutesEnv sequential with
    candleCounts := fun _ series startMs endMs =>
      .ok (storedTable.candleCounts series startMs endMs) }

theorem full_minutes : ∀ market ∈ sequential.map seriesMinutes,
    Full (minutesEnv sequential) minutesJob market := by
  have ends : ∀ market ∈ sequential.map seriesMinutes, ∀ n ∈ List.range 10,
      market.openMs.toInt < 60000 * (n : Int) →
        60000 * (n : Int) ≤ market.closeMs.toInt →
          candleAt n ∈ minutesContent market ∧
            (candleAt n).endMs.toInt = 60000 * (n : Int) := by
    decide +kernel
  have early : ∀ market ∈ sequential.map seriesMinutes,
      0 ≤ market.openMs.toInt ∧ market.closeMs.toInt < 600000 := by
    decide +kernel
  rintro market member candles ⟨asked, tier, answer⟩ _ ⟨⟨n, rfl⟩, opened, later,
    before⟩
  have bounds := early market member
  rw [periodMs] at *
  have isEnd := ends market member n.toNat (List.mem_range.mpr (by omega))
    (by omega) (by omega)
  rw [Int.toNat_of_nonneg (by omega)] at isEnd
  have upstream := @upstream_minutes sequential (by simp)
  refine ⟨_, upstream.answers market member asked tier _ _ candles answer _
    isEnd.1 ?_ ?_, isEnd.2⟩
  · rw [isEnd.2, fromMs, toInt_max]
    exact later
  · rw [isEnd.2, toMs, toInt_min]
    exact before

/-- Of a queued candle: the table holds it. -/
def keeps (table : CandleTable) : Effect → Bool
  | .queued (.candle row) => decide (Holds table row)
  | _ => true

/-- The second backfill of the two markets asks for no candles at all. -/
theorem resubmission_minutes :
    (runJob laterEnv ingestTimespan 2
      (spawn ((unforced minutesRequest).job btc15m "5f0d" 1))).2.log.Forall
        (OnlyShort ((unforced minutesRequest).job btc15m "5f0d" 1)
          (sequential.map seriesMinutes)) := by
  have listed := listed_minutes sequential (by simp)
  have ended : (runJob (minutesEnv sequential) ingestTimespan 2
      (spawn minutesJob)).1 = .ok () := by
    decide +kernel
  have done : (runJob (minutesEnv sequential) ingestTimespan 2
      (spawn minutesJob)).2.job.status = .done := by
    decide +kernel
  have reads : Reads emptyTable (minutesEnv sequential) := by
    rintro n series startMs endMs counts ⟨⟩
    rfl
  have isStored : Stored emptyTable storedTable
      (runJob (minutesEnv sequential) ingestTimespan 2
        (spawn minutesJob)).2.log := by
    constructor
    · exact fun row member => absurd member List.not_mem_nil
    · have held : ∀ effect ∈ (runJob (minutesEnv sequential) ingestTimespan 2
          (spawn minutesJob)).2.log,
          keeps storedTable effect = true := by
        decide +kernel
      exact fun row member => of_decide_eq_true (held _ member)
  have relisted : (marketsInRange laterEnv 2
      (spawn ((unforced minutesRequest).job btc15m "5f0d"
        1))).1 = .ok (sequential.map seriesMinutes) := by
    decide +kernel
  have past : ∀ n, timestampMillis minutesRequest.end ≤ nowMs laterEnv n := by
    intro n
    show timestampMillis 240000000000 ≤ timestampMillis 600000000000
    decide
  have full := full_minutes
  unfold minutesJob at listed ended done isStored full
  rw [List.forall_iff_forall_mem]
  exact resubmission_onlyShort (minutesEnv sequential) laterEnv minutesRequest
    btc15m "5f0c" "5f0d" 0 1 2 2 (sequential.map seriesMinutes) emptyTable
    storedTable rfl listed ended done reads full isStored relisted
    (fun _ _ _ _ => rfl) past

end ChudMoney.Controllers.Resubmission
