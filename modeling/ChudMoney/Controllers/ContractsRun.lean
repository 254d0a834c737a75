import ChudMoney.Controllers.RunJob

/-!
# What a contracts backfill does to each of its markets

A market whose candles are complete by the counts is skipped, and any other
one is fetched and queued.  Both directions are stated for whole runs: what a
run may add to its log, and what has become of each market when it is done.
-/

namespace ChudMoney.Controllers.ContractsRun

open ChudMoney.Controllers.ContractsLoop
open ChudMoney.Controllers.IngestJobs
open ChudMoney.Controllers.IngestLoop
open ChudMoney.Controllers.Periods
open ChudMoney.Controllers.RunJob
open ChudMoney.Controllers.Throttled
open ChudMoney.Db.Rows
open ChudMoney.Feeds.Shared
open ChudMoney.Kalshi.Client
open ChudMoney.Kalshi.Rest
open ChudMoney.Lib.MachineInt
open ChudMoney.Lib.Programs
open ChudMoney.Lib.Programs.Program

/-- The time that a task is told, in ms. -/
def nowMs (env : Env) (n : Nat) : Int64 :=
  timestampMillis (env.utcNow n)

/-- At some moment, the counts say that a market has all its candles. -/
def Complete (env : Env) (job : IngestJob) (existing : HashMap String Int64)
    (market : SeriesMarket) (n : Nat) : Prop :=
  candlesComplete (existing.getD market.ticker 0) (fromMs job market)
    (toMs job market) (nowMs env n) = true

/-- A call that lists markets. -/
def Listing : Call → Prop
  | .historicalCutoff => True
  | .seriesMarketsPage _ _ _ _ => True
  | _ => False

/-- The effects that say nothing about a market's candles. -/
structure Quiet (allowed : Effect → Prop) : Prop where
  listing : ∀ call attempt clock, Listing call →
    allowed (.called call attempt clock)
  slept : ∀ delay, allowed (.slept delay)
  published : ∀ job, allowed (.published job)

/-- What a run may do to a market. -/
structure Permits (env : Env) (job : IngestJob)
    (existing : HashMap String Int64) (allowed : Effect → Prop)
    (market : SeriesMarket) : Prop where
  skipped : ∀ n, Complete env job existing market n →
    allowed (.skippedMarket market (nowMs env n))
  called : ∀ n, ¬ Complete env job existing market n →
    ∀ tier attempt clock,
      allowed (.called (.marketCandlesticks job.seriesTicker market.ticker tier
        (fromMs job market) (toMs job market)) attempt clock)
  queued : ∀ n, ¬ Complete env job existing market n → ∀ candle,
    allowed (.queued (.candle (candleRow job.seriesTicker market candle)))

/-- The client answered with these candles of a market. -/
def Answered (env : Env) (job : IngestJob) (market : SeriesMarket)
    (candles : List Candlestick) : Prop :=
  ∃ n tier, (env.client n).marketCandlesticks job.seriesTicker market.ticker
    tier (fromMs job market) (toMs job market) candlePeriodMinutes =
      .ok candles

/-- A market was skipped, or what the client answered was queued. -/
def Passed (env : Env) (job : IngestJob) (existing : HashMap String Int64)
    (market : SeriesMarket) (task : Task) : Prop :=
  (∃ n, Complete env job existing market n) ∨
    ∃ candles, Answered env job market candles ∧ ∀ candle ∈ candles,
      .queued (.candle (candleRow job.seriesTicker market candle)) ∈ task.log

/-- What a part of a run adds, and what it has done once it ends well. -/
def Does {α : Type} (allowed : Effect → Prop) (task : Task)
    (done : α → Task → Prop) (out : Outcome Error α) (after : Task) : Prop :=
  Adds allowed task after ∧ ∀ value, out = .ok value → done value after

section Rules

variable {α β : Type} {allowed : Effect → Prop} {task : Task}
variable {program : TaskM α} {next : α → TaskM β}
variable {middle : α → Task → Prop} {done : β → Task → Prop}

theorem adds_bind (first : Moves (Adds allowed) program)
    (rest : ∀ value, Moves (Adds allowed) (next value)) :
    Moves (Adds allowed) (program >>= next) :=
  Moves.bind (fun _ _ _ => Adds.trans) first rest

/-- What was added before counts as well. -/
theorem does_after {earlier : Task} (adds : Adds allowed earlier task)
    (does : wp program (Does allowed task middle) task) :
    wp program (Does allowed earlier middle) task :=
  ⟨adds.trans does.1, does.2⟩

theorem does_bind (first : wp program (Does allowed task middle) task)
    (rest : ∀ value after, Adds allowed task after → middle value after →
      wp (next value) (Does allowed after done) after) :
    wp (program >>= next) (Does allowed task done) task := by
  rw [wp_bind]
  apply wp_mono first
  rintro out after ⟨adds, reached⟩
  cases out with
  | ok value =>
      rw [continues_ok]
      apply wp_mono (rest value after adds (reached value rfl))
      rintro out last ⟨later, holds⟩
      exact ⟨adds.trans later, holds⟩
  | error e => exact ⟨adds, fun _ ok => nomatch ok⟩
  | panic => exact ⟨adds, fun _ ok => nomatch ok⟩
  | pending => exact ⟨adds, fun _ ok => nomatch ok⟩

end Rules

section Market

variable {env : Env} {job : IngestJob} {existing : HashMap String Int64}
variable {allowed : Effect → Prop} {market : SeriesMarket} {task : Task}

theorem fromMs_same {other : IngestJob} (same : SameSpan job other) :
    fromMs other market = fromMs job market := by
  rw [fromMs, fromMs, same.startMs]

theorem toMs_same {other : IngestJob} (same : SameSpan job other) :
    toMs other market = toMs job market := by
  rw [toMs, toMs, same.endMs]

theorem Passed.adds {after : Task}
    (passed : Passed env job existing market task)
    (adds : Adds allowed task after) :
    Passed env job existing market after := by
  rcases passed with complete | ⟨candles, answer, queued⟩
  · exact Or.inl complete
  · exact Or.inr
      ⟨candles, answer, fun candle member => adds.mem (queued candle member)⟩

/-- A change of counters, and its publication, are added. -/
theorem Quiet.progress (quiet : Quiet allowed) {f : IngestJob → IngestJob}
    (same : ∀ job, SameSpan job (f job)) :
    Moves (Adds allowed) (modifyJob f >>= fun _ => publish) := by
  intro task
  exact adds_record task (quiet.published (f task.job)) (same task.job)
    task.asked task.clock

theorem Quiet.sleep (quiet : Quiet allowed) (delay : Nat) :
    Moves (Adds allowed) (sleep delay) := by
  intro task
  exact adds_record task (quiet.slept delay) ⟨rfl, rfl, rfl, rfl⟩ task.asked
    (task.clock + delay)

theorem skipMarket_adds (quiet : Quiet allowed) {now : Int64}
    (isAllowed : allowed (.skippedMarket market now)) :
    Moves (Adds allowed) (skipMarket market now) := by
  have noted : Moves (Adds allowed) (emit (.skippedMarket market now)) :=
    fun task =>
      adds_record task isAllowed ⟨rfl, rfl, rfl, rfl⟩ task.asked task.clock
  exact adds_bind noted fun _ => quiet.progress fun _ => ⟨rfl, rfl, rfl, rfl⟩

theorem fetchCandles_does (quiet : Quiet allowed)
    (permits : Permits env job existing allowed market)
    (same : SameSpan job task.job) {n : Nat}
    (incomplete : ¬ Complete env job existing market n) (callFuel : Nat) :
    wp (fetchCandles env task.job market callFuel)
      (Does allowed task fun candles _ => Answered env job market candles)
      task := by
  have calls : Calls env (fun call => ∃ tier, call =
      .marketCandlesticks job.seriesTicker market.ticker tier
        (fromMs job market) (toMs job market)) (Adds allowed) := by
    apply calls_adds
    · rintro call attempt clock ⟨tier, rfl⟩
      exact permits.called n incomplete tier attempt clock
    · exact quiet.slept
    · exact quiet.published
  constructor
  · apply calls.fetchCandles
    intro tier
    exact ⟨tier, by rw [same.seriesTicker, fromMs_same same, toMs_same same]⟩
  · intro candles ok
    rcases fetchCandles_ok (Prod.ext ok rfl) with ⟨asked, tier, answer⟩
    rw [same.seriesTicker, fromMs_same same, toMs_same same] at answer
    exact ⟨asked, tier, answer⟩

theorem queueRows_does {rows : List Row}
    (isAllowed : ∀ row ∈ rows, allowed (.queued row)) :
    wp (queueRows env rows)
      (Does allowed task fun _ after => ∀ row ∈ rows, .queued row ∈ after.log)
      task := by
  refine ⟨queueRows_adds isAllowed task, ?_⟩
  rintro ⟨⟩ ok row member
  rcases queueRows_spec env rows task with
    ⟨sent, left, rfl, log, -, ⟨-, rfl⟩ | ⟨e, error⟩⟩
  · rw [log]
    rw [List.append_nil] at member
    exact List.mem_append_right _ (List.mem_map.mpr ⟨row, member, rfl⟩)
  · rw [error] at ok
    cases ok

/-- Fetching a market is made of what is permitted, and queues it. -/
theorem fetchMarket_does (quiet : Quiet allowed)
    (permits : Permits env job existing allowed market)
    (same : SameSpan job task.job) {n : Nat}
    (incomplete : ¬ Complete env job existing market n) (callFuel : Nat) :
    wp (fetchMarket env market callFuel)
      (Does allowed task fun _ after => Passed env job existing market after)
      task := by
  unfold fetchMarket
  rw [wp_bind, wp_getJob, continues_ok]
  apply does_bind
    (fetchCandles_does quiet permits same incomplete callFuel)
  intro candles after fetched answered
  rw [same.seriesTicker]
  apply does_bind (queueRows_does _)
  · intro _ last stored queued
    have passed : Passed env job existing market last := by
      refine Or.inr ⟨candles, answered, ?_⟩
      intro candle member
      exact queued _ (List.mem_map.mpr ⟨candle, member, rfl⟩)
    have progress := quiet.progress (f := marketDone market)
      (fun _ => ⟨rfl, rfl, rfl, rfl⟩) last
    have moved := progress.trans (quiet.sleep contractRequestGap _)
    exact ⟨moved, fun _ _ => passed.adds moved⟩
  · intro row member
    rcases List.mem_map.mp member with ⟨candle, -, rfl⟩
    exact permits.queued n incomplete candle

/-- One turn of the loop. -/
theorem turn_does (quiet : Quiet allowed)
    (permits : Permits env job existing allowed market)
    (same : SameSpan job task.job) (callFuel : Nat) :
    wp (turn env existing callFuel market)
      (Does allowed task fun _ after => Passed env job existing market after)
      task := by
  unfold turn
  rw [wp_bind, wp_getJob, continues_ok, wp_bind, wp_ask, continues_ok,
    fromMs_same same, toMs_same same]
  split
  · rename_i complete
    have skipped := skipMarket_adds quiet (permits.skipped task.asked complete)
    exact ⟨skipped _, fun _ _ => Or.inl ⟨task.asked, complete⟩⟩
  · rename_i incomplete
    have sameTold : SameSpan job (told task).job := same
    exact fetchMarket_does quiet permits sameTold incomplete callFuel

/-- All turns of the loop. -/
theorem turns_does (quiet : Quiet allowed) {markets : List SeriesMarket}
    (permits : ∀ market ∈ markets, Permits env job existing allowed market)
    (same : SameSpan job task.job) (callFuel : Nat) :
    wp (turns env existing callFuel markets)
      (Does allowed task fun _ after => ∀ market ∈ markets,
        Passed env job existing market after) task := by
  induction markets generalizing task with
  | nil =>
      exact ⟨Adds.refl task, fun _ _ market member =>
        absurd member List.not_mem_nil⟩
  | cons market markets ih =>
      unfold turns
      apply does_bind
        (turn_does quiet (permits market List.mem_cons_self) same callFuel)
      intro _ middle adds passed
      have later := ih
        (fun other member => permits other (List.mem_cons_of_mem _ member))
        (same.trans adds.1)
      apply wp_mono later
      rintro out after ⟨rest, handled⟩
      refine ⟨rest, ?_⟩
      intro value ok other member
      rcases List.mem_cons.mp member with rfl | isLater
      · exact passed.adds rest
      · exact handled value ok other isLater

end Market

/-! ## Whole runs -/

section Run

variable {env : Env} {allowed : Effect → Prop} {task : Task} {fuel : Nat}

/-- When each market of a list has passed, by the same counts. -/
def AllPassed (env : Env) (job : IngestJob) (markets : List SeriesMarket)
    (task : Task) : Prop :=
  ∃ n, ∀ market ∈ markets,
    Passed env job (storedCandles env job n) market task

/-- What the list of markets asks of the effects. -/
def PermitsListed (env : Env) (task : Task) (fuel : Nat)
    (allowed : Effect → Prop) : Prop :=
  ∀ markets, (marketsInRange env fuel task).1 = .ok markets →
    ∀ market ∈ markets, ∀ n,
      Permits env task.job (storedCandles env task.job n) allowed market

theorem marketsInRange_does (quiet : Quiet allowed) (task : Task)
    (fuel : Nat) :
    wp (marketsInRange env fuel)
      (Does allowed task fun markets _ =>
        (marketsInRange env fuel task).1 = .ok markets) task := by
  have calls : Calls env Listing (Adds allowed) := by
    apply calls_adds
    · exact quiet.listing
    · exact quiet.slept
    · exact quiet.published
  refine ⟨?_, fun _ ok => ok⟩
  exact calls.marketsInRange trivial (fun _ _ _ _ => trivial) fuel task

theorem storedCandles_same {job other : IngestJob} (same : SameSpan job other)
    (n : Nat) : storedCandles env other n = storedCandles env job n := by
  simp only [storedCandles, same.startMs, same.endMs, same.seriesTicker,
    same.force]

/-- The counts are asked for the range of the job. -/
theorem existingCandles_does (task : Task) {job : IngestJob}
    (same : SameSpan job task.job) :
    wp (existingCandles env)
      (Does allowed task fun existing _ => ∃ n,
        existing = storedCandles env job n) task := by
  rcases existingCandles_apply env task with ⟨asked, stored⟩
  unfold wp
  rw [stored]
  refine ⟨Adds.refl task, ?_⟩
  rintro existing ⟨⟩
  exact ⟨task.asked, storedCandles_same same task.asked⟩

theorem contractsLoop_does (quiet : Quiet allowed)
    (permits : PermitsListed env task fuel allowed) :
    wp (contractsLoop env fuel)
      (Does allowed task fun _ after => ∃ markets,
        (marketsInRange env fuel task).1 = .ok markets ∧
          AllPassed env task.job markets after) task := by
  unfold contractsLoop
  apply does_bind (marketsInRange_does quiet task fuel)
  intro markets listedAt listing listed
  rw [wp_bind, wp_modifyJob, continues_ok, wp_bind, wp_publish, continues_ok]
  have counted := quiet.progress (f := fun job =>
    { job with marketsTotal := markets.length })
      (fun _ => ⟨rfl, rfl, rfl, rfl⟩) listedAt
  apply does_after counted
  have same := listing.1.trans counted.1
  apply does_bind (existingCandles_does _ same)
  rintro _ told asked ⟨n, rfl⟩
  have sameTold := same.trans asked.1
  apply does_bind (turns_does quiet
    (fun market member => permits markets listed market member n) sameTold fuel)
  intro _ last _ passed
  have ended : Adds allowed last
      { last with job := { last.job with cursorMs := last.job.endMs } } :=
    ⟨⟨rfl, rfl, rfl, rfl⟩, (Adds.refl last).2⟩
  refine ⟨ended, fun _ _ => ⟨markets, listed, n, ?_⟩⟩
  exact fun market member => (passed market member).adds ended

theorem close_adds (quiet : Quiet allowed) (outcome : Except Error Unit) :
    Moves (Adds allowed) (close env outcome) := by
  intro task
  apply adds_record task (quiet.published _) _ (task.asked + 1) task.clock
  cases outcome <;> exact ⟨rfl, rfl, rfl, rfl⟩

/--
A contracts backfill adds what its markets permit, and once it is done each of
them has passed.
-/
theorem runJob_does (quiet : Quiet allowed)
    (contracts : task.job.kind = .contracts)
    (permits : PermitsListed env task fuel allowed) :
    wp (runJob env timespan fuel)
      (Does allowed task fun _ after => after.job.status = .done →
        ∃ markets, (marketsInRange env fuel task).1 = .ok markets ∧
          AllPassed env task.job markets after) task := by
  unfold runJob
  rw [wp_bind, wp_getJob, continues_ok, wp_bind, wp_attempt]
  have isLoop :
      loop env timespan fuel task.job.kind = contractsLoop env fuel := by
    rw [contracts]
    rfl
  rw [isLoop]
  apply wp_mono (contractsLoop_does quiet permits)
  rintro out after ⟨adds, passed⟩
  cases out with
  | ok value =>
      have closed := @close_adds env _ quiet (.ok value) after
      refine ⟨adds.trans closed, ?_⟩
      intro _ _ _
      rcases passed value rfl with ⟨markets, listed, n, all⟩
      exact ⟨markets, listed, n,
        fun market member => (all market member).adds closed⟩
  | error e =>
      refine ⟨adds.trans (close_adds quiet (.error e) after), ?_⟩
      rintro _ _ ⟨⟩
  | panic => exact ⟨adds, fun _ ok => nomatch ok⟩
  | pending => exact ⟨adds, fun _ ok => nomatch ok⟩

end Run

end ChudMoney.Controllers.ContractsRun
