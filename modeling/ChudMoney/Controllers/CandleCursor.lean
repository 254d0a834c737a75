import ChudMoney.Controllers.RunJob

/-!
# What the cursor of a contracts backfill promises

Everything before the cursor is meant to be ingested.  Markets are processed
by the time they close and the cursor follows those closes, so the promise
holds as long as no market has a candle before the close of one that is
processed earlier.
-/

namespace ChudMoney.Controllers.CandleCursor

open ChudMoney.Controllers.ContractsLoop
open ChudMoney.Controllers.Ingest
open ChudMoney.Controllers.IngestJobs
open ChudMoney.Controllers.IngestLoop
open ChudMoney.Controllers.JobLog
open ChudMoney.Controllers.Periods
open ChudMoney.Controllers.RunJob
open ChudMoney.Controllers.Throttled
open ChudMoney.Db.Rows
open ChudMoney.Feeds.Shared
open ChudMoney.Kalshi.Client
open ChudMoney.Kalshi.Rest
open ChudMoney.Lib.Json
open ChudMoney.Lib.MachineInt
open ChudMoney.Lib.Programs
open ChudMoney.Lib.Programs.Program
open ChudMoney.Model

section Promise

variable (content : SeriesMarket → List Candlestick)
variable (markets : List SeriesMarket)

/-- The candle's period ends inside the range. -/
def EndsInside (job : IngestJob) (candle : Candlestick) : Prop :=
  job.startMs.toInt ≤ candle.endMs.toInt ∧
    candle.endMs.toInt < job.endMs.toInt

/-- The candle was queued, or its market skipped as complete. -/
def Handled (job : IngestJob) (log : List Effect) (market : SeriesMarket)
    (candle : Candlestick) : Prop :=
  .queued (.candle (candleRow job.seriesTicker market candle)) ∈ log ∨
    ∃ nowMs, .skippedMarket market nowMs ∈ log

/-- `cursor_ms`: everything before this has been ingested. -/
def Documented (log : List Effect) (job : IngestJob) : Prop :=
  ∀ market ∈ markets, ∀ candle ∈ content market, EndsInside job candle →
    candle.endMs.toInt < job.cursorMs.toInt → Handled job log market candle

/-- What readers of the job may rely on. -/
def Kept (job : IngestJob) (log : List Effect) (published : IngestJob) : Prop :=
  SameSpan job published ∧ Documented content markets log published

/--
What is relied on of the upstream: a market has candles for its lifetime, and
an answer for a stretch has all that end inside it.
-/
structure Upstream (env : Env) (series : String) : Prop where
  lifetime : ∀ market ∈ markets, ∀ candle ∈ content market,
    market.openMs.toInt ≤ candle.endMs.toInt ∧
      candle.endMs.toInt ≤ market.closeMs.toInt
  answers : ∀ market ∈ markets, ∀ n tier fromMs toMs candles,
    (env.client n).marketCandlesticks series market.ticker tier fromMs toMs
        candlePeriodMinutes = .ok candles →
    ∀ candle ∈ content market, fromMs.toInt ≤ candle.endMs.toInt →
      candle.endMs.toInt ≤ toMs.toInt → candle ∈ candles

/--
No market has a candle inside the range before the clipped close of a market
that is processed earlier.
-/
def Apart (job : IngestJob) : Prop :=
  markets.Pairwise fun first second => ∀ candle ∈ content second,
    EndsInside job candle → (toMs job first).toInt ≤ candle.endMs.toInt

/-- The loop has done some of the markets, and goes on with the rest. -/
structure Reached (job : IngestJob) (done rest : List SeriesMarket)
    (task : Task) : Prop where
  parts : markets = done ++ rest
  same : SameSpan job task.job
  handled : ∀ market ∈ done, ∀ candle ∈ content market,
    EndsInside job candle → Handled job task.log market candle
  ahead : ∀ market ∈ rest, ∀ candle ∈ content market,
    EndsInside job candle →
      task.job.cursorMs.toInt ≤ candle.endMs.toInt
  published : EveryPublished (Kept content markets job) task.log

/-- What holds wherever the loop stops. -/
structure Stopped (job : IngestJob) (task : Task) : Prop where
  kept : Kept content markets job task.log task.job
  published : EveryPublished (Kept content markets job) task.log

end Promise

section Steps

variable {content : SeriesMarket → List Candlestick}
variable {markets : List SeriesMarket} {job : IngestJob}
variable {done rest : List SeriesMarket} {task : Task} {env : Env}

theorem Handled.mono {log more : List Effect} {market : SeriesMarket}
    {candle : Candlestick} (handled : Handled job log market candle) :
    Handled job (log ++ more) market candle := by
  rcases handled with queued | ⟨nowMs, skipped⟩
  · exact Or.inl (List.mem_append_left more queued)
  · exact Or.inr ⟨nowMs, List.mem_append_left more skipped⟩

theorem endsInside_iff {other : IngestJob} (same : SameSpan job other)
    {candle : Candlestick} :
    EndsInside other candle ↔ EndsInside job candle := by
  rw [EndsInside, EndsInside, same.startMs, same.endMs]

theorem handled_iff {other : IngestJob} (same : SameSpan job other)
    {log : List Effect} {market : SeriesMarket} {candle : Candlestick} :
    Handled other log market candle ↔ Handled job log market candle := by
  rw [Handled, Handled, same.seriesTicker]

theorem Reached.kept (reached : Reached content markets job done rest task) :
    Kept content markets job task.log task.job := by
  refine ⟨reached.same, ?_⟩
  intro market member candle isCandle inside before
  rw [endsInside_iff reached.same] at inside
  rw [handled_iff reached.same]
  rw [reached.parts, List.mem_append] at member
  rcases member with isDone | isLeft
  · exact reached.handled market isDone candle isCandle inside
  · exact absurd before
      (not_lt.mpr (reached.ahead market isLeft candle isCandle inside))

theorem Reached.stopped
    (reached : Reached content markets job done rest task) :
    Stopped content markets job task :=
  ⟨reached.kept, reached.published⟩

/-- An effect, and counters, leave the loop where it is. -/
theorem Reached.record (reached : Reached content markets job done rest task)
    (effect : Effect) (current : ∀ published, effect = .published published →
      published = task.job) (asked clock : Nat) :
    Reached content markets job done rest
      { task.record effect with asked := asked, clock := clock } := by
  refine ⟨reached.parts, reached.same, ?_, reached.ahead, ?_⟩
  · intro market member candle isCandle inside
    exact (reached.handled market member candle isCandle inside).mono
  · refine (everyPublished_concat _).mpr ⟨reached.published, ?_⟩
    intro published isPublished
    rw [current published isPublished]
    exact reached.kept

/-- Calls leave the loop where it is. -/
theorem steady_reached (call : Call) :
    Steady call (Reached content markets job done rest) := by
  constructor
  · intro task attempt clock reached
    apply reached.record _ _ task.asked task.clock
    rintro published ⟨⟩
  · intro task delay reached
    apply reached.record _ _ task.asked task.clock
    rintro published ⟨⟩
  · intro task reached
    apply reached.record _ _ task.asked task.clock
    rintro published ⟨⟩
    rfl
  · intro task requests retries retryError reached
    exact ⟨reached.parts, reached.same.trans ⟨rfl, rfl, rfl, rfl⟩,
      reached.handled, reached.ahead, reached.published⟩
  · intro task asked clock reached
    exact ⟨reached.parts, reached.same, reached.handled, reached.ahead,
      reached.published⟩

theorem calls_reached : Calls env (fun _ => True) (fun task next =>
    Reached content markets job done rest task →
      Reached content markets job done rest next) where
  refl _ := id
  trans early late := fun reached => late (early reached)
  called _ fuel _ := fun _ reached =>
    throttled_keeps (steady_reached _) fuel reached
  slept delay := fun task reached => by
    apply reached.record _ _ task.asked (task.clock + delay)
    rintro published ⟨⟩

/-- Rows that are queued leave the loop where it is. -/
theorem Reached.queue (reached : Reached content markets job done rest task)
    (rows : List Row) :
    Reached content markets job done rest (queueRows env rows task).2 := by
  rcases queueRows_spec env rows task with ⟨sent, left, -, log, same, -⟩
  refine ⟨reached.parts, ?_, ?_, ?_, ?_⟩
  · rw [same]
    exact reached.same.trans ⟨rfl, rfl, rfl, rfl⟩
  · rw [log]
    intro market member candle isCandle inside
    exact (reached.handled market member candle isCandle inside).mono
  · rw [same]
    exact reached.ahead
  · rw [log, everyPublished_queued]
    exact reached.published

/-- A market is done once its candles are handled. -/
theorem Reached.next {market : SeriesMarket}
    (reached : Reached content markets job done (market :: rest) task)
    (apart : Apart content markets job)
    (handled : ∀ candle ∈ content market, EndsInside job candle →
      Handled job task.log market candle) (skipped : Nat) :
    Reached content markets job (done ++ [market]) rest
      { task with
        job := { marketDone market task.job with skipped := skipped } } := by
  refine
    ⟨?_, reached.same.trans ⟨rfl, rfl, rfl, rfl⟩, ?_, ?_,
      reached.published⟩
  · rw [reached.parts, List.append_assoc]
    rfl
  · intro other member candle isCandle inside
    rcases List.mem_append.mp member with before | isMarket
    · exact reached.handled other before candle isCandle inside
    · cases List.mem_singleton.mp isMarket
      exact handled candle isCandle inside
  · intro other member candle isCandle inside
    show (max task.job.cursorMs (toMs task.job market)).toInt ≤ _
    rw [toInt_max]
    apply max_le
    · exact reached.ahead other (List.mem_cons_of_mem market member) candle
        isCandle inside
    · have later := apart
      rw [Apart, reached.parts, List.pairwise_append,
        List.pairwise_cons] at later
      have sameEnd : toMs task.job market = toMs job market := by
        rw [toMs, toMs, reached.same.endMs]
      rw [sameEnd]
      exact later.2.1.1 other member candle isCandle inside

/-- The job as it is now is published. -/
theorem Reached.publish
    (reached : Reached content markets job done rest task) :
    Reached content markets job done rest
      (task.record (.published task.job)) := by
  apply reached.record _ _ task.asked task.clock
  rintro published ⟨⟩
  rfl

/-- The promise, and when the loop went on. -/
def Goes (content : SeriesMarket → List Candlestick)
    (markets : List SeriesMarket) (job : IngestJob)
    (done rest : List SeriesMarket) (out : Outcome Error Unit) (task : Task) :
    Prop :=
  Stopped content markets job task ∧
    (out = .ok () → Reached content markets job done rest task)

theorem Reached.goes (reached : Reached content markets job done rest task)
    (out : Outcome Error Unit) :
    Goes content markets job done rest out task :=
  ⟨reached.stopped, fun _ => reached⟩

theorem Reached.stops {done' rest' : List SeriesMarket}
    (reached : Reached content markets job done rest task)
    {out : Outcome Error Unit} (fails : out ≠ .ok ()) :
    Goes content markets job done' rest' out task :=
  ⟨reached.stopped, fun ok => absurd ok fails⟩

theorem skipMarket_goes {market : SeriesMarket}
    (reached : Reached content markets job done (market :: rest) task)
    (apart : Apart content markets job) (nowMs : Int64) :
    wp (skipMarket market nowMs)
      (Goes content markets job (done ++ [market]) rest) task := by
  have noted : Reached content markets job done (market :: rest)
      (task.record (.skippedMarket market nowMs)) := by
    apply reached.record _ _ task.asked task.clock
    rintro published ⟨⟩
  have handled : ∀ candle ∈ content market, EndsInside job candle →
      Handled job (task.record (.skippedMarket market nowMs)).log market
        candle := by
    intro candle _ _
    exact Or.inr ⟨nowMs, List.mem_append_right _ (List.mem_singleton_self _)⟩
  exact (noted.next apart handled (task.job.skipped + 1)).publish.goes (.ok ())

/-- The candles that end inside the range are among those fetched. -/
theorem Reached.fetched {market : SeriesMarket}
    (reached : Reached content markets job done (market :: rest) task)
    (upstream : Upstream content markets env job.seriesTicker)
    {callFuel : Nat} {after : Task} {candles : List Candlestick}
    (ran : fetchCandles env task.job market callFuel task =
      (.ok candles, after)) :
    ∀ candle ∈ content market, EndsInside job candle →
      Handled job
        (after.log ++ (candles.map fun candle =>
          Row.candle (candleRow task.job.seriesTicker market candle)).map
            .queued) market candle := by
  intro candle isCandle inside
  have member : market ∈ markets := by
    rw [reached.parts]
    simp
  rcases fetchCandles_ok ran with ⟨n, tier, answer⟩
  rw [reached.same.seriesTicker] at answer ⊢
  rcases upstream.lifetime market member candle isCandle with ⟨opens, closes⟩
  have fetched : candle ∈ candles := by
    apply upstream.answers market member n tier _ _ _ answer candle isCandle
    · rw [fromMs, toInt_max, reached.same.startMs]
      exact max_le opens inside.1
    · rw [toMs, toInt_min, reached.same.endMs]
      exact le_min closes inside.2.le
  left
  apply List.mem_append_right
  rw [List.map_map]
  exact List.mem_map.mpr ⟨candle, fetched, rfl⟩

theorem fetchMarket_goes {market : SeriesMarket}
    (reached : Reached content markets job done (market :: rest) task)
    (upstream : Upstream content markets env job.seriesTicker)
    (apart : Apart content markets job) (callFuel : Nat) :
    wp (fetchMarket env market callFuel)
      (Goes content markets job (done ++ [market]) rest) task := by
  unfold fetchMarket
  rw [wp_bind, wp_getJob, continues_ok, wp_bind]
  have called :=
    (@calls_reached content markets _ _ _ env).fetchCandles task.job market
      (fun _ => trivial) callFuel task reached
  unfold wp
  rcases ran : fetchCandles env task.job market callFuel task with ⟨out, after⟩
  rw [ran] at called
  dsimp only at called
  cases out with
  | error e => exact called.stops (fun ok => nomatch ok)
  | panic => exact called.stops (fun ok => nomatch ok)
  | pending => exact called.stops (fun ok => nomatch ok)
  | ok candles =>
      rw [continues_ok, wp_bind]
      have handled := reached.fetched upstream ran
      have queued := @Reached.queue _ _ _ _ _ _ env called
        (candles.map fun candle =>
          .candle (candleRow task.job.seriesTicker market candle))
      have spec := queueRows_spec env (candles.map fun candle =>
        .candle (candleRow task.job.seriesTicker market candle)) after
      generalize candles.map (fun candle =>
        Row.candle (candleRow task.job.seriesTicker market candle)) = rows at *
      unfold wp
      generalize queueRows env rows after = result at *
      rcases result with ⟨out, last⟩
      dsimp only at spec
      rcases spec with ⟨sent, left, rfl, log, -, ⟨rfl, rfl⟩ | ⟨e, rfl⟩⟩
      · rw [List.append_nil, ← log] at handled
        have moved := (queued.next apart handled last.job.skipped).publish
        apply (moved.record (.slept contractRequestGap) _ _ _).goes
        rintro published ⟨⟩
      · exact queued.stops (fun ok => nomatch ok)

theorem turn_goes {market : SeriesMarket}
    (reached : Reached content markets job done (market :: rest) task)
    (upstream : Upstream content markets env job.seriesTicker)
    (apart : Apart content markets job) (existing : HashMap String Int64)
    (callFuel : Nat) :
    wp (turn env existing callFuel market)
      (Goes content markets job (done ++ [market]) rest) task := by
  unfold turn
  rw [wp_bind, wp_getJob, continues_ok, wp_bind, wp_ask, continues_ok]
  have asked : Reached content markets job done (market :: rest)
      { task with asked := task.asked + 1 } :=
    ⟨reached.parts, reached.same, reached.handled, reached.ahead,
      reached.published⟩
  split
  · exact skipMarket_goes asked apart _
  · exact fetchMarket_goes asked upstream apart callFuel

theorem turns_goes (upstream : Upstream content markets env job.seriesTicker)
    (apart : Apart content markets job) (existing : HashMap String Int64)
    (callFuel : Nat)
    (reached : Reached content markets job done rest task) :
    wp (turns env existing callFuel rest)
      (Goes content markets job markets []) task := by
  induction rest generalizing done task with
  | nil =>
      have all : markets = done := by
        rw [reached.parts, List.append_nil]
      rw [all] at reached ⊢
      exact reached.goes (.ok ())
  | cons market rest ih =>
      have once := turn_goes reached upstream apart existing callFuel
      unfold turns
      rw [wp_bind]
      apply wp_mono once
      rintro out after ⟨stopped, goes⟩
      cases out with
      | ok _ => exact ih (goes rfl)
      | error e => exact ⟨stopped, fun ok => nomatch ok⟩
      | panic => exact ⟨stopped, fun ok => nomatch ok⟩
      | pending => exact ⟨stopped, fun ok => nomatch ok⟩

/-! ## A whole backfill -/

theorem eachMarket_goes
    (upstream : Upstream content markets env job.seriesTicker)
    (apart : Apart content markets job) {fuel : Nat}
    (reached : Reached content markets job [] markets task)
    (listed : (marketsInRange env fuel task).1 = .ok markets) :
    wp (eachMarket env fuel) (Goes content markets job markets []) task := by
  have called :=
    (@calls_reached content markets _ _ _ env).marketsInRange trivial
      (fun _ _ _ _ => trivial) fuel task reached
  unfold eachMarket
  rw [wp_bind]
  unfold wp
  generalize marketsInRange env fuel task = result at *
  rcases result with ⟨out, after⟩
  dsimp only at listed called
  subst listed
  rw [continues_ok, wp_bind]
  have counted : Reached content markets job [] markets
      { after with job := { after.job with marketsTotal := markets.length } } :=
    ⟨called.parts, called.same.trans ⟨rfl, rfl, rfl, rfl⟩, called.handled,
      called.ahead, called.published⟩
  have published := counted.publish
  rw [wp_modifyJob, continues_ok, wp_bind, wp_publish, continues_ok, wp_bind]
  unfold wp
  rcases existingCandles_apply env _ with ⟨asked, stored⟩
  rw [stored]
  exact turns_goes upstream apart _ fuel ⟨published.parts, published.same,
    published.handled, published.ahead, published.published⟩

/-- When all markets are done, the promise holds whatever the cursor is. -/
theorem Reached.complete (reached : Reached content markets job markets [] task)
    (cursorMs : Int64) :
    Stopped content markets job
      { task with job := { task.job with cursorMs := cursorMs } } := by
  have same : SameSpan job { task.job with cursorMs := cursorMs } :=
    reached.same.trans ⟨rfl, rfl, rfl, rfl⟩
  refine ⟨⟨same, ?_⟩, reached.published⟩
  intro market member candle isCandle inside _
  rw [endsInside_iff same] at inside
  exact (handled_iff same).mpr
    (reached.handled market member candle isCandle inside)

theorem contractsLoop_stopped
    (upstream : Upstream content markets env job.seriesTicker)
    (apart : Apart content markets job) {fuel : Nat}
    (reached : Reached content markets job [] markets task)
    (listed : (marketsInRange env fuel task).1 = .ok markets) :
    wp (contractsLoop env fuel)
      (fun _ after => Stopped content markets job after) task := by
  rw [contractsLoop_eq, wp_bind]
  apply wp_mono (eachMarket_goes upstream apart reached listed)
  rintro out after ⟨stopped, goes⟩
  cases out with
  | ok _ => exact (goes rfl).complete after.job.endMs
  | error e => exact stopped
  | panic => exact stopped
  | pending => exact stopped

/-- The last version of a job promises what the loop left. -/
theorem Stopped.close (stopped : Stopped content markets job task)
    (outcome : Except Error Unit) :
    EveryPublished (Kept content markets job)
      (close env outcome task).2.log := by
  have same : SameSpan task.job
      (settled outcome (env.utcNow task.asked).val task.job) := by
    cases outcome <;> exact ⟨rfl, rfl, rfl, rfl⟩
  have cursor : (settled outcome (env.utcNow task.asked).val
      task.job).cursorMs = task.job.cursorMs := by
    cases outcome <;> rfl
  refine (everyPublished_concat _).mpr ⟨stopped.published, ?_⟩
  rintro _ ⟨⟩
  rcases stopped.kept with ⟨span, documented⟩
  refine ⟨span.trans same, ?_⟩
  intro market member candle isCandle inside before
  rw [endsInside_iff same] at inside
  rw [cursor] at before
  exact (handled_iff same).mpr
    (documented market member candle isCandle inside before)

theorem reached_spawn (content : SeriesMarket → List Candlestick)
    (markets : List SeriesMarket)
    (start : job.cursorMs = job.startMs) :
    Reached content markets job [] markets (spawn job) := by
  refine ⟨rfl, ⟨rfl, rfl, rfl, rfl⟩, ?_, ?_, everyPublished_nil⟩
  · exact fun market member => absurd member List.not_mem_nil
  · intro market _ candle _ inside
    show job.cursorMs.toInt ≤ _
    rw [start]
    exact inside.1

end Steps

/--
When no market has a candle before the clipped close of one that is processed
earlier, whatever version of a contracts job is published, every candle inside
the range and before its cursor was queued, or its market skipped.
-/
theorem cursor_documented (env : Env) (req : IngestRequest) (market : Market)
    (jobId : String) (now : Int) (fuel : Nat)
    (content : SeriesMarket → List Candlestick) (markets : List SeriesMarket)
    (contracts : req.kind = .contracts)
    (listed : (marketsInRange env fuel
      (spawn (req.job market jobId now))).1 = .ok markets)
    (upstream : Upstream content markets env market.seriesTicker)
    (apart : Apart content markets (req.job market jobId now)) :
    EveryPublished (Kept content markets (req.job market jobId now))
      (runJob env ingestTimespan fuel
        (spawn (req.job market jobId now))).2.log := by
  generalize isJob : req.job market jobId now = job at *
  have kind : job.kind = .contracts := by
    rw [← isJob]
    exact contracts
  have start : job.cursorMs = job.startMs := by
    rw [← isJob]
    simp only [IngestRequest.job, contracts]
  have series : market.seriesTicker = job.seriesTicker := by
    rw [← isJob]
    rfl
  rw [series] at upstream
  have stopped := contractsLoop_stopped upstream apart
    (reached_spawn content markets start) listed
  have runs : wp (runJob env ingestTimespan fuel)
      (fun _ after => EveryPublished (Kept content markets job) after.log)
      (spawn job) := by
    unfold runJob
    rw [wp_bind, wp_getJob, continues_ok, wp_bind, wp_attempt]
    have isLoop : loop env ingestTimespan fuel (spawn job).job.kind =
        contractsLoop env fuel := by
      show loop env ingestTimespan fuel job.kind = _
      rw [kind]
      rfl
    rw [isLoop]
    apply wp_mono stopped
    intro out after ended
    cases out with
    | ok value => exact ended.close (.ok value)
    | error e => exact ended.close (.error e)
    | panic => exact ended.published
    | pending => exact ended.published
  exact runs

/-! ## Two markets of one series -/

/-- The first minutes of 1970, as Kalshi prints them. -/
def minute (n : Nat) : String :=
  "1970-01-01T00:0" ++ toString n ++ ":00Z"

def readMinute (text : String) : Option Int :=
  ((List.range 10).find? fun n => minute n = text).map fun n =>
    (n : Int) * 60000000000

/-- A market by its ticker and the minutes that it opens and closes. -/
def listedMinutes (market : String × Nat × Nat) : OpenMarket :=
  listedMarket market.1 (minute market.2.1) (minute market.2.2)

/-- The candles of a market: one for each minute that ends in its lifetime. -/
def candlesValue (market : String × Nat × Nat) : Value :=
  .object [("candlesticks", .array
    ((List.range 10).filterMap fun n =>
      if market.2.1 < n ∧ n ≤ market.2.2 then
        some (.object [("end_period_ts", .number (.posInt (.ofNat (60 * n))))])
      else none))]

def body (value : Value) : String :=
  value.write fun _ => "0.5"

def listingBody (markets : List (String × Nat × Nat)) : String :=
  body (.object [("cursor", .string ""), ("markets", .array
    (markets.map fun market => .object
      [("ticker", .string market.1),
        ("open_time", .string (minute market.2.1)),
        ("close_time", .string (minute market.2.2))]))])

def cutoffBody : String :=
  body (.object [("market_settled_ts", .string (minute 0))])

/-- A client of a series with some live markets. -/
def minutesClient (markets : List (String × Nat × Nat)) : KalshiClient where
  send request :=
    if request.path = historicalCutoffPath then .ok ⟨200, cutoffBody⟩
    else if request.path = marketsPath then .ok ⟨200, listingBody markets⟩
    else
      match markets.find? fun market =>
          request.path = "/trade-api/v2/series/KXBTC15M/markets/" ++ market.1 ++
            "/candlesticks" with
      | some market => .ok ⟨200, body (candlesValue market)⟩
      | none => .ok ⟨404, "not found"⟩
  readValue text :=
    match markets.find? fun market => text = body (candlesValue market) with
    | some market => .ok (candlesValue market)
    | none => .error "expected value at line 1 column 1"
  readMarketsPage text :=
    if text = listingBody markets then .ok ⟨"", markets.map listedMinutes⟩
    else .error "expected value at line 1 column 1"
  readCutoff text :=
    if text = cutoffBody then .ok 0
    else .error "expected value at line 1 column 1"
  parseFromRfc3339 := readMinute
  toRfc3339Millis _ := minute 0
  writeF64 _ := "0.5"

/-- Nothing is stored yet, and the range is over. -/
def minutesEnv (markets : List (String × Nat × Nat)) : Env where
  client _ := minutesClient markets
  took _ := 50000000
  utcNow _ := fromSeconds 600
  isOpen _ := true
  indexCounts _ _ _ _ _ := .ok ∅
  candleCounts _ _ _ _ := .ok ∅
  writeF64 _ := "0.5"

/-- The first four minutes of 1970. -/
def minutesRequest : IngestRequest where
  tag := "btc-15m"
  kind := .contracts
  start := fromSeconds 0
  «end» := fromSeconds 240
  force := false

def minutesJob : IngestJob :=
  minutesRequest.job btc15m "5f0c" 0

/-- Two markets one after the other, and two that overlap. -/
def sequential : List (String × Nat × Nat) :=
  [("A", 0, 2), ("B", 2, 4)]

def overlapping : List (String × Nat × Nat) :=
  [("A", 0, 2), ("B", 0, 3)]

/-- The candle that ends with a minute. -/
def candleAt (n : Nat) : Candlestick where
  endMs := .ofNat (60000 * n)
  yesBid := ohlc none
  yesAsk := ohlc none
  price := ohlc none
  priceMean := none
  volume := none
  openInterest := none

def minutesContent (market : SeriesMarket) : List Candlestick :=
  ((List.range 10).map candleAt).filter fun candle =>
    market.openMs < candle.endMs ∧ candle.endMs ≤ market.closeMs

def seriesMinutes (market : String × Nat × Nat) : SeriesMarket where
  ticker := market.1
  openMs := .ofNat (60000 * market.2.1)
  closeMs := .ofNat (60000 * market.2.2)
  floorStrike := none
  tier := .live

/-- What the client answers about the candles of a market, in any tier. -/
theorem answers_minutes : ∀ markets ∈ [sequential, overlapping],
    ∀ market ∈ markets.map seriesMinutes, ∀ tier : Tier,
    ∀ candles ∈ ((minutesClient markets).marketCandlesticks "KXBTC15M"
      market.ticker tier 0 0 candlePeriodMinutes).toOption,
    ∀ candle ∈ minutesContent market, candle ∈ candles := by
  intro markets isMarkets market member tier
  revert markets market
  cases tier <;> decide +kernel

theorem upstream_minutes {markets : List (String × Nat × Nat)}
    (member : markets ∈ [sequential, overlapping]) :
    Upstream minutesContent (markets.map seriesMinutes) (minutesEnv markets)
      "KXBTC15M" := by
  constructor
  · intro market _ candle isCandle
    have inside := of_decide_eq_true (List.mem_filter.mp isCandle).2
    exact ⟨(Int64.lt_iff_toInt_lt.mp inside.1).le,
      Int64.le_iff_toInt_le.mp inside.2⟩
  · intro market isMarket n tier fromMs toMs candles answer candle isCandle _ _
    apply answers_minutes markets member market isMarket tier candles _ candle
      isCandle
    have same : (minutesClient markets).marketCandlesticks "KXBTC15M"
        market.ticker tier 0 0 candlePeriodMinutes = .ok candles := by
      rw [← answer]
      cases tier <;> rfl
    rw [same]
    rfl

theorem listed_minutes : ∀ markets ∈ [sequential, overlapping],
    (marketsInRange (minutesEnv markets) 2 (spawn minutesJob)).1 =
      .ok (markets.map seriesMinutes) := by
  decide +kernel

/-- One market after the other keeps the promise. -/
theorem cursor_documented_sequential :
    EveryPublished
      (Kept minutesContent (sequential.map seriesMinutes) minutesJob)
      (runJob (minutesEnv sequential) ingestTimespan 2
        (spawn minutesJob)).2.log := by
  unfold minutesJob
  apply cursor_documented (minutesEnv sequential) minutesRequest btc15m "5f0c" 0
    2 minutesContent (sequential.map seriesMinutes) rfl
  · exact listed_minutes sequential (by simp)
  · exact upstream_minutes (by simp)
  · have apart : (sequential.map seriesMinutes).Pairwise fun first second =>
        ∀ candle ∈ minutesContent second,
          (toMs minutesJob first).toInt ≤ candle.endMs.toInt := by
      decide +kernel
    exact apart.imp fun later candle isCandle _ => later candle isCandle

def overlappingLog : List Effect :=
  (runJob (minutesEnv overlapping) ingestTimespan 2 (spawn minutesJob)).2.log

/-- The job when its first market is done. -/
def afterFirst : IngestJob :=
  { minutesJob with
    cursorMs := 120000
    marketsTotal := 2
    marketsDone := 1
    requests := 3
    rows := 2 }

/-- No more than the first market was queued, and nothing skipped. -/
theorem overlapping_unhandled :
    ¬ Handled afterFirst (overlappingLog.take 6) (seriesMinutes ("B", 0, 3))
      (candleAt 1) := by
  have unqueued : .queued (.candle (candleRow afterFirst.seriesTicker
      (seriesMinutes ("B", 0, 3)) (candleAt 1))) ∉ overlappingLog.take 6 := by
    decide +kernel
  have unskipped : ∀ effect ∈ overlappingLog.take 6,
      (match effect with | .skippedMarket _ _ => false | _ => true) = true := by
    decide +kernel
  rintro (queued | ⟨nowMs, skipped⟩)
  · exact unqueued queued
  · exact absurd (unskipped _ skipped) Bool.false_ne_true

/-- Two markets that overlap break the promise. -/
theorem not_cursor_documented_overlapping :
    ¬ ∀ (env : Env) (req : IngestRequest) (market : Market) (jobId : String)
      (now : Int) (fuel : Nat) (content : SeriesMarket → List Candlestick)
      (markets : List SeriesMarket), req.kind = .contracts →
      (marketsInRange env fuel (spawn (req.job market jobId now))).1 =
        .ok markets →
      Upstream content markets env market.seriesTicker →
      EveryPublished (Kept content markets (req.job market jobId now))
        (runJob env ingestTimespan fuel
          (spawn (req.job market jobId now))).2.log := by
  intro published
  have kept := published (minutesEnv overlapping) minutesRequest btc15m "5f0c" 0 2
    minutesContent (overlapping.map seriesMinutes) rfl
    (listed_minutes overlapping (by simp)) (upstream_minutes (by simp))
    (overlappingLog.take 6) afterFirst (by decide +kernel)
  apply overlapping_unhandled
  apply kept.2 (seriesMinutes ("B", 0, 3)) (by simp [overlapping])
  · decide +kernel
  · exact ⟨by decide +kernel, by decide +kernel⟩
  · decide +kernel

end ChudMoney.Controllers.CandleCursor
