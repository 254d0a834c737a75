import ChudMoney.Controllers.Ingest
import ChudMoney.Controllers.IngestLoop

/-!
# Backfilling the contracts of a series

`contractsLoop` lists the markets of a range, oldest close first, and skips
each one or queues its candles.  The cursor follows the latest close reached.
-/

namespace ChudMoney.Controllers.ContractsLoop

open ChudMoney.Controllers.Ingest
open ChudMoney.Controllers.IngestJobs
open ChudMoney.Controllers.IngestLoop
open ChudMoney.Controllers.JobLog
open ChudMoney.Controllers.Throttled
open ChudMoney.Db.Rows
open ChudMoney.Feeds.Shared
open ChudMoney.Kalshi.Client
open ChudMoney.Kalshi.Rest
open ChudMoney.Lib.MachineInt
open ChudMoney.Lib.Programs
open ChudMoney.Lib.Programs.Program
open ChudMoney.Lib.SortDedup

/-- The pause after a request about contracts: 100 ms. -/
def contractRequestGap : Nat := 100000000

/-- A candle's period in ms. -/
def candlePeriodMs : Int64 :=
  Int64.ofNat candlePeriodMinutes * 60000

/--
Whether `candles` cover a market over `[fromMs, toMs]`: Kalshi reports one
candle per period, trades or not.
-/
def candlesComplete (candles fromMs toMs nowMs : Int64) : Bool :=
  let expected := (toMs - fromMs) / candlePeriodMs
  toMs ≤ nowMs && 0 < expected && expected ≤ candles

section Loop

variable (env : Env)

/-! ## The markets -/

/-- The markets of the job's range in one listing, from a cursor on. -/
def readPages (job : IngestJob) (tier : Tier) (callFuel : Nat) :
    Nat → Option String → TaskM (List SeriesMarket)
  | 0, _ => pending
  | fuel + 1, cursor => do
      let (page, next) ← throttled env
        (.seriesMarketsPage job.seriesTicker tier job.startMs cursor)
        (fun client =>
          client.seriesMarketsPage job.seriesTicker tier job.startMs cursor)
        callFuel
      let markets := page.filter fun market =>
        overlaps market job.startMs job.endMs
      if next.isNone || pastStart job.startMs page then return markets
      else
        sleep contractRequestGap
        let rest ← readPages job tier callFuel fuel next
        return markets ++ rest

def readTiers (job : IngestJob) (fuel : Nat) :
    List Tier → TaskM (List SeriesMarket)
  | [] => return []
  | tier :: rest => do
      let markets ← readPages env job tier fuel fuel none
      let more ← readTiers job fuel rest
      return markets ++ more

/-- Every market of the job's series that was open during its range. -/
def marketsInRange (fuel : Nat) : TaskM (List SeriesMarket) := do
  let job ← getJob
  let cutoff ← throttled env .historicalCutoff
    (fun client => client.historicalCutoff) fuel
  let listed ← readTiers env job fuel
    (tiers job.startMs job.endMs (timestampMillis cutoff))
  return sortDedup closeKey SeriesMarket.ticker listed

/-! ## One market -/

/-- A market's lifetime, clipped to the range. -/
def fromMs (job : IngestJob) (market : SeriesMarket) : Int64 :=
  max market.openMs job.startMs

def toMs (job : IngestJob) (market : SeriesMarket) : Int64 :=
  min market.closeMs job.endMs

/-- The call for a market's candles in one tier. -/
def fetch (job : IngestJob) (market : SeriesMarket) (tier : Tier)
    (callFuel : Nat) : TaskM (List Candlestick) :=
  throttled env
    (.marketCandlesticks job.seriesTicker market.ticker tier
      (fromMs job market) (toMs job market))
    (fun client =>
      client.marketCandlesticks job.seriesTicker market.ticker tier
        (fromMs job market) (toMs job market) candlePeriodMinutes)
    callFuel

/-- `Status { status: 404, .. }`. -/
def isNotFound (e : Error) : Bool :=
  match e.downcast with
  | some (.status code _) => code = 404
  | _ => false

/-- The candles of a market, from the other tier if its own has none of it. -/
def fetchCandles (job : IngestJob) (market : SeriesMarket)
    (callFuel : Nat) : TaskM (List Candlestick) := do
  match ← attempt (fetch env job market market.tier callFuel) with
  | .ok candles => return candles
  | .error e =>
      if isNotFound e then fetch env job market (other market.tier) callFuel
      else throw e

/-- The row of one candle of a market. -/
def candleRow (series : String) (market : SeriesMarket)
    (candle : Candlestick) : CandleRow where
  seriesTicker := series
  ticker := market.ticker
  floorStrike := market.floorStrike
  yesBid := candle.yesBid
  yesAsk := candle.yesAsk
  price := candle.price
  priceMean := candle.priceMean
  volume := candle.volume
  openInterest := candle.openInterest
  tsMs := candle.endMs
  source := "rest_candlesticks"

/-- The candles that QuestDB already holds, unless all are fetched again. -/
def existingCandles : TaskM (HashMap String Int64) := do
  let job ← getJob
  if job.force then return ∅
  else
    match ← ask fun n =>
        env.candleCounts n job.seriesTicker job.startMs job.endMs with
    | .ok counts => return counts
    | .error _ => return ∅

/-- The job when a market more is done. -/
def marketDone (market : SeriesMarket) (job : IngestJob) : IngestJob :=
  { job with
    marketsDone := job.marketsDone + 1
    cursorMs := max job.cursorMs (toMs job market) }

/-- Pass a market without asking for its candles. -/
def skipMarket (market : SeriesMarket) (nowMs : Int64) : TaskM Unit := do
  emit (.skippedMarket market nowMs)
  modifyJob fun job =>
    { marketDone market job with skipped := job.skipped + 1 }
  publish

/-- Ask for the candles of a market and queue them. -/
def fetchMarket (market : SeriesMarket) (callFuel : Nat) : TaskM Unit := do
  let job ← getJob
  let candles ← fetchCandles env job market callFuel
  queueRows env
    (candles.map fun candle => .candle (candleRow job.seriesTicker market candle))
  modifyJob (marketDone market)
  publish
  sleep contractRequestGap

/-- One turn of the loop. -/
def turn (existing : HashMap String Int64) (callFuel : Nat)
    (market : SeriesMarket) : TaskM Unit := do
  let job ← getJob
  let candles := existing.getD market.ticker 0
  let nowMs ← ask fun n => timestampMillis (env.utcNow n)
  if candlesComplete candles (fromMs job market) (toMs job market) nowMs then
    skipMarket market nowMs
  else fetchMarket env market callFuel

def turns (existing : HashMap String Int64) (callFuel : Nat) :
    List SeriesMarket → TaskM Unit
  | [] => return ()
  | market :: markets => do
      turn env existing callFuel market
      turns existing callFuel markets

/-- Backfill the candles of a job's series. -/
def contractsLoop (fuel : Nat) : TaskM Unit := do
  let markets ← marketsInRange env fuel
  modifyJob fun job => { job with marketsTotal := markets.length }
  publish
  let existing ← existingCandles env
  turns env existing fuel markets
  modifyJob fun job => { job with cursorMs := job.endMs }

/-- The part of a contracts backfill that moves its cursor by markets. -/
def eachMarket (fuel : Nat) : TaskM Unit := do
  let markets ← marketsInRange env fuel
  modifyJob fun job => { job with marketsTotal := markets.length }
  publish
  let existing ← existingCandles env
  turns env existing fuel markets

theorem contractsLoop_eq (fuel : Nat) :
    contractsLoop env fuel = eachMarket env fuel >>= fun _ =>
      modifyJob fun job => { job with cursorMs := job.endMs } := by
  simp only [contractsLoop, eachMarket, bind_assoc]

end Loop

/-- The candles per market that a task takes to be stored already. -/
def storedCandles (env : Env) (job : IngestJob) (n : Nat) :
    HashMap String Int64 :=
  if job.force then ∅
  else
    match env.candleCounts n job.seriesTicker job.startMs job.endMs with
    | .ok counts => counts
    | .error _ => ∅

theorem existingCandles_apply (env : Env) (task : Task) :
    ∃ asked, existingCandles env task =
      (.ok (storedCandles env task.job task.asked),
        { task with asked := asked }) := by
  cases forced : task.job.force with
  | true => exact ⟨task.asked, by simp [existingCandles, storedCandles, forced]⟩
  | false =>
      refine ⟨task.asked + 1, ?_⟩
      cases counts : env.candleCounts task.asked task.job.seriesTicker
        task.job.startMs task.job.endMs <;>
        simp [existingCandles, storedCandles, forced, counts]

/-! ## What calls and pauses do -/

/-- A relation that some calls, and pauses, move a task along. -/
structure Calls (env : Env) (allowed : Call → Prop)
    (step : Task → Task → Prop) : Prop where
  refl : ∀ task, step task task
  trans : ∀ {first second third}, step first second → step second third →
    step first third
  called : ∀ {α : Type} {call : Call}
    (method : KalshiClient → Except KalshiError α) (fuel : Nat),
    allowed call → Moves step (throttled env call method fuel)
  slept : ∀ delay, Moves step (sleep delay)

section Calls

variable {env : Env} {allowed : Call → Prop} {step : Task → Task → Prop}

theorem Calls.bind (calls : Calls env allowed step) {α β : Type}
    {program : TaskM α} {rest : α → TaskM β} (first : Moves step program)
    (later : ∀ value, Moves step (rest value)) :
    Moves step (program >>= rest) :=
  Moves.bind (fun _ _ _ => calls.trans) first later

theorem Calls.pure (calls : Calls env allowed step) {α : Type} (value : α) :
    Moves step (Pure.pure value : TaskM α) :=
  calls.refl

theorem Calls.readPages (calls : Calls env allowed step)
    (listing : ∀ series tier minCloseMs cursor,
      allowed (.seriesMarketsPage series tier minCloseMs cursor))
    (job : IngestJob) (tier : Tier) (callFuel fuel : Nat)
    (cursor : Option String) :
    Moves step (readPages env job tier callFuel fuel cursor) := by
  induction fuel generalizing cursor with
  | zero => exact calls.refl
  | succ fuel ih =>
      apply calls.bind (calls.called _ _ (listing _ _ _ _))
      rintro ⟨page, next⟩
      dsimp only
      split
      · exact calls.pure _
      · apply calls.bind (calls.slept _)
        exact fun _ => calls.bind (ih next) fun _ => calls.pure _

theorem Calls.readTiers (calls : Calls env allowed step)
    (listing : ∀ series tier minCloseMs cursor,
      allowed (.seriesMarketsPage series tier minCloseMs cursor))
    (job : IngestJob) (fuel : Nat) (tiers : List Tier) :
    Moves step (readTiers env job fuel tiers) := by
  induction tiers with
  | nil => exact calls.pure []
  | cons tier rest ih =>
      apply calls.bind (calls.readPages listing job tier fuel fuel none)
      exact fun _ => calls.bind ih fun _ => calls.pure _

/-- Listing the markets is made of calls for the cutoff and for pages. -/
theorem Calls.marketsInRange (calls : Calls env allowed step)
    (cutoff : allowed .historicalCutoff)
    (listing : ∀ series tier minCloseMs cursor,
      allowed (.seriesMarketsPage series tier minCloseMs cursor))
    (fuel : Nat) : Moves step (marketsInRange env fuel) := by
  have reads : Moves step getJob := calls.refl
  apply calls.bind reads
  intro job
  apply calls.bind (calls.called _ _ cutoff)
  intro instant
  exact calls.bind (calls.readTiers listing job fuel _) fun _ => calls.pure _

/-- Fetching candles is made of calls for them. -/
theorem Calls.fetchCandles (calls : Calls env allowed step) (job : IngestJob)
    (market : SeriesMarket)
    (candles : ∀ tier, allowed (.marketCandlesticks job.seriesTicker
      market.ticker tier (fromMs job market) (toMs job market)))
    (callFuel : Nat) :
    Moves step (fetchCandles env job market callFuel) := by
  apply calls.bind (calls.called _ callFuel (candles _)).attempt
  intro outcome
  cases outcome with
  | ok candles => exact calls.pure candles
  | error e =>
      dsimp only
      split
      · exact calls.called _ callFuel (candles _)
      · exact calls.refl

end Calls

/-- The candles fetched are what the client answered in one of the tiers. -/
theorem fetchCandles_ok {env : Env} {job : IngestJob} {market : SeriesMarket}
    {callFuel : Nat} {task after : Task} {candles : List Candlestick}
    (ok : fetchCandles env job market callFuel task = (.ok candles, after)) :
    ∃ n tier, (env.client n).marketCandlesticks job.seriesTicker market.ticker
      tier (fromMs job market) (toMs job market) candlePeriodMinutes =
        .ok candles := by
  have through : ∀ tier task, (fetch env job market tier callFuel task).1 =
      .ok candles → ∃ n, (env.client n).marketCandlesticks job.seriesTicker
        market.ticker tier (fromMs job market) (toMs job market)
          candlePeriodMinutes = .ok candles := by
    intro tier task ok
    rcases throttled_through ok with ⟨n, answer, -⟩
    exact ⟨_, answer⟩
  unfold fetchCandles at ok
  rw [bind_apply, attempt] at ok
  rcases first : fetch env job market market.tier callFuel task with
    ⟨out, middle⟩
  rw [first] at ok
  cases out with
  | ok answered =>
      cases ok
      rcases through market.tier task (congrArg Prod.fst first) with ⟨n, answer⟩
      exact ⟨n, market.tier, answer⟩
  | error e =>
      simp only [andThen_ok] at ok
      split at ok
      · rcases through (other market.tier) middle (congrArg Prod.fst ok) with
          ⟨n, answer⟩
        exact ⟨n, other market.tier, answer⟩
      · cases ok
  | panic => cases ok
  | pending => cases ok

/-! ## What a task adds to its log -/

/-- What no step changes about the job of a contracts backfill. -/
structure SameSpan (job other : IngestJob) : Prop where
  startMs : other.startMs = job.startMs
  endMs : other.endMs = job.endMs
  seriesTicker : other.seriesTicker = job.seriesTicker
  force : other.force = job.force

theorem SameSpan.trans {first second third : IngestJob}
    (early : SameSpan first second) (late : SameSpan second third) :
    SameSpan first third :=
  ⟨late.startMs.trans early.startMs, late.endMs.trans early.endMs,
    late.seriesTicker.trans early.seriesTicker,
    late.force.trans early.force⟩

/-- The log has grown by effects of some kind, and the range is the same. -/
def Adds (allowed : Effect → Prop) (task next : Task) : Prop :=
  SameSpan task.job next.job ∧
    ∃ more, next.log = task.log ++ more ∧ ∀ effect ∈ more, allowed effect

section Adds

variable {env : Env} {allowed : Effect → Prop} {first second third : Task}

theorem Adds.refl (task : Task) : Adds allowed task task :=
  ⟨⟨rfl, rfl, rfl, rfl⟩, [], (List.append_nil _).symm,
    fun _ member => absurd member List.not_mem_nil⟩

theorem Adds.trans (early : Adds allowed first second)
    (late : Adds allowed second third) : Adds allowed first third := by
  rcases early with ⟨same, more, log, kind⟩
  rcases late with ⟨same', more', log', kind'⟩
  refine ⟨same.trans same', more ++ more', ?_, ?_⟩
  · rw [log', log, List.append_assoc]
  · intro effect member
    exact (List.mem_append.mp member).elim (kind effect) (kind' effect)

/-- What was in the log stays there. -/
theorem Adds.mem (adds : Adds allowed first second) {effect : Effect}
    (member : effect ∈ first.log) : effect ∈ second.log := by
  rcases adds with ⟨-, more, log, -⟩
  rw [log]
  exact List.mem_append_left more member

theorem adds_record (task : Task) {effect : Effect} (kind : allowed effect)
    {job : IngestJob} (same : SameSpan task.job job) (asked clock : Nat) :
    Adds allowed task
      { task.record effect with
        job := job
        asked := asked
        clock := clock } := by
  refine ⟨same, [effect], rfl, ?_⟩
  intro other member
  rw [List.mem_singleton.mp member]
  exact kind

/-- Calls of a kind, pauses and progress are added. -/
theorem calls_adds {calls : Call → Prop}
    (called : ∀ call attempt clock, calls call →
      allowed (.called call attempt clock))
    (slept : ∀ delay, allowed (.slept delay))
    (published : ∀ job, allowed (.published job)) :
    Calls env calls (Adds allowed) where
  refl := Adds.refl
  trans := Adds.trans
  slept delay task := adds_record task (slept delay) ⟨rfl, rfl, rfl, rfl⟩ _ _
  called {_ call} _ fuel isAllowed := by
    intro task
    apply @throttled_keeps _ _ _ _ (Adds allowed task) _ fuel _
      (Adds.refl task)
    constructor
    · intro next attempt clock adds
      exact adds.trans (adds_record next (called call attempt clock isAllowed)
        ⟨rfl, rfl, rfl, rfl⟩ next.asked next.clock)
    · intro next delay adds
      exact adds.trans (adds_record next (slept delay) ⟨rfl, rfl, rfl, rfl⟩
        next.asked next.clock)
    · intro next adds
      exact adds.trans (adds_record next (published _) ⟨rfl, rfl, rfl, rfl⟩
        next.asked next.clock)
    · exact fun next _ _ _ adds => ⟨adds.1.trans ⟨rfl, rfl, rfl, rfl⟩, adds.2⟩
    · exact fun next _ _ adds => adds

theorem queueRows_adds {rows : List Row}
    (kind : ∀ row ∈ rows, allowed (.queued row)) :
    Moves (Adds allowed) (queueRows env rows) := by
  intro task
  rcases queueRows_spec env rows task with ⟨sent, left, rfl, log, same, -⟩
  refine ⟨?_, sent.map .queued, log, ?_⟩
  · rw [same]
    exact ⟨rfl, rfl, rfl, rfl⟩
  · intro effect member
    rcases List.mem_map.mp member with ⟨row, isSent, rfl⟩
    exact kind row (List.mem_append_left left isSent)

end Adds

end ChudMoney.Controllers.ContractsLoop
