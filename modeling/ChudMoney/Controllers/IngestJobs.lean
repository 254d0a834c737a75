import ChudMoney.AppError
import ChudMoney.Controllers.Periods
import ChudMoney.Feeds.Shared

/-!
# Backfill jobs

`POST /ingest` makes a job, unless one of its tag and kind is running, and puts
it in the table that readers see.  The counters of a job are natural numbers.
-/

namespace ChudMoney.Controllers.IngestJobs

open ChudMoney.Controllers.Periods
open ChudMoney.Feeds.Shared
open ChudMoney.Lib.MachineInt
open ChudMoney.Model

/-- Finest candlestick period that Kalshi offers. -/
def candlePeriodMinutes : Nat := 1

/-- Every request uses the smallest window that the pass-through allows. -/
def ingestTimespan : Timespan := .hour

/-- What a job backfills. -/
inductive IngestKind where
  | index
  | contracts
  deriving DecidableEq, Repr

/-- `{:?}`. -/
def IngestKind.debug : IngestKind → String
  | index => "Index"
  | contracts => "Contracts"

structure IngestRequest where
  tag : String
  kind : IngestKind
  start : DateTime
  «end» : DateTime
  force : Bool

inductive JobStatus where
  | running
  | done
  | failed
  deriving DecidableEq, Repr

structure IngestJob where
  jobId : String
  tag : String
  kind : IngestKind
  indexId : String
  seriesTicker : String
  status : JobStatus
  /-- Window of one upstream request. -/
  timespan : String
  startMs : Int64
  endMs : Int64
  /-- Everything before this has been ingested. -/
  cursorMs : Int64
  marketsTotal : Nat
  marketsDone : Nat
  force : Bool
  requests : Nat
  /-- Windows or markets not requested because QuestDB already held them. -/
  skipped : Nat
  retries : Nat
  /-- Why the call in flight is being retried; cleared once it succeeds. -/
  retryError : Option String
  rows : Nat
  error : Option String
  startedAt : Int
  finishedAt : Option Int
  deriving DecidableEq

abbrev Jobs : Type := HashMap String IngestJob

structure IngestAccepted where
  jobId : String
  tag : String
  kind : IngestKind
  indexId : String
  seriesTicker : String
  cursorMs : Int64
  endMs : Int64
  deriving DecidableEq

/-- The job that a request asks for. -/
def IngestRequest.job (req : IngestRequest) (market : Market) (jobId : String)
    (now : Int) : IngestJob :=
  let startMs := timestampMillis req.start
  { jobId := jobId
    tag := market.tag
    kind := req.kind
    indexId := market.indexId
    seriesTicker := market.seriesTicker
    status := .running
    timespan :=
      match req.kind with
      | .index => ingestTimespan.asStr
      | .contracts => toString candlePeriodMinutes ++ "m"
    startMs := startMs
    endMs := timestampMillis req.end
    cursorMs :=
      match req.kind with
      | .index => ingestTimespan.floor startMs
      | .contracts => startMs
    marketsTotal := 0
    marketsDone := 0
    force := req.force
    skipped := 0
    retries := 0
    retryError := none
    requests := 0
    rows := 0
    error := none
    startedAt := now
    finishedAt := none }

/-- A running job of the same tag and kind. -/
def Clash (job other : IngestJob) : Prop :=
  other.tag = job.tag ∧ other.kind = job.kind ∧ other.status = .running

instance (job : IngestJob) : DecidablePred (Clash job) :=
  fun _ => inferInstanceAs (Decidable (_ ∧ _ ∧ _))

def IngestJob.accepted (job : IngestJob) : IngestAccepted where
  jobId := job.jobId
  tag := job.tag
  kind := job.kind
  indexId := job.indexId
  seriesTicker := job.seriesTicker
  cursorMs := job.cursorMs
  endMs := job.endMs

/--
`POST /ingest`: the job that is accepted, and the table with it.  `find` looks
up a market document by tag; the clash check and the insertion are made under
one lock.
-/
def start (find : Find) (jobs : Jobs) (jobId : String)
    (now : Int) (req : IngestRequest) : Except AppError (IngestJob × Jobs) := do
  if req.end.val ≤ req.start.val then
    throw (.badRequest "end must be after start")
  let market ← findMarket find req.tag
  let job := req.job market jobId now
  match (jobs.toList.map Prod.snd).find? fun other => Clash job other with
  | some running =>
      throw (.conflict
        (job.kind.debug ++ " ingest job " ++ running.jobId ++
          " is already running for '" ++ job.tag ++ "'"))
  | none => return (job, jobs.insert job.jobId job)

/-- `GET /ingest/{job_id}` -/
def status (jobs : Jobs) (jobId : String) : Except AppError IngestJob :=
  match jobs[jobId]? with
  | some job => .ok job
  | none => .error (.notFound ("ingest job '" ++ jobId ++ "'"))

end ChudMoney.Controllers.IngestJobs
