import ChudMoney.Controllers.JobLog

/-!
# Backfilling an index

`ingestLoop` moves a cursor through the periods of a range, and skips a period
or queues its values.  The text of the first payload is cut at a fixed number
of bytes for the log, which panics inside a character.
-/

namespace ChudMoney.Controllers.IngestLoop

open ChudMoney.Controllers.IngestJobs
open ChudMoney.Controllers.JobLog
open ChudMoney.Controllers.Periods
open ChudMoney.Controllers.Throttled
open ChudMoney.Db.Rows
open ChudMoney.Feeds.Shared
open ChudMoney.Kalshi.Rest
open ChudMoney.Lib.Grids
open ChudMoney.Lib.Json
open ChudMoney.Lib.MachineInt
open ChudMoney.Lib.Programs
open ChudMoney.Lib.Programs.Program
open ChudMoney.Lib.Text
open ChudMoney.Model

/-- The pause after a request: 300 ms. -/
def requestGap : Nat := 300000000

/-- CF Benchmarks publishes its real-time indices once per second. -/
def indexRowsPerSecond : Int64 := 1

/-- Share of the expected rows that a window needs to count as ingested. -/
def indexCompletePercent : Int64 := 90

/--
Whether `rows` cover the part of the window starting at `windowMs` that lies
inside `[startMs, endMs)`.
-/
def indexWindowComplete (rows windowMs nextMs startMs endMs nowMs : Int64) :
    Bool :=
  let seconds := (min nextMs endMs - max windowMs startMs) / 1000
  nextMs ≤ nowMs && 0 < seconds &&
    seconds * indexRowsPerSecond * indexCompletePercent ≤ rows * 100

/-- The bytes of the first payload that are logged. -/
def sampleBytes : Nat := 600

/-- The first bytes of a text, unless they end inside a character. -/
def takeBytes : Nat → List Char → Option (List Char)
  | 0, _ => some []
  | _ + 1, [] => none
  | n + 1, c :: rest =>
      if c.utf8Size ≤ n + 1 then
        (takeBytes (n + 1 - c.utf8Size) rest).map (c :: ·)
      else none

/-- `&text[..text.len().min(600)]`, unless it panics. -/
def sample (text : String) : Option (List Char) :=
  takeBytes (min text.utf8ByteSize sampleBytes) text.toList

section Loop

variable (env : Env)

/-- Log the first payload. -/
def logSample (loggedSample : Bool) (raw : Value) : TaskM Unit :=
  if loggedSample then pure ()
  else
    match sample (raw.write env.writeF64) with
    | some _ => pure ()
    | none => panic

/-- Put a row into the ILP writer's queue and count it. -/
def queueRow (row : Row) : TaskM Unit := do
  if ← ask env.isOpen then
    emit (.queued row)
    modifyJob fun job => { job with rows := job.rows + 1 }
  else throw (.message "ilp writer gone")

def queueRows : List Row → TaskM Unit
  | [] => pure ()
  | row :: rows => do
      queueRow env row
      queueRows rows

/-- The row of one observation of an index. -/
def indexRow (indexId : String) (value : HistoryValue) : IndexRow where
  table := .hist
  indexId := indexId
  value := value.value
  tsMs := value.timeMs
  receivedAtMs := none
  source := "rest_history"

/-- The values of a response that lie inside the range. -/
def inRange (startMs endMs : Int64) (value : HistoryValue) : Bool :=
  startMs ≤ value.timeMs && value.timeMs < endMs

/-- The rows that QuestDB already holds, unless everything is fetched again. -/
def existingRows (timespan : Timespan) : TaskM (HashMap Int64 Int64) := do
  let job ← getJob
  if job.force then return ∅
  else
    match ← ask fun n => env.indexCounts n job.indexId job.startMs job.endMs
        timespan.sampleBy with
    | .ok counts => return counts
    | .error _ => return ∅

/-- Pass the window at the cursor without asking for it. -/
def skipWindow (nextMs nowMs : Int64) : TaskM Unit := do
  let job ← getJob
  emit (.skippedWindow job.cursorMs nowMs)
  modifyJob fun job =>
    { job with skipped := job.skipped + 1, cursorMs := nextMs }
  publish

/-- The call for the window at the cursor. -/
def historyCall (job : IngestJob) (callFuel : Nat) :
    TaskM (List HistoryValue × Value) :=
  throttled env (.cfHistoryValues job.indexId job.cursorMs job.timespan)
    (fun client =>
      client.cfHistoryValues job.indexId job.cursorMs job.timespan)
    callFuel

/-- Queue the values of the window at the cursor and move on. -/
def storeWindow (values : List HistoryValue) (nextMs : Int64) :
    TaskM Unit := do
  let job ← getJob
  let rows := (values.filter (inRange job.startMs job.endMs)).map
    (indexRow job.indexId)
  queueRows env (rows.map .index)
  modifyJob fun job => { job with cursorMs := nextMs }
  publish
  sleep requestGap

/-- Ask for the window at the cursor and store it. -/
def fetchWindow (nextMs : Int64) (callFuel : Nat) (loggedSample : Bool) :
    TaskM Unit := do
  let job ← getJob
  let (values, raw) ← historyCall env job callFuel
  logSample env loggedSample raw
  storeWindow env values nextMs

/-- The loop of `ingestLoop`, with fuel for its windows. -/
def windows (timespan : Timespan) (existing : HashMap Int64 Int64)
    (callFuel : Nat) : Nat → Bool → TaskM Unit
  | 0, _ => pending
  | fuel + 1, loggedSample => do
      let job ← getJob
      if job.cursorMs < job.endMs then
        let nextMs := timespan.next job.cursorMs
        let rows := existing.getD job.cursorMs 0
        let nowMs ← ask fun n => timestampMillis (env.utcNow n)
        if indexWindowComplete rows job.cursorMs nextMs job.startMs job.endMs
            nowMs then
          skipWindow nextMs nowMs
          windows timespan existing callFuel fuel loggedSample
        else
          fetchWindow env nextMs callFuel loggedSample
          windows timespan existing callFuel fuel true
      else return ()

/-- Backfill the index of a job. -/
def ingestLoop (timespan : Timespan) (fuel : Nat) : TaskM Unit := do
  let existing ← existingRows env timespan
  windows env timespan existing fuel fuel false

end Loop

/-- The rows per period that a task takes to be stored already. -/
def storedRows (env : Env) (timespan : Timespan) (job : IngestJob) (n : Nat) :
    HashMap Int64 Int64 :=
  if job.force then ∅
  else
    match env.indexCounts n job.indexId job.startMs job.endMs
        timespan.sampleBy with
    | .ok counts => counts
    | .error _ => ∅

theorem existingRows_apply (env : Env) (timespan : Timespan) (task : Task) :
    ∃ asked, existingRows env timespan task =
      (.ok (storedRows env timespan task.job task.asked),
        { task with asked := asked }) := by
  cases forced : task.job.force with
  | true => exact ⟨task.asked, by simp [existingRows, storedRows, forced]⟩
  | false =>
      refine ⟨task.asked + 1, ?_⟩
      cases counts : env.indexCounts task.asked task.job.indexId
        task.job.startMs task.job.endMs timespan.sampleBy <;>
        simp [existingRows, storedRows, forced, counts]

/-- Rows are queued in order until the writer is gone. -/
theorem queueRows_spec (env : Env) (rows : List Row) (task : Task) :
    ∃ sent left, rows = sent ++ left ∧
      (queueRows env rows task).2.log = task.log ++ sent.map .queued ∧
      (queueRows env rows task).2.job =
        { task.job with rows := task.job.rows + sent.length } ∧
      ((queueRows env rows task).1 = .ok () ∧ left = [] ∨
        ∃ e, (queueRows env rows task).1 = .error e) := by
  induction rows generalizing task with
  | nil => exact ⟨[], [], rfl, (List.append_nil _).symm, rfl, Or.inl ⟨rfl, rfl⟩⟩
  | cons row rows ih =>
      cases isOpen : env.isOpen task.asked with
      | false =>
          have gone : queueRows env (row :: rows) task =
              (.error (.message "ilp writer gone"),
                { task with asked := task.asked + 1 }) := by
            simp [queueRows, queueRow, isOpen]
          rw [gone]
          exact ⟨[], row :: rows, rfl, by simp, rfl, Or.inr ⟨_, rfl⟩⟩
      | true =>
          have taken : queueRows env (row :: rows) task =
              queueRows env rows
                { task.record (.queued row) with
                  asked := task.asked + 1
                  job := { task.job with rows := task.job.rows + 1 } } := by
            simp [queueRows, queueRow, isOpen, Task.record]
          rcases ih _ with ⟨sent, left, rfl, log, job, out⟩
          rw [← taken] at log job out
          refine ⟨row :: sent, left, rfl, ?_, ?_, out⟩
          · rw [log]
            simp [Task.record]
          · rw [job]
            simp [Nat.add_assoc, Nat.add_comm 1]

theorem logSample_cases (env : Env) (loggedSample : Bool) (raw : Value)
    (task : Task) :
    logSample env loggedSample raw task = (.ok (), task) ∨
      logSample env loggedSample raw task = (.panic, task) := by
  unfold logSample
  cases loggedSample with
  | true => exact Or.inl rfl
  | false =>
      cases sample (raw.write env.writeF64) with
      | some text => exact Or.inl rfl
      | none => exact Or.inr rfl

/-! ## One turn of the loop -/

/-- The task when it was told what time it is. -/
def told (task : Task) : Task :=
  { task with asked := task.asked + 1 }

section Turn

variable (env : Env) (timespan : Timespan) (existing : HashMap Int64 Int64)
variable (callFuel fuel : Nat) (loggedSample : Bool) {task : Task}

theorem windows_done (done : task.job.endMs ≤ task.job.cursorMs) :
    windows env timespan existing callFuel (fuel + 1) loggedSample task =
      (.ok (), task) := by
  simp [windows, Int64.not_lt.mpr done]

/-- The turn of the loop at a window that counts as ingested. -/
theorem windows_skip (before : task.job.cursorMs < task.job.endMs)
    (complete : indexWindowComplete (existing.getD task.job.cursorMs 0)
      task.job.cursorMs (timespan.next task.job.cursorMs) task.job.startMs
      task.job.endMs (timestampMillis (env.utcNow task.asked)) = true) :
    windows env timespan existing callFuel (fuel + 1) loggedSample task =
      Outcome.andThen
        (skipWindow (timespan.next task.job.cursorMs)
          (timestampMillis (env.utcNow task.asked)) (told task))
        fun _ => windows env timespan existing callFuel fuel loggedSample := by
  simp only [windows, bind_apply, getJob_apply, andThen_ok, before, if_true,
    ask_apply, complete, told]

/-- The turn of the loop at any other window. -/
theorem windows_fetch (before : task.job.cursorMs < task.job.endMs)
    (incomplete : indexWindowComplete (existing.getD task.job.cursorMs 0)
      task.job.cursorMs (timespan.next task.job.cursorMs) task.job.startMs
      task.job.endMs (timestampMillis (env.utcNow task.asked)) = false) :
    windows env timespan existing callFuel (fuel + 1) loggedSample task =
      Outcome.andThen
        (fetchWindow env (timespan.next task.job.cursorMs) callFuel
          loggedSample (told task))
        fun _ => windows env timespan existing callFuel fuel true := by
  simp only [windows, bind_apply, getJob_apply, andThen_ok, before, if_true,
    ask_apply, incomplete, told, Bool.false_eq_true, if_false]

end Turn

/-! ## When a window is skipped -/

/-- The seconds of a window's part inside the range. -/
def partSeconds (windowMs nextMs startMs endMs : Int) : Int :=
  (min nextMs endMs - max windowMs startMs) / 1000

/-- An instant in ms, as chrono's dates have it. -/
abbrev InMillis (ms : Int) : Prop :=
  -8334601228800000 ≤ ms ∧ ms < 8210266876800000

/-- A product of a count and 100 that wraps is never greater. -/
theorem toInt_mul_hundred_le {rows : Int64} (count : 0 ≤ rows.toInt) :
    (rows * 100).toInt ≤ rows.toInt * 100 := by
  rw [Int64.toInt_mul, show (100 : Int64).toInt = 100 from rfl,
    Int.bmod_eq_emod]
  split <;> omega

/-- The code's seconds of a window, where there are any. -/
theorem toInt_seconds {windowMs nextMs startMs endMs : Int64}
    (window : InMillis windowMs.toInt) (start : InMillis startMs.toInt)
    (end_ : InMillis endMs.toInt) (next : windowMs.toInt < nextMs.toInt)
    (some_ : 0 < ((min nextMs endMs - max windowMs startMs) / 1000).toInt) :
    ((min nextMs endMs - max windowMs startMs) / 1000).toInt =
        partSeconds windowMs.toInt nextMs.toInt startMs.toInt endMs.toInt ∧
      partSeconds windowMs.toInt nextMs.toInt startMs.toInt endMs.toInt <
        20000000000000 := by
  have difference : (min nextMs endMs - max windowMs startMs).toInt =
      min nextMs.toInt endMs.toInt - max windowMs.toInt startMs.toInt := by
    rw [toInt_sub_of_fits, toInt_min, toInt_max]
    rw [toInt_min, toInt_max]
    constructor <;> omega
  have quotient := @toInt_div_of_pos
    (min nextMs endMs - max windowMs startMs) 1000 (by decide)
  rw [difference, show (1000 : Int64).toInt = 1000 from rfl] at quotient
  unfold partSeconds
  rcases le_or_gt 0 (min nextMs.toInt endMs.toInt -
      max windowMs.toInt startMs.toInt) with nonneg | negative
  · have exact_ := quotient.1 nonneg
    omega
  · have none_ := quotient.2 negative.le
    omega

/-- A window counts as complete only if it is over and nearly full. -/
theorem indexWindowComplete_spec
    {rows windowMs nextMs startMs endMs nowMs : Int64}
    (window : InMillis windowMs.toInt) (start : InMillis startMs.toInt)
    (end_ : InMillis endMs.toInt) (next : windowMs.toInt < nextMs.toInt)
    (count : 0 ≤ rows.toInt)
    (complete : indexWindowComplete rows windowMs nextMs startMs endMs nowMs =
      true) :
    nextMs.toInt ≤ nowMs.toInt ∧ 0 < rows.toInt ∧
      90 * partSeconds windowMs.toInt nextMs.toInt startMs.toInt endMs.toInt ≤
        100 * rows.toInt := by
  simp only [indexWindowComplete, Bool.and_eq_true, decide_eq_true_eq,
    Int64.le_iff_toInt_le, Int64.lt_iff_toInt_lt] at complete
  rcases complete with ⟨⟨ended, some_⟩, most⟩
  rcases toInt_seconds window start end_ next some_ with ⟨seconds, bound⟩
  have wrapped := toInt_mul_hundred_le count
  have one : indexRowsPerSecond.toInt = 1 := rfl
  have ninety : indexCompletePercent.toInt = 90 := rfl
  have zero : (0 : Int64).toInt = 0 := rfl
  rw [seconds, zero] at some_
  rw [toInt_mul_of_fits, toInt_mul_of_fits, seconds, one, ninety] at most
  · exact ⟨ended, by omega, by omega⟩
  · rw [seconds, one]
    constructor <;> omega
  · rw [toInt_mul_of_fits, seconds, one, ninety]
    · constructor <;> omega
    · rw [seconds, one]
      constructor <;> omega

end ChudMoney.Controllers.IngestLoop
