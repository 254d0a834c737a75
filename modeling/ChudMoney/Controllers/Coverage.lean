import ChudMoney.Controllers.IngestLoop

/-!
# An index backfill covers its range

The log of a job says which periods were requested or skipped and which rows
were queued.  The loop keeps what holds of them below its cursor, wherever it
stops.
-/

namespace ChudMoney.Controllers.Coverage

open ChudMoney.Controllers.IngestJobs
open ChudMoney.Controllers.IngestLoop
open ChudMoney.Controllers.JobLog
open ChudMoney.Controllers.Periods
open ChudMoney.Controllers.Throttled
open ChudMoney.Db.Rows
open ChudMoney.Feeds.Shared
open ChudMoney.Kalshi.Rest
open ChudMoney.Lib.Grids
open ChudMoney.Lib.Json
open ChudMoney.Lib.MachineInt
open ChudMoney.Lib.Programs
open ChudMoney.Lib.Programs.Program
open ChudMoney.Model

/-! ## What a log says about the range -/

/-- The period that an effect asks for first, or skips. -/
def visit : Effect → Option Int
  | .called (.cfHistoryValues _ timestampMs _) 0 _ => some timestampMs.toInt
  | .skippedWindow windowMs _ => some windowMs.toInt
  | _ => none

def skippedWindow : Effect → Option Int
  | .skippedWindow windowMs _ => some windowMs.toInt
  | _ => none

def queuedIndex : Effect → Option IndexRow
  | .queued (.index row) => some row
  | _ => none

/-- The periods requested or skipped, in order. -/
def visits (log : List Effect) : List Int :=
  log.filterMap visit

def skips (log : List Effect) : List Int :=
  log.filterMap skippedWindow

def queued (log : List Effect) : List IndexRow :=
  log.filterMap queuedIndex

theorem firsts_visit : Firsts visit := by
  constructor
  · intro call attempt clock
    cases call <;> rfl
  · exact fun _ => rfl
  · exact fun _ => rfl

theorem firsts_skippedWindow : Firsts skippedWindow :=
  ⟨fun _ _ _ => rfl, fun _ => rfl, fun _ => rfl⟩

theorem firsts_queuedIndex : Firsts queuedIndex :=
  ⟨fun _ _ _ => rfl, fun _ => rfl, fun _ => rfl⟩

/-! ## What has been ingested -/

section Coverage

variable (timespan : Timespan) (existing : HashMap Int64 Int64)
variable (content : List HistoryValue)

/-- A value of the range, before a time, in no period that was skipped. -/
def Wanted (job : IngestJob) (log : List Effect) (before : Int)
    (value : HistoryValue) : Prop :=
  inRange job.startMs job.endMs value = true ∧ value.timeMs.toInt < before ∧
    timespan.grid.floor value.timeMs.toInt ∉ skips log

instance (job : IngestJob) (log : List Effect) (before : Int) :
    DecidablePred (Wanted timespan job log before) :=
  fun _ => inferInstanceAs (Decidable (_ ∧ _ ∧ _))

/-- The rows of the values wanted. -/
def wantedRows (job : IngestJob) (log : List Effect) (before : Int) :
    List IndexRow :=
  (content.filter fun value => Wanted timespan job log before value).map
    (indexRow job.indexId)

/-- A skipped window is over, and nearly all its seconds are stored. -/
structure Complete (force : Bool) (startMs endMs windowMs nowMs : Int64) :
    Prop where
  unforced : force = false
  ended : timespan.grid.next windowMs.toInt ≤ nowMs.toInt
  stored :
    90 * partSeconds windowMs.toInt (timespan.grid.next windowMs.toInt)
        startMs.toInt endMs.toInt ≤
      100 * (existing.getD windowMs 0).toInt

/--
Below the cursor each period of the range was visited once and in order, and
each value of those not skipped was queued once.
-/
structure Backfilled (log : List Effect) (job : IngestJob) : Prop where
  windows : Covers timespan.grid job.startMs.toInt
    (min job.cursorMs.toInt job.endMs.toInt)
    ((visits log).filter (· < job.cursorMs.toInt))
  rows : ((queued log).filter fun row =>
      row.tsMs.toInt < job.cursorMs.toInt).Perm
    (wantedRows timespan content job log job.cursorMs.toInt)
  complete : ∀ windowMs nowMs, .skippedWindow windowMs nowMs ∈ log →
    Complete timespan existing job.force job.startMs job.endMs windowMs nowMs

/--
What is relied on of the upstream: a response for an aligned period holds each
value of that period once and no other.
-/
def Upstream (env : Env) (indexId : String) : Prop :=
  ∀ n (periodMs : Int64) values raw,
    Aligned timespan.grid periodMs.toInt →
    (env.client n).cfHistoryValues indexId periodMs timespan.asStr =
      .ok (values, raw) →
    values.Perm (content.filter fun value =>
      timespan.grid.floor value.timeMs.toInt = periodMs.toInt)

/-- What no step of the loop changes about its job. -/
structure SameRange (job other : IngestJob) : Prop where
  startMs : other.startMs = job.startMs
  endMs : other.endMs = job.endMs
  indexId : other.indexId = job.indexId
  timespan : other.timespan = job.timespan
  force : other.force = job.force

/-- What readers of a job may rely on whenever it is published. -/
def Progress (job : IngestJob) (log : List Effect) (published : IngestJob) :
    Prop :=
  SameRange job published ∧ Backfilled timespan existing content log published

/-- The loop is about to look at its cursor. -/
structure AtWindow (job : IngestJob) (task : Task) : Prop where
  same : SameRange job task.job
  lower : -8334601228800000 ≤ task.job.cursorMs.toInt
  aligned : Aligned timespan.grid task.job.cursorMs.toInt
  meets : task.job.startMs.toInt < timespan.grid.next task.job.cursorMs.toInt
  windows : Covers timespan.grid task.job.startMs.toInt
    task.job.cursorMs.toInt (visits task.log)
  inside : ∀ windowMs ∈ visits task.log, windowMs < task.job.endMs.toInt
  rows : (queued task.log).Perm
    (wantedRows timespan content task.job task.log task.job.cursorMs.toInt)
  complete : ∀ windowMs nowMs, .skippedWindow windowMs nowMs ∈ task.log →
    Complete timespan existing task.job.force task.job.startMs task.job.endMs
      windowMs nowMs
  published : EveryPublished (Progress timespan existing content job) task.log

/-- What holds wherever the loop stops. -/
structure Underway (job : IngestJob) (task : Task) : Prop where
  same : SameRange job task.job
  backfilled : Backfilled timespan existing content task.log task.job
  published : EveryPublished (Progress timespan existing content job) task.log

end Coverage

section Steps

variable {timespan : Timespan} {existing : HashMap Int64 Int64}
variable {content : List HistoryValue} {job : IngestJob} {task : Task}
variable {log : List Effect}

/-- Effects at the cursor or behind it change nothing before it. -/
theorem Backfilled.concat
    (backfilled : Backfilled timespan existing content log job)
    {effect : Effect}
    (ahead : ∀ windowMs ∈ visit effect, job.cursorMs.toInt ≤ windowMs)
    (later : ∀ row ∈ queuedIndex effect, job.cursorMs.toInt ≤ row.tsMs.toInt)
    (unskipped : ∀ windowMs nowMs, effect ≠ .skippedWindow windowMs nowMs) :
    Backfilled timespan existing content (log ++ [effect]) job := by
  have sameSkips : skips (log ++ [effect]) = skips log := by
    unfold skips
    rw [List.filterMap_append]
    cases effect <;> simp_all [skippedWindow]
  constructor
  · have none_ : (visits [effect]).filter (· < job.cursorMs.toInt) = [] := by
      rw [List.filter_eq_nil_iff]
      intro windowMs member before
      have visited : windowMs ∈ visit effect := by
        simpa [visits] using member
      exact absurd (ahead windowMs visited)
        (not_le.mpr (of_decide_eq_true before))
    have apart : visits (log ++ [effect]) = visits log ++ visits [effect] :=
      List.filterMap_append
    rw [apart, List.filter_append, none_, List.append_nil]
    exact backfilled.windows
  · have none_ : (queued [effect]).filter (fun row =>
        row.tsMs.toInt < job.cursorMs.toInt) = [] := by
      rw [List.filter_eq_nil_iff]
      intro row member before
      have isQueued : row ∈ queuedIndex effect := by
        simpa [queued] using member
      exact absurd (later row isQueued) (not_le.mpr (of_decide_eq_true before))
    have apart : queued (log ++ [effect]) = queued log ++ queued [effect] :=
      List.filterMap_append
    rw [apart, List.filter_append, none_, List.append_nil, wantedRows]
    simp only [Wanted, sameSkips]
    exact backfilled.rows
  · intro windowMs nowMs member
    rcases List.mem_append.mp member with before | last
    · exact backfilled.complete windowMs nowMs before
    · exact absurd (List.mem_singleton.mp last).symm (unskipped windowMs nowMs)

/-- A call for the period at the cursor leaves what is below it alone. -/
theorem steady_underway (indexId span : String) (cursorMs : Int64) :
    Steady (.cfHistoryValues indexId cursorMs span) fun task =>
      Underway timespan existing content job task ∧
        task.job.cursorMs = cursorMs := by
  constructor
  · rintro task attempt clock ⟨underway, rfl⟩
    refine ⟨⟨underway.same, ?_, ?_⟩, rfl⟩
    · apply underway.backfilled.concat
      · intro windowMs visited
        cases attempt with
        | zero =>
            cases visited
            exact le_rfl
        | succ attempt => cases visited
      · rintro row ⟨⟩
      · rintro windowMs nowMs ⟨⟩
    · refine (everyPublished_concat _).mpr ⟨underway.published, ?_⟩
      rintro job ⟨⟩
  · rintro task delay ⟨underway, rfl⟩
    refine ⟨⟨underway.same, ?_, ?_⟩, rfl⟩
    · apply underway.backfilled.concat
      · rintro windowMs ⟨⟩
      · rintro row ⟨⟩
      · rintro windowMs nowMs ⟨⟩
    · refine (everyPublished_concat _).mpr ⟨underway.published, ?_⟩
      rintro job ⟨⟩
  · rintro task ⟨underway, rfl⟩
    refine ⟨⟨underway.same, ?_, ?_⟩, rfl⟩
    · apply underway.backfilled.concat
      · rintro windowMs ⟨⟩
      · rintro row ⟨⟩
      · rintro windowMs nowMs ⟨⟩
    · refine (everyPublished_concat _).mpr ⟨underway.published, ?_⟩
      rintro job ⟨⟩
      exact ⟨underway.same, underway.backfilled⟩
  · rintro task requests retries retryError ⟨underway, rfl⟩
    rcases underway with ⟨same, backfilled, published⟩
    refine ⟨⟨⟨same.startMs, same.endMs, same.indexId, same.timespan,
      same.force⟩, ?_, published⟩, rfl⟩
    exact ⟨backfilled.windows, backfilled.rows, backfilled.complete⟩
  · rintro task asked clock ⟨underway, rfl⟩
    exact ⟨⟨underway.same, underway.backfilled, underway.published⟩, rfl⟩

theorem wantedRows_congr {other : List Effect} {before : Int}
    (same : skips other = skips log) :
    wantedRows timespan content job other before =
      wantedRows timespan content job log before := by
  unfold wantedRows
  congr 1
  apply List.filter_congr
  intro value _
  apply decide_eq_decide.mpr
  rw [Wanted, Wanted, same]

theorem wantedRows_range {other : IngestJob} (same : SameRange job other)
    {before : Int} :
    wantedRows timespan content other log before =
      wantedRows timespan content job log before := by
  unfold wantedRows
  rw [same.indexId]
  congr 1
  apply List.filter_congr
  intro value _
  apply decide_eq_decide.mpr
  rw [Wanted, Wanted, same.startMs, same.endMs]

theorem mem_wantedRows {row : IndexRow} {before : Int}
    (member : row ∈ wantedRows timespan content job log before) :
    row.tsMs.toInt < before := by
  rcases List.mem_map.mp member with ⟨value, kept, rfl⟩
  exact (of_decide_eq_true (List.mem_filter.mp kept).2).2.1

/-- At the head of the loop everything below the cursor is ingested. -/
theorem AtWindow.underway
    (at_ : AtWindow timespan existing content job task) :
    Underway timespan existing content job task := by
  refine ⟨at_.same, ⟨?_, ?_, at_.complete⟩, at_.published⟩
  · have below : (visits task.log).filter
        (· < task.job.cursorMs.toInt) = visits task.log := by
      rw [List.filter_eq_self]
      intro windowMs member
      exact decide_eq_true ((at_.windows.mem_iff windowMs).mp member).2.1
    rw [below]
    exact at_.windows.min at_.inside
  · have below : ((queued task.log).filter fun row =>
        row.tsMs.toInt < task.job.cursorMs.toInt) = queued task.log := by
      rw [List.filter_eq_self]
      intro row member
      exact decide_eq_true (mem_wantedRows (at_.rows.mem_iff.mp member))
    rw [below]
    exact at_.rows

/-- The time of a value lies before the next period, or in this one. -/
theorem before_next_iff {start time : Int}
    (aligned : Aligned timespan.grid start) :
    time < timespan.grid.next start ↔
      time < start ∨ timespan.grid.floor time = start := by
  constructor
  · intro before
    by_cases earlier : time < start
    · exact Or.inl earlier
    · exact Or.inr (aligned.floor_eq_iff.mpr ⟨not_lt.mp earlier, before⟩)
  · rintro (earlier | inside)
    · exact earlier.trans aligned.lt_next
    · exact (aligned.floor_eq_iff.mp inside).2

/-- A period more, skipped: no value more is wanted. -/
theorem wantedRows_skip {cursorMs nowMs : Int64}
    (aligned : Aligned timespan.grid cursorMs.toInt) :
    wantedRows timespan content job (log ++ [.skippedWindow cursorMs nowMs])
        (timespan.grid.next cursorMs.toInt) =
      wantedRows timespan content job log cursorMs.toInt := by
  unfold wantedRows
  congr 1
  apply List.filter_congr
  intro value _
  apply decide_eq_decide.mpr
  have more : skips (log ++ [.skippedWindow cursorMs nowMs]) =
      skips log ++ [cursorMs.toInt] := List.filterMap_append
  unfold Wanted
  rw [more, List.mem_append, List.mem_singleton, before_next_iff aligned]
  have apart : value.timeMs.toInt < cursorMs.toInt →
      timespan.grid.floor value.timeMs.toInt ≠ cursorMs.toInt := by
    intro before inside
    exact absurd (aligned.floor_eq_iff.mp inside).1 (not_le.mpr before)
  tauto

/-- What a period of the range has to give. -/
def periodRows (timespan : Timespan) (content : List HistoryValue)
    (job : IngestJob) (start : Int) : List IndexRow :=
  (content.filter fun value => inRange job.startMs job.endMs value = true ∧
    timespan.grid.floor value.timeMs.toInt = start).map (indexRow job.indexId)

/-- A period more, fetched: its values are wanted besides. -/
theorem wantedRows_fetch {start : Int}
    (aligned : Aligned timespan.grid start) (unskipped : start ∉ skips log) :
    (wantedRows timespan content job log start ++
        periodRows timespan content job start).Perm
      (wantedRows timespan content job log (timespan.grid.next start)) := by
  unfold wantedRows periodRows
  rw [← List.map_append]
  apply List.Perm.map
  have cut := List.filter_append_perm
    (fun value => decide (value.timeMs.toInt < start))
    (content.filter fun value =>
      Wanted timespan job log (timespan.grid.next start) value)
  rw [List.filter_filter, List.filter_filter] at cut
  refine (List.Perm.of_eq ?_).trans cut
  congr 1
  · apply List.filter_congr
    intro value _
    rw [← Bool.decide_and]
    apply decide_eq_decide.mpr
    have later := @before_next_iff _ _ value.timeMs.toInt aligned
    unfold Wanted
    tauto
  · apply List.filter_congr
    intro value _
    rw [← decide_not, ← Bool.decide_and]
    apply decide_eq_decide.mpr
    have inside := aligned.floor_eq_iff (t := value.timeMs.toInt)
    unfold Wanted
    rw [not_lt]
    constructor
    · rintro ⟨ranged, same⟩
      exact ⟨(inside.mp same).1, ranged, (inside.mp same).2, same ▸ unskipped⟩
    · rintro ⟨later, ranged, before, -⟩
      exact ⟨ranged, inside.mpr ⟨later, before⟩⟩

/-! ## One window -/

/-- Asking what time it is changes nothing. -/
theorem AtWindow.asked (at_ : AtWindow timespan existing content job task)
    (asked : Nat) :
    AtWindow timespan existing content job { task with asked := asked } :=
  ⟨at_.same, at_.lower, at_.aligned, at_.meets, at_.windows, at_.inside,
    at_.rows, at_.complete, at_.published⟩

/-- The job with its cursor at the next period. -/
theorem SameRange.moved (same : SameRange job task.job) (skipped : Nat)
    (nextMs : Int64) :
    SameRange job
      { task.job with skipped := skipped, cursorMs := nextMs } :=
  ⟨same.startMs, same.endMs, same.indexId, same.timespan, same.force⟩

/-- An effect that is not about a period or a row leaves the loop as it is. -/
theorem AtWindow.record (at_ : AtWindow timespan existing content job task)
    {effect : Effect} (unvisited : visit effect = none)
    (unqueued : queuedIndex effect = none)
    (unskipped : skippedWindow effect = none)
    (current : ∀ published, effect = .published published →
      published = task.job) (clock : Nat) :
    AtWindow timespan existing content job
      { task.record effect with clock := clock } := by
  have sameVisits : visits (task.log ++ [effect]) = visits task.log := by
    simp [visits, unvisited]
  have sameRows : queued (task.log ++ [effect]) = queued task.log := by
    simp [queued, unqueued]
  have sameSkips : skips (task.log ++ [effect]) = skips task.log := by
    simp [skips, unskipped]
  refine ⟨at_.same, at_.lower, at_.aligned, at_.meets, ?_, ?_, ?_, ?_, ?_⟩
  · simpa only [Task.record, sameVisits] using at_.windows
  · simpa only [Task.record, sameVisits] using at_.inside
  · simp only [Task.record, sameRows, wantedRows_congr sameSkips]
    exact at_.rows
  · intro windowMs nowMs member
    rcases List.mem_append.mp member with before | last
    · exact at_.complete windowMs nowMs before
    · rw [← List.mem_singleton.mp last] at unskipped
      cases unskipped
  · refine (everyPublished_concat _).mpr ⟨at_.published, ?_⟩
    intro published isPublished
    rw [current published isPublished]
    exact ⟨at_.same, at_.underway.backfilled⟩

theorem AtWindow.publish (at_ : AtWindow timespan existing content job task) :
    AtWindow timespan existing content job
      (task.record (.published task.job)) := by
  apply at_.record rfl rfl rfl _ task.clock
  rintro published ⟨⟩
  rfl

/-- A skipped window leaves the loop at the next one. -/
theorem skipWindow_spec (at_ : AtWindow timespan existing content job task)
    (before : task.job.cursorMs.toInt < task.job.endMs.toInt)
    {nextMs nowMs : Int64}
    (next : nextMs.toInt = timespan.grid.next task.job.cursorMs.toInt)
    (complete : Complete timespan existing task.job.force task.job.startMs
      task.job.endMs task.job.cursorMs nowMs) :
    ∃ skipped, skipWindow nextMs nowMs task = (.ok (), skipped) ∧
      AtWindow timespan existing content job skipped ∧
      skipped.job.cursorMs = nextMs ∧ skipped.asked = task.asked := by
  have moved : AtWindow timespan existing content job
      { task.record (.skippedWindow task.job.cursorMs nowMs) with
        job := { task.job with
          skipped := task.job.skipped + 1
          cursorMs := nextMs } } := by
    have visited : visits (task.log ++
        [.skippedWindow task.job.cursorMs nowMs]) =
          visits task.log ++ [task.job.cursorMs.toInt] := List.filterMap_append
    have unqueued : queued (task.log ++
        [.skippedWindow task.job.cursorMs nowMs]) = queued task.log := by
      simp [queued, queuedIndex]
    have later := at_.aligned.lt_next
    refine ⟨at_.same.moved _ _, ?_, ?_, ?_, ?_, ?_, ?_, ?_, ?_⟩
    · show _ ≤ nextMs.toInt
      rw [next]
      exact at_.lower.trans later.le
    · show Aligned timespan.grid nextMs.toInt
      rw [next]
      exact timespan.grid.floor_next _ at_.aligned
    · show task.job.startMs.toInt < timespan.grid.next nextMs.toInt
      rw [next]
      have further : Aligned timespan.grid
          (timespan.grid.next task.job.cursorMs.toInt) :=
        timespan.grid.floor_next _ at_.aligned
      exact at_.meets.trans further.lt_next
    · show Covers _ _ nextMs.toInt (visits (task.log ++ _))
      rw [next, visited]
      exact at_.windows.next at_.aligned at_.meets
    · intro windowMs member
      change windowMs ∈ visits (task.log ++ _) at member
      rw [visited, List.mem_append, List.mem_singleton] at member
      rcases member with earlier | rfl
      · exact at_.inside windowMs earlier
      · exact before
    · show (queued (task.log ++ _)).Perm
        (wantedRows timespan content task.job (task.log ++ _) nextMs.toInt)
      rw [next, unqueued, wantedRows_skip at_.aligned]
      exact at_.rows
    · intro windowMs now member
      rcases List.mem_append.mp member with earlier | last
      · exact at_.complete windowMs now earlier
      · cases List.mem_singleton.mp last
        exact complete
    · refine (everyPublished_concat _).mpr ⟨at_.published, ?_⟩
      rintro published ⟨⟩
  exact ⟨_, rfl, moved.publish, rfl, rfl⟩

theorem mem_visits_of_skips {windowMs : Int} (member : windowMs ∈ skips log) :
    windowMs ∈ visits log := by
  rcases List.mem_filterMap.mp member with ⟨effect, inLog, skipped⟩
  refine List.mem_filterMap.mpr ⟨effect, inLog, ?_⟩
  cases effect <;> simp_all [skippedWindow, visit]

theorem queued_rows (rows : List IndexRow) :
    queued (rows.map fun row => .queued (.index row)) = rows ∧
      visits (rows.map fun row => .queued (.index row)) = [] ∧
      skips (rows.map fun row => .queued (.index row)) = [] := by
  induction rows with
  | nil => exact ⟨rfl, rfl, rfl⟩
  | cons row rows ih =>
      exact ⟨congrArg (row :: ·) ih.1, ih.2.1, ih.2.2⟩

/-- Rows of the period at the cursor leave what is below it alone. -/
theorem Backfilled.queue
    (backfilled : Backfilled timespan existing content log job)
    (rows : List IndexRow)
    (later : ∀ row ∈ rows, job.cursorMs.toInt ≤ row.tsMs.toInt) :
    Backfilled timespan existing content
      (log ++ rows.map fun row => .queued (.index row)) job := by
  induction rows using List.reverseRecOn with
  | nil => simpa using backfilled
  | append_singleton rows row ih =>
      rw [List.map_append, ← List.append_assoc]
      apply (ih fun other member => later other (by simp [member])).concat
      · rintro windowMs ⟨⟩
      · rintro other ⟨⟩
        exact later row (by simp)
      · rintro windowMs nowMs ⟨⟩

/-- The rows that a response for the period at the cursor gives. -/
theorem response_rows {values : List HistoryValue} {start : Int}
    (holds : values.Perm (content.filter fun value =>
      timespan.grid.floor value.timeMs.toInt = start)) :
    ((values.filter (inRange job.startMs job.endMs)).map
        (indexRow job.indexId)).Perm
      (periodRows timespan content job start) := by
  apply List.Perm.map
  apply (holds.filter _).trans
  rw [List.filter_filter]
  apply List.Perm.of_eq
  apply List.filter_congr
  intro value _
  simp

/-- A fetched window leaves the loop at the next one. -/
theorem AtWindow.fetched (at_ : AtWindow timespan existing content job task)
    (before : task.job.cursorMs.toInt < task.job.endMs.toInt)
    {nextMs : Int64}
    (next : nextMs.toInt = timespan.grid.next task.job.cursorMs.toInt)
    {after : Task} (same : SameRange task.job after.job)
    (moved : after.job.cursorMs = nextMs)
    (visited : visits after.log =
      visits task.log ++ [task.job.cursorMs.toInt])
    (sameSkips : skips after.log = skips task.log)
    (sent : (queued after.log).Perm (queued task.log ++
      periodRows timespan content task.job task.job.cursorMs.toInt))
    (complete : ∀ windowMs nowMs, .skippedWindow windowMs nowMs ∈ after.log →
      .skippedWindow windowMs nowMs ∈ task.log)
    (published : EveryPublished (Progress timespan existing content job)
      after.log) :
    AtWindow timespan existing content job after := by
  have later := at_.aligned.lt_next
  have further : Aligned timespan.grid
      (timespan.grid.next task.job.cursorMs.toInt) :=
    timespan.grid.floor_next _ at_.aligned
  refine ⟨⟨same.startMs.trans at_.same.startMs, same.endMs.trans at_.same.endMs,
    same.indexId.trans at_.same.indexId,
    same.timespan.trans at_.same.timespan, same.force.trans at_.same.force⟩,
    ?_, ?_, ?_, ?_, ?_, ?_, ?_, published⟩
  · rw [moved, next]
    exact at_.lower.trans later.le
  · rw [moved, next]
    exact further
  · rw [moved, next, same.startMs]
    exact at_.meets.trans further.lt_next
  · rw [moved, next, same.startMs, visited]
    exact at_.windows.next at_.aligned at_.meets
  · intro windowMs member
    rw [visited, List.mem_append, List.mem_singleton] at member
    rw [same.endMs]
    rcases member with earlier | rfl
    · exact at_.inside windowMs earlier
    · exact before
  · have unskipped : task.job.cursorMs.toInt ∉ skips task.log := by
      intro member
      exact absurd ((at_.windows.mem_iff _).mp (mem_visits_of_skips member)).2.1
        (lt_irrefl _)
    have sameWanted : wantedRows timespan content after.job after.log
        nextMs.toInt = wantedRows timespan content task.job task.log
          (timespan.grid.next task.job.cursorMs.toInt) := by
      rw [wantedRows_congr sameSkips, wantedRows_range same, next]
    rw [moved, sameWanted]
    apply sent.trans
    exact (at_.rows.append_right _).trans
      (wantedRows_fetch at_.aligned unskipped)
  · intro windowMs nowMs member
    rw [same.force, same.startMs, same.endMs]
    exact at_.complete windowMs nowMs (complete windowMs nowMs member)

/-- The rows of a period are not before it. -/
theorem periodRows_later {start : Int} (aligned : Aligned timespan.grid start)
    {row : IndexRow} (member : row ∈ periodRows timespan content job start) :
    start ≤ row.tsMs.toInt := by
  rcases List.mem_map.mp member with ⟨value, kept, rfl⟩
  have inside := (of_decide_eq_true (List.mem_filter.mp kept).2).2
  exact (aligned.floor_eq_iff.mp inside).1

/-- Queueing the response for the period at the cursor. -/
theorem queueRows_window {env : Env}
    (aligned : Aligned timespan.grid task.job.cursorMs.toInt)
    (underway : Underway timespan existing content job task)
    {values : List HistoryValue}
    (holds : values.Perm (content.filter fun value =>
      timespan.grid.floor value.timeMs.toInt = task.job.cursorMs.toInt)) :
    let rows := (values.filter (inRange task.job.startMs task.job.endMs)).map
      (indexRow task.job.indexId)
    let result := queueRows env (rows.map .index) task
    Underway timespan existing content job result.2 ∧
      (result.1 = .ok () →
        result.2.log = task.log ++ rows.map (fun row => .queued (.index row)) ∧
        ∃ count, result.2.job = { task.job with rows := count }) := by
  intro rows result
  rcases queueRows_spec env (rows.map .index) task with
    ⟨sent, left, parts, log, same, ends⟩
  rcases List.map_eq_append_iff.mp parts with ⟨front, back, split, rfl, rfl⟩
  have sentLog : result.2.log = task.log ++
      front.map fun row => .queued (.index row) :=
    log.trans (by rw [List.map_map]; rfl)
  have sentJob : result.2.job = _ := same
  have later : ∀ row ∈ front, task.job.cursorMs.toInt ≤ row.tsMs.toInt := by
    intro row member
    have isRow : row ∈ rows := split ▸ List.mem_append_left back member
    exact periodRows_later aligned ((response_rows holds).mem_iff.mp isRow)
  have sameRange : SameRange job result.2.job := by
    rw [sentJob]
    exact ⟨underway.same.startMs, underway.same.endMs, underway.same.indexId,
      underway.same.timespan, underway.same.force⟩
  refine ⟨⟨sameRange, ?_, ?_⟩, ?_⟩
  · have queued_ := underway.backfilled.queue front later
    rw [sentLog, sentJob]
    exact ⟨queued_.windows, queued_.rows, queued_.complete⟩
  · have kept := (everyPublished_queued (front.map Row.index)).mpr
      underway.published
    rw [List.map_map] at kept
    rw [sentLog]
    exact kept
  · intro ok
    rcases ends with ⟨-, nothing⟩ | ⟨e, failed⟩
    · rw [List.map_eq_nil_iff] at nothing
      subst nothing
      rw [List.append_nil] at split
      exact ⟨split ▸ sentLog, _, sentJob⟩
    · exact absurd (ok.symm.trans failed) (by simp)

/-- What has changed when the call for a window got through. -/
structure Asked (task after : Task) : Prop where
  same : SameRange task.job after.job
  cursor : after.job.cursorMs = task.job.cursorMs
  visited : visits after.log = visits task.log ++ [task.job.cursorMs.toInt]
  unqueued : queued after.log = queued task.log
  unskipped : skips after.log = skips task.log
  noted : ∀ windowMs nowMs, .skippedWindow windowMs nowMs ∈ after.log →
    .skippedWindow windowMs nowMs ∈ task.log

theorem historyCall_spec {env : Env}
    (upstream : Upstream timespan content env job.indexId)
    (label : job.timespan = timespan.asStr)
    (at_ : AtWindow timespan existing content job task) (callFuel : Nat) :
    let result := historyCall env task.job callFuel task
    Underway timespan existing content job result.2 ∧
      ∀ values raw, result.1 = .ok (values, raw) → Asked task result.2 ∧
        values.Perm (content.filter fun value =>
          timespan.grid.floor value.timeMs.toInt =
            task.job.cursorMs.toInt) := by
  intro result
  have kept := @throttled_keeps _ env _ (fun client =>
      client.cfHistoryValues task.job.indexId task.job.cursorMs
        task.job.timespan) _
    (@steady_underway timespan existing content job task.job.indexId
      task.job.timespan task.job.cursorMs) callFuel task
    ⟨at_.underway, rfl⟩
  refine ⟨kept.1, ?_⟩
  intro values raw ok
  rcases throttled_through ok with ⟨n, outcome, after⟩
  have reached : result.2 = _ := after
  constructor
  · rw [reached]
    constructor
    · exact ⟨rfl, rfl, rfl, rfl, rfl⟩
    · rfl
    · exact filterMap_after firsts_visit _ _ _ _
    · exact (filterMap_after firsts_queuedIndex _ _ _ _).trans
        (List.append_nil _)
    · exact (filterMap_after firsts_skippedWindow _ _ _ _).trans
        (List.append_nil _)
    · intro windowMs nowMs member
      rcases mem_after member with before | ⟨_, _, ⟨⟩⟩ | ⟨_, ⟨⟩⟩ | ⟨_, ⟨⟩⟩
      exact before
  · apply upstream (task.asked + n) task.job.cursorMs values raw at_.aligned
    rw [← at_.same.indexId, ← label, ← at_.same.timespan]
    exact outcome

/-- Storing a window, however it ends. -/
theorem storeWindow_spec {env : Env} {after : Task}
    (at_ : AtWindow timespan existing content job task)
    (before : task.job.cursorMs.toInt < task.job.endMs.toInt)
    {nextMs : Int64}
    (next : nextMs.toInt = timespan.grid.next task.job.cursorMs.toInt)
    (asked : Asked task after)
    (underway : Underway timespan existing content job after)
    {values : List HistoryValue}
    (holds : values.Perm (content.filter fun value =>
      timespan.grid.floor value.timeMs.toInt = task.job.cursorMs.toInt)) :
    let result := storeWindow env values nextMs after
    Underway timespan existing content job result.2 ∧
      (result.1 = .ok () →
        AtWindow timespan existing content job result.2) := by
  intro result
  have aligned := at_.aligned
  have given := @response_rows _ _ task.job _ _ holds
  rw [← asked.cursor] at aligned holds
  have queue := @queueRows_window _ _ _ _ _ env aligned underway _ holds
  have unrolled : result = Outcome.andThen
      (queueRows env (((values.filter
        (inRange after.job.startMs after.job.endMs)).map
          (indexRow after.job.indexId)).map Row.index) after)
      (fun _ => do
        modifyJob fun job => { job with cursorMs := nextMs }
        publish
        sleep requestGap) := by
    simp [result, storeWindow]
  rw [asked.same.startMs, asked.same.endMs, asked.same.indexId]
    at unrolled queue
  generalize (values.filter (inRange task.job.startMs task.job.endMs)).map
    (indexRow task.job.indexId) = rows at *
  rcases sent : queueRows env (rows.map Row.index) after with ⟨ended, last⟩
  simp only [sent] at queue unrolled
  cases ended with
  | ok _ =>
      rcases queue.2 rfl with ⟨log, count, sameJob⟩
      rcases queued_rows rows with ⟨sameRows, noVisits, noSkips⟩
      have moved : AtWindow timespan existing content job
          { last with job := { last.job with cursorMs := nextMs } } := by
        apply at_.fetched before next
        · rw [sameJob]
          exact ⟨asked.same.startMs, asked.same.endMs, asked.same.indexId,
            asked.same.timespan, asked.same.force⟩
        · rfl
        · rw [log, ← asked.visited, visits, List.filterMap_append]
          exact (congrArg _ noVisits).trans (List.append_nil _)
        · rw [log, ← asked.unskipped, skips, List.filterMap_append]
          exact (congrArg _ noSkips).trans (List.append_nil _)
        · have more : queued last.log = queued task.log ++ rows := by
            rw [log, ← asked.unqueued, queued, List.filterMap_append]
            exact congrArg _ sameRows
          rw [more]
          exact given.append_left _
        · intro windowMs nowMs member
          rw [log, List.mem_append] at member
          rcases member with before | row
          · exact asked.noted windowMs nowMs before
          · rcases List.mem_map.mp row with ⟨_, _, ⟨⟩⟩
        · exact queue.1.published
      have ends : result = (.ok (), _) := unrolled.trans rfl
      rw [ends]
      have slept := @AtWindow.record _ _ _ _ _ moved.publish
        (.slept requestGap) rfl rfl
        rfl (fun _ isPublished => nomatch isPublished)
        (last.clock + requestGap)
      exact ⟨slept.underway, fun _ => slept⟩
  | error e =>
      rw [unrolled]
      exact ⟨queue.1, fun ok => nomatch ok⟩
  | panic =>
      rw [unrolled]
      exact ⟨queue.1, fun ok => nomatch ok⟩
  | pending =>
      rw [unrolled]
      exact ⟨queue.1, fun ok => nomatch ok⟩

/-- Fetching a window, however it ends. -/
theorem fetchWindow_spec {env : Env}
    (upstream : Upstream timespan content env job.indexId)
    (label : job.timespan = timespan.asStr)
    (at_ : AtWindow timespan existing content job task)
    (before : task.job.cursorMs.toInt < task.job.endMs.toInt)
    {nextMs : Int64}
    (next : nextMs.toInt = timespan.grid.next task.job.cursorMs.toInt)
    (callFuel : Nat) (loggedSample : Bool) :
    let result := fetchWindow env nextMs callFuel loggedSample task
    Underway timespan existing content job result.2 ∧
      (result.1 = .ok () →
        AtWindow timespan existing content job result.2) := by
  intro result
  have call := @historyCall_spec _ _ _ _ _ env upstream label at_
    callFuel
  rcases called : historyCall env task.job callFuel task with ⟨out, after⟩
  simp only [called] at call
  rcases call with ⟨underway, through⟩
  cases out with
  | error e =>
      have ends : result = (.error e, after) := by
        simp [result, fetchWindow, called]
      rw [ends]
      exact ⟨underway, fun ok => nomatch ok⟩
  | panic =>
      have ends : result = (.panic, after) := by
        simp [result, fetchWindow, called]
      rw [ends]
      exact ⟨underway, fun ok => nomatch ok⟩
  | pending =>
      have ends : result = (.pending, after) := by
        simp [result, fetchWindow, called]
      rw [ends]
      exact ⟨underway, fun ok => nomatch ok⟩
  | ok response =>
      rcases response with ⟨values, raw⟩
      rcases through values raw rfl with ⟨asked, holds⟩
      rcases logSample_cases env loggedSample raw after with logged | panicked
      · have ends : result = storeWindow env values nextMs after := by
          simp [result, fetchWindow, called, logged]
        rw [ends]
        exact storeWindow_spec at_ before next asked underway holds
      · have ends : result = (.panic, after) := by
          simp [result, fetchWindow, called, panicked]
        rw [ends]
        exact ⟨underway, fun ok => nomatch ok⟩

/-! ## The whole range -/

/-- The code's next period is that of the grid, wherever the loop steps. -/
def Steps (timespan : Timespan) (endMs : Int) : Prop :=
  ∀ periodMs : Int64, InMillis periodMs.toInt → periodMs.toInt < endMs →
    (timespan.next periodMs).toInt = timespan.grid.next periodMs.toInt

theorem steps_hour (endMs : Int) : Steps .hour endMs := by
  intro periodMs inMillis _
  apply toInt_next .hour _ (Or.inl rfl)
  constructor <;> omega

/-- A window that is skipped is complete. -/
theorem AtWindow.complete_of_skip
    (at_ : AtWindow timespan existing content job task)
    (start : InMillis task.job.startMs.toInt)
    (end_ : InMillis task.job.endMs.toInt)
    (before : task.job.cursorMs.toInt < task.job.endMs.toInt)
    {nextMs nowMs : Int64}
    (next : nextMs.toInt = timespan.grid.next task.job.cursorMs.toInt)
    (counts : ∀ windowMs, 0 ≤ (existing.getD windowMs 0).toInt)
    (forced : task.job.force = true → existing = ∅)
    (complete : indexWindowComplete (existing.getD task.job.cursorMs 0)
      task.job.cursorMs nextMs task.job.startMs task.job.endMs nowMs = true) :
    Complete timespan existing task.job.force task.job.startMs task.job.endMs
      task.job.cursorMs nowMs := by
  have window : InMillis task.job.cursorMs.toInt :=
    ⟨at_.lower, before.trans end_.2⟩
  have later : task.job.cursorMs.toInt < nextMs.toInt := by
    rw [next]
    exact at_.aligned.lt_next
  rcases indexWindowComplete_spec window start end_ later
    (counts task.job.cursorMs) complete with ⟨ended, stored, most⟩
  constructor
  · rw [← Bool.not_eq_true]
    intro force
    rw [forced force] at stored
    simp at stored
  · rw [← next]
    exact ended
  · rw [← next]
    exact most

/-- The loop, from any window on and however it ends. -/
theorem windows_spec {env : Env}
    (upstream : Upstream timespan content env job.indexId)
    (label : job.timespan = timespan.asStr)
    (start : InMillis job.startMs.toInt) (end_ : InMillis job.endMs.toInt)
    (steps : Steps timespan job.endMs.toInt)
    (counts : ∀ windowMs, 0 ≤ (existing.getD windowMs 0).toInt)
    (forced : job.force = true → existing = ∅)
    (callFuel fuel : Nat) (loggedSample : Bool)
    (at_ : AtWindow timespan existing content job task) :
    let result :=
      windows env timespan existing callFuel fuel loggedSample task
    Underway timespan existing content job result.2 ∧
      (result.1 = .ok () →
        AtWindow timespan existing content job result.2 ∧
          result.2.job.endMs.toInt ≤ result.2.job.cursorMs.toInt) := by
  induction fuel generalizing loggedSample task with
  | zero => exact ⟨at_.underway, by rintro ⟨⟩⟩
  | succ fuel ih =>
      rcases Int64.lt_or_le task.job.cursorMs task.job.endMs with
        before | done
      · have below := Int64.lt_iff_toInt_lt.mp before
        have next : (timespan.next task.job.cursorMs).toInt =
            timespan.grid.next task.job.cursorMs.toInt := by
          rw [at_.same.endMs] at below
          exact steps _ ⟨at_.lower, below.trans end_.2⟩ below
        have asked := at_.asked (task.asked + 1)
        rw [← at_.same.startMs] at start
        rw [← at_.same.endMs] at end_
        rw [← at_.same.force] at forced
        cases complete : indexWindowComplete
            (existing.getD task.job.cursorMs 0) task.job.cursorMs
            (timespan.next task.job.cursorMs) task.job.startMs task.job.endMs
            (timestampMillis (env.utcNow task.asked)) with
        | true =>
            rw [windows_skip env timespan existing callFuel fuel loggedSample
              before complete]
            rcases skipWindow_spec asked below next (at_.complete_of_skip start
              end_ below next counts forced complete) with
              ⟨skipped, moved, atNext, -, -⟩
            rw [told, moved]
            exact ih loggedSample atNext
        | false =>
            rw [windows_fetch env timespan existing callFuel fuel loggedSample
              before complete]
            have fetched := @fetchWindow_spec _ _ _ _ _ env upstream label
              asked below _ next callFuel loggedSample
            rw [told]
            rcases ended : fetchWindow env (timespan.next task.job.cursorMs)
              callFuel loggedSample _ with ⟨out, after⟩
            rw [ended] at fetched
            cases out with
            | ok _ => exact ih true (fetched.2 rfl)
            | error e => exact ⟨fetched.1, by rintro ⟨⟩⟩
            | panic => exact ⟨fetched.1, by rintro ⟨⟩⟩
            | pending => exact ⟨fetched.1, by rintro ⟨⟩⟩
      · rw [windows_done env timespan existing callFuel fuel loggedSample done]
        exact ⟨at_.underway, fun _ => ⟨at_, Int64.le_iff_toInt_le.mp done⟩⟩

/-- At the end of the range all its periods were visited. -/
theorem AtWindow.windows_end
    (at_ : AtWindow timespan existing content job task)
    (past : task.job.endMs.toInt ≤ task.job.cursorMs.toInt) :
    Covers timespan.grid job.startMs.toInt job.endMs.toInt
      (visits task.log) := by
  have all := at_.windows.min at_.inside
  rwa [min_eq_right past, at_.same.startMs, at_.same.endMs] at all

/-- At the end of the range all its values wanted were queued. -/
theorem AtWindow.rows_end
    (at_ : AtWindow timespan existing content job task)
    (past : task.job.endMs.toInt ≤ task.job.cursorMs.toInt) :
    (queued task.log).Perm
      (wantedRows timespan content job task.log job.endMs.toInt) := by
  have same : wantedRows timespan content task.job task.log
      task.job.cursorMs.toInt =
        wantedRows timespan content job task.log job.endMs.toInt := by
    rw [wantedRows_range at_.same]
    unfold wantedRows
    congr 1
    apply List.filter_congr
    intro value _
    apply decide_eq_decide.mpr
    rw [at_.same.endMs] at past
    unfold Wanted
    rw [inRange, Bool.and_eq_true, decide_eq_true_eq, decide_eq_true_eq,
      Int64.lt_iff_toInt_lt]
    constructor
    · rintro ⟨ranged, -, unskipped⟩
      exact ⟨ranged, ranged.2, unskipped⟩
    · rintro ⟨ranged, -, unskipped⟩
      exact ⟨ranged, ranged.2.trans_le past, unskipped⟩
  rw [← same]
  exact at_.rows

end Steps

/-- What is relied on of the table: it counts rows. -/
def Counts (env : Env) : Prop :=
  ∀ n indexId startMs endMs sampleBy counts,
    env.indexCounts n indexId startMs endMs sampleBy = .ok counts →
    ∀ windowMs, 0 ≤ (counts.getD windowMs 0).toInt

theorem Counts.storedRows {env : Env} (counts : Counts env)
    (timespan : Timespan) (job : IngestJob) (n : Nat) (windowMs : Int64) :
    0 ≤ ((storedRows env timespan job n).getD windowMs 0).toInt := by
  unfold IngestLoop.storedRows
  split
  · simp
  · split
    · exact counts _ _ _ _ _ _ ‹_› windowMs
    · simp

/-- The job of a request starts at the period that holds the start. -/
theorem atWindow_spawn (existing : HashMap Int64 Int64)
    (content : List HistoryValue) (req : IngestRequest) (market : Market)
    (jobId : String) (now : Int) (index : req.kind = .index)
    (asked : Nat) :
    let job := req.job market jobId now
    AtWindow ingestTimespan existing content job
      { spawn job with asked := asked } := by
  intro job
  have start := inChrono_timestampMillis req.start
  have cursor : job.cursorMs.toInt =
      ingestTimespan.grid.floor (timestampMillis req.start).toInt := by
    have given : job.cursorMs =
        ingestTimespan.floor (timestampMillis req.start) := by
      simp only [job, IngestRequest.job, index]
    rw [given]
    exact toInt_floor ingestTimespan start
  have startMs : job.startMs = timestampMillis req.start := rfl
  constructor
  · exact ⟨rfl, rfl, rfl, rfl, rfl⟩
  · show _ ≤ job.cursorMs.toInt
    rw [cursor]
    show _ ≤ _ - _ % hourMs
    unfold hourMs
    omega
  · show ingestTimespan.grid.floor job.cursorMs.toInt = job.cursorMs.toInt
    rw [cursor]
    exact ingestTimespan.grid.floor_floor _
  · show job.startMs.toInt < ingestTimespan.grid.next job.cursorMs.toInt
    rw [cursor, startMs]
    exact ingestTimespan.grid.lt_next _
  · show Covers _ job.startMs.toInt job.cursorMs.toInt []
    rw [cursor, startMs]
    exact covers_floor _ _
  · exact fun windowMs member => absurd member List.not_mem_nil
  · have nothing : wantedRows ingestTimespan content job [] job.cursorMs.toInt =
        [] := by
      rw [wantedRows, List.map_eq_nil_iff, List.filter_eq_nil_iff]
      intro value _ wanted
      rcases of_decide_eq_true wanted with ⟨ranged, before, -⟩
      rw [inRange, Bool.and_eq_true, decide_eq_true_eq,
        Int64.le_iff_toInt_le, startMs] at ranged
      rw [cursor] at before
      have below :=
        ingestTimespan.grid.floor_le (timestampMillis req.start).toInt
      omega
    exact List.Perm.of_eq nothing.symm
  · exact fun windowMs nowMs member => absurd member List.not_mem_nil
  · exact everyPublished_nil

/--
An index backfill covers its range.  When it returns, the periods requested or
skipped are those that meet the range, in order, and the rows queued are the
values of the range in the periods not skipped; whenever its job is published,
and wherever it stops, the same holds below the cursor.
-/
theorem ingestLoop_covers (env : Env) (req : IngestRequest) (market : Market)
    (jobId : String) (now : Int) (content : List HistoryValue) (fuel : Nat)
    (index : req.kind = .index) (counts : Counts env)
    (upstream : Upstream ingestTimespan content env market.indexId) :
    let job := req.job market jobId now
    let existing := storedRows env ingestTimespan job 0
    let result := ingestLoop env ingestTimespan fuel (spawn job)
    (result.1 = .ok () →
      Covers ingestTimespan.grid job.startMs.toInt job.endMs.toInt
          (visits result.2.log) ∧
        (queued result.2.log).Perm
          (wantedRows ingestTimespan content job result.2.log
            job.endMs.toInt)) ∧
      Progress ingestTimespan existing content job result.2.log
        result.2.job ∧
      EveryPublished (Progress ingestTimespan existing content job)
        result.2.log := by
  intro job existing result
  rcases existingRows_apply env ingestTimespan (spawn job) with ⟨asked, stored⟩
  have runs : result = windows env ingestTimespan existing fuel fuel false
      { spawn job with asked := asked } := by
    simp only [result, ingestLoop, bind_apply, stored, andThen_ok]
    rfl
  have bounds : ∀ time : DateTime, InMillis (timestampMillis time).toInt := by
    intro time
    have inChrono := inChrono_timestampMillis time
    constructor <;> omega
  have label : job.timespan = ingestTimespan.asStr := by
    simp only [job, IngestRequest.job, index]
  have spec := @windows_spec _ _ _ _ _ env upstream label (bounds req.start)
    (bounds req.end) (steps_hour _) (counts.storedRows ingestTimespan job 0)
    (fun forced => by simp only [storedRows, forced, if_true]) fuel fuel false
    (atWindow_spawn existing content req market jobId now index asked)
  rw [runs]
  refine ⟨?_, ⟨spec.1.same, spec.1.backfilled⟩, spec.1.published⟩
  intro ok
  rcases spec.2 ok with ⟨atEnd, past⟩
  exact ⟨atEnd.windows_end past, atEnd.rows_end past⟩

/-! ## A service that holds one value -/

def midnight : String := "1970-01-01T00:00:00.000Z"

def brtiBody : String :=
  "\x7b\"data\":\x7b\"payload\":[\x7b\"time\":1800000,\"value\":1\x7d]\x7d\x7d"

def emptyBody : String :=
  "\x7b\"data\":\x7b\"payload\":[]\x7d\x7d"

/-- The response with these items. -/
def historyResponse (items : List Value) : Value :=
  .object [("data", .object [("payload", .array items)])]

def brtiItem : Value :=
  .object [("time", .number (.posInt 1800000)), ("value", .number (.posInt 1))]

/-- One value half an hour after midnight. -/
def brtiClient : KalshiClient where
  send request :=
    .ok ⟨200,
      if request.query.lookup "timestamp" = some midnight then brtiBody
      else emptyBody⟩
  readValue text :=
    if text = brtiBody then .ok (historyResponse [brtiItem])
    else if text = emptyBody then .ok (historyResponse [])
    else .error "expected value at line 1 column 1"
  readMarketsPage _ := .error "missing field 'markets' at line 1 column 2"
  readCutoff _ := .error "missing field 'market_settled_ts' at line 1 column 2"
  parseFromRfc3339 _ := none
  toRfc3339Millis instant :=
    if instant = 0 then midnight
    else if instant = 3600000000000 then "1970-01-01T01:00:00.000Z"
    else ""
  writeF64 _ := "1.0"

/-- It is two o'clock, and nearly all of the second hour is stored. -/
def brtiEnv : Env where
  client _ := brtiClient
  took _ := 50000000
  utcNow _ := fromSeconds 7200
  isOpen _ := true
  indexCounts _ _ _ _ _ := .ok (Std.ExtTreeMap.empty.insert 3600000 3300)
  candleCounts _ _ _ _ := .ok ∅
  writeF64 _ := "1.0"

/-- The first two hours, but for a few minutes. -/
def brtiRequest : IngestRequest where
  tag := "btc-15m"
  kind := .index
  start := fromSeconds 500
  «end» := fromSeconds 7200
  force := false

def brtiContent : List HistoryValue :=
  [{ timeMs := 1800000, value := .finite 1 }]

theorem brtiClient_holds (periodMs : Int64) {values : List HistoryValue}
    {raw : Value} (aligned : Aligned ingestTimespan.grid periodMs.toInt)
    (answer : brtiClient.cfHistoryValues "BRTI" periodMs
      ingestTimespan.asStr = .ok (values, raw)) :
    values.Perm (brtiContent.filter fun value =>
      ingestTimespan.grid.floor value.timeMs.toInt = periodMs.toInt) := by
  by_cases first : periodMs = 0
  · subst first
    have values_ : brtiClient.cfHistoryValues "BRTI" 0 ingestTimespan.asStr =
        .ok ([⟨1800000, asF64 (.posInt 1)⟩], .array [brtiItem]) := by
      rfl
    have one : asF64 (.posInt 1) = .finite 1 := by
      decide +kernel
    rw [values_, one] at answer
    cases answer
    exact List.Perm.of_eq (by decide)
  · have later : periodMs.toInt ≠ 0 := fun zero =>
      first (Int64.toInt_inj.mp zero)
    have other : (brtiClient.historyGet "BRTI" periodMs
        ingestTimespan.asStr).query.lookup "timestamp" ≠ some midnight := by
      show some (ite _ _ _) ≠ _
      rw [if_neg (by omega)]
      split <;> decide
    have response : brtiClient.signedGet brtiClient.readValue
        (brtiClient.historyGet "BRTI" periodMs ingestTimespan.asStr) =
          .ok (historyResponse []) := by
      have sent : brtiClient.send (brtiClient.historyGet "BRTI" periodMs
          ingestTimespan.asStr) = .ok ⟨200, emptyBody⟩ := by
        exact congrArg (fun body => Except.ok (Response.mk 200 body))
          (if_neg other)
      rw [KalshiClient.signedGet, sent]
      rfl
    have empty : values = [] := by
      rw [KalshiClient.cfHistoryValues, response] at answer
      split at answer
      · cases answer
      · cases answer
        rfl
    rw [empty, eq_comm.mp (List.filter_eq_nil_iff.mpr _)]
    intro value member inside
    rw [List.mem_singleton.mp member] at inside
    exact later (of_decide_eq_true inside).symm

theorem ingestLoop_covers_brti :
    let job := brtiRequest.job btc15m "5f0c" 0
    let existing := storedRows brtiEnv ingestTimespan job 0
    let result := ingestLoop brtiEnv ingestTimespan 3 (spawn job)
    (visits result.2.log = [0, 3600000] ∧
      Covers ingestTimespan.grid job.startMs.toInt job.endMs.toInt
        (visits result.2.log)) ∧
      (queued result.2.log).Perm
        (wantedRows ingestTimespan brtiContent job result.2.log
          job.endMs.toInt) ∧
      EveryPublished (Progress ingestTimespan existing brtiContent job)
        result.2.log := by
  have covered := ingestLoop_covers brtiEnv brtiRequest btc15m "5f0c" 0
    brtiContent 3 rfl
    (by
      intro n indexId startMs endMs sampleBy counts answered windowMs
      cases answered
      rw [Std.ExtTreeMap.getD_insert]
      split
      · decide
      · simp)
    (by
      intro n periodMs values raw aligned answer
      exact brtiClient_holds periodMs aligned answer)
  rcases covered.1 (by decide +kernel) with ⟨windows, rows⟩
  refine ⟨⟨?_, windows⟩, rows, covered.2.2⟩
  decide +kernel

end ChudMoney.Controllers.Coverage
