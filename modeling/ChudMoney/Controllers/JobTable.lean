import ChudMoney.Controllers.RunJob
import ChudMoney.Lib.Owners
import ChudMoney.Lib.Runs
import ChudMoney.Lib.Versions

/-!
# The table of backfill jobs

Requests add entries, and the task of each job writes its own: one version
after another, in any interleaving with the others.  What a task writes is
determined by what the world answers it.
-/

namespace ChudMoney.Controllers.JobTable

open ChudMoney.Controllers.ContractsLoop
open ChudMoney.Controllers.IngestJobs
open ChudMoney.Controllers.IngestLoop
open ChudMoney.Controllers.JobLog
open ChudMoney.Controllers.Periods
open ChudMoney.Controllers.RunJob
open ChudMoney.Controllers.Throttled
open ChudMoney.Db.Rows
open ChudMoney.Feeds.Shared
open ChudMoney.Kalshi.Client
open ChudMoney.Kalshi.Rest
open ChudMoney.Lib.Json
open ChudMoney.Lib.MachineInt
open ChudMoney.Lib.Owners
open ChudMoney.Lib.Programs
open ChudMoney.Lib.Programs.Program
open ChudMoney.Lib.Runs
open ChudMoney.Lib.Versions
open ChudMoney.Model

/-! ## The order of a job's versions -/

def publishedJob : Effect → Option IngestJob
  | .published job => some job
  | _ => none

/-- The versions of its job that a task wrote. -/
def publishes (log : List Effect) : List IngestJob :=
  log.filterMap publishedJob

/-- The same job, and as far or further. -/
structure Later (job other : IngestJob) : Prop where
  jobId : other.jobId = job.jobId
  tag : other.tag = job.tag
  kind : other.kind = job.kind
  endMs : other.endMs = job.endMs
  cursorMs : job.cursorMs.toInt ≤ other.cursorMs.toInt
  requests : job.requests ≤ other.requests
  skipped : job.skipped ≤ other.skipped
  retries : job.retries ≤ other.retries
  rows : job.rows ≤ other.rows
  marketsDone : job.marketsDone ≤ other.marketsDone

instance : IsPreorder IngestJob Later where
  refl _ := by
    constructor <;> rfl
  trans _ _ _ early late := by
    constructor
    · exact late.jobId.trans early.jobId
    · exact late.tag.trans early.tag
    · exact late.kind.trans early.kind
    · exact late.endMs.trans early.endMs
    · exact early.cursorMs.trans late.cursorMs
    · exact early.requests.trans late.requests
    · exact early.skipped.trans late.skipped
    · exact early.retries.trans late.retries
    · exact early.rows.trans late.rows
    · exact early.marketsDone.trans late.marketsDone

/-- A version of a job whose loop goes on. -/
def Within (job other : IngestJob) : Prop :=
  Later job other ∧ other.status = job.status

instance : IsPreorder IngestJob Within where
  refl job := ⟨refl_of Later job, rfl⟩
  trans _ _ _ early late :=
    ⟨trans_of Later early.1 late.1, late.2.trans early.2⟩

/-- What a call does: the cursor stays. -/
def Counting (job other : IngestJob) : Prop :=
  Within job other ∧ other.cursorMs = job.cursorMs

instance : IsPreorder IngestJob Counting where
  refl job := ⟨refl_of Within job, rfl⟩
  trans _ _ _ early late :=
    ⟨trans_of Within early.1 late.1, late.2.trans early.2⟩

/-- What the loop over markets does: the cursor stays in the range. -/
def Inside (job other : IngestJob) : Prop :=
  Within job other ∧ (job.cursorMs.toInt ≤ job.endMs.toInt →
    other.cursorMs.toInt ≤ other.endMs.toInt)

instance : IsPreorder IngestJob Inside where
  refl job := ⟨refl_of Within job, id⟩
  trans _ _ _ early late :=
    ⟨trans_of Within early.1 late.1, fun below => late.2 (early.2 below)⟩

theorem inside_of_counting {job other : IngestJob}
    (counting : Counting job other) : Inside job other := by
  refine ⟨counting.1, fun below => ?_⟩
  rw [counting.2, counting.1.1.endMs]
  exact below

/-- A task's copy of its job, and the versions that it wrote. -/
def jobs : Ledger Task IngestJob where
  current := Task.job
  written task := publishes task.log

/-! ## What the parts of a task write -/

section Parts

variable {follows : IngestJob → IngestJob → Prop}

theorem grows_modifyJob {f : IngestJob → IngestJob} {task : Task}
    (grows : follows task.job (f task.job)) :
    Grows jobs follows task (modifyJob f task).2 :=
  grows_of_follows rfl grows

theorem moves_modifyJob {f : IngestJob → IngestJob}
    (moves : ∀ job, follows job (f job)) :
    Moves (Grows jobs follows) (modifyJob f) :=
  fun task => grows_modifyJob (moves task.job)

variable [IsPreorder IngestJob follows] {env : Env}

theorem publishes_append (log more : List Effect) :
    publishes (log ++ more) = publishes log ++ publishes more :=
  List.filterMap_append

/-- What is not a version of the job leaves it as it is. -/
theorem grows_record (task : Task) {effect : Effect}
    (silent : publishedJob effect = none) (asked clock : Nat) :
    Grows jobs follows task
      { task.record effect with asked := asked, clock := clock } := by
  apply grows_of_follows
  · show publishes (task.log ++ [effect]) = publishes task.log
    rw [publishes_append]
    simp [publishes, silent]
  · exact refl_of follows task.job

theorem moves_publish : Moves (Grows jobs follows) publish := by
  intro task
  apply grows_of_written
  · exact publishes_append task.log [.published task.job]
  · rfl

theorem moves_sleep (delay : Nat) : Moves (Grows jobs follows) (sleep delay) :=
  fun task => grows_record task rfl task.asked (task.clock + delay)

/-- What neither writes nor changes the job. -/
theorem moves_still {α : Type} {program : TaskM α}
    (log : ∀ task, (program task).2.log = task.log)
    (job : ∀ task, (program task).2.job = task.job) :
    Moves (Grows jobs follows) program := by
  intro task
  apply grows_of_follows
  · exact congrArg publishes (log task)
  · show follows task.job (program task).2.job
    rw [job]
    exact refl_of follows task.job

theorem moves_pure {α : Type} (value : α) :
    Moves (Grows jobs follows) (pure value : TaskM α) :=
  moves_still (fun _ => rfl) (fun _ => rfl)

theorem moves_throw {α : Type} (e : Error) :
    Moves (Grows jobs follows) (throw e : TaskM α) :=
  moves_still (fun _ => rfl) (fun _ => rfl)

theorem moves_getJob : Moves (Grows jobs follows) getJob :=
  moves_still (fun _ => rfl) (fun _ => rfl)

theorem moves_ask {α : Type} (answer : Nat → α) :
    Moves (Grows jobs follows) (ask answer) :=
  moves_still (fun _ => rfl) (fun _ => rfl)

theorem throttledLoop_counting {α : Type} {call : Call}
    {method : KalshiClient → Except KalshiError α}
    (firstAttempt fuel backoff attempts : Nat) :
    Moves (Grows jobs Counting)
      (throttledLoop env call method firstAttempt fuel backoff attempts) := by
  induction fuel generalizing backoff attempts with
  | zero => exact moves_still (fun _ => rfl) (fun _ => rfl)
  | succ fuel ih =>
      have requested : Moves (Grows jobs Counting) (modifyJob fun job =>
          { job with requests := job.requests + 1, retryError := none }) :=
        moves_modifyJob fun job =>
          ⟨⟨{ refl_of Later job with requests := Nat.le_succ _ }, rfl⟩, rfl⟩
      apply moves_bind
      · exact fun task => grows_record task rfl _ _
      · intro outcome
        cases outcome with
        | ok value => exact moves_bind requested fun _ => moves_pure value
        | error e =>
            dsimp only
            split
            · apply moves_bind
              · exact moves_still (fun _ => rfl) (fun _ => rfl)
              · intro elapsed
                generalize (if e.isRateLimited = true then rateLimitBackoff
                  else backoff) = delay
                split
                · exact moves_bind moves_getJob fun _ => moves_throw _
                · apply moves_bind
                  · exact moves_modifyJob fun job =>
                      ⟨⟨{ refl_of Later job with
                        retries := Nat.le_succ _ }, rfl⟩, rfl⟩
                  · exact fun _ => moves_bind moves_publish fun _ =>
                      moves_bind (moves_sleep _) fun _ => ih _ _
            · exact moves_bind requested fun _ => moves_throw _

theorem throttled_counting {α : Type} {call : Call}
    {method : KalshiClient → Except KalshiError α} (fuel : Nat) :
    Moves (Grows jobs Counting) (throttled env call method fuel) :=
  moves_bind (moves_still (fun _ => rfl) (fun _ => rfl)) fun _ =>
    throttledLoop_counting _ _ _ _

theorem queueRow_counting (row : Row) :
    Moves (Grows jobs Counting) (queueRow env row) := by
  apply moves_bind (moves_ask _)
  intro isOpen
  split
  · apply moves_bind
    · exact fun task => grows_record task rfl _ _
    · exact fun _ => moves_modifyJob fun job =>
        ⟨⟨{ refl_of Later job with rows := Nat.le_succ _ }, rfl⟩, rfl⟩
  · exact moves_throw _

theorem queueRows_counting (rows : List Row) :
    Moves (Grows jobs Counting) (queueRows env rows) := by
  induction rows with
  | nil => exact moves_pure ()
  | cons row rows ih => exact moves_bind (queueRow_counting row) fun _ => ih

/-! ## What an index backfill writes -/

theorem existingRows_still (timespan : Timespan) :
    Moves (Grows jobs follows) (existingRows env timespan) := by
  intro task
  rcases existingRows_apply env timespan task with ⟨asked, stored⟩
  rw [stored]
  exact grows_of_follows rfl (refl_of follows _)

/-- The cursor steps forward. -/
theorem within_moved {job : IngestJob} {nextMs : Int64}
    (forward : job.cursorMs.toInt ≤ nextMs.toInt) :
    Within job { job with cursorMs := nextMs } :=
  ⟨{ refl_of Later job with cursorMs := forward }, rfl⟩

theorem storeWindow_within (task : Task) (values : List HistoryValue)
    {nextMs : Int64} (forward : task.job.cursorMs.toInt ≤ nextMs.toInt) :
    Grows jobs Within task (storeWindow env values nextMs task).2 := by
  apply grows_bind (moves_getJob task)
  rintro job _ ⟨⟩
  have sent := @queueRows_counting env
    (((values.filter (inRange task.job.startMs task.job.endMs)).map
      (indexRow task.job.indexId)).map .index) task
  apply grows_bind (sent.mono fun _ _ => And.left)
  intro _ after queued
  rw [queued] at sent
  have same : after.job.cursorMs = task.job.cursorMs := sent.last.2
  apply grows_bind
  · apply grows_modifyJob
    apply within_moved
    rw [same]
    exact forward
  · intro _ _ _
    exact moves_bind moves_publish (fun _ => moves_sleep _) _

theorem fetchWindow_within (task : Task) {nextMs : Int64}
    (forward : task.job.cursorMs.toInt ≤ nextMs.toInt) (callFuel : Nat)
    (loggedSample : Bool) :
    Grows jobs Within task
      (fetchWindow env nextMs callFuel loggedSample task).2 := by
  apply grows_bind (moves_getJob task)
  rintro job _ ⟨⟩
  have called := @throttled_counting env _
    (.cfHistoryValues task.job.indexId task.job.cursorMs
      task.job.timespan)
    (fun client =>
      client.cfHistoryValues task.job.indexId task.job.cursorMs
        task.job.timespan) callFuel task
  apply grows_bind (called.mono fun _ _ => And.left)
  rintro ⟨values, raw⟩ after answered
  rw [answered] at called
  have same : after.job.cursorMs = task.job.cursorMs := called.last.2
  apply grows_bind
  · rcases logSample_cases env loggedSample raw after with logged | logged
    · rw [logged]
      exact Grows.refl after
    · rw [logged]
      exact Grows.refl after
  · intro _ _ ok
    rcases logSample_cases env loggedSample raw after with logged | logged
    · rw [logged] at ok
      cases ok
      apply storeWindow_within
      rw [same]
      exact forward
    · rw [logged] at ok
      cases ok

theorem skipWindow_within (task : Task) {nextMs : Int64}
    (forward : task.job.cursorMs.toInt ≤ nextMs.toInt) (nowMs : Int64) :
    Grows jobs Within task (skipWindow nextMs nowMs task).2 := by
  apply grows_bind (moves_getJob task)
  rintro job _ ⟨⟩
  apply grows_bind (grows_record task rfl task.asked task.clock)
  rintro _ _ ⟨⟩
  apply grows_bind
  · exact grows_modifyJob
      ⟨{ refl_of Later task.job with
        skipped := Nat.le_succ _
        cursorMs := forward }, rfl⟩
  · exact fun _ after _ => moves_publish after

/-- The loop over windows writes its job in order. -/
theorem windows_within (existing : HashMap Int64 Int64) (callFuel fuel : Nat)
    (loggedSample : Bool) (task : Task)
    (end_ : task.job.endMs.toInt < 8210266876800000) :
    Grows jobs Within task
      (windows env ingestTimespan existing callFuel fuel loggedSample
        task).2 := by
  induction fuel generalizing task loggedSample with
  | zero => exact Grows.refl task
  | succ fuel ih =>
      rcases Int64.lt_or_le task.job.cursorMs task.job.endMs with
        before | done
      · have below := Int64.lt_iff_toInt_lt.mp before
        have forward : task.job.cursorMs.toInt ≤
            (ingestTimespan.next task.job.cursorMs).toInt := by
          have next : (ingestTimespan.next task.job.cursorMs).toInt =
              task.job.cursorMs.toInt + hourMs :=
            toInt_add_length (below.trans end_) (by decide) (by decide)
          rw [next]
          unfold hourMs
          omega
        have asked : Grows jobs Within task (told task) :=
          grows_of_follows rfl (refl_of Within task.job)
        apply asked.trans
        cases complete : indexWindowComplete
            (existing.getD task.job.cursorMs 0) task.job.cursorMs
            (ingestTimespan.next task.job.cursorMs) task.job.startMs
            task.job.endMs (timestampMillis (env.utcNow task.asked)) with
        | true =>
            rw [windows_skip env _ existing callFuel _ loggedSample before
              complete]
            have skipped := skipWindow_within (told task) forward
              (timestampMillis (env.utcNow task.asked))
            apply grows_bind skipped
            intro _ after moved
            rw [moved] at skipped
            have same : after.job.endMs = task.job.endMs :=
              skipped.last.1.endMs
            exact ih _ _ (same ▸ end_)
        | false =>
            rw [windows_fetch env _ existing callFuel _ loggedSample before
              complete]
            have fetched := @fetchWindow_within env (told task) _ forward
              callFuel loggedSample
            apply grows_bind fetched
            intro _ after moved
            rw [moved] at fetched
            have same : after.job.endMs = task.job.endMs :=
              fetched.last.1.endMs
            exact ih _ _ (same ▸ end_)
      · rw [windows_done env _ existing callFuel _ loggedSample done]
        exact Grows.refl task

theorem ingestLoop_within (fuel : Nat) (task : Task)
    (end_ : task.job.endMs.toInt < 8210266876800000) :
    Grows jobs Within task (ingestLoop env ingestTimespan fuel task).2 := by
  apply grows_bind (existingRows_still _ task)
  intro existing after stored
  apply windows_within
  rcases existingRows_apply env ingestTimespan task with ⟨asked, same⟩
  rw [same] at stored
  cases stored
  exact end_

/-! ## What a contracts backfill writes -/

/-- Calls and pauses leave the cursor alone. -/
theorem calls_counting :
    Calls env (fun _ => True) (Grows jobs Counting) where
  refl := Grows.refl
  trans := Grows.trans
  called _ fuel _ := throttled_counting fuel
  slept := moves_sleep

/-- The cursor follows the closes reached, and stays in the range. -/
theorem inside_marketDone (market : SeriesMarket) (skipped : Nat)
    (job : IngestJob) :
    Inside job
      { marketDone market job with skipped := job.skipped + skipped } := by
  have cursor : (max job.cursorMs (toMs job market)).toInt =
      max job.cursorMs.toInt (min market.closeMs.toInt job.endMs.toInt) := by
    rw [toInt_max, toMs, toInt_min]
  have forward : job.cursorMs.toInt ≤
      (max job.cursorMs (toMs job market)).toInt := by
    rw [cursor]
    exact le_max_left _ _
  refine ⟨⟨{ refl_of Later job with
    cursorMs := forward
    skipped := Nat.le_add_right _ _
    marketsDone := Nat.le_succ _ }, rfl⟩, ?_⟩
  intro below
  show (max job.cursorMs (toMs job market)).toInt ≤ job.endMs.toInt
  rw [cursor]
  exact max_le below (min_le_right _ _)

theorem turn_inside (existing : HashMap String Int64) (callFuel : Nat)
    (market : SeriesMarket) :
    Moves (Grows jobs Inside) (turn env existing callFuel market) := by
  apply moves_bind moves_getJob
  intro job
  apply moves_bind (moves_ask _)
  intro nowMs
  split
  · apply moves_bind
    · exact fun task => grows_record task rfl task.asked task.clock
    · intro _
      apply moves_bind (moves_modifyJob (inside_marketDone market 1))
      exact fun _ => moves_publish
  · apply moves_bind moves_getJob
    intro same
    apply moves_bind
    · exact fun task => (calls_counting.fetchCandles same market
        (fun _ => trivial) callFuel task).mono fun _ _ => inside_of_counting
    · intro candles
      apply moves_bind
      · exact fun task => (queueRows_counting _ task).mono
          fun _ _ => inside_of_counting
      · intro _
        apply moves_bind (moves_modifyJob (inside_marketDone market 0))
        exact fun _ => moves_bind moves_publish fun _ => moves_sleep _

theorem turns_inside (existing : HashMap String Int64) (callFuel : Nat)
    (markets : List SeriesMarket) :
    Moves (Grows jobs Inside) (turns env existing callFuel markets) := by
  induction markets with
  | nil => exact moves_pure ()
  | cons market markets ih =>
      exact moves_bind (turn_inside existing callFuel market) fun _ => ih

theorem existingCandles_still :
    Moves (Grows jobs follows) (existingCandles env) := by
  intro task
  rcases existingCandles_apply env task with ⟨asked, stored⟩
  rw [stored]
  exact grows_of_follows rfl (refl_of follows _)

theorem eachMarket_inside (fuel : Nat) :
    Moves (Grows jobs Inside) (eachMarket env fuel) := by
  apply moves_bind
  · exact fun task => (calls_counting.marketsInRange trivial
      (fun _ _ _ _ => trivial) fuel task).mono fun _ _ => inside_of_counting
  · intro markets
    apply moves_bind (moves_modifyJob _)
    · intro _
      apply moves_bind moves_publish
      intro _
      exact moves_bind existingCandles_still fun existing =>
        turns_inside existing fuel markets
    · exact fun job => ⟨⟨{ refl_of Later job with }, rfl⟩, id⟩

theorem contractsLoop_within (fuel : Nat) (task : Task)
    (start : task.job.cursorMs.toInt ≤ task.job.endMs.toInt) :
    Grows jobs Within task (contractsLoop env fuel task).2 := by
  have each := @eachMarket_inside env fuel task
  rw [contractsLoop_eq]
  apply grows_bind (each.mono fun _ _ => And.left)
  intro _ after ran
  rw [ran] at each
  exact grows_modifyJob (within_moved (each.last.2 start))

/-! ## What a whole task writes -/

/-- A version that a running job is replaced by. -/
def Follows (job other : IngestJob) : Prop :=
  job.status = .running ∧ Later job other

theorem later_settled (outcome : Except Error Unit) (now : Int)
    (job : IngestJob) : Later job (settled outcome now job) := by
  cases outcome with
  | ok _ => exact { refl_of Later job with }
  | error e => exact { refl_of Later job with }

/-- What a task wrote when its loop stopped, and when its job was closed. -/
theorem publishes_runJob (timespan : Timespan) (fuel : Nat) (task : Task) :
    let stopped := (loop env timespan fuel task.job.kind task).2
    wp (runJob env timespan fuel)
      (fun _ ended => publishes ended.log = publishes stopped.log ∨
        ∃ last, publishes ended.log = publishes stopped.log ++ [last] ∧
          Later stopped.job last) task := by
  have closed : ∀ outcome after,
      publishes (close env outcome after).2.log = publishes after.log ++
          [settled outcome (env.utcNow after.asked).val after.job] :=
    fun outcome after => publishes_append after.log [.published _]
  unfold runJob
  rw [wp_bind, wp_getJob, continues_ok, wp_bind, wp_attempt]
  unfold wp
  rcases loop env timespan fuel task.job.kind task with ⟨out, after⟩
  cases out with
  | ok value => exact Or.inr ⟨_, closed (.ok value) after, later_settled _ _ _⟩
  | error e => exact Or.inr ⟨_, closed (.error e) after, later_settled _ _ _⟩
  | panic => exact Or.inl rfl
  | pending => exact Or.inl rfl

theorem loop_within (fuel : Nat) (task : Task)
    (start : task.job.kind = .contracts →
      task.job.cursorMs.toInt ≤ task.job.endMs.toInt)
    (end_ : task.job.endMs.toInt < 8210266876800000) :
    Grows jobs Within task
      (loop env ingestTimespan fuel task.job.kind task).2 := by
  cases kind : task.job.kind with
  | index => exact ingestLoop_within fuel task end_
  | contracts => exact contractsLoop_within fuel task (start kind)

/-- The versions of a job, from the one that its request added. -/
theorem runJob_ordered (fuel : Nat) (job : IngestJob)
    (running : job.status = .running)
    (start : job.kind = .contracts → job.cursorMs.toInt ≤ job.endMs.toInt)
    (end_ : job.endMs.toInt < 8210266876800000) :
    (job :: publishes (runJob env ingestTimespan fuel (spawn job)).2.log
      ).Pairwise Follows := by
  rcases @loop_within env fuel (spawn job) start end_ with
    ⟨more, written, ordered⟩
  change publishes _ = [] ++ more at written
  rw [List.nil_append] at written
  rw [← List.cons_append, List.pairwise_append] at ordered
  rcases ordered with ⟨before, -, last⟩
  have status : ∀ version ∈ job :: more, version.status = .running := by
    intro version member
    rcases List.mem_cons.mp member with rfl | later
    · exact running
    · exact ((List.pairwise_cons.mp before).1 version later).2.trans running
  have inOrder : (job :: more).Pairwise Follows := by
    rw [List.pairwise_iff_forall_sublist] at before ⊢
    intro old new both
    exact ⟨status old (both.subset (by simp)), (before both).1⟩
  rcases @publishes_runJob env ingestTimespan fuel (spawn job) with
    same | ⟨final, more', later⟩
  · rw [same, written]
    exact inOrder
  · rw [more', written, ← List.cons_append, List.pairwise_append]
    refine ⟨inOrder, List.pairwise_singleton _ _, ?_⟩
    intro version member final' isFinal
    cases List.mem_singleton.mp isFinal
    exact ⟨status version member,
      trans_of Later (last version member _ (List.mem_singleton_self _)).1
        later⟩

end Parts

/-! ## Requests and tasks, interleaved -/

/-- The table, and what the task of each job has still to write. -/
structure World where
  jobs : Jobs
  left : String → List IngestJob

def World.init : World where
  jobs := ∅
  left _ := []

inductive Label where
  /-- A request, and what the world answers the task that it spawns. -/
  | post (find : Find) (jobId : String) (now : Int)
      (req : IngestRequest) (env : Env) (fuel : Nat)
  /-- The task of a job writes its next version. -/
  | write (jobId : String)

/-- A step of a request or of a task; job ids are not used twice. -/
def step (world : World) : Label → Option World
  | .post find jobId now req env fuel =>
      if world.jobs[jobId]?.isSome then none
      else
        match start find world.jobs jobId now req with
        | .ok (job, jobs) =>
            some
              { jobs := jobs
                left := Function.update world.left job.jobId
                  (publishes
                    (runJob env ingestTimespan fuel (spawn job)).2.log) }
        | .error _ => some world
  | .write jobId =>
      match world.left jobId with
      | [] => none
      | job :: rest =>
          some
            { jobs := world.jobs.insert job.jobId job
              left := Function.update world.left jobId rest }

/-- The table that readers see, and its owners. -/
def World.table (world : World) : Table String IngestJob where
  cells jobId := world.jobs[jobId]?
  left := world.left

/-- What makes the table sound. -/
def rules : Rules String IngestJob (String × IngestKind) where
  key := IngestJob.jobId
  group job := (job.tag, job.kind)
  active job := job.status = .running
  next := Follows
  key_next follows := follows.2.jobId
  group_next follows := Prod.ext follows.2.tag follows.2.kind
  active_next follows := follows.1
  trans early late := ⟨early.1, trans_of Later early.2 late.2⟩

/-- A request that is accepted meets no running job of its tag and kind. -/
theorem start_ok {find : Find} {table table' : Jobs}
    {jobId : String} {now : Int} {req : IngestRequest} {job : IngestJob}
    (accepted : start find table jobId now req = .ok (job, table')) :
    req.start.val < req.end.val ∧
      (∃ market, find req.tag = .ok (some market) ∧
        job = req.job market jobId now) ∧
      (∀ (key : String) other, table[key]? = some other → ¬ Clash job other) ∧
      table' = table.insert job.jobId job := by
  by_cases improper : req.end.val ≤ req.start.val
  · simp [start, improper, bind, Except.bind] at accepted
  · cases found : findMarket find req.tag with
    | error e =>
        simp [start, improper, found, bind, Except.bind] at accepted
    | ok market =>
        cases clash : (table.toList.map Prod.snd).find? fun other =>
            decide (Clash (req.job market jobId now) other) with
        | some running =>
            simp only [start, improper, found, clash, if_false, bind,
              Except.bind] at accepted
            cases accepted
        | none =>
            simp only [start, improper, found, clash, if_false, bind,
              Except.bind] at accepted
            cases accepted
            refine ⟨not_le.mp improper,
              ⟨market, find_of_findMarket found, rfl⟩, ?_, rfl⟩
            intro key other entry same
            have member : other ∈ table.toList.map Prod.snd :=
              List.mem_map.mpr ⟨(key, other),
                Std.ExtTreeMap.mem_toList_iff_getElem?_eq_some.mpr entry, rfl⟩
            exact List.find?_eq_none.mp clash other member (decide_eq_true same)

theorem table_insert (world : World) (job : IngestJob)
    (left : String → List IngestJob) :
    World.table ⟨world.jobs.insert job.jobId job, left⟩ =
      ⟨Function.update world.table.cells job.jobId (some job), left⟩ := by
  unfold World.table
  congr
  funext jobId
  rw [Std.ExtTreeMap.getElem?_insert, Function.update_apply]
  simp only [compare_eq_iff_eq, @eq_comm _ jobId]

/-- The job that a request adds, and what its task is going to write. -/
theorem admits_of_start {world : World} {find : Find}
    {table' : Jobs} {jobId : String} {now : Int} {req : IngestRequest}
    {job : IngestJob} (env : Env) (fuel : Nat)
    (fresh : world.jobs[jobId]? = none)
    (accepted : start find world.jobs jobId now req = .ok (job, table')) :
    Admits rules world.table job
      (publishes (runJob env ingestTimespan fuel (spawn job)).2.log) := by
  rcases start_ok accepted with ⟨ordered, ⟨market, -, rfl⟩, clear, -⟩
  constructor
  · exact fresh
  · rintro key other entry active same
    exact clear key other entry
      ⟨congrArg Prod.fst same, congrArg Prod.snd same, active⟩
  · apply runJob_ordered fuel _ rfl
    · intro contracts
      have cursor : (req.job market jobId now).cursorMs =
          timestampMillis req.start := by
        have isContracts : req.kind = .contracts := contracts
        simp only [IngestRequest.job, isContracts]
      rw [cursor, toInt_timestampMillis req.start.property]
      show _ ≤ (timestampMillis req.end).toInt
      rw [toInt_timestampMillis req.end.property]
      omega
    · have inChrono := inChrono_timestampMillis req.end
      show (timestampMillis req.end).toInt < _
      omega

/-- Every step is one of a table whose entries have one owner each. -/
theorem step_table {world next : World} {label : Label}
    (stepped : step world label = some next) :
    Lib.Owners.Step rules world.table next.table := by
  cases label with
  | post find jobId now req env fuel =>
      rw [step] at stepped
      split at stepped
      · cases stepped
      · rename_i used
        have fresh : world.jobs[jobId]? = none := by
          rwa [Option.not_isSome_iff_eq_none] at used
        split at stepped
        · rename_i job table' accepted
          cases stepped
          have admits := admits_of_start env fuel fresh accepted
          rcases start_ok accepted with ⟨-, -, -, rfl⟩
          rw [table_insert]
          exact .add job _ admits
        · cases stepped
          exact .stay
  | write jobId =>
      rw [step] at stepped
      split at stepped
      · cases stepped
      · rename_i job rest pending
        cases stepped
        rw [table_insert]
        exact .write jobId job rest pending

theorem sound_init : Sound rules World.init.table := by
  have empty : ∀ jobId, World.init.table.cells jobId = none :=
    fun jobId => Std.ExtTreeMap.getElem?_empty
  constructor
  · intro key value entry
    rw [empty] at entry
    cases entry
  · exact fun _ => rfl
  · intro key value entry
    rw [empty] at entry
    cases entry
  · intro key other value second entry
    rw [empty] at entry
    cases entry

/-- In a sound table entries only go forward, over any run. -/
theorem run_evolves {world later : World} {labels : List Label}
    (sound : Sound rules world.table)
    (reached : run step world labels = some later) :
    Sound rules later.table ∧
      ∀ (jobId : String) job, world.jobs[jobId]? = some job →
        ∃ new, later.jobs[jobId]? = some new ∧ rules.Evolves job new := by
  apply invariant_of_guarded (fun next => Sound rules next.table ∧
      ∀ (jobId : String) job, world.jobs[jobId]? = some job →
        ∃ new, next.jobs[jobId]? = some new ∧ rules.Evolves job new)
    _ ⟨sound, fun _ job entry => ⟨job, entry, Or.inl rfl⟩⟩
    (@guarded_of_forall _ _ _ (fun _ _ => True) (fun _ _ => trivial) _ _)
    reached
  rintro middle label next ⟨sound, evolves⟩ - stepped
  have moved := step_table stepped
  refine ⟨sound.step moved, ?_⟩
  intro jobId job entry
  rcases evolves jobId job entry with ⟨version, there, early⟩
  rcases sound.evolves moved there with ⟨new, found, late⟩
  exact ⟨new, found, early.trans late⟩

/-- No two running jobs are of one tag and kind. -/
def World.Exclusive (world : World) : Prop :=
  ∀ (first second : String) job other, world.jobs[first]? = some job →
    world.jobs[second]? = some other → job.status = .running →
    other.status = .running → job.tag = other.tag → job.kind = other.kind →
    first = second

/-- Every entry is still there, as far or further, and frozen once ended. -/
def World.Before (world later : World) : Prop :=
  ∀ (jobId : String) job, world.jobs[jobId]? = some job →
    ∃ new, later.jobs[jobId]? = some new ∧ Later job new ∧
      (job.status ≠ .running → new = job)

/-- A request that meets a running job of its tag and kind changes nothing. -/
def World.Refuses (world : World) : Prop :=
  ∀ find (jobId : String) now (req : IngestRequest) env fuel market
    (key : String) running, find req.tag = .ok (some market) →
    world.jobs[key]? = some running → running.tag = market.tag →
    running.kind = req.kind → running.status = .running →
    (∃ e, start find world.jobs jobId now req = .error e) ∧
      (world.jobs[jobId]? = none →
        step world (.post find jobId now req env fuel) = some world)

theorem refuses (world : World) : world.Refuses := by
  intro find jobId now req env fuel market key running found entry tag kind
    status
  have refused : ∃ e, start find world.jobs jobId now req = .error e := by
    cases answer : start find world.jobs jobId now req with
    | error e => exact ⟨e, rfl⟩
    | ok accepted =>
        rcases accepted with ⟨job, table'⟩
        rcases start_ok answer with ⟨-, ⟨other, found', isJob⟩, clear, -⟩
        cases found.symm.trans found'
        refine absurd ⟨?_, ?_, status⟩ (clear key running entry)
        · rw [isJob]
          exact tag
        · rw [isJob]
          exact kind
  refine ⟨refused, ?_⟩
  intro fresh
  rcases refused with ⟨e, answer⟩
  rw [step, fresh, answer]
  rfl

/--
Whatever the interleaving of requests and tasks, at every point at most one
job of a tag and kind is running, a request that meets one is refused, and up
to every later point entries only go forward, and stay once they ended.
-/
theorem jobs_sound {labels : List Label} {world : World}
    (reached : run step World.init labels = some world) :
    world.Exclusive ∧ world.Refuses ∧
      ∀ more later, run step world more = some later → world.Before later := by
  rcases run_evolves sound_init reached with ⟨sound, -⟩
  refine ⟨?_, refuses world, ?_⟩
  · intro first second job other entry there running alsoRunning tag kind
    exact sound.exclusive entry there running alsoRunning (Prod.ext tag kind)
  · intro more later onward jobId job entry
    rcases (run_evolves sound onward).2 jobId job entry with
      ⟨new, found, evolves⟩
    refine ⟨new, found, ?_, evolves.frozen⟩
    rcases evolves with rfl | follows
    · exact refl_of Later _
    · exact follows.2

/-- A request for the first hour, which turns out to be empty. -/
def postHour (jobId : String) : Label :=
  .post (fun _ => .ok (some btc15m)) jobId 0 hourRequest
    (payloadEnv (.array []) fun _ => "0.5") 2

/-- The second request is refused; the third comes when the job has ended. -/
def hourLabels : List Label :=
  [postHour "5f0c", postHour "77aa", .write "5f0c", .write "5f0c",
    postHour "77aa"]

theorem jobs_sound_hour :
    ∃ world, run step World.init hourLabels = some world ∧
      (world.jobs["5f0c"]?).map IngestJob.status = some .done ∧
      (world.jobs["77aa"]?).map IngestJob.status = some .running ∧
      world.Exclusive ∧ world.Refuses ∧
      ∀ more later, run step world more = some later →
        world.Before later := by
  have statuses : (run step World.init hourLabels).map (fun world =>
      ((world.jobs["5f0c"]?).map IngestJob.status,
        (world.jobs["77aa"]?).map IngestJob.status)) =
      some (some .done, some .running) := by
    decide +kernel
  rcases Option.map_eq_some_iff.mp statuses with ⟨world, reached, both⟩
  exact ⟨world, reached, congrArg Prod.fst both, congrArg Prod.snd both,
    jobs_sound reached⟩

end ChudMoney.Controllers.JobTable
