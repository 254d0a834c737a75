import ChudMoney.Controllers.IngestJobs
import ChudMoney.Kalshi.Rest
import ChudMoney.Lib.Programs

/-!
# One upstream call of a backfill job

`throttled` repeats a call that fails for a while, and waits longer and longer
in between.  What the world answers is indexed by how often the task has asked
it anything; time is kept in nanoseconds, and passes in calls and sleeps.
-/

namespace ChudMoney.Controllers.Throttled

open ChudMoney.Controllers.IngestJobs
open ChudMoney.Db.Rows
open ChudMoney.Feeds.Shared
open ChudMoney.Kalshi.Client
open ChudMoney.Kalshi.Rest
open ChudMoney.Lib.MachineInt
open ChudMoney.Lib.Programs
open ChudMoney.Lib.Programs.Program
open ChudMoney.Lib.Text

def second : Nat := 1000000000

/-- Backoff after a rate-limited call. -/
def rateLimitBackoff : Nat := 5 * second

/-- Backoff after a network failure or upstream 5xx, doubling up to the max. -/
def retryBackoffMin : Nat := 1 * second

def retryBackoffMax : Nat := 30 * second

/-- How long one upstream call may keep failing before the job gives up. -/
def retryWindow : Nat := 5 * 60 * second

/-! ## Tasks -/

/-- What the world answers a task. -/
structure Env where
  client : Nat → KalshiClient
  /-- Nanoseconds that a call takes. -/
  took : Nat → Nat
  utcNow : Nat → DateTime
  /-- Whether the ILP writer still takes rows. -/
  isOpen : Nat → Bool
  indexCounts : Nat → String → Int64 → Int64 → String →
    Except String (HashMap Int64 Int64)
  candleCounts : Nat → String → Int64 → Int64 →
    Except String (HashMap String Int64)
  writeF64 : F64 → String

/-- A call of one of the client's methods. -/
inductive Call where
  | historicalCutoff
  | seriesMarketsPage (series : String) (tier : Tier) (minCloseMs : Int64)
      (cursor : Option String)
  | marketCandlesticks (series ticker : String) (tier : Tier)
      (startMs endMs : Int64)
  | cfHistoryValues (indexId : String) (timestampMs : Int64)
      (timespan : String)
  deriving DecidableEq

/-- What a task did that is seen outside, and which parts it skipped. -/
inductive Effect where
  /-- A call, its number among the attempts, and when it started. -/
  | called (call : Call) (attempt : Nat) (clock : Nat)
  | slept (delay : Nat)
  | published (job : IngestJob)
  | queued (row : Row)
  | skippedWindow (windowMs nowMs : Int64)
  | skippedMarket (market : SeriesMarket) (nowMs : Int64)
  deriving DecidableEq

/-- A task: its own copy of its job, and what it did so far. -/
structure Task where
  job : IngestJob
  log : List Effect
  /-- How often the world was asked. -/
  asked : Nat
  clock : Nat

/-- The task that is spawned for a job. -/
def spawn (job : IngestJob) : Task where
  job := job
  log := []
  asked := 0
  clock := 0

/-- `anyhow::Error`, of an upstream error or of a message. -/
inductive Error where
  | kalshi (e : KalshiError)
  | context (context : String) (e : KalshiError)
  | message (text : String)
  deriving DecidableEq

namespace Error

/-- `downcast_ref::<KalshiError>()`. -/
def downcast : Error → Option KalshiError
  | kalshi e => some e
  | context _ e => some e
  | message _ => none

/-- `{:#}`: the error and what is behind it. -/
def alternate : Error → String
  | kalshi e => ": ".intercalate (e.toString :: e.sources)
  | context text e => ": ".intercalate (text :: e.toString :: e.sources)
  | message text => text

end Error

abbrev TaskM : Type → Type :=
  Program Task Error

def Task.record (task : Task) (effect : Effect) : Task :=
  { task with log := task.log ++ [effect] }

def emit (effect : Effect) : TaskM Unit :=
  modify fun task => task.record effect

def getJob : TaskM IngestJob :=
  read Task.job

def modifyJob (f : IngestJob → IngestJob) : TaskM Unit :=
  modify fun task => { task with job := f task.job }

/-- The table entry of the task's job becomes the task's copy. -/
def publish : TaskM Unit :=
  modify fun task => task.record (.published task.job)

def sleep (delay : Nat) : TaskM Unit :=
  modify fun task =>
    { task.record (.slept delay) with clock := task.clock + delay }

/-- What the world says to the next question. -/
def ask {α : Type} (answer : Nat → α) : TaskM α :=
  fun task =>
    (.ok (answer task.asked), { task with asked := task.asked + 1 })

/-- One attempt at a call. -/
def attemptCall {α : Type} (env : Env) (call : Call) (attempt : Nat)
    (method : KalshiClient → Except KalshiError α) :
    TaskM (Except KalshiError α) :=
  fun task =>
    let task' := task.record (.called call attempt task.clock)
    (.ok (method (env.client task.asked)),
      { task' with
        asked := task.asked + 1
        clock := task.clock + env.took task.asked })

@[simp]
theorem getJob_apply (task : Task) : getJob task = (.ok task.job, task) :=
  rfl

@[simp]
theorem wp_getJob {post : Outcome Error IngestJob → Task → Prop}
    {task : Task} : wp getJob post task ↔ post (.ok task.job) task :=
  Iff.rfl

@[simp]
theorem wp_ask {α : Type} (answer : Nat → α)
    {post : Outcome Error α → Task → Prop} {task : Task} :
    wp (ask answer) post task ↔
      post (.ok (answer task.asked)) { task with asked := task.asked + 1 } :=
  Iff.rfl

@[simp]
theorem wp_modifyJob (f : IngestJob → IngestJob)
    {post : Outcome Error Unit → Task → Prop} {task : Task} :
    wp (modifyJob f) post task ↔
      post (.ok ()) { task with job := f task.job } :=
  Iff.rfl

@[simp]
theorem wp_publish {post : Outcome Error Unit → Task → Prop} {task : Task} :
    wp publish post task ↔
      post (.ok ()) (task.record (.published task.job)) :=
  Iff.rfl

@[simp]
theorem emit_apply (effect : Effect) (task : Task) :
    emit effect task = (.ok (), task.record effect) :=
  rfl

@[simp]
theorem modifyJob_apply (f : IngestJob → IngestJob) (task : Task) :
    modifyJob f task = (.ok (), { task with job := f task.job }) :=
  rfl

@[simp]
theorem publish_apply (task : Task) :
    publish task = (.ok (), task.record (.published task.job)) :=
  rfl

@[simp]
theorem sleep_apply (delay : Nat) (task : Task) :
    sleep delay task =
      (.ok (),
        { task.record (.slept delay) with clock := task.clock + delay }) :=
  rfl

@[simp]
theorem ask_apply {α : Type} (answer : Nat → α) (task : Task) :
    ask answer task =
      (.ok (answer task.asked), { task with asked := task.asked + 1 }) :=
  rfl

section Retry

variable {α : Type} (env : Env) (call : Call)
variable (method : KalshiClient → Except KalshiError α)

/-- What the error of a call that gave up says. -/
def gaveUp (attempts elapsed : Nat) (cursorMs : Int64) : String :=
  "gave up after " ++ toString attempts ++ " attempts over " ++
    toString (elapsed / second) ++ "s at cursor " ++ toString cursorMs.toInt

/-- The loop of `throttled`, with fuel for its attempts. -/
def throttledLoop (firstAttempt : Nat) : Nat → Nat → Nat → TaskM α
  | 0, _, _ => pending
  | fuel + 1, backoff, attempts => do
      match ← attemptCall env call attempts method with
      | .ok value =>
          modifyJob fun job =>
            { job with requests := job.requests + 1, retryError := none }
          return value
      | .error error =>
          if error.isTransient then
            let attempts := attempts + 1
            let delay :=
              if error.isRateLimited then rateLimitBackoff else backoff
            let elapsed ← read fun task => task.clock - firstAttempt
            if retryWindow < elapsed + delay then
              let job ← getJob
              throw (.context (gaveUp attempts elapsed job.cursorMs) error)
            else
              modifyJob fun job =>
                { job with
                  retries := job.retries + 1
                  retryError := some error.toString }
              publish
              sleep delay
              throttledLoop firstAttempt fuel
                (min (backoff * 2) retryBackoffMax) attempts
          else
            modifyJob fun job =>
              { job with requests := job.requests + 1, retryError := none }
            throw (.kalshi error)

/-- Run one upstream call for the job and count it once it gets through. -/
def throttled (fuel : Nat) : TaskM α := do
  let firstAttempt ← read Task.clock
  throttledLoop env call method firstAttempt fuel retryBackoffMin 0

end Retry

/-! ## The attempts of one call -/

/-- The outcomes of a call's attempts, and how long each takes. -/
structure Attempts (α : Type) where
  outcome : Nat → Except KalshiError α
  took : Nat → Nat

namespace Attempts

variable {α : Type} (attempts : Attempts α)

/-- The transient error of an attempt, if it failed with one. -/
def failure (k : Nat) : Option KalshiError :=
  match attempts.outcome k with
  | .error e => if e.isTransient then some e else none
  | .ok _ => none

/-- The delay before an attempt is repeated. -/
def delay (k : Nat) : Nat :=
  if (attempts.failure k).any KalshiError.isRateLimited then 5 * second
  else min (2 ^ k) 30 * second

/-- How long after the first attempt another one starts. -/
def startsAt : Nat → Nat
  | 0 => 0
  | k + 1 => startsAt k + attempts.took k + attempts.delay k

/-- The job when an attempt has been repeated so often. -/
def retried (job : IngestJob) : Nat → IngestJob
  | 0 => job
  | k + 1 =>
      { job with
        retries := job.retries + (k + 1)
        retryError := (attempts.failure k).map KalshiError.toString }

/-- What a task does while it repeats a call. -/
def retryLog (call : Call) (task : Task) : Nat → List Effect
  | 0 => []
  | k + 1 =>
      retryLog call task k ++
        [.called call k (task.clock + attempts.startsAt k),
          .published (attempts.retried task.job (k + 1)),
          .slept (attempts.delay k)]

/-- The task just before an attempt. -/
def before (call : Call) (task : Task) (k : Nat) : Task where
  job := attempts.retried task.job k
  log := task.log ++ attempts.retryLog call task k
  asked := task.asked + k
  clock := task.clock + attempts.startsAt k

/-- The task just after an attempt, before anything is made of it. -/
def after (call : Call) (task : Task) (k : Nat) : Task where
  job := attempts.retried task.job k
  log := task.log ++ attempts.retryLog call task k ++
    [.called call k (task.clock + attempts.startsAt k)]
  asked := task.asked + k + 1
  clock := task.clock + attempts.startsAt k + attempts.took k

/-- The job when its call got through after so many repetitions. -/
def counted (job : IngestJob) (k : Nat) : IngestJob :=
  { job with
    requests := job.requests + 1
    retries := job.retries + k
    retryError := none }

end Attempts

/-- The attempts that a task makes at a call. -/
def attemptsOf {α : Type} (env : Env)
    (method : KalshiClient → Except KalshiError α) (task : Task) :
    Attempts α where
  outcome k := method (env.client (task.asked + k))
  took k := env.took (task.asked + k)

/-- Every attempt before this one failed, with time for the next. -/
def Repeated {α : Type} (attempts : Attempts α) (n : Nat) : Prop :=
  ∀ k < n, (attempts.failure k).isSome ∧
    attempts.startsAt (k + 1) ≤ retryWindow

/--
How a call ends at its attempt `n`: it got through or failed for good, or the
next attempt would start too late.
-/
inductive Settled {α : Type} (attempts : Attempts α) (call : Call)
    (task : Task) (n : Nat) : Outcome Error α × Task → Prop where
  | through (value : α) :
      attempts.outcome n = .ok value →
      Settled attempts call task n
        (.ok value,
          { attempts.after call task n with
            job := Attempts.counted task.job n })
  | failed (e : KalshiError) :
      attempts.outcome n = .error e → e.isTransient = false →
      Settled attempts call task n
        (.error (.kalshi e),
          { attempts.after call task n with
            job := Attempts.counted task.job n })
  | gaveUp (e : KalshiError) (text : String) :
      attempts.failure n = some e →
      retryWindow < attempts.startsAt (n + 1) →
      Settled attempts call task n
        (.error (.context text e), attempts.after call task n)

section Attempt

variable {α : Type} {env : Env} {call : Call}
variable {method : KalshiClient → Except KalshiError α} {task : Task}

/-- The backoff before an attempt is repeated. -/
def backoffAt (k : Nat) : Nat :=
  min (2 ^ k) 30 * second

theorem backoffAt_succ (k : Nat) :
    backoffAt (k + 1) = min (backoffAt k * 2) retryBackoffMax := by
  unfold backoffAt retryBackoffMax second
  rw [Nat.pow_succ]
  omega

theorem failure_eq_some {attempts : Attempts α} {k : Nat}
    {e : KalshiError} :
    attempts.failure k = some e ↔
      attempts.outcome k = .error e ∧ e.isTransient = true := by
  cases outcome : attempts.outcome k with
  | ok value => simp [Attempts.failure, outcome]
  | error reason =>
      simp only [Attempts.failure, outcome, Option.ite_none_right_eq_some,
        Option.some.injEq, Except.error.injEq]
      constructor
      · rintro ⟨transient, rfl⟩
        exact ⟨rfl, transient⟩
      · rintro ⟨rfl, transient⟩
        exact ⟨transient, rfl⟩

/-- An attempt that fails for a while. -/
theorem throttledLoop_transient (firstAttempt fuel backoff k : Nat)
    {state : Task} {e : KalshiError}
    (outcome : method (env.client state.asked) = .error e)
    (transient : e.isTransient = true) :
    throttledLoop env call method firstAttempt (fuel + 1) backoff k state =
      let called :=
        { state.record (.called call k state.clock) with
          asked := state.asked + 1
          clock := state.clock + env.took state.asked }
      let delay := if e.isRateLimited then rateLimitBackoff else backoff
      if retryWindow < called.clock - firstAttempt + delay then
        (.error (.context
          (gaveUp (k + 1) (called.clock - firstAttempt) state.job.cursorMs) e),
          called)
      else
        let counted :=
          { called with
            job :=
              { state.job with
                retries := state.job.retries + 1
                retryError := some e.toString } }
        throttledLoop env call method firstAttempt fuel
          (min (backoff * 2) retryBackoffMax) (k + 1)
          { (counted.record (.published counted.job)).record (.slept delay) with
            clock := called.clock + delay } := by
  simp only [throttledLoop, bind_apply, attemptCall, outcome, andThen_ok,
    transient, if_true, read_apply]
  generalize (if e.isRateLimited = true then rateLimitBackoff else backoff) =
    delay
  split
  · simp only [getJob, bind_apply, read_apply, andThen_ok, throw_apply,
      Task.record]
  · simp only [modifyJob, publish, sleep, bind_apply, modify_apply, andThen_ok,
      Task.record]

/-- Counting a call that got through clears what its attempts left. -/
theorem Attempts.counted_retried (attempts : Attempts α) (job : IngestJob)
    (k : Nat) :
    { attempts.retried job k with
      requests := (attempts.retried job k).requests + 1
      retryError := none } = Attempts.counted job k := by
  cases k <;> rfl

/-- What a transient failure makes of the job is what the next attempt finds. -/
theorem Attempts.retried_succ {attempts : Attempts α} {k : Nat}
    {e : KalshiError} (failure : attempts.failure k = some e)
    (job : IngestJob) :
    { attempts.retried job k with
      retries := (attempts.retried job k).retries + 1
      retryError := some e.toString } = attempts.retried job (k + 1) := by
  rw [Attempts.retried, failure]
  cases k <;> rfl

/-- The task that sleeps after an attempt is the one before the next. -/
theorem Attempts.before_succ {attempts : Attempts α} {k : Nat}
    {e : KalshiError} (failure : attempts.failure k = some e) :
    let called := attempts.after call task k
    let counted :=
      { called with
        job :=
          { called.job with
            retries := called.job.retries + 1
            retryError := some e.toString } }
    { (counted.record (.published counted.job)).record
        (.slept (attempts.delay k)) with
      clock := called.clock + attempts.delay k } =
      attempts.before call task (k + 1) := by
  intro called counted
  have job : counted.job = attempts.retried task.job (k + 1) :=
    Attempts.retried_succ failure task.job
  have clock : called.clock + attempts.delay k =
      task.clock + attempts.startsAt (k + 1) := by
    simp only [called, Attempts.after, Attempts.startsAt]
    omega
  rw [clock]
  simp only [Task.record, job]
  simp only [counted, called, Attempts.after, Attempts.before,
    Attempts.retryLog, List.append_assoc]
  rfl

/-- An attempt that gets through. -/
theorem throttledLoop_through (k fuel : Nat) {value : α}
    (outcome : (attemptsOf env method task).outcome k = .ok value) :
    let attempts := attemptsOf env method task
    throttledLoop env call method task.clock (fuel + 1) (backoffAt k) k
        (attempts.before call task k) =
      (.ok value,
        { attempts.after call task k with
          job := Attempts.counted task.job k }) := by
  intro attempts
  have asked : method (env.client (attempts.before call task k).asked) =
      .ok value := outcome
  rw [← attempts.counted_retried]
  simp only [throttledLoop, bind_apply, attemptCall, asked]
  rfl

/-- An attempt that fails for good. -/
theorem throttledLoop_failed (k fuel : Nat) {e : KalshiError}
    (outcome : (attemptsOf env method task).outcome k = .error e)
    (final : e.isTransient = false) :
    let attempts := attemptsOf env method task
    throttledLoop env call method task.clock (fuel + 1) (backoffAt k) k
        (attempts.before call task k) =
      (.error (.kalshi e),
        { attempts.after call task k with
          job := Attempts.counted task.job k }) := by
  intro attempts
  have asked : method (env.client (attempts.before call task k).asked) =
      .error e := outcome
  rw [← attempts.counted_retried]
  simp only [throttledLoop, bind_apply, attemptCall, asked, andThen_ok, final]
  rfl

/-- An attempt that fails for a while: the next is too late, or is made. -/
theorem throttledLoop_failure (k fuel : Nat) {e : KalshiError}
    (failure : (attemptsOf env method task).failure k = some e) :
    let attempts := attemptsOf env method task
    throttledLoop env call method task.clock (fuel + 1) (backoffAt k) k
        (attempts.before call task k) =
      if retryWindow < attempts.startsAt (k + 1) then
        (.error (.context
          (gaveUp (k + 1) (attempts.startsAt k + attempts.took k)
            (attempts.retried task.job k).cursorMs) e),
          attempts.after call task k)
      else
        throttledLoop env call method task.clock fuel (backoffAt (k + 1))
          (k + 1) (attempts.before call task (k + 1)) := by
  intro attempts
  obtain ⟨outcome, transient⟩ := failure_eq_some.mp failure
  have delay : (if e.isRateLimited then rateLimitBackoff else backoffAt k) =
      attempts.delay k := by
    simp [Attempts.delay, attempts, failure, rateLimitBackoff, backoffAt]
  have elapsed : (attempts.before call task k).clock +
      env.took (attempts.before call task k).asked - task.clock =
        attempts.startsAt k + attempts.took k := by
    change task.clock + attempts.startsAt k + attempts.took k - task.clock = _
    omega
  rw [backoffAt_succ, ← Attempts.before_succ failure]
  refine (throttledLoop_transient task.clock fuel (backoffAt k) k outcome
    transient).trans ?_
  simp only [delay, elapsed]
  rfl

/-- One attempt: the call is settled, or repeated from the next on. -/
theorem throttledLoop_step (k fuel : Nat) :
    let attempts := attemptsOf env method task
    let result := throttledLoop env call method task.clock (fuel + 1)
      (backoffAt k) k (attempts.before call task k)
    Settled attempts call task k result ∨
      (attempts.failure k).isSome ∧
        attempts.startsAt (k + 1) ≤ retryWindow ∧
        result = throttledLoop env call method task.clock fuel
          (backoffAt (k + 1)) (k + 1) (attempts.before call task (k + 1)) := by
  intro attempts result
  cases outcome : attempts.outcome k with
  | ok value =>
      left
      have ends : result = _ := throttledLoop_through k fuel outcome
      rw [ends]
      exact .through value outcome
  | error e =>
      cases transient : e.isTransient with
      | false =>
          left
          have ends : result = _ := throttledLoop_failed k fuel outcome
            transient
          rw [ends]
          exact .failed e outcome transient
      | true =>
          have failure : attempts.failure k = some e :=
            failure_eq_some.mpr ⟨outcome, transient⟩
          have unrolled : result = _ := throttledLoop_failure k fuel failure
          rw [unrolled]
          split
          next late =>
            exact Or.inl (.gaveUp e _ failure late)
          next inTime =>
            exact Or.inr ⟨by simp [failure], not_lt.mp inTime, rfl⟩

/-- The loop from an attempt on: it settles there or later, or runs out. -/
theorem throttledLoop_cases (k fuel : Nat)
    (repeated : Repeated (attemptsOf env method task) k) :
    let attempts := attemptsOf env method task
    let result := throttledLoop env call method task.clock fuel (backoffAt k) k
      (attempts.before call task k)
    (∃ n < k + fuel, Repeated attempts n ∧
      Settled attempts call task n result) ∨
      Repeated attempts (k + fuel) ∧
        result = (.pending, attempts.before call task (k + fuel)) := by
  induction fuel generalizing k with
  | zero => exact Or.inr ⟨repeated, rfl⟩
  | succ fuel ih =>
      rcases @throttledLoop_step _ env call method task k fuel with
        settled | ⟨failed, inTime, next⟩
      · exact Or.inl ⟨k, by omega, repeated, settled⟩
      · have further : Repeated (attemptsOf env method task) (k + 1) := by
          intro earlier le
          rcases Nat.lt_succ_iff_lt_or_eq.mp le with before | rfl
          · exact repeated earlier before
          · exact ⟨failed, inTime⟩
        dsimp only at next ⊢
        rw [next, ← Nat.add_assoc, Nat.add_right_comm]
        exact ih (k + 1) further

theorem throttled_eq (fuel : Nat) :
    throttled env call method fuel task =
      throttledLoop env call method task.clock fuel (backoffAt 0) 0
        ((attemptsOf env method task).before call task 0) := by
  have start : (attemptsOf env method task).before call task 0 = task := by
    rw [Attempts.before, Attempts.retryLog, List.append_nil]
    rfl
  rw [start]
  rfl

/-- How a call ends, whatever its fuel is. -/
theorem throttled_cases (fuel : Nat) :
    let attempts := attemptsOf env method task
    let result := throttled env call method fuel task
    (∃ n < fuel, Repeated attempts n ∧
      Settled attempts call task n result) ∨
      Repeated attempts fuel ∧
        result = (.pending, attempts.before call task fuel) := by
  intro attempts result
  have start : result = throttledLoop env call method task.clock fuel
      (backoffAt 0) 0 (attempts.before call task 0) := throttled_eq fuel
  have ends := @throttledLoop_cases _ env call method task 0 fuel
    fun k lt => absurd lt (Nat.not_lt_zero k)
  rw [start]
  simpa only [Nat.zero_add] using ends

/-- Every repetition takes a second at least. -/
theorem Repeated.startsAt {attempts : Attempts α} {n : Nat}
    (repeated : Repeated attempts n) :
    n * second ≤ attempts.startsAt n ∧ attempts.startsAt n ≤ retryWindow := by
  induction n with
  | zero => exact ⟨by simp [Attempts.startsAt], Nat.zero_le _⟩
  | succ n ih =>
      have before := ih fun k lt => repeated k (by omega)
      have waits : second ≤ attempts.delay n := by
        have power := Nat.one_le_two_pow (n := n)
        unfold Attempts.delay second
        split <;> omega
      refine ⟨?_, (repeated n (Nat.lt_succ_self n)).2⟩
      rw [Attempts.startsAt, Nat.succ_mul]
      omega

theorem Repeated.le {attempts : Attempts α} {n : Nat}
    (repeated : Repeated attempts n) : n ≤ 300 := by
  have bounds := repeated.startsAt
  unfold second retryWindow second at bounds
  omega

/--
Whatever its attempts answer and take, a call settles: it returns its first
outcome that is not transient, or gives up when the next attempt would start
after the window.  Until then each transient failure is repeated, none later
than the window, and counted.
-/
theorem throttled_settles (env : Env) (call : Call)
    (method : KalshiClient → Except KalshiError α) (task : Task)
    (fuel : Nat) :
    let attempts := attemptsOf env method task
    ∃ n, (∀ k < n, (attempts.failure k).isSome) ∧
      (∀ k ≤ n, attempts.startsAt k ≤ retryWindow) ∧
      Settled attempts call task n
        (throttled env call method (301 + fuel) task) := by
  intro attempts
  rcases @throttled_cases _ env call method task (301 + fuel) with
    ⟨n, -, repeated, settled⟩ | ⟨repeated, -⟩
  · refine ⟨n, fun k lt => (repeated k lt).1, ?_, settled⟩
    intro k le
    cases k with
    | zero => exact Nat.zero_le _
    | succ k => exact (repeated k le).2
  · have bound := repeated.le
    omega

end Attempt

end ChudMoney.Controllers.Throttled
