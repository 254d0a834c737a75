import ChudMoney.Controllers.Throttled
import Mathlib.Data.List.Infix

/-!
# What holds at every published state

The table entry of a job is what its task published last.  A property of the
effects so far and the job holds at every published state when each step of
the task that publishes finds it true.
-/

namespace ChudMoney.Controllers.JobLog

open ChudMoney.Controllers.IngestJobs
open ChudMoney.Controllers.Throttled
open ChudMoney.Db.Rows
open ChudMoney.Kalshi.Rest
open ChudMoney.Lib.Programs
open ChudMoney.Lib.Programs.Program

/-- Each state of the job had the property when it was published. -/
def EveryPublished (property : List Effect → IngestJob → Prop)
    (log : List Effect) : Prop :=
  ∀ earlier job, earlier ++ [.published job] <+: log → property earlier job

variable {property : List Effect → IngestJob → Prop} {log : List Effect}

theorem everyPublished_nil : EveryPublished property [] := by
  intro earlier job inNil
  simp at inNil

theorem everyPublished_concat (effect : Effect) :
    EveryPublished property (log ++ [effect]) ↔
      EveryPublished property log ∧
        ∀ job, effect = .published job → property log job := by
  constructor
  · intro all
    constructor
    · intro earlier job inLog
      exact all earlier job (inLog.trans (List.prefix_append _ _))
    · rintro job rfl
      exact all log job (List.prefix_refl _)
  · rintro ⟨before, last⟩ earlier job inLog
    rcases List.prefix_concat_iff.mp inLog with same | inBefore
    · rcases List.append_inj' same rfl with ⟨rfl, isLast⟩
      exact last job (List.singleton_inj.mp isLast).symm
    · exact before earlier job inBefore

theorem everyPublished_queued (rows : List Row) :
    EveryPublished property (log ++ rows.map .queued) ↔
      EveryPublished property log := by
  induction rows using List.reverseRecOn with
  | nil => simp
  | append_singleton rows row ih =>
      rw [List.map_append, ← List.append_assoc, List.map_singleton,
        everyPublished_concat, ih]
      simp

/-- What a call's attempts, delays and counting leave alone. -/
structure Steady (call : Call) (invariant : Task → Prop) : Prop where
  called : ∀ task attempt clock, invariant task →
    invariant (task.record (.called call attempt clock))
  slept : ∀ task delay, invariant task →
    invariant (task.record (.slept delay))
  published : ∀ task, invariant task →
    invariant (task.record (.published task.job))
  counted : ∀ task requests retries retryError, invariant task →
    invariant { task with
      job := { task.job with
        requests := requests
        retries := retries
        retryError := retryError } }
  passed : ∀ task asked clock, invariant task →
    invariant { task with asked := asked, clock := clock }

section Keeps

variable {α : Type} {env : Env} {call : Call}
variable {method : KalshiClient → Except KalshiError α}
variable {invariant : Task → Prop}

theorem throttledLoop_keeps (steady : Steady call invariant)
    (firstAttempt fuel backoff attempts : Nat) {task : Task}
    (holds : invariant task) :
    invariant (throttledLoop env call method firstAttempt fuel backoff attempts
      task).2 := by
  induction fuel generalizing backoff attempts task with
  | zero => exact holds
  | succ fuel ih =>
      have called := steady.passed _ (task.asked + 1)
        (task.clock + env.took task.asked)
        (steady.called task attempts task.clock holds)
      cases outcome : method (env.client task.asked) with
      | ok value =>
          simp only [throttledLoop, bind_apply, attemptCall, outcome,
            andThen_ok, modifyJob, modify_apply, pure_apply]
          exact steady.counted _ _ _ _ called
      | error e =>
          cases transient : e.isTransient with
          | false =>
              simp only [throttledLoop, bind_apply, attemptCall, outcome,
                andThen_ok, transient, modifyJob, modify_apply, throw_apply,
                Bool.false_eq_true, if_false]
              exact steady.counted _ _ _ _ called
          | true =>
              rw [throttledLoop_transient firstAttempt fuel backoff attempts
                outcome transient]
              dsimp only
              generalize (if e.isRateLimited = true then rateLimitBackoff
                else backoff) = delay
              split
              · exact called
              · apply ih
                have counted := steady.counted _ task.job.requests
                  (task.job.retries + 1) (some e.toString) called
                exact steady.passed _ _ _
                  (steady.slept _ delay (steady.published _ counted))

/-- A call keeps what its parts leave alone, however it ends. -/
theorem throttled_keeps (steady : Steady call invariant) (fuel : Nat)
    {task : Task} (holds : invariant task) :
    invariant (throttled env call method fuel task).2 :=
  throttledLoop_keeps steady task.clock fuel retryBackoffMin 0 holds

/-- A call that gets through returns what its last attempt was answered. -/
theorem throttled_through {fuel : Nat} {task : Task} {value : α}
    (through : (throttled env call method fuel task).1 = .ok value) :
    ∃ n, (attemptsOf env method task).outcome n = .ok value ∧
      (throttled env call method fuel task).2 =
        { (attemptsOf env method task).after call task n with
          job := Attempts.counted task.job n } := by
  rcases @throttled_cases _ env call method task fuel with
    ⟨n, -, -, settled⟩ | ⟨-, ranOut⟩
  · generalize throttled env call method fuel task = result at *
    cases settled with
    | through value outcome =>
        cases through
        exact ⟨n, outcome, rfl⟩
    | failed e => cases through
    | gaveUp e => cases through
  · rw [ranOut] at through
    cases through

end Keeps

/-- What a log says apart from repetitions: each call once, when first made. -/
structure Firsts {β : Type} (view : Effect → Option β) : Prop where
  called : ∀ call attempt clock,
    view (.called call (attempt + 1) clock) = none
  published : ∀ job, view (.published job) = none
  slept : ∀ delay, view (.slept delay) = none

/-- The attempts at a call are seen as one. -/
theorem filterMap_after {α β : Type} {view : Effect → Option β}
    (firsts : Firsts view) (attempts : Attempts α) (call : Call) (task : Task)
    (n : Nat) :
    (attempts.after call task n).log.filterMap view =
      task.log.filterMap view ++
        (view (.called call 0 task.clock)).toList := by
  have first : ∀ n, (attempts.retryLog call task n).filterMap view ++
      ([Effect.called call n (task.clock + attempts.startsAt n)]).filterMap
        view = (view (.called call 0 task.clock)).toList := by
    intro n
    induction n with
    | zero =>
        rw [Attempts.retryLog, Attempts.startsAt, Nat.add_zero]
        cases seen : view (.called call 0 task.clock) <;> simp [seen]
    | succ n ih =>
        rw [Attempts.retryLog, ← ih]
        simp [List.filterMap_cons, firsts.called, firsts.published,
          firsts.slept]
  rw [Attempts.after]
  simp only [List.filterMap_append, List.append_assoc]
  rw [first]

/-- What the attempts at a call add is about the call. -/
theorem mem_after {α : Type} {attempts : Attempts α} {call : Call}
    {task : Task} {n : Nat} {effect : Effect}
    (member : effect ∈ (attempts.after call task n).log) :
    effect ∈ task.log ∨ (∃ attempt clock, effect = .called call attempt clock) ∨
      (∃ job, effect = .published job) ∨ ∃ delay, effect = .slept delay := by
  have repeated : ∀ n, effect ∈ attempts.retryLog call task n →
      (∃ attempt clock, effect = .called call attempt clock) ∨
        (∃ job, effect = .published job) ∨ ∃ delay, effect = .slept delay := by
    intro n
    induction n with
    | zero => exact fun member => absurd member List.not_mem_nil
    | succ n ih =>
        intro member
        rcases List.mem_append.mp member with earlier | last
        · exact ih earlier
        · simp only [List.mem_cons, List.not_mem_nil, or_false] at last
          rcases last with rfl | rfl | rfl
          · exact Or.inl ⟨_, _, rfl⟩
          · exact Or.inr (Or.inl ⟨_, rfl⟩)
          · exact Or.inr (Or.inr ⟨_, rfl⟩)
  rw [Attempts.after, List.mem_append, List.mem_append,
    List.mem_singleton] at member
  rcases member with (before | retry) | rfl
  · exact Or.inl before
  · exact Or.inr (repeated n retry)
  · exact Or.inr (Or.inl ⟨_, _, rfl⟩)

end ChudMoney.Controllers.JobLog
