import ChudMoney.Lib.Runs
import Mathlib.Data.List.Induction
import Mathlib.Tactic.Ring

/-!
# Attempts with a doubling pause

A process is tried again each time it ends, after a pause that doubles up to a
bound and starts anew after an attempt that lasted.  The pauses keep attempts
apart: so many of them in a row take longer than an attempt has to last.

Times are natural numbers of any unit, and what the process does in an attempt
is a step function of its own.
-/

namespace ChudMoney.Lib.Backoff

open ChudMoney.Lib.Runs

/-- The first pause, the longest, and how long an attempt lasts at most that
does not start the pauses anew. -/
structure Policy where
  least : Nat
  most : Nat
  reset : Nat
  le : least ≤ most

/-- An attempt that has ended, and the pause after it. -/
structure Attempt where
  started : Nat
  failed : Nat
  pause : Nat
  deriving DecidableEq

/-- The attempt lasted long enough for the pauses to start anew. -/
def Attempt.lasted (policy : Policy) (attempt : Attempt) : Prop :=
  policy.reset < attempt.failed - attempt.started

instance (policy : Policy) (attempt : Attempt) :
    Decidable (attempt.lasted policy) :=
  inferInstanceAs (Decidable (_ < _))

/-- The pause after an attempt that began and ended then. -/
def pauseAfter (policy : Policy) (backoff started failed : Nat) : Nat :=
  if policy.reset < failed - started then policy.least else backoff

/--
Attempts in order, with the backoff after them and the time before which no
other begins.
-/
inductive Paced (policy : Policy) : List Attempt → Nat → Nat → Prop where
  | nil (wake : Nat) : Paced policy [] policy.least wake
  | concat {log : List Attempt} {backoff wake started failed : Nat} :
      Paced policy log backoff wake → wake ≤ started → started ≤ failed →
      Paced policy
        (log ++ [⟨started, failed, pauseAfter policy backoff started failed⟩])
        (min (pauseAfter policy backoff started failed * 2) policy.most)
        (failed + pauseAfter policy backoff started failed)

variable {policy : Policy} {log : List Attempt} {backoff wake : Nat}

/-! ## Pauses -/

theorem Paced.backoff_bounds (paced : Paced policy log backoff wake) :
    policy.least ≤ backoff ∧ backoff ≤ policy.most := by
  have le := policy.le
  induction paced with
  | nil wake => exact ⟨Nat.le_refl _, le⟩
  | concat _ _ _ ih =>
      rw [pauseAfter]
      split
      · omega
      · omega

/-- A pause keeps to the bounds, and is the least after an attempt that lasted.
-/
theorem Paced.pause_bounds (paced : Paced policy log backoff wake) :
    ∀ attempt ∈ log,
      policy.least ≤ attempt.pause ∧ attempt.pause ≤ policy.most ∧
        (attempt.lasted policy → attempt.pause = policy.least) := by
  induction paced with
  | nil wake => exact nofun
  | concat paced _ _ ih =>
      have bounds := paced.backoff_bounds
      intro attempt member
      rcases List.mem_append.mp member with old | new
      · exact ih attempt old
      · cases List.mem_singleton.mp new
        have le := policy.le
        dsimp only
        rw [pauseAfter]
        split
        next lasted => exact ⟨Nat.le_refl _, le, fun _ => rfl⟩
        next brief =>
          exact ⟨bounds.1, bounds.2, fun lasted => absurd lasted brief⟩

/-! ## Attempts are apart -/

/-- The attempts before the last one, and what it added. -/
theorem Paced.last {last : Attempt}
    (paced : Paced policy (log ++ [last]) backoff wake) :
    ∃ earlier ready, Paced policy log earlier ready ∧
      ready ≤ last.started ∧ last.started ≤ last.failed ∧
      last.pause = pauseAfter policy earlier last.started last.failed ∧
      backoff = min (last.pause * 2) policy.most ∧
      wake = last.failed + last.pause := by
  generalize whole : log ++ [last] = attempts at paced
  cases paced with
  | nil wake => cases List.append_ne_nil_of_right_ne_nil _ (by simp) whole
  | concat paced ready ordered =>
      rcases List.append_inj' whole rfl with ⟨rfl, same⟩
      cases same
      exact ⟨_, _, paced, ready, ordered, rfl, rfl, rfl⟩

/--
After an attempt and some more, either one of them lasted, or the pauses have
doubled each time.
-/
theorem Paced.doubled {before recent : List Attempt} {first : Attempt}
    (paced : Paced policy (before ++ first :: recent) backoff wake)
    (room : policy.least * 2 ^ recent.length ≤ policy.most) :
    first.failed + policy.reset < wake ∨
      first.failed + policy.least * (2 ^ (recent.length + 1) - 1) ≤ wake ∧
        min (policy.least * 2 ^ (recent.length + 1)) policy.most ≤ backoff := by
  induction recent using List.reverseRecOn generalizing backoff wake with
  | nil =>
      rcases paced.last with
        ⟨earlier, ready, sooner, -, ordered, pause, rfl, rfl⟩
      have bounds := sooner.backoff_bounds
      have least : policy.least ≤ first.pause := by
        rw [pause, pauseAfter]
        split
        · exact Nat.le_refl _
        · exact bounds.1
      right
      simp only [List.length_nil, Nat.zero_add, Nat.pow_one]
      omega
  | append_singleton recent last ih =>
      rw [← List.cons_append, ← List.append_assoc] at paced
      rcases paced.last with
        ⟨earlier, ready, sooner, begun, ordered, pause, rfl, rfl⟩
      rw [List.length_append, List.length_singleton] at room ⊢
      have double : policy.least * 2 ^ (recent.length + 1) =
          policy.least * 2 ^ recent.length * 2 := by
        ring
      have more : policy.least * (2 ^ (recent.length + 1 + 1) - 1) =
          policy.least * (2 ^ (recent.length + 1) - 1) +
            policy.least * 2 ^ (recent.length + 1) := by
        rw [← Nat.mul_add, Nat.pow_succ 2 (recent.length + 1)]
        congr 1
        have positive := Nat.two_pow_pos (recent.length + 1)
        omega
      have twice : policy.least * 2 ^ (recent.length + 1 + 1) =
          policy.least * 2 ^ (recent.length + 1) * 2 := by
        ring
      rcases ih sooner (by omega) with long | ⟨apart, doubled⟩
      · left
        omega
      by_cases lasted : policy.reset < last.failed - last.started
      · left
        omega
      · rw [pauseAfter, if_neg lasted] at pause
        right
        omega

/-- So many attempts in a row take longer than one has to last. -/
theorem Paced.apart {before recent : List Attempt} {first : Attempt}
    (paced : Paced policy (before ++ first :: recent) backoff wake)
    (room : policy.least * 2 ^ recent.length ≤ policy.most)
    (longer : policy.reset < policy.least * (2 ^ (recent.length + 1) - 1)) :
    first.failed + policy.reset < wake := by
  rcases paced.doubled room with lasted | ⟨doubled, -⟩
  · exact lasted
  · omega

/-- What was before an attempt was paced, and let it begin. -/
theorem Paced.sooner {earlier more : List Attempt} {attempt : Attempt}
    (paced : Paced policy (earlier ++ attempt :: more) backoff wake) :
    ∃ backoff wake, Paced policy earlier backoff wake ∧
      wake ≤ attempt.started := by
  induction more using List.reverseRecOn generalizing backoff wake with
  | nil =>
      rcases paced.last with ⟨before, ready, sooner, begun, -⟩
      exact ⟨before, ready, sooner, begun⟩
  | append_singleton more last ih =>
      rw [← List.cons_append, ← List.append_assoc] at paced
      rcases paced.last with ⟨before, ready, sooner, -⟩
      exact ih sooner

/-! ## The loop -/

section Loop

variable {State Label : Type}

/-- The loop sleeps, or an attempt is on. -/
inductive Phase where
  | pausing (wake : Nat)
  | trying (started : Nat)
  deriving DecidableEq

structure Loop (State : Type) where
  state : State
  backoff : Nat
  phase : Phase
  log : List Attempt

/-- The loop before its first attempt. -/
def Loop.start (policy : Policy) (state : State) : Loop State :=
  ⟨state, policy.least, .pausing 0, []⟩

/-- An attempt begins, or the process takes a step in it. -/
inductive Turn (Label : Type) where
  | begin (now : Nat)
  | act (now : Nat) (label : Label)

/-- One turn; `ends` tells the steps of the process that end an attempt. -/
def turn (policy : Policy) (step : State → Label → Option State)
    (ends : State → Label → Bool) (loop : Loop State) :
    Turn Label → Option (Loop State)
  | .begin now =>
      match loop.phase with
      | .pausing wake =>
          if wake ≤ now then some { loop with phase := .trying now } else none
      | .trying _ => none
  | .act now label =>
      match loop.phase with
      | .pausing _ => none
      | .trying started =>
          if started ≤ now then
            (step loop.state label).map fun state =>
              if ends loop.state label then
                let pause := pauseAfter policy loop.backoff started now
                { state := state
                  backoff := min (pause * 2) policy.most
                  phase := .pausing (now + pause)
                  log := loop.log ++ [⟨started, now, pause⟩] }
              else { loop with state := state }
          else none

/-- When the attempts of the loop began, the one that is on among them. -/
def Loop.begun (loop : Loop State) : List Nat :=
  loop.log.map Attempt.started ++
    match loop.phase with
    | .pausing _ => []
    | .trying started => [started]

/-- The attempts of the loop are paced, and none begins too early. -/
def Loop.IsPaced (policy : Policy) (loop : Loop State) : Prop :=
  ∃ wake, Paced policy loop.log loop.backoff wake ∧
    match loop.phase with
    | .pausing ready => ready = wake
    | .trying started => wake ≤ started

variable {step : State → Label → Option State} {ends : State → Label → Bool}

/-- An attempt begins, ends, or goes on. -/
theorem turn_cases {loop next : Loop State} {label : Turn Label}
    (taken : turn policy step ends loop label = some next) :
    (∃ wake now, label = .begin now ∧ loop.phase = .pausing wake ∧
      wake ≤ now ∧ next = { loop with phase := .trying now }) ∨
    ∃ now act started state, label = .act now act ∧
      loop.phase = .trying started ∧ started ≤ now ∧
      step loop.state act = some state ∧
      ((ends loop.state act = true ∧ next =
          { state := state
            backoff :=
              min (pauseAfter policy loop.backoff started now * 2) policy.most
            phase :=
              .pausing (now + pauseAfter policy loop.backoff started now)
            log := loop.log ++
              [⟨started, now,
                pauseAfter policy loop.backoff started now⟩] }) ∨
        (ends loop.state act = false ∧
          next = { loop with state := state })) := by
  cases label with
  | begin now =>
      left
      simp only [turn] at taken
      split at taken
      next wake pausing =>
        split at taken
        next ready =>
          cases taken
          exact ⟨wake, now, rfl, pausing, ready, rfl⟩
        · cases taken
      · cases taken
  | act now act =>
      right
      simp only [turn] at taken
      split at taken
      · cases taken
      next started trying =>
        split at taken
        case isFalse => cases taken
        next ordered =>
          rcases Option.map_eq_some_iff.mp taken with ⟨state, stepped, rfl⟩
          refine ⟨now, act, started, state, rfl, trying, ordered, stepped, ?_⟩
          cases isEnd : ends loop.state act with
          | true => exact .inl ⟨rfl, rfl⟩
          | false => exact .inr ⟨rfl, rfl⟩

theorem isPaced_start (policy : Policy) (state : State) :
    (Loop.start policy state).IsPaced policy :=
  ⟨0, .nil 0, rfl⟩

theorem Loop.IsPaced.turn {loop next : Loop State} {label : Turn Label}
    (isPaced : loop.IsPaced policy)
    (taken : turn policy step ends loop label = some next) :
    next.IsPaced policy := by
  rcases isPaced with ⟨wake, paced, phase⟩
  rcases turn_cases taken with
    ⟨ready, now, rfl, pausing, late, rfl⟩ |
      ⟨now, act, started, state, rfl, trying, ordered, stepped,
        ⟨isEnd, rfl⟩ | ⟨goesOn, rfl⟩⟩
  · rw [pausing] at phase
    have same : ready = wake := phase
    exact ⟨wake, paced, same ▸ late⟩
  · rw [trying] at phase
    exact ⟨_, paced.concat phase ordered, rfl⟩
  · exact ⟨wake, paced, phase⟩

theorem isPaced_of_run {state : State} {turns : List (Turn Label)}
    {final : Loop State}
    (reached : run (turn policy step ends) (.start policy state) turns =
      some final) :
    final.IsPaced policy :=
  invariant_of_run (fun loop : Loop State => loop.IsPaced policy)
    (fun _ _ _ isPaced taken => isPaced.turn taken)
    (isPaced_start policy state) reached

/-- The attempts before one that has begun were paced, and let it begin. -/
theorem Loop.IsPaced.before {loop : Loop State} (isPaced : loop.IsPaced policy)
    {n : Nat} {later : Nat} (isLater : loop.begun[n]? = some later) :
    ∃ backoff wake, Paced policy (loop.log.take n) backoff wake ∧
      wake ≤ later ∧ n ≤ loop.log.length := by
  rcases isPaced with ⟨wake, paced, phase⟩
  rw [Loop.begun, List.getElem?_append] at isLater
  split at isLater
  next inside =>
    rw [List.length_map] at inside
    rw [List.getElem?_map, List.getElem?_eq_getElem inside] at isLater
    cases isLater
    have split := List.take_append_drop n loop.log
    rw [List.drop_eq_getElem_cons inside] at split
    rw [← split] at paced
    rcases paced.sooner with ⟨backoff, wake, sooner, begun⟩
    exact ⟨backoff, wake, sooner, begun, Nat.le_of_lt inside⟩
  next outside =>
    rw [List.length_map] at isLater outside
    cases trying : loop.phase with
    | pausing ready =>
        rw [trying] at isLater
        cases isLater
    | trying started =>
        rw [trying] at isLater phase
        rcases List.getElem?_eq_some_iff.mp isLater with ⟨bound, isStarted⟩
        rw [List.length_singleton] at bound
        have whole : n = loop.log.length := by omega
        rw [List.getElem_singleton] at isStarted
        rw [whole, List.take_length, ← isStarted]
        exact ⟨_, wake, paced, phase, Nat.le_refl _⟩

/-- The attempt before one that has begun. -/
theorem Loop.IsPaced.next {loop : Loop State} (isPaced : loop.IsPaced policy)
    {i later : Nat} {attempt : Attempt}
    (isAttempt : loop.log[i]? = some attempt)
    (isLater : loop.begun[i + 1]? = some later) :
    attempt.started ≤ attempt.failed ∧ attempt.failed ≤ later := by
  rcases isPaced.before isLater with ⟨backoff, wake, paced, begun, bound⟩
  rcases List.getElem?_eq_some_iff.mp isAttempt with ⟨inside, same⟩
  rw [List.take_add_one, isAttempt, Option.toList_some] at paced
  rcases paced.last with ⟨_, _, _, _, ordered, _, _, rfl⟩
  exact ⟨ordered, by omega⟩

/-- So many attempts later, more time has passed than one has to last. -/
theorem Loop.IsPaced.apart_failed {loop : Loop State}
    (isPaced : loop.IsPaced policy) {few : Nat}
    (room : policy.least * 2 ^ few ≤ policy.most)
    (longer : policy.reset < policy.least * (2 ^ (few + 1) - 1)) {i : Nat}
    {attempt : Attempt} {later : Nat}
    (isAttempt : loop.log[i]? = some attempt)
    (isLater : loop.begun[i + few + 1]? = some later) :
    attempt.failed + policy.reset < later := by
  rcases isPaced.before isLater with ⟨backoff, wake, paced, begun, bound⟩
  have inside : i < loop.log.length := by omega
  have split := List.take_append_drop i (loop.log.take (i + few + 1))
  have shorter : i < (loop.log.take (i + few + 1)).length := by
    rw [List.length_take]
    omega
  rw [List.drop_eq_getElem_cons shorter, List.getElem_take] at split
  rw [← split] at paced
  have length : ((loop.log.take (i + few + 1)).drop (i + 1)).length = few := by
    rw [List.length_drop, List.length_take]
    omega
  have apart := paced.apart (by rw [length]; exact room)
    (by rw [length]; exact longer)
  rw [List.getElem?_eq_getElem inside] at isAttempt
  cases isAttempt
  omega

theorem Loop.IsPaced.apart {loop : Loop State} (isPaced : loop.IsPaced policy)
    {few : Nat} (room : policy.least * 2 ^ few ≤ policy.most)
    (longer : policy.reset < policy.least * (2 ^ (few + 1) - 1)) {i : Nat}
    {first later : Nat} (isFirst : loop.begun[i]? = some first)
    (isLater : loop.begun[i + few + 1]? = some later) :
    first + policy.reset < later := by
  rcases isPaced.before isLater with ⟨-, -, -, -, bound⟩
  have inside : i < loop.log.length := by omega
  have isAttempt : loop.log[i]? = some loop.log[i] :=
    List.getElem?_eq_getElem inside
  rw [Loop.begun, List.getElem?_append_left (by simpa using inside),
    List.getElem?_map, isAttempt] at isFirst
  cases isFirst
  rcases List.getElem?_eq_some_iff.mp isLater with ⟨long, -⟩
  have ordered :=
    (isPaced.next isAttempt (List.getElem?_eq_getElem (by omega))).1
  have apart := isPaced.apart_failed room longer isAttempt isLater
  omega

end Loop

end ChudMoney.Lib.Backoff
