import ChudMoney.Feeds.Reconnect
import ChudMoney.Lib.Rates

/-!
# The timers of a session

`run_session` asks for the open markets once before its select loop and then at
each tick of `refresh`, and gives up when `stale` runs out.  While it awaits an
answer it does nothing else.  Which of the branches that are ready is taken is
arbitrary, and so is how long anything takes.

Times are in nanoseconds.  The pings are left out, as they keep no state.
-/

namespace ChudMoney.Feeds.Timers

open ChudMoney.Feeds.Reconnect
open ChudMoney.Feeds.Shared
open ChudMoney.Feeds.Task
open ChudMoney.Kalshi.Client
open ChudMoney.Lib.Backoff
open ChudMoney.Lib.Json
open ChudMoney.Lib.Rates
open ChudMoney.Lib.Runs
open ChudMoney.Model

variable {Text : Type}

/-! ## The select loop -/

def marketRefresh : Nat := 30 * second

def staleAfter : Nat := 30 * second

/-- Where `run_feed` is. -/
inductive Point where
  | sleeping
  | dialing
  | listing
  | selecting
  | reading
  | refreshing
  deriving DecidableEq

inductive Event (Text : Type) where
  | begin
  | list
  | listed (markets : Except String (List OpenMarket))
  | read
  | text (moment : Moment) (text : Text)
  /-- The frame is not text. -/
  | other
  | tick
  | ticked (markets : Except String (List OpenMarket))
  | stale
  | ended (outcome : Except String Unit)

structure Task (Text : Type) where
  loop : Loop (Conn Text)
  clock : Nat
  point : Point
  refresh : Interval
  stale : Nat

def Task.spawned (market : Market) (coinbase : Option CoinbaseFeedStatus) :
    Task Text where
  loop := .start feedPolicy (Conn.spawned market coinbase)
  clock := 0
  point := .sleeping
  refresh := .new marketRefresh 0
  stale := 0

/-- The task takes a step, and goes on from `point` unless it has returned. -/
def act (readers : Readers Text) (task : Task Text) (now : Nat)
    (event : FeedEvent Text) (point : Point) : Option (Task Text) :=
  (runFeed readers task.loop (.act now event)).map fun loop =>
    { task with
      loop := loop
      point :=
        if endsSession readers task.loop.state event then .sleeping
        else point }

/-- What `run_session` gives up with. -/
def staleError : String := "no frames received for 30s"

/-- One step; an interval may run late by `slack` before it is delayed. -/
def poll (slack : Nat) (readers : Readers Text) (task : Task Text)
    (now : Nat) : Event Text → Option (Task Text)
  | .begin =>
      (runFeed readers task.loop (.begin now)).map fun loop =>
        { task with loop := loop, point := .dialing }
  | .list =>
      if task.point = .dialing then some { task with point := .listing }
      else none
  | .listed markets =>
      if task.point = .listing then
        -- the first tick is immediate
        ((Interval.new marketRefresh now).tick slack now).bind fun refresh =>
          act readers
            { task with refresh := refresh, stale := now + staleAfter } now
            (.connect markets) .selecting
      else none
  | .read =>
      if task.point = .selecting then
        some { task with stale := now + staleAfter, point := .reading }
      else none
  | .text moment text =>
      if task.point = .reading then
        act readers task now (.text moment text) .selecting
      else none
  | .other =>
      if task.point = .reading then some { task with point := .selecting }
      else none
  | .tick =>
      if task.point = .selecting then
        (task.refresh.tick slack now).map fun refresh =>
          { task with refresh := refresh, point := .refreshing }
      else none
  | .ticked markets =>
      if task.point = .refreshing then
        act readers task now (.refresh markets) .selecting
      else none
  | .stale =>
      if task.point = .selecting ∧ task.stale ≤ now then
        act readers task now (.ended (.error staleError)) .sleeping
      else none
  | .ended outcome => act readers task now (.ended outcome) .sleeping

/-- One step at a time that is not before the last one. -/
def step (slack : Nat) (readers : Readers Text) (task : Task Text)
    (label : Nat × Event Text) : Option (Task Text) :=
  if task.clock ≤ label.1 then
    (poll slack readers task label.1 label.2).map fun next =>
      { next with clock := label.1 }
  else none

/-! ## What is asked, and when -/

/-- A session asks for its first listing. -/
def Event.isList : Event Text → Bool
  | .list => true
  | _ => false

/-- A session asks for another listing. -/
def Event.isTick : Event Text → Bool
  | .tick => true
  | _ => false

/-- The wait for a frame starts, or starts anew. -/
def Event.resets : Event Text → Bool
  | .listed _ | .read => true
  | _ => false

def Event.isStale : Event Text → Bool
  | .stale => true
  | _ => false

def times (which : Event Text → Bool) (labels : List (Nat × Event Text)) :
    List Nat :=
  (labels.filter fun label => which label.2).map Prod.fst

theorem times_concat (which : Event Text → Bool)
    (past : List (Nat × Event Text)) (label : Nat × Event Text) :
    times which (past ++ [label]) =
      times which past ++ if which label.2 then [label.1] else [] := by
  rw [times, List.filter_append, List.map_append, ← times]
  cases isWhich : which label.2 with
  | true => simp [isWhich]
  | false => simp [isWhich]

theorem mem_of_mem_times {which : Event Text → Bool} {time : Nat}
    {past : List (Nat × Event Text)} (member : time ∈ times which past) :
    ∃ event, (time, event) ∈ past := by
  rcases List.mem_map.mp member with ⟨⟨_, event⟩, kept, rfl⟩
  exact ⟨event, List.mem_of_mem_filter kept⟩

section Steps

variable {slack now : Nat} {readers : Readers Text} {task next : Task Text}
  {past : List (Nat × Event Text)}

/-- The session goes on, or it ends and the task sleeps. -/
theorem act_cases {event : FeedEvent Text} {point : Point}
    (taken : act readers task now event point = some next) :
    ∃ started state, task.loop.phase = .trying started ∧ started ≤ now ∧
      ((endsSession readers task.loop.state event = false ∧
          next = { task with
            loop := { task.loop with state := state }, point := point }) ∨
        ∃ backoff pause, next = { task with
          loop := ⟨state, backoff, .pausing (now + pause),
            task.loop.log ++ [⟨started, now, pause⟩]⟩
          point := .sleeping }) := by
  rcases Option.map_eq_some_iff.mp taken with ⟨loop, turned, rfl⟩
  rcases turn_cases turned with
    ⟨wake, other, same, -⟩ |
      ⟨other, event, started, state, same, trying, ordered, -,
        ⟨isEnd, rfl⟩ | ⟨goesOn, rfl⟩⟩
  · cases same
  · cases same
    have returned : (if endsSession readers task.loop.state event = true
        then Point.sleeping else point) = .sleeping := if_pos isEnd
    exact ⟨started, state, trying, ordered, .inr ⟨_, _, by rw [returned]⟩⟩
  · cases same
    refine ⟨started, state, trying, ordered, .inl ⟨goesOn, ?_⟩⟩
    rw [goesOn, if_neg Bool.false_ne_true]

/-- The loop takes a turn, and no timer is touched. -/
theorem act_changes {event : FeedEvent Text} {point : Point}
    (taken : act readers task now event point = some next) :
    runFeed readers task.loop (.act now event) = some next.loop ∧
      next.refresh = task.refresh ∧ next.stale = task.stale := by
  rcases Option.map_eq_some_iff.mp taken with ⟨loop, turned, rfl⟩
  exact ⟨turned, rfl, rfl⟩

/-- What a step does to the loop and to the timers. -/
structure Changes (slack : Nat) (readers : Readers Text)
    (task : Task Text) (now : Nat) (event : Event Text) (next : Task Text) :
    Prop where
  loop : next.loop = task.loop ∨
    ∃ turn, runFeed readers task.loop turn = some next.loop
  ticks : event.isTick = true →
    task.refresh.tick slack now = some next.refresh
  refresh : event.isTick = false → next.refresh = task.refresh ∨
    next.refresh = ⟨marketRefresh, now + marketRefresh⟩
  resets : event.resets = true → next.stale = now + staleAfter
  stale : event.resets = false → next.stale = task.stale
  due : event.isStale = true → task.stale ≤ now

/-- A step that is none of those about the timers. -/
theorem Changes.quiet {event : Event Text}
    (loop : next.loop = task.loop ∨
      ∃ turn, runFeed readers task.loop turn = some next.loop)
    (refresh : next.refresh = task.refresh) (stale : next.stale = task.stale)
    (noTick : event.isTick = false) (noReset : event.resets = false)
    (notStale : event.isStale = false) :
    Changes slack readers task now event next where
  loop := loop
  ticks isTick := absurd isTick (by simp [noTick])
  refresh _ := .inl refresh
  resets isReset := absurd isReset (by simp [noReset])
  stale _ := stale
  due isStale := absurd isStale (by simp [notStale])

theorem changes_poll {event : Event Text}
    (taken : poll slack readers task now event = some next) :
    Changes slack readers task now event next := by
  cases event with
  | begin =>
      rcases Option.map_eq_some_iff.mp taken with ⟨loop, turned, rfl⟩
      exact .quiet (.inr ⟨_, turned⟩) rfl rfl rfl rfl rfl
  | list =>
      rcases Option.ite_none_right_eq_some.mp taken with ⟨-, same⟩
      cases same
      exact .quiet (.inl rfl) rfl rfl rfl rfl rfl
  | listed markets =>
      rcases Option.ite_none_right_eq_some.mp taken with ⟨-, taken⟩
      rw [Interval.tick_new, Option.bind_some] at taken
      rcases act_changes taken with ⟨turned, refresh, stale⟩
      exact ⟨.inr ⟨_, turned⟩, nofun, fun _ => .inr refresh,
        fun _ => stale, nofun, nofun⟩
  | read =>
      rcases Option.ite_none_right_eq_some.mp taken with ⟨-, same⟩
      cases same
      exact ⟨.inl rfl, nofun, fun _ => .inl rfl, fun _ => rfl, nofun, nofun⟩
  | text moment text =>
      rcases Option.ite_none_right_eq_some.mp taken with ⟨-, taken⟩
      rcases act_changes taken with ⟨turned, refresh, stale⟩
      exact .quiet (.inr ⟨_, turned⟩) refresh stale rfl rfl rfl
  | other =>
      rcases Option.ite_none_right_eq_some.mp taken with ⟨-, same⟩
      cases same
      exact .quiet (.inl rfl) rfl rfl rfl rfl rfl
  | tick =>
      rcases Option.ite_none_right_eq_some.mp taken with ⟨-, taken⟩
      rcases Option.map_eq_some_iff.mp taken with ⟨refresh, ticked, rfl⟩
      exact ⟨.inl rfl, fun _ => ticked, nofun, nofun, fun _ => rfl, nofun⟩
  | ticked markets =>
      rcases Option.ite_none_right_eq_some.mp taken with ⟨-, taken⟩
      rcases act_changes taken with ⟨turned, refresh, stale⟩
      exact .quiet (.inr ⟨_, turned⟩) refresh stale rfl rfl rfl
  | stale =>
      rcases Option.ite_none_right_eq_some.mp taken with ⟨due, taken⟩
      rcases act_changes taken with ⟨turned, refresh, stale⟩
      exact ⟨.inr ⟨_, turned⟩, nofun, fun _ => .inl refresh, nofun,
        fun _ => stale, fun _ => due.2⟩
  | ended outcome =>
      rcases act_changes taken with ⟨turned, refresh, stale⟩
      exact .quiet (.inr ⟨_, turned⟩) refresh stale rfl rfl rfl

/-! ## First listings -/

/-- The session has asked for its first listing. -/
def Point.asked : Point → Bool
  | .sleeping | .dialing => false
  | .listing | .selecting | .reading | .refreshing => true

/--
A time for each session that has ended or asked, which is when it asked for its
first listing if it has.
-/
structure Opens (loop : Loop (Conn Text)) (point : Point) (clock : Nat)
    (closed current : List Nat) : Prop where
  closed : List.Forall₂ (fun (attempt : Attempt) time =>
    attempt.started ≤ time ∧ time ≤ attempt.failed) loop.log closed
  asked : point.asked = true → ∃ started time, current = [time] ∧
    loop.phase = .trying started ∧ started ≤ time ∧ time ≤ clock
  unasked : point.asked = false → current = []
  dialing : point = .dialing → ∃ started,
    loop.phase = .trying started ∧ started ≤ clock

section Opens

variable {loop after : Loop (Conn Text)} {point other : Point} {clock : Nat}
  {closed current : List Nat}

/-- The session does something else. -/
theorem Opens.keep (opens : Opens loop point clock closed current)
    (later : clock ≤ now) (log : after.log = loop.log)
    (phase : after.phase = loop.phase) (asked : point.asked = true)
    (goes : other.asked = true) : Opens after other now closed current := by
  constructor
  · rw [log]
    exact opens.closed
  · rcases opens.asked asked with ⟨started, time, same, trying, first, last⟩
    rw [phase]
    exact fun _ => ⟨started, time, same, trying, first, last.trans later⟩
  · rw [goes]
    exact fun never => absurd never (by simp)
  · rintro rfl
    cases goes

/-- The session ends, before or after it has asked. -/
theorem Opens.fail {started pause : Nat}
    (opens : Opens loop point clock closed current) (later : clock ≤ now)
    (trying : loop.phase = .trying started) (ordered : started ≤ now)
    (log : after.log = loop.log ++ [⟨started, now, pause⟩]) :
    ∃ closed', (closed ++ current).Sublist closed' ∧
      Opens after .sleeping now closed' [] := by
  cases asked : point.asked with
  | true =>
      rcases opens.asked asked with ⟨other, time, rfl, same, first, last⟩
      rw [trying] at same
      cases same
      refine ⟨closed ++ [time], List.Sublist.refl _, ?_, ?_, ?_, ?_⟩
      · rw [log]
        exact List.rel_append opens.closed
          (.cons ⟨first, last.trans later⟩ .nil)
      all_goals simp [Point.asked]
  | false =>
      rw [opens.unasked asked, List.append_nil]
      refine ⟨closed ++ [now], List.sublist_append_left _ _, ?_, ?_, ?_, ?_⟩
      · rw [log]
        exact List.rel_append opens.closed
          (.cons ⟨ordered, Nat.le_refl now⟩ .nil)
      all_goals simp [Point.asked]

/-- A session that takes a step goes on once it has asked, or ends. -/
theorem Opens.act {event : FeedEvent Text}
    (taken : act readers task now event point = some next)
    (opens : Opens task.loop task.point task.clock closed current)
    (later : task.clock ≤ now)
    (goes : endsSession readers task.loop.state event = false →
      task.point.asked = true ∧ point.asked = true) :
    ∃ closed' current', (closed ++ current).Sublist (closed' ++ current') ∧
      Opens next.loop next.point now closed' current' := by
  rcases act_cases taken with
    ⟨started, state, trying, ordered, ⟨goesOn, rfl⟩ | ⟨backoff, pause, rfl⟩⟩
  · rcases goes goesOn with ⟨asked, goes⟩
    exact ⟨closed, current, List.Sublist.refl _,
      opens.keep later rfl rfl asked goes⟩
  · have ended : ∃ closed', (closed ++ current).Sublist closed' ∧
        Opens (⟨state, backoff, .pausing (now + pause),
          task.loop.log ++ [⟨started, now, pause⟩]⟩ : Loop (Conn Text))
          .sleeping now closed' [] :=
      opens.fail later trying ordered rfl
    rcases ended with ⟨closed', part, opens⟩
    exact ⟨closed', [], by simpa using part, opens⟩

/-- A session begins once the one before it has ended. -/
theorem Opens.begin (opens : Opens loop point clock closed current)
    (turned : runFeed readers loop (.begin now) = some after) :
    current = [] ∧ Opens after .dialing now closed [] := by
  rcases turn_cases turned with
    ⟨wake, other, same, pausing, -, rfl⟩ | ⟨other, event, -, -, same, -⟩
  · cases same
    have unasked : point.asked = false := by
      by_contra asked
      rcases opens.asked (by simpa using asked) with ⟨_, _, _, trying, -⟩
      rw [pausing] at trying
      cases trying
    refine ⟨opens.unasked unasked, opens.closed, ?_, fun _ => rfl,
      fun _ => ⟨_, rfl, Nat.le_refl _⟩⟩
    simp [Point.asked]
  · cases same

/-- A session that has begun asks. -/
theorem Opens.list (opens : Opens loop .dialing clock closed current)
    (later : clock ≤ now) :
    current = [] ∧ Opens loop .listing now closed [now] := by
  rcases opens.dialing rfl with ⟨started, trying, ordered⟩
  refine ⟨opens.unasked rfl, opens.closed, ?_, ?_, ?_⟩
  · exact fun _ =>
      ⟨started, now, rfl, trying, ordered.trans later, Nat.le_refl _⟩
  · simp [Point.asked]
  · simp

/-- One step of the task, and what it asks. -/
theorem Opens.poll {event : Event Text}
    (taken : poll slack readers task now event = some next)
    (opens : Opens task.loop task.point task.clock closed current)
    (later : task.clock ≤ now) :
    ∃ closed' current',
      (closed ++ current ++ if event.isList then [now] else []).Sublist
        (closed' ++ current') ∧
      Opens next.loop next.point now closed' current' := by
  cases event with
  | begin =>
      rcases Option.map_eq_some_iff.mp taken with ⟨loop, turned, rfl⟩
      rcases opens.begin turned with ⟨rfl, begun⟩
      exact ⟨closed, [], by simp [Event.isList], begun⟩
  | list =>
      rcases Option.ite_none_right_eq_some.mp taken with ⟨dialing, same⟩
      cases same
      rw [dialing] at opens
      rcases opens.list later with ⟨rfl, asked⟩
      exact ⟨closed, [now], by simp [Event.isList], asked⟩
  | listed markets =>
      rcases Option.ite_none_right_eq_some.mp taken with ⟨listing, taken⟩
      rcases Option.bind_eq_some_iff.mp taken with ⟨refresh, -, taken⟩
      simpa [Event.isList] using
        Opens.act taken opens later fun _ => ⟨listing ▸ rfl, rfl⟩
  | read =>
      rcases Option.ite_none_right_eq_some.mp taken with ⟨selecting, same⟩
      cases same
      exact ⟨closed, current, by simp [Event.isList],
        opens.keep later rfl rfl (selecting ▸ rfl) rfl⟩
  | text moment text =>
      rcases Option.ite_none_right_eq_some.mp taken with ⟨reading, taken⟩
      simpa [Event.isList] using
        Opens.act taken opens later fun _ => ⟨reading ▸ rfl, rfl⟩
  | other =>
      rcases Option.ite_none_right_eq_some.mp taken with ⟨reading, same⟩
      cases same
      exact ⟨closed, current, by simp [Event.isList],
        opens.keep later rfl rfl (reading ▸ rfl) rfl⟩
  | tick =>
      rcases Option.ite_none_right_eq_some.mp taken with ⟨selecting, taken⟩
      rcases Option.map_eq_some_iff.mp taken with ⟨refresh, -, rfl⟩
      exact ⟨closed, current, by simp [Event.isList],
        opens.keep later rfl rfl (selecting ▸ rfl) rfl⟩
  | ticked markets =>
      rcases Option.ite_none_right_eq_some.mp taken with ⟨refreshing, taken⟩
      simpa [Event.isList] using
        Opens.act taken opens later fun _ => ⟨refreshing ▸ rfl, rfl⟩
  | stale =>
      rcases Option.ite_none_right_eq_some.mp taken with ⟨-, taken⟩
      simpa [Event.isList] using
        Opens.act taken opens later (by simp [endsSession])
  | ended outcome =>
      simpa [Event.isList] using
        Opens.act taken opens later (by simp [endsSession])

/-! ### How far apart they are -/

/-- The session had begun. -/
theorem Opens.begun (opens : Opens loop point clock closed current) {i : Nat}
    {time : Nat} (isTime : (closed ++ current)[i]? = some time) :
    ∃ begun, loop.begun[i]? = some begun ∧ begun ≤ time := by
  rcases List.forall₂_iff_get.mp opens.closed with ⟨length, related⟩
  rw [List.getElem?_append] at isTime
  rw [Loop.begun, List.getElem?_append, List.length_map, length]
  split at isTime
  next inside =>
    rcases List.getElem?_eq_some_iff.mp isTime with ⟨bound, rfl⟩
    have attempted : i < loop.log.length := by omega
    rw [if_pos inside, List.getElem?_map, List.getElem?_eq_getElem attempted]
    exact ⟨_, rfl, (related i attempted bound).1⟩
  next outside =>
    rw [if_neg outside]
    cases asked : point.asked with
    | true =>
        rcases opens.asked asked with ⟨started, other, rfl, trying, first, -⟩
        rcases List.getElem?_eq_some_iff.mp isTime with ⟨bound, same⟩
        rw [List.getElem_singleton] at same
        rw [List.length_singleton] at bound
        rw [trying, show i - closed.length = 0 by omega]
        exact ⟨started, rfl, same ▸ first⟩
    | false =>
        rw [opens.unasked asked] at isTime
        cases isTime

/-- The session has ended if there is another one. -/
theorem Opens.failed (opens : Opens loop point clock closed current) {i : Nat}
    {time : Nat} (isTime : (closed ++ current)[i]? = some time)
    (more : i + 1 < (closed ++ current).length) :
    ∃ attempt, loop.log[i]? = some attempt ∧ time ≤ attempt.failed := by
  rcases List.forall₂_iff_get.mp opens.closed with ⟨length, related⟩
  have single : current.length ≤ 1 := by
    cases asked : point.asked with
    | true =>
        rcases opens.asked asked with ⟨_, _, rfl, -⟩
        exact Nat.le_refl 1
    | false =>
        rw [opens.unasked asked]
        exact Nat.zero_le 1
  rw [List.length_append] at more
  have inside : i < closed.length := by omega
  have attempted : i < loop.log.length := by omega
  rw [List.getElem?_append_left inside,
    List.getElem?_eq_getElem inside] at isTime
  cases isTime
  exact ⟨_, List.getElem?_eq_getElem attempted,
    (related i attempted inside).2⟩

theorem Opens.sorted (opens : Opens loop point clock closed current)
    (isPaced : loop.IsPaced feedPolicy) :
    (closed ++ current).Pairwise (· ≤ ·) := by
  rw [← List.isChain_iff_pairwise, List.isChain_iff_getElem]
  intro i bound
  have isTime := List.getElem?_eq_getElem (Nat.lt_of_succ_lt bound)
  rcases opens.failed isTime bound with ⟨attempt, isAttempt, before⟩
  rcases opens.begun (List.getElem?_eq_getElem bound) with
    ⟨begun, isBegun, after⟩
  have ordered := (isPaced.next isAttempt isBegun).2
  exact (before.trans ordered).trans after

theorem Opens.apart (opens : Opens loop point clock closed current)
    (isPaced : loop.IsPaced feedPolicy) :
    Apart 6 longSession (closed ++ current) := by
  intro i first later isFirst isLater
  rcases List.getElem?_eq_some_iff.mp isLater with ⟨bound, -⟩
  -- the first is before its session failed, the last after its session began
  rcases opens.failed isFirst (by omega) with ⟨attempt, isAttempt, before⟩
  rcases opens.begun isLater with ⟨begun, isBegun, after⟩
  have apart : attempt.failed + feedPolicy.reset < begun :=
    @Loop.IsPaced.apart_failed _ _ _ isPaced 5 (by decide) (by decide) i
      attempt begun isAttempt isBegun
  have same : feedPolicy.reset = longSession := rfl
  omega

end Opens

/-! ## Later listings, and stale sessions -/

/-- The timers of the task, and what it has done by them. -/
structure Timed (slack : Nat) (task : Task Text)
    (past : List (Nat × Event Text)) : Prop where
  passed : ∀ label ∈ past, label.1 ≤ task.clock
  period : task.refresh.period = marketRefresh
  ticked : Gapped marketRefresh slack (times Event.isTick past)
  next : ∀ last ∈ (times Event.isTick past).getLast?,
    last + marketRefresh ≤ task.refresh.deadline + slack
  fresh : ∀ time ∈ times Event.resets past, time + staleAfter ≤ task.stale
  silent : past.Pairwise fun heard gaveUp =>
    heard.2.resets = true → gaveUp.2.isStale = true →
      heard.1 + staleAfter ≤ gaveUp.1

theorem timed_spawned (slack : Nat) (market : Market)
    (coinbase : Option CoinbaseFeedStatus) :
    Timed slack (Task.spawned market coinbase : Task Text) [] := by
  constructor
  · simp
  · rfl
  · exact List.isChain_nil
  · simp [times]
  · simp [times]
  · exact .nil

section Timed

variable {event : Event Text}

theorem Timed.times_le (timed : Timed slack task past)
    (which : Event Text → Bool) : ∀ time ∈ times which past,
      time ≤ task.clock := by
  intro time member
  rcases mem_of_mem_times member with ⟨event, member⟩
  exact timed.passed _ member

/-- A tick comes a period after the one before it, up to the slack. -/
theorem Timed.ticked_poll (timed : Timed slack task past)
    (changes : Changes slack readers task now event next) :
    Gapped marketRefresh slack
      (times Event.isTick (past ++ [(now, event)])) := by
  rw [times_concat]
  cases isTick : event.isTick with
  | true =>
      apply timed.ticked.concat
      intro last isLast
      have due := (Interval.tick_eq_some (changes.ticks isTick)).1
      have next := timed.next last isLast
      omega
  | false => simpa using timed.ticked

theorem Timed.next_poll (timed : Timed slack task past)
    (later : task.clock ≤ now)
    (changes : Changes slack readers task now event next) :
    ∀ last ∈ (times Event.isTick (past ++ [(now, event)])).getLast?,
      last + marketRefresh ≤ next.refresh.deadline + slack := by
  rw [times_concat]
  cases isTick : event.isTick with
  | true =>
      rcases Interval.tick_eq_some (changes.ticks isTick) with ⟨-, -, next⟩
      rw [timed.period] at next
      simpa using next
  | false =>
      intro last isLast
      have isLast : last ∈ (times Event.isTick past).getLast? := by
        simpa using isLast
      rcases changes.refresh isTick with same | fresh
      · rw [same]
        exact timed.next last isLast
      · -- a new interval runs from now on, which is after the last tick
        have early := timed.times_le _ last (List.mem_of_getLast? isLast)
        rw [fresh]
        dsimp only
        omega

/-- Every reset is at least the wait before `stale` runs out. -/
theorem Timed.fresh_poll (timed : Timed slack task past)
    (later : task.clock ≤ now)
    (changes : Changes slack readers task now event next) :
    ∀ time ∈ times Event.resets (past ++ [(now, event)]),
      time + staleAfter ≤ next.stale := by
  rw [times_concat]
  cases isReset : event.resets with
  | true =>
      rw [changes.resets isReset]
      intro time member
      rcases List.mem_append.mp member with old | new
      · have early := timed.times_le _ time old
        omega
      · cases List.mem_singleton.mp new
        exact Nat.le_refl _
  | false =>
      rw [changes.stale isReset]
      simpa using timed.fresh

theorem Timed.poll (timed : Timed slack task past)
    (later : task.clock ≤ now)
    (taken : poll slack readers task now event = some next) :
    Timed slack { next with clock := now } (past ++ [(now, event)]) := by
  have changes := changes_poll taken
  have ready := timed.next_poll later changes
  have fresh := timed.fresh_poll later changes
  refine ⟨?_, ?_, timed.ticked_poll changes, ready, fresh, ?_⟩
  · intro label member
    rcases List.mem_append.mp member with old | new
    · exact (timed.passed label old).trans later
    · cases List.mem_singleton.mp new
      exact Nat.le_refl now
  · cases isTick : event.isTick with
    | true =>
        exact (Interval.tick_eq_some (changes.ticks isTick)).2.1.trans
          timed.period
    | false =>
        rcases changes.refresh isTick with same | fresh
        · exact (congrArg Interval.period same).trans timed.period
        · exact congrArg Interval.period fresh
  · refine List.pairwise_append.mpr
      ⟨timed.silent, List.pairwise_singleton _ _, ?_⟩
    intro heard member gaveUp new isReset isStale
    cases List.mem_singleton.mp new
    have heardAt : heard.1 ∈ times Event.resets past :=
      List.mem_map_of_mem (List.mem_filter.mpr ⟨member, isReset⟩)
    exact (timed.fresh _ heardAt).trans (changes.due isStale)

end Timed

/-! ## Runs -/

/-- What holds of a task after what it has done. -/
structure Kept (slack : Nat) (task : Task Text)
    (past : List (Nat × Event Text)) : Prop where
  isPaced : task.loop.IsPaced feedPolicy
  opens : ∃ closed current,
    (times Event.isList past).Sublist (closed ++ current) ∧
      Opens task.loop task.point task.clock closed current
  timed : Timed slack task past

theorem Kept.step {label : Nat × Event Text} (kept : Kept slack task past)
    (taken : step slack readers task label = some next) :
    Kept slack next (past ++ [label]) := by
  rw [Timers.step] at taken
  split at taken
  next later =>
    rcases Option.map_eq_some_iff.mp taken with ⟨after, polled, rfl⟩
    rcases kept.opens with ⟨closed, current, part, opens⟩
    rcases Opens.poll polled opens later with ⟨closed', current', more, opens⟩
    refine ⟨?_, ⟨closed', current', ?_, opens⟩, kept.timed.poll later polled⟩
    · rcases (changes_poll polled).loop with same | ⟨turn, turned⟩
      · exact same ▸ kept.isPaced
      · exact kept.isPaced.turn turned
    · rw [times_concat]
      exact (part.append (List.Sublist.refl _)).trans more
  next => cases taken

theorem kept_spawned (slack : Nat) (market : Market)
    (coinbase : Option CoinbaseFeedStatus) :
    Kept slack (Task.spawned market coinbase : Task Text) [] where
  isPaced := isPaced_start _ _
  opens := ⟨[], [], List.Sublist.refl _,
    .nil, by simp [Task.spawned, Point.asked], fun _ => rfl,
    by simp [Task.spawned]⟩
  timed := timed_spawned slack market coinbase

end Steps

/--
Over a whole run a feed asks for no more than six first listings and three
others within a minute, and no session is given up within thirty seconds of a
frame.
-/
theorem listings_limited {slack : Nat} (short : 3 * slack < marketRefresh)
    (readers : Readers Text) (market : Market)
    (coinbase : Option CoinbaseFeedStatus)
    (labels : List (Nat × Event Text)) (final : Task Text)
    (reached : run (step slack readers) (.spawned market coinbase) labels =
      some final) :
    (∀ start,
      (inWindow start (60 * second) (times Event.isList labels)).length ≤ 6 ∧
      (inWindow start (60 * second) (times Event.isTick labels)).length ≤ 3) ∧
    labels.Pairwise fun heard gaveUp =>
      heard.2.resets = true → gaveUp.2.isStale = true →
        heard.1 + staleAfter ≤ gaveUp.1 := by
  have kept : Kept slack final labels :=
    history_of_guarded (Kept slack)
      (fun _ _ _ _ kept _ taken => kept.step taken)
      (kept_spawned slack market coinbase)
      (guarded_of_forall (fun _ _ => trivial) _ labels) reached
  refine ⟨fun start => ⟨?_, ?_⟩, kept.timed.silent⟩
  · rcases kept.opens with ⟨closed, current, part, opens⟩
    calc
      _ ≤ (inWindow start (60 * second) (closed ++ current)).length :=
        inWindow_of_sublist part
      _ ≤ 6 :=
        length_inWindow_le (opens.sorted kept.isPaced)
          (opens.apart kept.isPaced) start
  · have gapped := kept.timed.ticked
    have wide : slack ≤ marketRefresh := by omega
    refine length_inWindow_le (gapped.sorted wide) ?_ start
    intro i first later isFirst isLater
    have apart := gapped.apart 3 i first later isFirst isLater
    have two : 2 * marketRefresh = 60 * second := rfl
    omega

/-- A session that reads one frame, refreshes once and gives up. -/
def quietLabels : List (Nat × Event Value) :=
  [(0, .begin), (0, .list), (0, .listed (.ok [])), (10 * second, .read),
    (10 * second, .other), (30 * second, .tick),
    (31 * second, .ticked (.ok [])), (40 * second, .stale)]

theorem listings_limited_quietLabels :
    ∃ final, run (step 5000000 Readers.parsed) (.spawned btc15m none)
        quietLabels = some final ∧
      final.loop.log.length = 1 ∧
      (∀ start,
        (inWindow start (60 * second)
          (times Event.isList quietLabels)).length ≤ 6 ∧
        (inWindow start (60 * second)
          (times Event.isTick quietLabels)).length ≤ 3) ∧
      quietLabels.Pairwise fun heard gaveUp =>
        heard.2.resets = true → gaveUp.2.isStale = true →
          heard.1 + staleAfter ≤ gaveUp.1 := by
  have runs : (run (step 5000000 Readers.parsed) (.spawned btc15m none)
      quietLabels).map (fun final => final.loop.log.length) = some 1 := by
    decide +kernel
  rcases Option.map_eq_some_iff.mp runs with ⟨final, reached, ended⟩
  exact ⟨final, reached, ended,
    listings_limited (by decide) .parsed btc15m none _ final reached⟩

end ChudMoney.Feeds.Timers
