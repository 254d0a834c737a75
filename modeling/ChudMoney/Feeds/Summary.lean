import ChudMoney.Db.Queries
import ChudMoney.Lib.Permits
import ChudMoney.Lib.Runs

/-!
# The summary cache of each market

One task per market recomputes the summary of its tables.  The refreshes of
all markets share one permit, so that one runs at a time; a task that is
stopped gives the permit back wherever it is.  Readers of a market see the
last tables that were collected, and why the last attempt failed, if it did.
-/

namespace ChudMoney.Feeds.Summary

open ChudMoney.Db.Export
open ChudMoney.Db.Queries
open ChudMoney.Db.Rows
open ChudMoney.Lib.MachineInt
open ChudMoney.Lib.Permits
open ChudMoney.Lib.Runs
open ChudMoney.Model

/-! ## Collecting a summary -/

/-- Row count and time span of the rows one market key owns in one table. -/
structure TableSummary where
  table : String
  rows : Int64
  firstTs : Option String
  lastTs : Option String
  deriving DecidableEq

def TableSummary.default : TableSummary := ⟨"", 0, none, none⟩

/-- What QuestDB holds for one market. -/
structure QuestdbSummary where
  live : TableSummary
  hist : TableSummary
  contracts : TableSummary
  contractTicker : TableSummary
  contractBook : TableSummary
  coinbaseTicker : Option TableSummary
  coinbaseBook : Option TableSummary
  deriving DecidableEq

/-- The summaries in the order in which they are listed. -/
def QuestdbSummary.list (tables : QuestdbSummary) : List TableSummary :=
  [tables.live, tables.hist, tables.contracts, tables.contractTicker,
      tables.contractBook] ++
    tables.coinbaseTicker.toList ++ tables.coinbaseBook.toList

/-- The cached summaries plus how fresh they are. -/
structure SummarySnapshot where
  tables : Option QuestdbSummary
  refreshedAt : Option Int
  error : Option String
  deriving DecidableEq

def SummarySnapshot.default : SummarySnapshot := ⟨none, none, none⟩

/-- A connection to QuestDB: the first row of the answer to a statement. -/
structure Pg where
  connect : Except String Unit
  simpleQuery : String → Except String (Option (List (Option String)))

/-- The summary of one key, of the row that its statement is answered with. -/
def tableSummary (key : SummaryKey) (row : Option (List (Option String))) :
    TableSummary :=
  let col := fun i : Nat => (row.bind fun row => row[i]?).join
  { table := key.table
    rows := ((col 0).bind parseI64).getD 0
    firstTs := col 1
    lastTs := col 2 }

/-- `Questdb::summaries`; fails on the first error. -/
def summaries (pg : Pg) (keys : List SummaryKey) :
    Except String (List TableSummary) := do
  pg.connect
  keys.mapM fun key => do
    let row ← pg.simpleQuery (summarySql key)
    return tableSummary key row

/-- The entries in order, the last two only with a product. -/
def QuestdbSummary.gather (hasProduct : Bool) (it : List TableSummary) :
    QuestdbSummary :=
  let next := fun i : Nat => it[i]?.getD TableSummary.default
  { live := next 0
    hist := next 1
    contracts := next 2
    contractTicker := next 3
    contractBook := next 4
    coinbaseTicker := if hasProduct then some (next 5) else none
    coinbaseBook := if hasProduct then some (next 6) else none }

def collect (pg : Pg) (market : Market) : Except String QuestdbSummary :=
  (summaries pg (summaryKeys market)).map
    (.gather market.coinbaseProduct.isSome)

/-- An attempt to collect: QuestDB answered by some time, or it timed out. -/
inductive Attempt where
  | answered (pg : Pg) (now : Int)
  | timedOut

/-- What an attempt comes to. -/
def Attempt.result (market : Market) :
    Attempt → Except String (QuestdbSummary × Int)
  | .answered pg now => (collect pg market).map fun tables => (tables, now)
  | .timedOut => .error "timed out after 120s"

/-- A failed attempt keeps the previous tables and records the error. -/
def SummarySnapshot.refreshed (market : Market) (snap : SummarySnapshot)
    (attempt : Attempt) : SummarySnapshot :=
  match attempt.result market with
  | .ok (tables, now) => ⟨some tables, some now, none⟩
  | .error e => { snap with error := some e }

/-! ## Each key has its own summary -/

/-- The answer that a summary is made of. -/
def Answers (pg : Pg) (key : SummaryKey) (table : TableSummary) : Prop :=
  ∃ row, pg.simpleQuery (summarySql key) = .ok row ∧
    table = tableSummary key row

theorem answers_of_mapM {pg : Pg} {keys : List SummaryKey}
    {tables : List TableSummary}
    (done : (keys.mapM fun key => do
      let row ← pg.simpleQuery (summarySql key)
      return tableSummary key row) = .ok tables) :
    List.Forall₂ (Answers pg) keys tables := by
  induction keys generalizing tables with
  | nil =>
      cases done
      exact .nil
  | cons key keys ih =>
      rw [List.mapM_cons] at done
      cases answer : pg.simpleQuery (summarySql key) with
      | error e =>
          rw [answer] at done
          cases done
      | ok row =>
          rw [answer] at done
          cases rest : (keys.mapM fun key => do
              let row ← pg.simpleQuery (summarySql key)
              return tableSummary key row) with
          | error e =>
              rw [rest] at done
              cases done
          | ok others =>
              rw [rest] at done
              cases done
              exact .cons ⟨row, answer, rfl⟩ (ih rest)

/-- `summaries` returns exactly one entry per key, in order. -/
theorem answers_of_summaries {pg : Pg} {keys : List SummaryKey}
    {tables : List TableSummary} (done : summaries pg keys = .ok tables) :
    List.Forall₂ (Answers pg) keys tables := by
  rw [summaries] at done
  cases connected : pg.connect with
  | error e =>
      rw [connected] at done
      cases done
  | ok _ =>
      rw [connected] at done
      exact answers_of_mapM done

/-- No entry is made up, and none is left over. -/
theorem list_gather {hasProduct : Bool} {it : List TableSummary}
    (length : it.length = if hasProduct then 7 else 5) :
    (QuestdbSummary.gather hasProduct it).list = it := by
  cases hasProduct with
  | true =>
      match it, length with
      | [_, _, _, _, _, _, _], _ => rfl
  | false =>
      match it, length with
      | [_, _, _, _, _], _ => rfl

theorem length_summaryKeys (market : Market) :
    (summaryKeys market).length =
      if market.coinbaseProduct.isSome then 7 else 5 := by
  rw [summaryKeys]
  cases market.coinbaseProduct <;> rfl

/-- What is collected lists the summaries of the market's keys, each its own. -/
theorem answers_of_collect {pg : Pg} {market : Market}
    {tables : QuestdbSummary} (done : collect pg market = .ok tables) :
    List.Forall₂ (Answers pg) (summaryKeys market) tables.list := by
  rw [collect] at done
  cases listed : summaries pg (summaryKeys market) with
  | error e =>
      rw [listed] at done
      cases done
  | ok it =>
      have answers := answers_of_summaries listed
      rw [listed] at done
      cases done
      rw [list_gather (answers.length_eq.symm.trans
        (length_summaryKeys market))]
      exact answers

/-! ## The tasks of all markets -/

/-- Where the loop of a task is; `collecting` holds the permit. -/
inductive Phase where
  | sleeping
  | waiting
  | collecting
  | aborted
  deriving DecidableEq

structure SummaryTask where
  market : Market
  phase : Phase
  snapshot : SummarySnapshot

def SummaryTask.holds (task : SummaryTask) : Bool := task.phase = .collecting

/-- The free permits of `REFRESH_SLOT`, and the tasks spawned so far. -/
structure World where
  free : Nat
  tasks : List SummaryTask

/-- One market's refresh at a time, whatever the number of markets. -/
def refreshSlot : Nat := 1

def World.start : World := ⟨refreshSlot, []⟩

inductive Action where
  | spawn (market : Market)
  | tick (i : Nat)
  | acquire (i : Nat)
  | finish (i : Nat) (attempt : Attempt)
  | abort (i : Nat)

/-- One task goes from a phase to another, with the permits that are left. -/
def World.move (world : World) (i : Nat)
    (f : SummaryTask → Option (Nat × SummaryTask)) : Option World :=
  (world.tasks[i]?).bind fun task =>
    (f task).map fun (free, task) => ⟨free, world.tasks.set i task⟩

/-- One step of `run_summary_refresh` of some market, or its start or end. -/
def step (world : World) : Action → Option World
  | .spawn market =>
      some { world with
        tasks := world.tasks ++ [⟨market, .sleeping, .default⟩] }
  | .tick i =>
      world.move i fun task =>
        if task.phase = .sleeping then
          some (world.free, { task with phase := .waiting })
        else none
  | .acquire i =>
      world.move i fun task =>
        if task.phase = .waiting ∧ 0 < world.free then
          some (world.free - 1, { task with phase := .collecting })
        else none
  | .finish i attempt =>
      world.move i fun task =>
        if task.phase = .collecting then
          some (world.free + 1,
            { task with
              phase := .sleeping
              snapshot := task.snapshot.refreshed task.market attempt })
        else none
  | .abort i =>
      world.move i fun task =>
        if task.phase = .aborted then none
        else
          some (world.free + (if task.holds then 1 else 0),
            { task with phase := .aborted })

/-! ## What a step can do -/

/-- What a step does to its task, and the permits that it leaves. -/
inductive Moves (free i : Nat) (task : SummaryTask) :
    Action → Nat → SummaryTask → Prop where
  | tick : task.phase = .sleeping →
      Moves free i task (.tick i) free { task with phase := .waiting }
  | acquire : task.phase = .waiting → 0 < free →
      Moves free i task (.acquire i) (free - 1)
        { task with phase := .collecting }
  | finish (attempt : Attempt) : task.phase = .collecting →
      Moves free i task (.finish i attempt) (free + 1)
        { task with
          phase := .sleeping
          snapshot := task.snapshot.refreshed task.market attempt }
  | abort :
      Moves free i task (.abort i) (free + (if task.holds then 1 else 0))
        { task with phase := .aborted }

theorem move_eq_some {world next : World} {i : Nat}
    {f : SummaryTask → Option (Nat × SummaryTask)}
    (moved : world.move i f = some next) :
    ∃ before left after, world.tasks[i]? = some before ∧
      f before = some (left, after) ∧
      next = ⟨left, world.tasks.set i after⟩ := by
  rcases Option.bind_eq_some_iff.mp moved with ⟨before, isTask, moved⟩
  rcases Option.map_eq_some_iff.mp moved with ⟨⟨left, after⟩, does, rfl⟩
  exact ⟨before, left, after, isTask, does, rfl⟩

theorem step_cases {world next : World} {action : Action}
    (taken : step world action = some next) :
    (∃ market, action = .spawn market ∧
      next = { world with
        tasks := world.tasks ++ [⟨market, .sleeping, .default⟩] }) ∨
    ∃ i before left after, world.tasks[i]? = some before ∧
      Moves world.free i before action left after ∧
      next = ⟨left, world.tasks.set i after⟩ := by
  cases action with
  | spawn market =>
      cases taken
      exact .inl ⟨market, rfl, rfl⟩
  | tick i =>
      rcases move_eq_some taken with ⟨before, left, after, isTask, does, rfl⟩
      split at does
      case isFalse => cases does
      next sleeping =>
        cases does
        exact .inr ⟨i, before, _, _, isTask, .tick sleeping, rfl⟩
  | acquire i =>
      rcases move_eq_some taken with ⟨before, left, after, isTask, does, rfl⟩
      split at does
      case isFalse => cases does
      next waiting =>
        cases does
        exact .inr ⟨i, before, _, _, isTask, .acquire waiting.1 waiting.2, rfl⟩
  | finish i attempt =>
      rcases move_eq_some taken with ⟨before, left, after, isTask, does, rfl⟩
      split at does
      case isFalse => cases does
      next collecting =>
        cases does
        exact .inr ⟨i, before, _, _, isTask, .finish attempt collecting, rfl⟩
  | abort i =>
      rcases move_eq_some taken with ⟨before, left, after, isTask, does, rfl⟩
      split at does
      · cases does
      · cases does
        exact .inr ⟨i, before, _, _, isTask, .abort, rfl⟩

/-! ## One refresh at a time -/

/-- The permit is free or held, whatever the interleaving. -/
theorem conserved_step {world next : World} {action : Action}
    (conserved : Conserved SummaryTask.holds refreshSlot world.free world.tasks)
    (taken : step world action = some next) :
    Conserved SummaryTask.holds refreshSlot next.free next.tasks := by
  rcases step_cases taken with
    ⟨market, -, rfl⟩ | ⟨i, before, left, after, isTask, moves, rfl⟩
  · exact conserved.concat rfl
  · apply conserved.set isTask
    cases moves with
    | tick sleeping => simp [held, SummaryTask.holds, sleeping]
    | acquire waiting free =>
        simp only [held, SummaryTask.holds, waiting, decide_true, if_true,
          reduceCtorEq, decide_false, Bool.false_eq_true, if_false]
        omega
    | finish attempt collecting => simp [held, SummaryTask.holds, collecting]
    | abort => simp [held, SummaryTask.holds]

theorem conserved_of_run {actions : List Action} {final : World}
    (reached : run step .start actions = some final) :
    Conserved SummaryTask.holds refreshSlot final.free final.tasks :=
  invariant_of_run
    (fun world =>
      Conserved SummaryTask.holds refreshSlot world.free world.tasks)
    (fun _ _ _ conserved taken => conserved_step conserved taken)
    (conserved_nil SummaryTask.holds refreshSlot) reached

/-! ## What the cache holds -/

/-- The attempts of one task, in order. -/
def attempts (i : Nat) (_ : World) : Action → List Attempt
  | .finish j attempt => if j = i then [attempt] else []
  | .spawn _ | .tick _ | .acquire _ | .abort _ => []

/-- What an attempt that succeeded has collected, and when. -/
def Attempt.success (market : Market) (attempt : Attempt) :
    Option (QuestdbSummary × Int) :=
  (attempt.result market).toOption

def Attempt.failure (market : Market) (attempt : Attempt) : Option String :=
  match attempt.result market with
  | .ok _ => none
  | .error e => some e

/-- The last success, and the failure of the last attempt. -/
def cached (market : Market) (tries : List Attempt) : SummarySnapshot :=
  let last := (tries.filterMap (Attempt.success market)).getLast?
  { tables := last.map Prod.fst
    refreshedAt := last.map Prod.snd
    error := tries.getLast?.bind (Attempt.failure market) }

theorem cached_concat (market : Market) (tries : List Attempt)
    (attempt : Attempt) :
    cached market (tries ++ [attempt]) =
      (cached market tries).refreshed market attempt := by
  rw [cached, List.filterMap_append, List.getLast?_concat,
    SummarySnapshot.refreshed]
  cases result : attempt.result market with
  | error e =>
      simp [cached, Attempt.success, Attempt.failure, result, Except.toOption]
  | ok both =>
      simp [Attempt.success, Attempt.failure, result, Except.toOption]

/-- What is known of the task at a place, and of its attempts so far. -/
structure Keeps (i : Nat) (world : World) (tries : List Attempt) : Prop where
  absent : world.tasks[i]? = none → tries = []
  snapshot : ∀ task, world.tasks[i]? = some task →
    task.snapshot = cached task.market tries

/-- A move refreshes the cache of its task, or leaves it alone. -/
theorem snapshot_moves {free i left : Nat} {world : World}
    {before after : SummaryTask} {action : Action} {tries : List Attempt}
    (snapshot : before.snapshot = cached before.market tries)
    (moves : Moves free i before action left after) :
    after.snapshot =
      cached after.market (tries ++ attempts i world action) := by
  cases moves with
  | tick sleeping =>
      rw [attempts, List.append_nil]
      exact snapshot
  | acquire waiting isFree =>
      rw [attempts, List.append_nil]
      exact snapshot
  | finish attempt collecting =>
      rw [attempts, if_pos rfl, cached_concat, ← snapshot]
  | abort =>
      rw [attempts, List.append_nil]
      exact snapshot

theorem attempts_of_ne {free i j left : Nat} {world : World}
    {before after : SummaryTask} {action : Action}
    (moves : Moves free j before action left after) (other : j ≠ i) :
    attempts i world action = [] := by
  cases moves with
  | tick sleeping => rfl
  | acquire waiting isFree => rfl
  | finish attempt collecting => exact if_neg other
  | abort => rfl

theorem keeps_step {i : Nat} {world next : World} {action : Action}
    {tries : List Attempt} (keeps : Keeps i world tries)
    (taken : step world action = some next) :
    Keeps i next (tries ++ attempts i world action) := by
  rcases step_cases taken with
    ⟨market, rfl, rfl⟩ | ⟨j, before, left, after, isTask, moves, rfl⟩
  · rw [attempts, List.append_nil]
    have grown : (world.tasks ++ [⟨market, .sleeping, .default⟩])[i]? =
        if i < world.tasks.length then world.tasks[i]?
        else [⟨market, .sleeping, .default⟩][i - world.tasks.length]? :=
      List.getElem?_append
    constructor
    · intro absent
      have absent : (world.tasks ++
          [⟨market, .sleeping, .default⟩])[i]? = none := absent
      apply keeps.absent
      rw [List.getElem?_eq_none_iff, List.length_append] at absent
      rw [List.getElem?_eq_none_iff]
      omega
    · intro task isTask
      rw [show World.tasks _ = world.tasks ++ _ from rfl, grown] at isTask
      split at isTask
      · exact keeps.snapshot task isTask
      next outside =>
        have absent : world.tasks[i]? = none :=
          List.getElem?_eq_none_iff.mpr (Nat.le_of_not_lt outside)
        rw [keeps.absent absent]
        rcases List.getElem?_eq_some_iff.mp isTask with ⟨bound, isNew⟩
        rw [← isNew, List.getElem_singleton]
        rfl
  · have tasks : (World.tasks ⟨left, world.tasks.set j after⟩) =
        world.tasks.set j after := rfl
    by_cases same : j = i
    · subst same
      rcases List.getElem?_eq_some_iff.mp isTask with ⟨bound, -⟩
      have isAfter : (world.tasks.set j after)[j]? = some after :=
        List.getElem?_set_self bound
      constructor
      · intro absent
        rw [tasks, isAfter] at absent
        cases absent
      · intro task isTask'
        rw [tasks, isAfter] at isTask'
        cases isTask'
        exact snapshot_moves (keeps.snapshot before isTask) moves
    · rw [attempts_of_ne moves same, List.append_nil]
      constructor
      · intro absent
        rw [tasks, List.getElem?_set_ne same] at absent
        exact keeps.absent absent
      · intro task isOther
        rw [tasks, List.getElem?_set_ne same] at isOther
        exact keeps.snapshot task isOther

theorem keeps_of_run {actions : List Action} {final : World} (i : Nat)
    (reached : run step .start actions = some final) :
    Keeps i final (observed step (attempts i) .start actions) :=
  observed_of_guarded (Keeps i)
    (fun _ _ _ _ keeps _ taken => keeps_step keeps taken)
    ⟨fun _ => rfl, fun _ isTask => by cases isTask⟩
    (guarded_of_forall (fun _ _ => trivial) _ actions) reached

/-- A success has the tables that QuestDB answered for each of the keys. -/
theorem answers_of_success {market : Market} {attempt : Attempt}
    {tables : QuestdbSummary} {now : Int}
    (success : attempt.success market = some (tables, now)) :
    ∃ pg, attempt = .answered pg now ∧
      List.Forall₂ (Answers pg) (summaryKeys market) tables.list := by
  cases attempt with
  | timedOut => cases success
  | answered pg time =>
      cases collected : collect pg market with
      | error e =>
          simp [Attempt.success, Attempt.result, collected, Except.map,
            Except.toOption] at success
      | ok both =>
          simp only [Attempt.success, Attempt.result, collected, Except.map,
            Except.toOption, Option.some.injEq, Prod.mk.injEq] at success
          rcases success with ⟨rfl, rfl⟩
          exact ⟨pg, rfl, answers_of_collect collected⟩

/-- The permit is free, or some task holds it. -/
theorem acquires_or_collecting {world : World}
    (conserved : Conserved SummaryTask.holds refreshSlot world.free world.tasks)
    {i : Nat} {task : SummaryTask} (isTask : world.tasks[i]? = some task)
    (waiting : task.phase = .waiting) :
    (step world (.acquire i)).isSome ∨
      ∃ other ∈ world.tasks, other.phase = .collecting := by
  by_cases isFree : 0 < world.free
  · left
    simp [step, World.move, isTask, waiting, isFree]
  · right
    have taken := conserved.free_eq_zero_iff.mp (Nat.eq_zero_of_not_pos isFree)
    have some : 0 < world.tasks.countP SummaryTask.holds := by
      rw [taken]
      exact Nat.one_pos
    rcases List.countP_pos_iff.mp some with ⟨other, member, holds⟩
    exact ⟨other, member, of_decide_eq_true holds⟩

/-- The cache of a task whose attempts are known. -/
theorem tables_cached {market : Market} {tries : List Attempt}
    {tables : QuestdbSummary}
    (isCached : (cached market tries).tables = some tables) :
    ∃ pg now, .answered pg now ∈ tries ∧
      (cached market tries).refreshedAt = some now ∧
      List.Forall₂ (Answers pg) (summaryKeys market) tables.list := by
  rcases Option.map_eq_some_iff.mp isCached with ⟨⟨_, now⟩, isLast, rfl⟩
  rcases List.mem_filterMap.mp (List.mem_of_getLast? isLast) with
    ⟨attempt, member, success⟩
  rcases answers_of_success success with ⟨pg, rfl, answers⟩
  refine ⟨pg, now, member, ?_, answers⟩
  rw [cached, isLast]
  rfl

/--
Whatever the interleaving of the tasks of all markets, with tasks stopped at
any point, one refresh runs at a time and a waiting task is never stuck; and a
market is shown the tables that QuestDB answered to the last attempt that
succeeded, each key's in its place, with the error of the last attempt.
-/
theorem summaries_cached (actions : List Action) (final : World)
    (reached : run step .start actions = some final) :
    (∀ (i j : Nat) (first second : SummaryTask),
      final.tasks[i]? = some first → final.tasks[j]? = some second →
      first.phase = .collecting → second.phase = .collecting → i = j) ∧
    (∀ (i : Nat) (task : SummaryTask), final.tasks[i]? = some task →
      task.phase = .waiting →
      (step final (.acquire i)).isSome ∨
        ∃ other ∈ final.tasks, other.phase = .collecting) ∧
    ∀ (i : Nat) (task : SummaryTask), final.tasks[i]? = some task →
      let tries := observed step (attempts i) .start actions
      task.snapshot = cached task.market tries ∧
        ∀ tables, task.snapshot.tables = some tables →
          ∃ pg now, .answered pg now ∈ tries ∧
            task.snapshot.refreshedAt = some now ∧
            List.Forall₂ (Answers pg) (summaryKeys task.market)
              tables.list := by
  have conserved := conserved_of_run reached
  refine ⟨?_, ?_, ?_⟩
  · intro i j first second isFirst isSecond collects alsoCollects
    exact conserved.unique isFirst isSecond
      (by simp [SummaryTask.holds, collects])
      (by simp [SummaryTask.holds, alsoCollects])
  · intro i task isTask waiting
    exact acquires_or_collecting conserved isTask waiting
  · intro i task isTask tries
    have snapshot : task.snapshot = cached task.market tries :=
      (keeps_of_run i reached).snapshot task isTask
    refine ⟨snapshot, ?_⟩
    rw [snapshot]
    exact fun tables isCached => tables_cached isCached

/-- A database that has three rows of every key. -/
def threeRows : Pg :=
  ⟨.ok (), fun _ => .ok (some [some "3", some "a", some "b"])⟩

/-- A task is stopped while it collects; the other one goes on. -/
def twoMarkets : List Action :=
  [.spawn btc15m, .spawn btc15m, .tick 0, .tick 1, .acquire 0, .abort 0,
    .acquire 1, .finish 1 (.answered threeRows 60), .tick 1, .acquire 1,
    .finish 1 .timedOut, .tick 1]

theorem summaries_cached_twoMarkets :
    ∃ final task,
      run step .start twoMarkets = some final ∧
        final.tasks[1]? = some task ∧
        task.snapshot =
          cached task.market
            (observed step (attempts 1) .start twoMarkets) ∧
        (step final (.acquire 1)).isSome := by
  have runs :
      (run step .start twoMarkets).map (fun final =>
        (final.tasks[1]?.map SummaryTask.phase,
          decide (final.tasks.any SummaryTask.holds))) =
        some (some .waiting, false) := by
    decide +kernel
  rcases Option.map_eq_some_iff.mp runs with ⟨final, reached, ends⟩
  simp only [Prod.mk.injEq] at ends
  rcases Option.map_eq_some_iff.mp ends.1 with ⟨task, isTask, waiting⟩
  rcases summaries_cached twoMarkets final reached with ⟨-, next, snapshots⟩
  refine ⟨final, task, reached, isTask, (snapshots 1 task isTask).1, ?_⟩
  rcases next 1 task isTask waiting with acquires | ⟨other, member, collects⟩
  · exact acquires
  · have holds : final.tasks.any SummaryTask.holds = true :=
      List.any_eq_true.mpr
        ⟨other, member, by simp [SummaryTask.holds, collects]⟩
    rw [holds] at ends
    exact absurd ends.2 (by decide)

end ChudMoney.Feeds.Summary
