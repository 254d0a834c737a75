import ChudMoney.Controllers.ContractsLoop

/-!
# The task of a backfill job

`runJob` runs the loop of a job's kind and writes how it ended.  A panic in the
loop ends the task without that write.
-/

namespace ChudMoney.Controllers.RunJob

open ChudMoney.Controllers.ContractsLoop
open ChudMoney.Controllers.IngestJobs
open ChudMoney.Controllers.IngestLoop
open ChudMoney.Controllers.JobLog
open ChudMoney.Controllers.Periods
open ChudMoney.Controllers.Throttled
open ChudMoney.Db.Rows
open ChudMoney.Feeds.Shared
open ChudMoney.Kalshi.Rest
open ChudMoney.Lib.Json
open ChudMoney.Lib.MachineInt
open ChudMoney.Lib.Programs
open ChudMoney.Lib.Programs.Program
open ChudMoney.Lib.Text
open ChudMoney.Model

section Run

variable (env : Env)

/-- The loop of a job's kind. -/
def loop (timespan : Timespan) (fuel : Nat) (kind : IngestKind) :
    TaskM Unit :=
  match kind with
  | .index => ingestLoop env timespan fuel
  | .contracts => contractsLoop env fuel

/-- The job when its loop has ended. -/
def settled (outcome : Except Error Unit) (now : Int) (job : IngestJob) :
    IngestJob :=
  match outcome with
  | .ok () => { job with finishedAt := some now, status := .done }
  | .error e =>
      { job with
        finishedAt := some now
        status := .failed
        error := some e.alternate }

/-- Write how a job ended. -/
def close (outcome : Except Error Unit) : TaskM Unit := do
  let now ← ask fun n => (env.utcNow n).val
  modifyJob (settled outcome now)
  publish

def runJob (timespan : Timespan) (fuel : Nat) : TaskM Unit := do
  let job ← getJob
  let outcome ← attempt (loop env timespan fuel job.kind)
  close env outcome

end Run

/-! ## A job whose loop ends is written -/

/-- The task's last write says how its job ended. -/
def Finished (task : Task) : Prop :=
  task.job.status ≠ .running ∧
    ∃ earlier, task.log = earlier ++ [.published task.job]

section Ends

variable {env : Env} {timespan : Timespan} {task : Task}

theorem status_settled (outcome : Except Error Unit) (now : Int)
    (job : IngestJob) : (settled outcome now job).status ≠ .running := by
  cases outcome <;> exact fun same => nomatch same

theorem close_finished (outcome : Except Error Unit) :
    (close env outcome task).1 = .ok () ∧
      Finished (close env outcome task).2 :=
  ⟨rfl, status_settled _ _ _, _, rfl⟩

/-- However its loop ends, short of a panic, a job is written as ended. -/
theorem runJob_finished (fuel : Nat)
    (ends : wp (loop env timespan fuel task.job.kind)
      (Ended False False fun _ _ => True) task) :
    (runJob env timespan fuel task).1 = .ok () ∧
      Finished (runJob env timespan fuel task).2 := by
  have runs : wp (runJob env timespan fuel)
      (fun out after => out = .ok () ∧ Finished after) task := by
    unfold runJob
    rw [wp_bind, wp_getJob, continues_ok, wp_bind, wp_attempt]
    apply wp_mono ends
    intro out after ended
    cases out with
    | ok value => exact close_finished (.ok value)
    | error e => exact close_finished (.error e)
    | panic => exact ended.elim
    | pending => exact ended.elim
  exact runs

end Ends

/-! ## Every part of an index backfill ends -/

section Index

variable {env : Env} {task : Task} {panics pends : Prop}

/-- The job is at a cursor of its range. -/
def At (cursorMs endMs : Int64) (task : Task) : Prop :=
  task.job.cursorMs = cursorMs ∧ task.job.endMs = endMs

theorem steady_at (call : Call) (cursorMs endMs : Int64) :
    Steady call (At cursorMs endMs) := by
  constructor
  · exact fun _ _ _ at_ => at_
  · exact fun _ _ at_ => at_
  · exact fun _ at_ => at_
  · exact fun _ _ _ _ at_ => at_
  · exact fun _ _ _ at_ => at_

/-- A call ends, and moves nothing but counters. -/
theorem throttled_ended {α : Type} {call : Call}
    {method : KalshiClient → Except KalshiError α} {cursorMs endMs : Int64}
    (at_ : At cursorMs endMs task) {fuel : Nat}
    (enough : pends ∨ 301 ≤ fuel) :
    wp (throttled env call method fuel)
      (Ended panics pends fun value after => At cursorMs endMs after ∧
        ∃ n, method (env.client n) = .ok value) task := by
  have kept := @throttled_keeps _ env _ method _
    (steady_at call cursorMs endMs) fuel _ at_
  unfold wp
  rcases @throttled_cases _ env call method task fuel with
    ⟨n, -, -, ends⟩ | ⟨repeated, ranOut⟩
  · generalize throttled env call method fuel task = result at *
    cases ends with
    | through value outcome => exact ⟨kept, _, outcome⟩
    | failed e => exact trivial
    | gaveUp e => exact trivial
  · have bound := repeated.le
    rw [ranOut]
    exact enough.resolve_right (by omega)

/-- Queueing rows ends, and moves nothing but their count. -/
theorem queueRows_ended (rows : List Row) {cursorMs endMs : Int64}
    (at_ : At cursorMs endMs task) :
    wp (queueRows env rows)
      (Ended panics pends fun _ after => At cursorMs endMs after) task := by
  rcases queueRows_spec env rows task with ⟨sent, left, -, -, same, ends⟩
  unfold wp
  rcases ends with ⟨ok, -⟩ | ⟨e, error⟩
  · rw [ok]
    show At cursorMs endMs _
    rw [At, same]
    exact at_
  · rw [error]
    exact trivial

/-- Every call for history that gets through is answered with the payload. -/
def Payload (env : Env) (raw : Value) : Prop :=
  ∀ n indexId periodMs span values other,
    (env.client n).cfHistoryValues indexId periodMs span =
      .ok (values, other) → other = raw

/-- The logged sample panics on this payload. -/
def Unsliceable (env : Env) (raw : Value) : Prop :=
  sample (raw.write env.writeF64) = none

/-- Fetching a window ends, and steps to the next one. -/
theorem fetchWindow_ended {raw : Value} (payload : Payload env raw)
    {cursorMs endMs : Int64} (at_ : At cursorMs endMs task)
    (nextMs : Int64) {callFuel : Nat} (enough : pends ∨ 301 ≤ callFuel)
    (loggedSample : Bool) :
    wp (fetchWindow env nextMs callFuel loggedSample)
      (Ended (Unsliceable env raw) pends fun _ after => At nextMs endMs after)
      task := by
  unfold fetchWindow
  rw [wp_bind, wp_getJob, continues_ok]
  apply ended_bind (throttled_ended at_ enough)
  rintro ⟨values, answer⟩ after ⟨at_, n, answered⟩
  cases payload _ _ _ _ _ _ answered
  apply @ended_bind _ _ _ _ _ _ _ _ _
    fun _ after => At cursorMs endMs after
  · unfold logSample
    cases loggedSample with
    | true => exact at_
    | false =>
        cases cut : sample (raw.write env.writeF64) with
        | some text => exact at_
        | none => exact cut
  · intro _ logged at_
    unfold storeWindow
    rw [wp_bind, wp_getJob, continues_ok]
    apply ended_bind (queueRows_ended _ at_)
    intro _ stored at_
    exact ⟨rfl, at_.2⟩

theorem skipWindow_ended (nextMs nowMs : Int64) {cursorMs endMs : Int64}
    (at_ : At cursorMs endMs task) :
    wp (skipWindow nextMs nowMs)
      (Ended panics pends fun _ after => At nextMs endMs after) task :=
  ⟨rfl, at_.2⟩

/-- The loop ends, with fuel for its windows. -/
theorem windows_ended {raw : Value} (payload : Payload env raw)
    (existing : HashMap Int64 Int64) {callFuel : Nat}
    (enough : pends ∨ 301 ≤ callFuel) (fuel : Nat) (loggedSample : Bool)
    (end_ : task.job.endMs.toInt < 8210266876800000)
    (short : pends ∨ 0 < fuel ∧
      task.job.endMs.toInt - task.job.cursorMs.toInt ≤
        ((fuel : Int) - 1) * hourMs) :
    wp (windows env ingestTimespan existing callFuel fuel loggedSample)
      (Ended (Unsliceable env raw) pends fun _ _ => True) task := by
  induction fuel generalizing task loggedSample with
  | zero => exact short.resolve_right fun some_ => Nat.lt_irrefl 0 some_.1
  | succ fuel ih =>
      rcases Int64.lt_or_le task.job.cursorMs task.job.endMs with
        before | done
      · have below := Int64.lt_iff_toInt_lt.mp before
        have next : (ingestTimespan.next task.job.cursorMs).toInt =
            task.job.cursorMs.toInt + hourMs :=
          toInt_add_length (below.trans end_) (by decide) (by decide)
        have shorter : ∀ {after : Task},
            At (ingestTimespan.next task.job.cursorMs) task.job.endMs after →
            pends ∨ 0 < fuel ∧
              after.job.endMs.toInt - after.job.cursorMs.toInt ≤
                ((fuel : Int) - 1) * hourMs := by
          rintro after ⟨cursor, sameEnd⟩
          rw [cursor, sameEnd, next]
          apply short.imp_right
          rintro ⟨-, short⟩
          unfold hourMs at *
          omega
        unfold wp
        cases complete : indexWindowComplete
            (existing.getD task.job.cursorMs 0) task.job.cursorMs
            (ingestTimespan.next task.job.cursorMs) task.job.startMs
            task.job.endMs (timestampMillis (env.utcNow task.asked)) with
        | true =>
            rw [windows_skip env _ existing callFuel _ loggedSample before
              complete]
            apply ended_bind (skipWindow_ended _ _ ⟨rfl, rfl⟩)
            intro _ after at_
            exact ih loggedSample (at_.2 ▸ end_) (shorter at_)
        | false =>
            rw [windows_fetch env _ existing callFuel _ loggedSample before
              complete]
            apply ended_bind (fetchWindow_ended payload ⟨rfl, rfl⟩ _ enough
              loggedSample)
            intro _ after at_
            exact ih true (at_.2 ▸ end_) (shorter at_)
      · unfold wp
        rw [windows_done env _ existing callFuel _ loggedSample done]
        exact trivial

/-- An index backfill ends, and panics only on its payload. -/
theorem ingestLoop_ended {raw : Value} (payload : Payload env raw)
    (end_ : task.job.endMs.toInt < 8210266876800000) {fuel : Nat}
    (enough : pends ∨ 301 ≤ fuel ∧
      task.job.endMs.toInt - task.job.cursorMs.toInt ≤
        ((fuel : Int) - 1) * hourMs) :
    wp (ingestLoop env ingestTimespan fuel)
      (Ended (Unsliceable env raw) pends fun _ _ => True) task := by
  rcases existingRows_apply env ingestTimespan task with ⟨asked, stored⟩
  unfold wp
  rw [ingestLoop, bind_apply, stored, andThen_ok]
  apply windows_ended payload
  · exact enough.imp_right And.left
  · exact end_
  · exact enough.imp_right fun both => ⟨by omega, both.2⟩

end Index

/-! ## The bytes of the sample -/

/-- To cut at a number of bytes is to find the characters before it. -/
theorem takeBytes_eq_some_iff {n : Nat} {text head : List Char} :
    takeBytes n text = some head ↔
      head <+: text ∧ (head.map Char.utf8Size).sum = n := by
  induction text generalizing n head with
  | nil =>
      cases n with
      | zero =>
          simp only [takeBytes, Option.some.injEq, List.prefix_nil]
          constructor
          · rintro rfl
            exact ⟨rfl, rfl⟩
          · exact fun both => both.1.symm
      | succ n =>
          rw [takeBytes]
          constructor
          · rintro ⟨⟩
          · rintro ⟨isPrefix, bytes⟩
            rw [List.prefix_nil.mp isPrefix] at bytes
            cases bytes
  | cons c rest ih =>
      cases n with
      | zero =>
          rw [takeBytes]
          cases head with
          | nil => simp
          | cons first head =>
              have positive := first.utf8Size_pos
              simp
              omega
      | succ n =>
          rw [takeBytes]
          split
          · rw [Option.map_eq_some_iff]
            constructor
            · rintro ⟨later, cut, rfl⟩
              rcases ih.mp cut with ⟨isPrefix, bytes⟩
              refine ⟨List.cons_prefix_cons.mpr ⟨rfl, isPrefix⟩, ?_⟩
              simp only [List.map_cons, List.sum_cons, bytes]
              omega
            · rintro ⟨isPrefix, bytes⟩
              cases head with
              | nil => cases bytes
              | cons first later =>
                  rcases List.cons_prefix_cons.mp isPrefix with ⟨rfl, rest⟩
                  rw [List.map_cons, List.sum_cons] at bytes
                  exact ⟨later, ih.mpr ⟨rest, by omega⟩, rfl⟩
          · constructor
            · rintro ⟨⟩
            · rintro ⟨isPrefix, bytes⟩
              cases head with
              | nil => cases bytes
              | cons first later =>
                  rcases List.cons_prefix_cons.mp isPrefix with ⟨rfl, rest⟩
                  rw [List.map_cons, List.sum_cons] at bytes
                  omega

/-- The first bytes of a text that are logged end between two characters. -/
def Sliceable (text : String) : Prop :=
  ∃ head, head <+: text.toList ∧
    (head.map Char.utf8Size).sum = min text.utf8ByteSize sampleBytes

theorem sample_eq_none_iff {text : String} :
    sample text = none ↔ ¬ Sliceable text := by
  rw [Option.eq_none_iff_forall_ne_some]
  unfold Sliceable sample
  simp only [ne_eq, takeBytes_eq_some_iff, not_exists]

/-! ## A service that has one payload -/

/-- Each call for history is answered with the payload. -/
def payloadClient (raw : Value) (writeF64 : F64 → String) : KalshiClient where
  send _ := .ok ⟨200, ""⟩
  readValue _ := .ok (.object [("data", .object [("payload", raw)])])
  readMarketsPage _ := .error "missing field 'markets' at line 1 column 2"
  readCutoff _ := .error "missing field 'market_settled_ts' at line 1 column 2"
  parseFromRfc3339 _ := none
  toRfc3339Millis _ := "1970-01-01T00:00:00.000Z"
  writeF64 := writeF64

def payloadEnv (raw : Value) (writeF64 : F64 → String) : Env where
  client _ := payloadClient raw writeF64
  took _ := 50000000
  utcNow _ := fromSeconds 7200
  isOpen _ := true
  indexCounts _ _ _ _ _ := .ok ∅
  candleCounts _ _ _ _ := .ok ∅
  writeF64 := writeF64

/-- The first hour. -/
def hourRequest : IngestRequest where
  tag := "btc-15m"
  kind := .index
  start := fromSeconds 0
  «end» := fromSeconds 3600
  force := false

def hourJob : IngestJob :=
  hourRequest.job btc15m "5f0c" 0

theorem payload_payloadEnv (raw : Value) (writeF64 : F64 → String) :
    Payload (payloadEnv raw writeF64) raw := by
  intro n indexId periodMs span values other answer
  rw [KalshiClient.cfHistoryValues] at answer
  split at answer
  · cases answer
  · cases answer
    rfl

/-- The first window that is fetched ends the task if its payload does. -/
theorem windows_panics {env : Env} {existing : HashMap Int64 Int64}
    {callFuel : Nat} (fuel : Nat) (task : Task) {after : Task}
    (before : task.job.cursorMs < task.job.endMs)
    (incomplete : indexWindowComplete (existing.getD task.job.cursorMs 0)
      task.job.cursorMs (ingestTimespan.next task.job.cursorMs)
      task.job.startMs task.job.endMs
      (timestampMillis (env.utcNow task.asked)) = false)
    {values : List HistoryValue} {raw : Value}
    (called : historyCall env task.job callFuel (told task) =
      (.ok (values, raw), after))
    (cut : sample (raw.write env.writeF64) = none) :
    windows env ingestTimespan existing callFuel (fuel + 1) false task =
      (.panic, after) := by
  have logged : logSample env false raw after = (.panic, after) := by
    unfold logSample
    rw [cut]
    rfl
  have fetched : fetchWindow env (ingestTimespan.next task.job.cursorMs)
      callFuel false (told task) = (.panic, after) := by
    have sameJob : (told task).job = task.job := rfl
    simp only [fetchWindow, bind_apply, getJob_apply, andThen_ok, sameJob,
      called, logged, andThen_panic]
  rw [windows_fetch env _ existing callFuel fuel false before incomplete,
    fetched, andThen_panic]

theorem hourJob_called (raw : Value) (writeF64 : F64 → String)
    (fuel asked : Nat) :
    ∃ after, historyCall (payloadEnv raw writeF64) hourJob (fuel + 1)
        { spawn hourJob with asked := asked } =
          (.ok ((payloadClient raw writeF64).historyValues raw, raw), after) ∧
      after.job.status = .running :=
  ⟨_, rfl, rfl⟩

/-- With a payload that cannot be cut, the loop never ends. -/
theorem ingestLoop_panics {raw : Value} {writeF64 : F64 → String}
    (cut : sample (raw.write writeF64) = none) (fuel : Nat) :
    wp (ingestLoop (payloadEnv raw writeF64) ingestTimespan fuel)
      (fun out after => (out = .panic ∨ out = .pending) ∧
        after.job.status = .running) (spawn hourJob) := by
  cases fuel with
  | zero => exact ⟨Or.inr rfl, rfl⟩
  | succ fuel =>
      rcases existingRows_apply (payloadEnv raw writeF64) ingestTimespan
        (spawn hourJob) with ⟨asked, stored⟩
      rcases hourJob_called raw writeF64 fuel (asked + 1) with
        ⟨after, called, running⟩
      have incomplete : indexWindowComplete 0 hourJob.cursorMs
          (ingestTimespan.next hourJob.cursorMs) hourJob.startMs hourJob.endMs
          7200000 = false := by
        decide +kernel
      have before : hourJob.cursorMs < hourJob.endMs := by decide +kernel
      unfold wp
      rw [ingestLoop, bind_apply, stored, andThen_ok,
        windows_panics fuel { spawn hourJob with asked := asked } before _
          called cut]
      · exact ⟨Or.inl rfl, running⟩
      · have nothing : (storedRows (payloadEnv raw writeF64) ingestTimespan
            hourJob 0).getD hourJob.cursorMs 0 = 0 := by
          show (∅ : HashMap Int64 Int64).getD _ _ = 0
          simp
        have now : timestampMillis 7200000000000 = 7200000 := by decide
        rw [← nothing, ← now] at incomplete
        exact incomplete

/-! ## No job is left running -/

/-- A task whose loop panics or has no fuel leaves its job as it is. -/
theorem runJob_running {env : Env} {timespan : Timespan} {fuel : Nat}
    {task : Task}
    (stuck : wp (loop env timespan fuel task.job.kind)
      (fun out after => (out = .panic ∨ out = .pending) ∧
        after.job.status = .running) task) :
    (runJob env timespan fuel task).2.job.status = .running := by
  have runs : wp (runJob env timespan fuel)
      (fun _ after => after.job.status = .running) task := by
    unfold runJob
    rw [wp_bind, wp_getJob, continues_ok, wp_bind, wp_attempt]
    apply wp_mono stuck
    rintro out after ⟨rfl | rfl, running⟩
    · exact running
    · exact running
  exact runs

/-- A task panics only if its loop does. -/
theorem runJob_panics {env : Env} {timespan : Timespan} {fuel : Nat}
    {task : Task}
    (ends : wp (loop env timespan fuel task.job.kind)
      (Ended False True fun _ _ => True) task) :
    (runJob env timespan fuel task).1 ≠ .panic := by
  have runs : wp (runJob env timespan fuel) (fun out _ => out ≠ .panic)
      task := by
    unfold runJob
    rw [wp_bind, wp_getJob, continues_ok, wp_bind, wp_attempt]
    apply wp_mono ends
    intro out after ended
    cases out with
    | ok value => exact fun same => nomatch same
    | error e => exact fun same => nomatch same
    | panic => exact ended.elim
    | pending => exact fun same => nomatch same
  exact runs

/--
A payload leaves no job running: whatever else an index backfill that meets it
is answered, its task does not panic, and with enough fuel it writes how the
job ended.
-/
def LeavesNoneRunning (writeF64 : F64 → String) (raw : Value) : Prop :=
  ∀ (env : Env) (req : IngestRequest) (market : Market) (jobId : String)
    (now : Int), env.writeF64 = writeF64 → Payload env raw →
    req.kind = .index →
    let task := spawn (req.job market jobId now)
    (∀ fuel, (runJob env ingestTimespan fuel task).1 ≠ .panic) ∧
      ∃ fuel, Finished (runJob env ingestTimespan fuel task).2

/-- A payload that cannot be cut leaves a job running. -/
theorem not_leavesNoneRunning {writeF64 : F64 → String} {raw : Value}
    (cut : sample (raw.write writeF64) = none) :
    ¬ LeavesNoneRunning writeF64 raw := by
  intro leaves
  rcases leaves (payloadEnv raw writeF64) hourRequest btc15m "5f0c" 0 rfl
    (payload_payloadEnv raw writeF64) rfl with ⟨-, fuel, ended, -⟩
  exact ended (runJob_running (ingestLoop_panics cut fuel))

/--
The payloads that leave no job running are those whose text has at most 600
bytes, or has a character that ends at byte 600.
-/
theorem leavesNoneRunning_iff (writeF64 : F64 → String) (raw : Value) :
    LeavesNoneRunning writeF64 raw ↔ Sliceable (raw.write writeF64) := by
  constructor
  · intro leaves
    by_contra unsliceable
    exact not_leavesNoneRunning (sample_eq_none_iff.mpr unsliceable) leaves
  · rintro sliceable env req market jobId now rfl payload index task
    have cuts : ¬ Unsliceable env raw :=
      fun none_ => sample_eq_none_iff.mp none_ sliceable
    have end_ : task.job.endMs.toInt < 8210266876800000 := by
      have inChrono := inChrono_timestampMillis req.end
      show (timestampMillis req.end).toInt < _
      omega
    have isIndex : task.job.kind = .index := index
    have ends : ∀ (fuel : Nat) (pends : Prop), (pends ∨ 301 ≤ fuel ∧
        task.job.endMs.toInt - task.job.cursorMs.toInt ≤
          ((fuel : Int) - 1) * hourMs) →
        wp (loop env ingestTimespan fuel task.job.kind)
          (Ended False pends fun _ _ => True) task := by
      intro fuel pends enough
      rw [isIndex]
      apply wp_mono (ingestLoop_ended payload end_ enough)
      intro out after ended
      cases out with
      | ok value => exact trivial
      | error e => exact trivial
      | panic => exact cuts ended
      | pending => exact ended
    constructor
    · exact fun fuel => runJob_panics (ends fuel True (Or.inl trivial))
    · let fuel := (task.job.endMs.toInt - task.job.cursorMs.toInt).toNat + 302
      have enough : 301 ≤ fuel ∧
          task.job.endMs.toInt - task.job.cursorMs.toInt ≤
            ((fuel : Int) - 1) * hourMs := by
        unfold hourMs
        omega
      exact ⟨fuel, (runJob_finished fuel (ends fuel False (Or.inr enough))).2⟩

/-! ## A payload whose text is cut inside a character -/

/-- A cut inside a character, behind others. -/
theorem takeBytes_inside (front rest : List Char) {c : Char} {n : Nat}
    (first : (front.map Char.utf8Size).sum < n)
    (last : n < (front.map Char.utf8Size).sum + c.utf8Size) :
    takeBytes n (front ++ c :: rest) = none := by
  rw [Option.eq_none_iff_forall_ne_some]
  intro head cut
  rcases takeBytes_eq_some_iff.mp cut with ⟨⟨tail, split⟩, bytes⟩
  rcases List.append_eq_append_iff.mp split with
    ⟨more, rfl, behind⟩ | ⟨more, rfl, behind⟩
  · rw [List.map_append, List.sum_append] at first
    omega
  · rw [List.map_append, List.sum_append] at bytes
    cases more with
    | nil =>
        rw [List.map_nil, List.sum_nil] at bytes
        omega
    | cons second more =>
        cases behind
        rw [List.map_cons, List.sum_cons] at bytes
        omega

theorem sample_ofList (chars : List Char) :
    sample (String.ofList chars) =
      takeBytes (min (chars.map Char.utf8Size).sum sampleBytes) chars := by
  rw [sample, utf8ByteSize_ofList, String.toList_ofList]

def letters : List Char :=
  List.replicate 587 'a'

/-- Its text is 603 bytes long, and `é` takes the 600th and the 601st. -/
def splitPayload : Value :=
  .object [("message", .string (String.ofList (letters ++ ['é'])))]

/-- The characters before `é`. -/
def splitFront : List Char :=
  "\x7b\"message\":\"".toList ++ letters

theorem bytes_letters : (letters.map Char.utf8Size).sum = 587 := by
  rw [letters, List.map_replicate]
  decide +kernel

theorem bytes_splitFront : (splitFront.map Char.utf8Size).sum = 599 := by
  unfold splitFront
  rewrite [List.map_append, List.sum_append, bytes_letters]
  decide

theorem write_splitPayload (writeF64 : F64 → String) :
    splitPayload.write writeF64 =
      String.ofList (splitFront ++ 'é' :: ['"', '\x7d']) := by
  have plain : (letters ++ ['é']).flatMap escape = letters ++ ['é'] := by
    apply flatMap_escape
    intro c member
    simp only [letters, List.mem_append, List.mem_replicate,
      List.mem_singleton] at member
    rcases member with ⟨-, rfl⟩ | rfl <;> decide
  have first : "\x7b".toList ++
      ('"' :: ("message".toList.flatMap escape ++ ['"']) ++ ":".toList) ++
        ['"'] = "\x7b\"message\":\"".toList := by
    decide
  have last : "\x7d".toList = ['\x7d'] := by decide
  apply String.toList_injective
  simp only [splitPayload, Value.write, writeEntries, writeEntry, quote,
    String.toList_append, String.toList_ofList, String.intercalate_singleton,
    plain]
  unfold splitFront
  rewrite [← first, last]
  simp only [List.append_assoc, List.cons_append, List.nil_append]

/-- A job that is answered `splitPayload` stays running for ever. -/
theorem not_leavesNoneRunning_splitPayload :
    ¬ LeavesNoneRunning (fun _ => "0.5") splitPayload := by
  apply not_leavesNoneRunning
  have bytes : ((splitFront ++ 'é' :: ['"', '\x7d']).map
      Char.utf8Size).sum = 603 := by
    rw [List.map_append, List.sum_append, bytes_splitFront]
    decide
  rw [write_splitPayload, sample_ofList, bytes]
  apply takeBytes_inside
  · rw [bytes_splitFront]
    decide
  · rw [bytes_splitFront]
    decide

end ChudMoney.Controllers.RunJob
