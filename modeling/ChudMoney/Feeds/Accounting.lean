import ChudMoney.Feeds.Handling
import ChudMoney.Lib.Runs
import ChudMoney.Lib.Shedding

/-!
# Every live row is queued or counted

A task makes rows of the frames it takes and offers them to the bounded queue
of the ILP writer.  Over a whole run, with any number of reconnects, the rows
it made are those in the queue and those its status counts as dropped.  The
levels of snapshots wait for room and are never dropped.
-/

namespace ChudMoney.Feeds.Accounting

open ChudMoney.Db.Rows
open ChudMoney.Feeds.Frames
open ChudMoney.Feeds.Handling
open ChudMoney.Feeds.Shared
open ChudMoney.Feeds.Task
open ChudMoney.Kalshi.Client
open ChudMoney.Kalshi.Stream
open ChudMoney.Lib.Json
open ChudMoney.Lib.MachineInt
open ChudMoney.Lib.Runs
open ChudMoney.Lib.Shedding
open ChudMoney.Model

variable {Text : Type}

/-! ## Sending the rows of one frame -/

/-- A writer that is not gone at any row of the frame. -/
def Alive (moment : Moment) : Prop :=
  ∀ n, moment.ilp n ≠ .closed

theorem sheds_kept {ilp : Nat → SendOutcome} (alive : ∀ n, ilp n ≠ .closed)
    (n : Nat) (rows : List (Bool × Row)) :
    Sheds rows (Output.kept ilp n rows) (Output.lost ilp n rows) := by
  induction rows generalizing n with
  | nil => exact .nil
  | cons entry rows ih =>
      rcases entry with ⟨waits, row⟩
      have rest := ih (n + 1)
      rw [Output.kept, Output.lost]
      cases waits with
      | true =>
          rw [if_pos (Or.inl rfl), if_neg (by simp), Nat.zero_add]
          exact .queue true row rest
      | false =>
          cases outcome : ilp n with
          | closed => exact absurd outcome (alive n)
          | room =>
              simp only [Bool.false_eq_true, or_true, if_true, reduceCtorEq,
                and_false, if_false, Nat.zero_add]
              exact .queue false row rest
          | full =>
              simp only [Bool.false_eq_true, reduceCtorEq, or_self, if_false,
                not_false_eq_true, and_self, if_true]
              rw [Nat.add_comm 1 (Output.lost ilp _ rows)]
              exact .shed row rest

/--
What a step queues of the rows that it makes, and how many it drops.  `count`
is where the status of the task counts them.
-/
structure Shed (count : FeedStatus → Option UInt64)
    (before after : Output Text) (rows : List (Bool × Row)) : Prop where
  sheds : ∃ queued shed, Sheds rows queued shed ∧
    after.ilp = before.ilp ++ queued ∧
    count after.shared.status =
      (count before.shared.status).map (· + .ofNat shed)

/-- What is queued and counted of the rows made so far. -/
def Accounted (count : FeedStatus → Option UInt64) (rows : List (Bool × Row))
    (output : Output Text) : Prop :=
  ∃ dropped, count output.shared.status = some (.ofNat dropped) ∧
    Sheds rows output.ilp dropped

section Shed

variable {count : FeedStatus → Option UInt64}

theorem Shed.nothing {before after : Output Text}
    (ilp : after.ilp = before.ilp)
    (same : count after.shared.status = count before.shared.status) :
    Shed count before after [] := by
  refine ⟨[], 0, .nil, by rw [ilp, List.append_nil], ?_⟩
  rw [same]
  cases count before.shared.status with
  | none => rfl
  | some dropped => exact congrArg some (UInt64.add_zero _).symm

/-- Sending the rows of a frame, before and after other changes. -/
theorem Shed.sendAll {dropped : FeedStatus → FeedStatus}
    (counts : ∀ n status, count (dropped^[n] status) =
      (count status).map (· + .ofNat n))
    (before output : Output Text) {moment : Moment} (alive : Alive moment)
    (rows : List (Bool × Row))
    (ilp : output.ilp = before.ilp)
    (status : output.shared.status = before.shared.status)
    (f : FeedStatus → FeedStatus)
    (keeps : ∀ status, count (f status) = count status) :
    Shed count before
      ((output.sendAll dropped moment.ilp 0 rows).1.withStatus f) rows := by
  have done : (output.sendAll dropped moment.ilp 0 rows).2 = .ok () :=
    Output.sendAll_ok dropped alive 0 rows output
  refine ⟨_, _, sheds_kept alive 0 rows, ?_, ?_⟩
  · rw [Output.ilp_withStatus, Output.ilp_sendAll done, ilp]
  · show count (f (output.sendAll dropped moment.ilp 0
      rows).1.shared.status) = _
    rw [keeps, Output.status_sendAll done, status, counts]

theorem Shed.accounted {before after : Output Text}
    {past rows : List (Bool × Row)} (shed : Shed count before after rows)
    (accounted : Accounted count past before) :
    Accounted count (past ++ rows) after := by
  rcases shed.sheds with ⟨queued, more, sheds, ilp, counted⟩
  rcases accounted with ⟨dropped, before, past⟩
  refine ⟨dropped + more, ?_, ?_⟩
  · rw [counted, before, Option.map_some, UInt64.ofNat_add]
  · rw [ilp]
    exact past.append sheds

/--
The rows made are queued in order or counted; those that wait for room are
all queued.
-/
theorem Accounted.rows {rows : List (Bool × Row)} {output : Output Text}
    (accounted : Accounted count rows output) :
    output.ilp.Sublist (rows.map Prod.snd) ∧
      ((rows.filter Prod.fst).map Prod.snd).Sublist output.ilp ∧
      count output.shared.status =
        some (.ofNat (rows.length - output.ilp.length)) := by
  rcases accounted with ⟨dropped, counted, sheds⟩
  refine ⟨sheds.sublist, sheds.waiting, ?_⟩
  rw [counted, ← sheds.length, Nat.add_sub_cancel_left]

end Shed

/-! ## The Kalshi task -/

/-- The rows that the status of a feed counts as dropped. -/
def droppedRows (status : FeedStatus) : Option UInt64 :=
  some status.droppedRows

theorem droppedRows_iterate (n : Nat) (status : FeedStatus) :
    droppedRows (countDropped^[n] status) =
      (droppedRows status).map (· + .ofNat n) :=
  congrArg some (droppedRows_iterate_countDropped n status)

/-- The rows made of a text, in a session that takes it. -/
def madeOf (readers : Readers Text) (conn : Conn Text) (moment : Moment)
    (text : Text) : List (Bool × Row) :=
  match typed readers indexType text with
  | some env =>
      (CfValue5Hz.deserialize env.msg).elim [] (indexRows moment)
  | none =>
      match typed readers tickerType text with
      | some env =>
          (TickerMsg.deserialize env.msg).elim [] fun msg =>
            [(false, tickerRow moment conn.output.shared.market conn.session
              msg)]
      | none =>
          match bookFrame readers text with
          | some (isSnapshot, env) =>
              match (checkSeq env conn.session.lastSeq).2 with
              | .ok () =>
                  framedRows isSnapshot (timestampMillis moment.now) env
                    conn.output.shared.market
              | .error _ => []
          | none => []

/-- The rows that a step of the task makes. -/
def made (readers : Readers Text) (conn : Conn Text) :
    FeedEvent Text → List (Bool × Row)
  | .text moment text => madeOf readers conn moment text
  | .connect _ | .refresh _ | .ended _ => []

/-- A frame in sequence is handled to its end, if the writer is not gone. -/
theorem handleOrderbook_eq {env : Envelope} {session : Session}
    (inSequence : (checkSeq env session.lastSeq).2 = .ok ())
    (isSnapshot : Bool) {moment : Moment} (alive : Alive moment) (text : Text)
    (output : Output Text) :
    handleOrderbook isSnapshot moment text env output session =
      ⟨((applyFrame isSnapshot text env output).sendAll countDropped
          moment.ilp 0
          (framedRows isSnapshot (timestampMillis moment.now) env
            output.shared.market)).1.withStatus fun status =>
          { status with
            orderbookMsgs := status.orderbookMsgs + 1
            lastMsgAt := some moment.later },
        { session with lastSeq := (checkSeq env session.lastSeq).1 },
        .ok ()⟩ := by
  have done := Output.sendAll_ok countDropped alive 0
    (framedRows isSnapshot (timestampMillis moment.now) env
      output.shared.market) (applyFrame isSnapshot text env output)
  rw [handleOrderbook]
  simp only [inSequence, done]

theorem shed_handleText {readers : Readers Text} {conn : Conn Text}
    {moment : Moment} (alive : Alive moment) (text : Text) :
    Shed droppedRows conn.output
      (handleText readers moment text conn.output conn.session).output
      (madeOf readers conn moment text) := by
  have handles :=
    handles_handleText readers moment text conn.output conn.session
  generalize handleText readers moment text conn.output conn.session =
    handled at handles ⊢
  cases handles with
  | index env isTyped =>
      simp only [madeOf, isTyped, handleIndex_eq]
      cases CfValue5Hz.deserialize env.msg with
      | none => exact .nothing rfl rfl
      | some value =>
          exact .sendAll droppedRows_iterate conn.output
            (broadcastIndex text conn.output) alive
            (indexRows moment value) rfl rfl
            (fun status => { status with
              tickerMsgs := status.tickerMsgs + 1
              lastValue := value.value.or status.lastValue
              lastMsgAt := some moment.later }) fun _ => rfl
  | ticker env isTyped =>
      have notIndex := typed_of_typed isTyped
        (show tickerType ≠ indexType by decide)
      simp only [madeOf, notIndex, isTyped, handleTicker_eq]
      cases TickerMsg.deserialize env.msg with
      | none => exact .nothing rfl rfl
      | some msg =>
          exact .sendAll droppedRows_iterate conn.output conn.output alive _
            rfl rfl
            (fun status => { status with
              contractTickerMsgs := status.contractTickerMsgs + 1
              lastMsgAt := some moment.later }) fun _ => rfl
  | orderbook isSnapshot env framed =>
      have notIndex : typed readers indexType text = none :=
        typed_of_bookFrame framed (by decide) (by decide)
      have notTicker : typed readers tickerType text = none :=
        typed_of_bookFrame framed (by decide) (by decide)
      cases checked : (checkSeq env conn.session.lastSeq).2 with
      | error e =>
          simp only [madeOf, notIndex, notTicker, framed, checked,
            handleOrderbook_of_gap checked]
          exact .nothing rfl rfl
      | ok _ =>
          simp only [madeOf, notIndex, notTicker, framed, checked,
            handleOrderbook_eq checked isSnapshot alive]
          exact .sendAll droppedRows_iterate conn.output
            (applyFrame isSnapshot text env conn.output) alive
            (framedRows isSnapshot (timestampMillis moment.now) env
              conn.output.shared.market)
            rfl rfl
            (fun status => { status with
              orderbookMsgs := status.orderbookMsgs + 1
              lastMsgAt := some moment.later }) fun _ => rfl
  | subscribed env isTyped =>
      have notIndex := typed_of_typed isTyped
        (show subscribedType ≠ indexType by decide)
      have notTicker := typed_of_typed isTyped
        (show subscribedType ≠ tickerType by decide)
      have notBook : bookFrame readers text = none :=
        bookFrame_of_typed isTyped (by decide) (by decide)
      simp only [madeOf, notIndex, notTicker, notBook]
      exact .nothing rfl rfl
  | ignored notIndex notTicker notBook _ =>
      simp only [madeOf, notIndex, notTicker, notBook]
      exact .nothing rfl rfl

/-- A step whose rows, if any, go to a writer that is not gone. -/
def WriterAlive : FeedEvent Text → Prop
  | .text moment _ => Alive moment
  | .connect _ | .refresh _ | .ended _ => True

theorem Shed.ended {before : Output Text} (conn : Conn Text)
    {rows : List (Bool × Row)}
    (shed : Shed droppedRows before conn.output rows)
    (outcome : Except String Unit) :
    Shed droppedRows before (conn.ended outcome).output rows := by
  rcases shed.sheds with ⟨queued, count, sheds, ilp, dropped⟩
  exact ⟨queued, count, sheds, ilp, dropped⟩

theorem droppedRows_connect (conn : Conn Text)
    (markets : Except String (List OpenMarket)) :
    (conn.connect markets).output.shared.status.droppedRows =
      conn.output.shared.status.droppedRows := by
  unfold Conn.connect
  cases markets with
  | error e => rfl
  | ok markets =>
      dsimp only
      split <;> rfl

theorem ilp_connect (conn : Conn Text)
    (markets : Except String (List OpenMarket)) :
    (conn.connect markets).output.ilp = conn.output.ilp := by
  unfold Conn.connect
  cases markets with
  | error e => rfl
  | ok markets =>
      dsimp only
      split <;> rfl

theorem droppedRows_refresh (conn : Conn Text) (markets : List OpenMarket) :
    (conn.refresh markets).output.shared.status.droppedRows =
      conn.output.shared.status.droppedRows := by
  unfold Conn.refresh
  dsimp only
  split
  · rfl
  · rw [Conn.rotate, output_resubscribe]
    rfl

/-- A step queues or counts every row that it makes. -/
theorem shed_feedStep {readers : Readers Text} {conn next : Conn Text}
    {event : FeedEvent Text} (alive : WriterAlive event)
    (taken : feedStep readers conn event = some next) :
    Shed droppedRows conn.output next.output
      (made readers conn event) := by
  cases event with
  | text moment text =>
      have shed := @shed_handleText _ readers conn _ alive text
      rcases feedStep_text_eq_some taken with ⟨_, done | failed⟩
      · rw [done.2]
        exact shed
      · rcases failed with ⟨e, _, ended⟩
        rw [ended]
        exact Shed.ended _ shed (.error e)
  | connect markets =>
      simp only [feedStep] at taken
      split at taken
      · cases taken
      · cases taken
        exact .nothing (ilp_connect conn markets)
          (congrArg some (droppedRows_connect conn markets))
  | refresh markets =>
      simp only [feedStep] at taken
      split at taken
      · cases markets with
        | error e =>
            cases taken
            exact .nothing rfl rfl
        | ok markets =>
            cases taken
            exact .nothing (ilp_refresh conn markets)
              (congrArg some (droppedRows_refresh conn markets))
      · cases taken
  | ended outcome =>
      cases taken
      exact .nothing rfl rfl

theorem accounted_feed {readers : Readers Text} {market : Market}
    {coinbase : Option CoinbaseFeedStatus} {events : List (FeedEvent Text)}
    {final : Conn Text}
    (alive : ∀ event ∈ events, WriterAlive event)
    (reached : run (feedStep readers) (Conn.spawned market coinbase) events =
      some final) :
    Accounted droppedRows
      (observed (feedStep readers) (made readers)
        (Conn.spawned market coinbase) events)
      final.output :=
  observed_of_guarded
    (fun conn rows => Accounted droppedRows rows conn.output)
    (fun _ _ _ _ accounted alive taken =>
      (shed_feedStep alive taken).accounted accounted)
    ⟨0, rfl, Sheds.nil⟩ (guarded_of_forall_mem alive) reached

end ChudMoney.Feeds.Accounting
