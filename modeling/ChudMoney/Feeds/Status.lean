import ChudMoney.Feeds.Accounting
import ChudMoney.Feeds.Broadcasts
import ChudMoney.Feeds.Cache

/-!
# What the status of a feed says

Readers of a market are shown the status that its task keeps.  Over any number
of sessions, frames and polls the status tells of the task as it is: whether a
session is running, which markets it is subscribed to, and how many sessions
and frames there have been.
-/

namespace ChudMoney.Feeds.Status

open ChudMoney.Db.Rows
open ChudMoney.Feeds.Accounting
open ChudMoney.Feeds.Broadcasts
open ChudMoney.Feeds.Cache (quietFrames quietSession)
open ChudMoney.Feeds.Frames
open ChudMoney.Feeds.Handling
open ChudMoney.Feeds.Shared
open ChudMoney.Feeds.Task
open ChudMoney.Kalshi.Client
open ChudMoney.Kalshi.Stream
open ChudMoney.Lib.Json
open ChudMoney.Lib.MachineInt
open ChudMoney.Lib.Runs
open ChudMoney.Model

variable {Text : Type} {readers : Readers Text}

/-! ## A field that frames do not touch -/

/-- What sending rows leaves of a status. -/
theorem field_sendAll {Field : Type} (field : FeedStatus → Field)
    (keeps : ∀ status, field (countDropped status) = field status)
    (ilp : Nat → SendOutcome) (n : Nat) (rows : List (Bool × Row))
    (output : Output Text) :
    field (output.sendAll countDropped ilp n rows).1.shared.status =
      field output.shared.status :=
  Output.sendAll_induction (motive := fun after =>
    field after.shared.status = field output.shared.status) ilp
    (fun _ _ same => same)
    (fun after same => by
      rw [Output.withStatus]
      exact (keeps after.shared.status).trans same) n rows rfl

/-- The fields that tell of the session, and that no frame changes. -/
def told (status : FeedStatus) :
    Bool × UInt32 × List String × List OpenMarket × Option String :=
  (status.connected, status.reconnects, status.openTickers,
    status.openMarkets, status.lastError)

theorem told_sendAll (ilp : Nat → SendOutcome) (n : Nat)
    (rows : List (Bool × Row)) (output : Output Text) :
    told (output.sendAll countDropped ilp n rows).1.shared.status =
      told output.shared.status :=
  field_sendAll told (fun _ => rfl) ilp n rows output

theorem strikes_handleSubscribed (env : Envelope) (session : Session) :
    (handleSubscribed env session).strikes = session.strikes := by
  rw [handleSubscribed]
  split
  · rfl
  · dsimp only
    split
    · rfl
    · split <;> rfl

/-- A frame changes nothing of what is told, nor the strikes. -/
theorem told_handleText (readers : Readers Text) (moment : Moment)
    (text : Text) (output : Output Text) (session : Session) :
    told (handleText readers moment text output
        session).output.shared.status = told output.shared.status ∧
      (handleText readers moment text output session).session.strikes =
        session.strikes := by
  have handles := handles_handleText readers moment text output session
  generalize handleText readers moment text output session = handled
    at handles ⊢
  cases handles with
  | index env isTyped =>
      refine ⟨?_, rfl⟩
      rw [handleIndex_eq]
      cases CfValue5Hz.deserialize env.msg with
      | none => rfl
      | some value =>
          exact told_sendAll moment.ilp 0 (indexRows moment value)
            (broadcastIndex text output)
  | ticker env isTyped =>
      refine ⟨?_, rfl⟩
      rw [handleTicker_eq]
      cases TickerMsg.deserialize env.msg with
      | none => rfl
      | some msg => exact told_sendAll moment.ilp 0 _ output
  | orderbook isSnapshot env framed =>
      have sent := told_sendAll moment.ilp 0
        (framedRows isSnapshot (timestampMillis moment.now) env
          output.shared.market) (applyFrame isSnapshot text env output)
      rw [handleOrderbook]
      dsimp only
      split
      · exact ⟨rfl, rfl⟩
      · split
        · exact ⟨sent, rfl⟩
        · exact ⟨sent, rfl⟩
  | subscribed env isTyped => exact ⟨rfl, strikes_handleSubscribed env session⟩
  | ignored _ _ _ _ => exact ⟨rfl, rfl⟩

/-! ## What the status tells of the session -/

/-- The status tells whether a session is running, and what it follows. -/
structure Reports (conn : Conn Text) : Prop where
  connected : conn.output.shared.status.connected = conn.live
  noError : conn.live = true → conn.output.shared.status.lastError = none
  tickers : conn.live = true →
    conn.output.shared.status.openTickers = conn.subscribed.toList
  markets : conn.live = true →
    Conn.openTickers conn.output.shared.status.openMarkets = conn.subscribed
  strikes : conn.live = true →
    conn.session.strikes =
      (Session.default.setMarkets
        conn.output.shared.status.openMarkets).strikes

theorem reports_spawned (market : Market)
    (coinbase : Option CoinbaseFeedStatus) :
    Reports (Conn.spawned market coinbase : Conn Text) :=
  ⟨rfl, nofun, nofun, nofun, nofun⟩

theorem reports_ended (conn : Conn Text) (outcome : Except String Unit) :
    Reports (conn.ended outcome) :=
  ⟨rfl, nofun, nofun, nofun, nofun⟩

theorem reports_connect (conn : Conn Text)
    (markets : Except String (List OpenMarket)) :
    Reports (conn.connect markets) := by
  cases markets with
  | error e => exact reports_ended _ (.error e)
  | ok markets =>
      have subscribed := subscribed_connect conn markets
      unfold Conn.connect at subscribed ⊢
      dsimp only at subscribed ⊢
      refine ⟨?_, ?_, ?_, ?_, ?_⟩
      · show true = _
        split <;> rfl
      · intro _
        rfl
      · intro _
        rfl
      · intro _
        exact subscribed.symm
      · intro _
        split <;> rfl

theorem live_rotate (conn : Conn Text) (opened add del : TickerSet) :
    (conn.rotate opened add del).live = conn.live := by
  have updated : ∀ (sids : List UInt64) (conn : Conn Text),
      (sids.foldl (Conn.updateSid add del) conn).live = conn.live := by
    intro sids
    induction sids with
    | nil => exact fun _ => rfl
    | cons sid sids ih =>
        intro conn
        rw [List.foldl_cons, ih, live_updateSid]
  show (conn.resubscribe opened add del).live = _
  rw [Conn.resubscribe]
  split
  · split <;> rfl
  · exact updated _ conn

theorem strikes_rotate (conn : Conn Text) (opened add del : TickerSet) :
    (conn.rotate opened add del).session.strikes = conn.session.strikes := by
  show (conn.resubscribe opened add del).session.strikes = _
  rw [Conn.resubscribe]
  split
  · split <;> rfl
  · exact congrArg Session.strikes
      (session_foldl_updateSid conn add del conn.session.marketSids)

/-- A rotation publishes the tickers that it takes on. -/
theorem status_rotate (conn : Conn Text) (opened add del : TickerSet) :
    (conn.rotate opened add del).output.shared.status =
      { conn.output.shared.status with openTickers := opened.toList } := by
  rw [Conn.rotate, output_resubscribe]
  rfl

theorem reports_refresh {conn : Conn Text} (reports : Reports conn)
    (markets : List OpenMarket) : Reports (conn.refresh markets) := by
  have subscribed := subscribed_refresh conn markets
  unfold Conn.refresh at subscribed ⊢
  dsimp only at subscribed ⊢
  split
  next same =>
    rw [if_pos same] at subscribed
    exact ⟨reports.connected, reports.noError, reports.tickers,
      fun _ => subscribed.symm, fun _ => rfl⟩
  next =>
    refine ⟨?_, ?_, ?_, ?_, ?_⟩
    · rw [status_rotate, live_rotate]
      exact reports.connected
    · intro live
      rw [live_rotate] at live
      rw [status_rotate]
      exact reports.noError live
    · intro _
      rw [status_rotate]
      rfl
    · intro _
      rw [status_rotate]
      rfl
    · intro _
      rw [status_rotate, strikes_rotate]
      rfl

theorem Reports.step {conn next : Conn Text} {event : FeedEvent Text}
    (reports : Reports conn)
    (taken : feedStep readers conn event = some next) : Reports next := by
  cases event with
  | text moment text =>
      rcases feedStep_text_eq_some taken with ⟨live, done | ⟨e, _, ended⟩⟩
      · rcases told_handleText readers moment text conn.output conn.session
          with ⟨same, strikes⟩
        simp only [told, Prod.mk.injEq] at same
        rcases same with ⟨connected, -, tickers, markets, error⟩
        rw [done.2]
        refine ⟨connected.trans reports.connected,
          fun live => error.trans (reports.noError live),
          fun live => tickers.trans (reports.tickers live), ?_, ?_⟩
        · intro live
          show Conn.openTickers (handleText readers moment text conn.output
            conn.session).output.shared.status.openMarkets = _
          rw [markets]
          exact reports.markets live
        · intro live
          show (handleText readers moment text conn.output
            conn.session).session.strikes = (Session.default.setMarkets
              (handleText readers moment text conn.output
                conn.session).output.shared.status.openMarkets).strikes
          rw [markets, strikes]
          exact reports.strikes live
      · rw [ended]
        exact reports_ended _ (.error e)
  | connect markets =>
      simp only [feedStep] at taken
      split at taken
      · cases taken
      · cases taken
        exact reports_connect conn markets
  | refresh markets =>
      simp only [feedStep] at taken
      split at taken
      · cases markets with
        | error e =>
            cases taken
            exact reports
        | ok markets =>
            cases taken
            exact reports_refresh reports markets
      · cases taken
  | ended outcome =>
      cases taken
      exact reports_ended conn outcome

theorem reports_of_run {market : Market}
    {coinbase : Option CoinbaseFeedStatus} {events : List (FeedEvent Text)}
    {final : Conn Text}
    (reached : run (feedStep readers) (Conn.spawned market coinbase) events =
      some final) : Reports final :=
  invariant_of_run Reports (fun _ _ _ reports taken => reports.step taken)
    (reports_spawned market coinbase) reached

/-! ## What the status counts -/

/-- The counters of the status, apart from that of the dropped rows. -/
inductive Counter where
  | reconnects
  | tickerMsgs
  | contractTickerMsgs
  | orderbookMsgs
  deriving DecidableEq

namespace Counter

def bits : Counter → Nat
  | .reconnects => 32
  | .tickerMsgs | .contractTickerMsgs | .orderbookMsgs => 64

def read (status : FeedStatus) : Counter → Nat
  | .reconnects => status.reconnects.toNat
  | .tickerMsgs => status.tickerMsgs.toNat
  | .contractTickerMsgs => status.contractTickerMsgs.toNat
  | .orderbookMsgs => status.orderbookMsgs.toNat

/-- What a counter shows that has been increased; it wraps around. -/
def plus (counter : Counter) (value n : Nat) : Nat :=
  (value + n) % 2 ^ counter.bits

theorem plus_plus (counter : Counter) (value m n : Nat) :
    counter.plus (counter.plus value m) n = counter.plus value (m + n) := by
  rw [plus, plus, plus, Nat.mod_add_mod, Nat.add_assoc]

theorem plus_zero (counter : Counter) (status : FeedStatus) :
    counter.plus (counter.read status) 0 = counter.read status := by
  cases counter with
  | reconnects => exact Nat.mod_eq_of_lt status.reconnects.toNat_lt
  | tickerMsgs => exact Nat.mod_eq_of_lt status.tickerMsgs.toNat_lt
  | contractTickerMsgs =>
      exact Nat.mod_eq_of_lt status.contractTickerMsgs.toNat_lt
  | orderbookMsgs => exact Nat.mod_eq_of_lt status.orderbookMsgs.toNat_lt

end Counter

/-- Whether a text is a frame that a counter of messages counts. -/
def countsText (readers : Readers Text) (conn : Conn Text) (text : Text) :
    Counter → Bool
  | .reconnects =>
      (bookFrame readers text).isSome && !inSequence readers conn text
  | .tickerMsgs =>
      (typed readers indexType text).any fun env =>
        (CfValue5Hz.deserialize env.msg).isSome
  | .contractTickerMsgs =>
      (typed readers tickerType text).any fun env =>
        (TickerMsg.deserialize env.msg).isSome
  | .orderbookMsgs => inSequence readers conn text

/-- The steps that a counter counts; a session ends once. -/
def counted (readers : Readers Text) (counter : Counter) (conn : Conn Text)
    (event : FeedEvent Text) : List (FeedEvent Text) :=
  match event with
  | .text _ text => if countsText readers conn text counter then [event] else []
  | .connect (.error _) | .ended _ =>
      if counter = .reconnects then [event] else []
  | .connect (.ok _) | .refresh _ => []

theorem read_sendAll (counter : Counter) (ilp : Nat → SendOutcome) (n : Nat)
    (rows : List (Bool × Row)) (output : Output Text) :
    counter.read (output.sendAll countDropped ilp n rows).1.shared.status =
      counter.read output.shared.status :=
  field_sendAll (fun status => counter.read status)
    (fun _ => by cases counter <;> rfl) ilp n rows output

/-- A change of the status that adds one to one counter. -/
structure Bumps (f : FeedStatus → FeedStatus) (kind : Counter) : Prop where
  bumped : ∀ status, kind.read (f status) = kind.plus (kind.read status) 1
  kept : ∀ (counter : Counter) (status : FeedStatus), counter ≠ kind →
    counter.read (f status) = counter.read status

theorem Bumps.read {f : FeedStatus → FeedStatus} {kind : Counter}
    (bumps : Bumps f kind) (counter : Counter) (status : FeedStatus) :
    counter.read (f status) =
      counter.plus (counter.read status) (if kind = counter then 1 else 0) := by
  by_cases same : kind = counter
  · subst same
    rw [if_pos rfl, bumps.bumped]
  · rw [if_neg same, Counter.plus_zero, bumps.kept _ _ (Ne.symm same)]

theorem bumpsIndex (moment : Moment) (value : CfValue5Hz) :
    Bumps (fun status =>
      { status with
        tickerMsgs := status.tickerMsgs + 1
        lastValue := value.value.or status.lastValue
        lastMsgAt := some moment.later }) .tickerMsgs where
  bumped _ := rfl
  kept counter _ other := by cases counter <;> first | rfl | contradiction

theorem bumpsTicker (moment : Moment) :
    Bumps (fun status =>
      { status with
        contractTickerMsgs := status.contractTickerMsgs + 1
        lastMsgAt := some moment.later }) .contractTickerMsgs where
  bumped _ := rfl
  kept counter _ other := by cases counter <;> first | rfl | contradiction

theorem bumpsOrderbook (moment : Moment) :
    Bumps (fun status =>
      { status with
        orderbookMsgs := status.orderbookMsgs + 1
        lastMsgAt := some moment.later }) .orderbookMsgs where
  bumped _ := rfl
  kept counter _ other := by cases counter <;> first | rfl | contradiction

/-- Rows are sent and one counter is bumped. -/
theorem read_withStatus_sendAll {f : FeedStatus → FeedStatus}
    {kind : Counter} (bumps : Bumps f kind) (ilp : Nat → SendOutcome)
    (rows : List (Bool × Row)) (output : Output Text) (counter : Counter) :
    counter.read ((output.sendAll countDropped ilp 0
        rows).1.withStatus f).shared.status =
      counter.plus (counter.read output.shared.status)
        (if some kind = some counter then 1 else 0) := by
  rw [Output.withStatus, bumps.read, read_sendAll]
  simp only [Option.some.injEq]

/-- What the counters of messages count of each kind of frames. -/
structure Counts (readers : Readers Text) (conn : Conn Text) (text : Text)
    (result : Except String Unit) (kind : Option Counter) : Prop where
  result : result = .ok () ↔
    countsText readers conn text .reconnects = false
  text : ∀ counter, counter ≠ .reconnects →
    countsText readers conn text counter = decide (kind = some counter)
  stays : kind ≠ some .reconnects

/-- A text that is no orderbook frame, and at most one of the other kinds. -/
theorem counts_of_typed {conn : Conn Text} {text : Text}
    (notBook : bookFrame readers text = none) {kind : Option Counter}
    (index : countsText readers conn text .tickerMsgs =
      decide (kind = some .tickerMsgs))
    (ticker : countsText readers conn text .contractTickerMsgs =
      decide (kind = some .contractTickerMsgs))
    (other : kind ≠ some .orderbookMsgs) (stays : kind ≠ some .reconnects) :
    Counts readers conn text (.ok ()) kind := by
  refine ⟨by simp [countsText, notBook], ?_, stays⟩
  intro counter isMessages
  cases counter with
  | reconnects => exact absurd rfl isMessages
  | tickerMsgs => exact index
  | contractTickerMsgs => exact ticker
  | orderbookMsgs =>
      rw [countsText, inSequence, notBook]
      exact (decide_eq_false other).symm

theorem counts_handleText {conn : Conn Text} {moment : Moment}
    (alive : Alive moment) (text : Text) :
    let handled := handleText readers moment text conn.output conn.session
    ∃ kind, Counts readers conn text handled.result kind ∧
      ∀ counter : Counter,
        counter.read handled.output.shared.status =
          counter.plus (counter.read conn.output.shared.status)
            (if kind = some counter then 1 else 0) := by
  intro handled
  have handles :=
    handles_handleText readers moment text conn.output conn.session
  change Handles readers moment text conn.output conn.session handled
    at handles
  clear_value handled
  cases handles with
  | index env isTyped =>
      have notBook : bookFrame readers text = none :=
        bookFrame_of_typed isTyped (by decide) (by decide)
      have notTicker := typed_of_typed isTyped
        (show indexType ≠ tickerType by decide)
      rw [handleIndex_eq]
      cases read : CfValue5Hz.deserialize env.msg with
      | none =>
          refine ⟨none, counts_of_typed notBook ?_ ?_ (by simp)
            (by simp), fun counter => (counter.plus_zero _).symm⟩
          · simp [countsText, isTyped, read]
          · simp [countsText, notTicker]
      | some value =>
          refine ⟨some .tickerMsgs, counts_of_typed notBook ?_ ?_ (by simp)
            (by simp), ?_⟩
          · simp [countsText, isTyped, read]
          · simp [countsText, notTicker]
          · exact read_withStatus_sendAll (bumpsIndex moment value) moment.ilp
              (indexRows moment value) (broadcastIndex text conn.output)
  | ticker env isTyped =>
      have notBook : bookFrame readers text = none :=
        bookFrame_of_typed isTyped (by decide) (by decide)
      have notIndex := typed_of_typed isTyped
        (show tickerType ≠ indexType by decide)
      rw [handleTicker_eq]
      cases read : TickerMsg.deserialize env.msg with
      | none =>
          refine ⟨none, counts_of_typed notBook ?_ ?_ (by simp)
            (by simp), fun counter => (counter.plus_zero _).symm⟩
          · simp [countsText, notIndex]
          · simp [countsText, isTyped, read]
      | some msg =>
          refine ⟨some .contractTickerMsgs,
            counts_of_typed notBook ?_ ?_ (by simp)
            (by simp), ?_⟩
          · simp [countsText, notIndex]
          · simp [countsText, isTyped, read]
          · exact read_withStatus_sendAll (bumpsTicker moment) moment.ilp _
              conn.output
  | orderbook isSnapshot env framed =>
      have notIndex : typed readers indexType text = none :=
        typed_of_bookFrame framed (by decide) (by decide)
      have notTicker : typed readers tickerType text = none :=
        typed_of_bookFrame framed (by decide) (by decide)
      cases checked : (checkSeq env conn.session.lastSeq).2 with
      | error e =>
          rw [handleOrderbook_of_gap checked]
          refine ⟨none, ⟨?_, ?_, by simp⟩,
            fun counter => (counter.plus_zero _).symm⟩
          · simp [countsText, inSequence, framed, checked]
          · intro counter _
            cases counter <;>
              simp_all [countsText, inSequence]
      | ok _ =>
          rw [handleOrderbook_eq checked isSnapshot alive]
          refine ⟨some .orderbookMsgs, ⟨?_, ?_, by simp⟩, ?_⟩
          · simp [countsText, inSequence, framed, checked]
          · intro counter _
            cases counter <;>
              simp_all [countsText, inSequence]
          · exact read_withStatus_sendAll (bumpsOrderbook moment) moment.ilp
              _ (applyFrame isSnapshot text env conn.output)
  | subscribed env isTyped =>
      have notIndex := typed_of_typed isTyped
        (show subscribedType ≠ indexType by decide)
      have notTicker := typed_of_typed isTyped
        (show subscribedType ≠ tickerType by decide)
      have notBook : bookFrame readers text = none :=
        bookFrame_of_typed isTyped (by decide) (by decide)
      refine ⟨none, counts_of_typed notBook ?_ ?_ (by simp)
            (by simp), fun counter => (counter.plus_zero _).symm⟩
      · simp [countsText, notIndex]
      · simp [countsText, notTicker]
  | ignored notIndex notTicker notBook _ =>
      refine ⟨none, counts_of_typed notBook ?_ ?_ (by simp)
            (by simp), fun counter => (counter.plus_zero _).symm⟩
      · simp [countsText, notIndex]
      · simp [countsText, notTicker]

/-! ## Runs -/

/-- The end of a session is counted by the reconnects only. -/
theorem read_ended (counter : Counter) (conn : Conn Text)
    (outcome : Except String Unit) :
    counter.read (conn.ended outcome).output.shared.status =
      counter.plus (counter.read conn.output.shared.status)
        (if counter = .reconnects then 1 else 0) := by
  by_cases isEnd : counter = .reconnects
  · subst isEnd
    rfl
  · rw [if_neg isEnd, Counter.plus_zero]
    cases counter <;> first | rfl | contradiction

theorem read_connect (counter : Counter) (conn : Conn Text)
    (markets : List OpenMarket) :
    counter.read (conn.connect (.ok markets)).output.shared.status =
      counter.read conn.output.shared.status := by
  unfold Conn.connect
  dsimp only
  split <;> cases counter <;> rfl

theorem read_refresh (counter : Counter) (conn : Conn Text)
    (markets : List OpenMarket) :
    counter.read (conn.refresh markets).output.shared.status =
      counter.read conn.output.shared.status := by
  unfold Conn.refresh
  dsimp only
  split
  · cases counter <;> rfl
  · rw [status_rotate]
    cases counter <;> rfl

/-- A step of the task, with a writer that is not gone. -/
theorem read_feedStep {conn next : Conn Text} {event : FeedEvent Text}
    (counter : Counter) (alive : WriterAlive event)
    (taken : feedStep readers conn event = some next) :
    counter.read next.output.shared.status =
      counter.plus (counter.read conn.output.shared.status)
        (counted readers counter conn event).length := by
  cases event with
  | text moment text =>
      rcases @counts_handleText _ readers conn moment alive text
        with ⟨kind, counts, read⟩
      have isCounted : (counted readers counter conn
          (.text moment text)).length =
            if countsText readers conn text counter then 1 else 0 := by
        rw [counted]
        split <;> rfl
      rw [isCounted]
      rcases feedStep_text_eq_some taken with ⟨_, ⟨done, rfl⟩ | ended⟩
      · show counter.read (handleText readers moment text conn.output
          conn.session).output.shared.status = _
        rw [read]
        by_cases isEnd : counter = .reconnects
        · subst isEnd
          rw [if_neg counts.stays, counts.result.mp done]
          rfl
        · rw [counts.text counter isEnd]
          simp only [decide_eq_true_eq]
      · rcases ended with ⟨e, failed, rfl⟩
        have gap : countsText readers conn text .reconnects = true := by
          rw [← Bool.not_eq_false]
          intro noGap
          rw [counts.result.mpr noGap] at failed
          cases failed
        rw [read_ended]
        show counter.plus (counter.read (handleText readers moment text
          conn.output conn.session).output.shared.status) _ = _
        rw [read, Counter.plus_plus]
        by_cases isEnd : counter = .reconnects
        · subst isEnd
          rw [if_neg counts.stays, gap]
          rfl
        · rw [counts.text counter isEnd, if_neg isEnd]
          simp only [decide_eq_true_eq, Nat.add_zero]
  | connect markets =>
      simp only [feedStep] at taken
      split at taken
      · cases taken
      cases taken
      cases markets with
      | ok markets =>
          exact (read_connect counter conn markets).trans
            (counter.plus_zero _).symm
      | error e =>
          have counts : (counted readers counter conn
              (.connect (.error e))).length =
                if counter = .reconnects then 1 else 0 := by
            rw [counted]
            split <;> rfl
          rw [counts]
          exact read_ended counter _ (.error e)
  | refresh markets =>
      simp only [feedStep] at taken
      split at taken
      case isFalse => cases taken
      cases markets with
      | error e =>
          cases taken
          exact (counter.plus_zero _).symm
      | ok markets =>
          cases taken
          exact (read_refresh counter conn markets).trans
            (counter.plus_zero _).symm
  | ended outcome =>
      cases taken
      have counts : (counted readers counter conn (.ended outcome)).length =
          if counter = .reconnects then 1 else 0 := by
        rw [counted]
        split <;> rfl
      rw [counts]
      exact read_ended counter conn outcome

/--
The status that readers are shown: it says that a session is running exactly
while one is, names no error then, and lists the markets that the session is
subscribed to, whose strikes the ticker rows are given; and its counters count
the sessions that ended and the frames that were taken, in their 32 or 64 bits.
-/
theorem status_tells (readers : Readers Text) (market : Market)
    (coinbase : Option CoinbaseFeedStatus) (events : List (FeedEvent Text))
    (final : Conn Text)
    (reached : run (feedStep readers) (Conn.spawned market coinbase) events =
      some final)
    (alive : ∀ event ∈ events, WriterAlive event) :
    Reports final ∧
      ∀ counter : Counter,
        counter.read final.output.shared.status =
          (observed (feedStep readers) (counted readers counter)
            (Conn.spawned market coinbase) events).length %
              2 ^ counter.bits := by
  refine ⟨reports_of_run reached, ?_⟩
  intro counter
  exact observed_of_guarded
    (fun conn seen =>
      counter.read conn.output.shared.status =
        seen.length % 2 ^ counter.bits)
    (fun conn seen event next same alive taken => by
      rw [read_feedStep counter alive taken, same, List.length_append,
        Counter.plus, Nat.mod_add_mod])
    (by cases counter <;> rfl) (guarded_of_forall_mem alive) reached

/-- A session that ends in a gap. -/
def gapSession : List (FeedEvent Value) :=
  quietSession ++
    [.text .calm (dataFrame "orderbook_delta" 7 4 .null)]

theorem status_tells_gapSession :
    ∃ final,
      run (feedStep .parsed) (Conn.spawned btc15m none) gapSession =
          some final ∧
        Reports final ∧
        final.output.shared.status.reconnects.toNat =
          (observed (feedStep .parsed) (counted .parsed .reconnects)
            (Conn.spawned btc15m none) gapSession).length % 2 ^ 32 := by
  have calm : Alive .calm := fun _ => by simp [Moment.calm]
  have runs :
      (run (feedStep .parsed) (Conn.spawned btc15m none)
        gapSession).isSome := by
    decide +kernel
  rcases Option.isSome_iff_exists.mp runs with ⟨final, reached⟩
  have told := status_tells .parsed btc15m none gapSession final reached
    (by simp [gapSession, quietSession, quietFrames, WriterAlive, calm])
  exact ⟨final, reached, told.1, told.2 .reconnects⟩

end ChudMoney.Feeds.Status
