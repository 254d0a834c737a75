import ChudMoney.Feeds.CoinbaseAccounting
import ChudMoney.Feeds.Status
import ChudMoney.Lib.Backoff

/-!
# Reconnecting

`run_feed` and `run_coinbase_feed` run one session after another, and sleep in
between.  When sessions fail, how soon, and how long each takes is arbitrary.

Times are in nanoseconds.
-/

namespace ChudMoney.Feeds.Reconnect

open ChudMoney.Coinbase.Stream
open ChudMoney.Db.Rows
open ChudMoney.Feeds.Coinbase (CoinbaseConn CoinbaseEvent coinbaseStep)
open ChudMoney.Feeds.Shared
open ChudMoney.Feeds.Task
open ChudMoney.Lib.Backoff
open ChudMoney.Lib.Json
open ChudMoney.Lib.Runs
open ChudMoney.Model

variable {Text : Type}

/-! ## The loops -/

def second : Nat := 1000000000

def backoffMin : Nat := 1 * second

def backoffMax : Nat := 60 * second

/-- How long a session lives at most that does not earn a fresh backoff. -/
def longSession : Nat := 60 * second

def feedPolicy : Policy where
  least := backoffMin
  most := backoffMax
  reset := longSession
  le := by decide

/-- A step with which the session of a feed returns. -/
def endsSession (readers : Readers Text) (conn : Conn Text) :
    FeedEvent Text → Bool
  | .text moment text =>
      !(handleText readers moment text conn.output conn.session).result.isOk
  | .connect (.error _) | .ended _ => true
  | .connect (.ok _) | .refresh _ => false

def endsCoinbaseSession (readers : Readers Text) (product : String)
    (conn : CoinbaseConn Text) : CoinbaseEvent Text → Bool
  | .text moment text =>
      !(Coinbase.handleText readers moment product text conn.output
        conn.lastSeq).result.isOk
  | .ended _ => true
  | .connect _ => false

/-- `run_feed`: a session begins, or goes on. -/
def runFeed (readers : Readers Text) :
    Loop (Conn Text) → Turn (FeedEvent Text) → Option (Loop (Conn Text)) :=
  turn feedPolicy (feedStep readers) (endsSession readers)

/-- `run_coinbase_feed`. -/
def runCoinbaseFeed (readers : Readers Text) (product : String) :
    Loop (CoinbaseConn Text) → Turn (CoinbaseEvent Text) →
      Option (Loop (CoinbaseConn Text)) :=
  turn feedPolicy (coinbaseStep readers product)
    (endsCoinbaseSession readers product)

/-! ## The counters -/

/-- Sessions that ended, as the status counts them. -/
theorem reconnects_feedStep {readers : Readers Text} {conn next : Conn Text}
    {event : FeedEvent Text}
    (taken : feedStep readers conn event = some next) :
    next.output.shared.status.reconnects =
      conn.output.shared.status.reconnects +
        if endsSession readers conn event then 1 else 0 := by
  cases event with
  | text moment text =>
      have told := (Status.told_handleText readers moment text conn.output
        conn.session).1
      have same : (handleText readers moment text conn.output
          conn.session).output.shared.status.reconnects =
            conn.output.shared.status.reconnects :=
        congrArg (fun told => told.2.1) told
      simp only [feedStep] at taken
      split at taken
      case isFalse => cases taken
      rw [endsSession]
      split at taken
      next done =>
        cases taken
        rw [done]
        exact same.trans (UInt32.add_zero _).symm
      next e failed =>
        cases taken
        rw [failed]
        exact congrArg (· + 1) same
  | connect markets =>
      simp only [feedStep] at taken
      split at taken
      · cases taken
      cases taken
      cases markets with
      | ok markets =>
          exact (UInt32.toNat.inj
            (Status.read_connect .reconnects conn markets)).trans
              (UInt32.add_zero _).symm
      | error e => rfl
  | refresh markets =>
      simp only [feedStep] at taken
      split at taken
      case isFalse => cases taken
      cases markets with
      | error e =>
          cases taken
          exact (UInt32.add_zero _).symm
      | ok markets =>
          cases taken
          exact (UInt32.toNat.inj
            (Status.read_refresh .reconnects conn markets)).trans
              (UInt32.add_zero _).symm
  | ended outcome =>
      cases taken
      rfl

theorem map_add_zero (count : Option UInt32) : count.map (· + 0) = count := by
  cases count with
  | none => rfl
  | some n => exact congrArg some (UInt32.add_zero n)

/-- The reconnects of a Coinbase feed, which only it counts. -/
def coinbaseReconnects (status : FeedStatus) : Option UInt32 :=
  status.coinbase.map CoinbaseFeedStatus.reconnects

theorem coinbaseReconnects_keeps
    {f : CoinbaseFeedStatus → CoinbaseFeedStatus}
    (keeps : ∀ cb, (f cb).reconnects = cb.reconnects) (status : FeedStatus) :
    coinbaseReconnects (Coinbase.withStatus f status) =
      coinbaseReconnects status :=
  Coinbase.coinbase_withStatus keeps status

theorem coinbaseReconnects_sendAll (ilp : Nat → SendOutcome) (n : Nat)
    (rows : List (Bool × Row)) (output : Output Text) :
    coinbaseReconnects
        (output.sendAll Coinbase.countDropped ilp n rows).1.shared.status =
      coinbaseReconnects output.shared.status := by
  refine Output.sendAll_induction (motive := fun after =>
      coinbaseReconnects after.shared.status =
        coinbaseReconnects output.shared.status) ilp
    (fun _ _ same => same) (fun counted same => ?_) n rows rfl
  rw [← same]
  apply coinbaseReconnects_keeps
  intro cb
  rfl

theorem coinbaseReconnects_handleChannel
    (parseFromRfc3339 : String → Option Int) (moment : Moment)
    (product : String) (env : Envelope) (output : Output Text) :
    coinbaseReconnects (Coinbase.handleChannel parseFromRfc3339 moment product
        env output).1.shared.status =
      coinbaseReconnects output.shared.status := by
  rw [Coinbase.handleChannel]
  dsimp only
  by_cases ticker : env.channel = channelTicker
  · rw [if_pos ticker]
    have sent := coinbaseReconnects_sendAll moment.ilp 0
      (((Coinbase.productTickers product env.events).map
        (Coinbase.tickerRow (Coinbase.stampsOf parseFromRfc3339 moment env)
          env.sequenceNum)).map fun row => (false, row)) output
    rw [← sent]
    apply coinbaseReconnects_keeps
    intro cb
    rfl
  rw [if_neg ticker]
  by_cases level2 : env.channel = channelL2Data
  · rw [if_pos level2]
    have sent := coinbaseReconnects_sendAll moment.ilp 0
      (Coinbase.bookRows parseFromRfc3339
        (Coinbase.stampsOf parseFromRfc3339 moment env) product env) output
    split
    · exact sent
    · rw [← sent]
      apply coinbaseReconnects_keeps
      intro cb
      rfl
  rw [if_neg level2]
  by_cases heartbeats : env.channel = channelHeartbeats
  · rw [if_pos heartbeats]
    apply coinbaseReconnects_keeps
    intro cb
    rfl
  · rw [if_neg heartbeats]

theorem coinbaseReconnects_handleText (readers : Readers Text)
    (moment : Moment) (product : String) (text : Text) (output : Output Text)
    (lastSeq : Option UInt64) :
    coinbaseReconnects (Coinbase.handleText readers moment product text output
        lastSeq).output.shared.status =
      coinbaseReconnects output.shared.status := by
  rw [Coinbase.handleText]
  cases (readers.fromStr text).bind Envelope.deserialize with
  | none => rfl
  | some env =>
      dsimp only
      by_cases noChannel : env.channel.isEmpty
      · rw [if_pos noChannel]
      rw [if_neg noChannel]
      split
      · rfl
      · exact coinbaseReconnects_handleChannel readers.parseFromRfc3339 moment
          product env output

theorem coinbaseReconnects_ended (conn : CoinbaseConn Text)
    (outcome : Except String Unit) :
    coinbaseReconnects (conn.ended outcome).output.shared.status =
      (coinbaseReconnects conn.output.shared.status).map (· + 1) := by
  show (conn.output.shared.status.coinbase.map _).map _ = _
  rw [coinbaseReconnects]
  cases conn.output.shared.status.coinbase <;> rfl

theorem reconnects_coinbaseStep {readers : Readers Text} {product : String}
    {conn next : CoinbaseConn Text} {event : CoinbaseEvent Text}
    (taken : coinbaseStep readers product conn event = some next) :
    coinbaseReconnects next.output.shared.status =
      (coinbaseReconnects conn.output.shared.status).map
        (· +
          if endsCoinbaseSession readers product conn event then 1 else 0) := by
  cases event with
  | text moment text =>
      have same := coinbaseReconnects_handleText readers moment product text
        conn.output conn.lastSeq
      simp only [coinbaseStep] at taken
      split at taken
      case isFalse => cases taken
      rw [endsCoinbaseSession]
      split at taken
      next done =>
        cases taken
        rw [done, same]
        exact (map_add_zero _).symm
      next e failed =>
        cases taken
        rw [failed, coinbaseReconnects_ended, same]
        rfl
  | connect jwt =>
      simp only [coinbaseStep] at taken
      split at taken
      · cases taken
      · cases taken
        refine Eq.trans ?_ (map_add_zero _).symm
        apply coinbaseReconnects_keeps
        intro cb
        rfl
  | ended outcome =>
      cases taken
      exact coinbaseReconnects_ended conn outcome

/-! ## Runs of the loops -/

/-- As many sessions have ended as the status counts. -/
theorem reconnects_runFeed {readers : Readers Text} {market : Market}
    {coinbase : Option CoinbaseFeedStatus}
    {turns : List (Turn (FeedEvent Text))} {final : Loop (Conn Text)}
    (reached : run (runFeed readers)
      (.start feedPolicy (Conn.spawned market coinbase)) turns = some final) :
    final.state.output.shared.status.reconnects = .ofNat final.log.length := by
  refine invariant_of_run (fun loop : Loop (Conn Text) =>
    loop.state.output.shared.status.reconnects = .ofNat loop.log.length)
    (fun loop next label counted taken => ?_) rfl reached
  rcases turn_cases taken with
    ⟨wake, now, -, -, -, rfl⟩ |
      ⟨now, act, started, state, -, -, -, stepped,
        ⟨isEnd, rfl⟩ | ⟨goesOn, rfl⟩⟩
  · exact counted
  · rw [List.length_append, UInt32.ofNat_add, reconnects_feedStep stepped,
      isEnd, counted]
    rfl
  · rw [reconnects_feedStep stepped, goesOn, counted]
    exact UInt32.add_zero _

theorem reconnects_runCoinbaseFeed {readers : Readers Text} {product : String}
    {market : Market} {turns : List (Turn (CoinbaseEvent Text))}
    {final : Loop (CoinbaseConn Text)}
    (reached : run (runCoinbaseFeed readers product)
      (.start feedPolicy (CoinbaseAccounting.spawned market product)) turns =
        some final) :
    coinbaseReconnects final.state.output.shared.status =
      some (.ofNat final.log.length) := by
  refine invariant_of_run (fun loop : Loop (CoinbaseConn Text) =>
    coinbaseReconnects loop.state.output.shared.status =
      some (.ofNat loop.log.length))
    (fun loop next label counted taken => ?_) rfl reached
  rcases turn_cases taken with
    ⟨wake, now, -, -, -, rfl⟩ |
      ⟨now, act, started, state, -, -, -, stepped,
        ⟨isEnd, rfl⟩ | ⟨goesOn, rfl⟩⟩
  · exact counted
  · rw [List.length_append, UInt32.ofNat_add, reconnects_coinbaseStep stepped,
      isEnd, counted]
    rfl
  · rw [reconnects_coinbaseStep stepped, goesOn, counted]
    exact congrArg some (UInt32.add_zero _)

/-! ## Sessions are paced -/

/--
What holds of the sessions of a loop: its pauses keep to their bounds, and of
any seven sessions in a row the last begins more than a minute after the first.
-/
structure SessionsPaced {State : Type} (loop : Loop State) : Prop where
  pauses : ∀ session ∈ loop.log,
    backoffMin ≤ session.pause ∧ session.pause ≤ backoffMax ∧
      (longSession < session.failed - session.started →
        session.pause = backoffMin)
  apart : ∀ (i first later : Nat), loop.begun[i]? = some first →
    loop.begun[i + 6]? = some later → first + longSession < later

theorem sessionsPaced_of_isPaced {State : Type} {loop : Loop State}
    (isPaced : loop.IsPaced feedPolicy) : SessionsPaced loop where
  pauses := by
    rcases isPaced with ⟨wake, paced, -⟩
    exact paced.pause_bounds
  apart i first later isFirst isLater :=
    @Loop.IsPaced.apart _ _ _ isPaced 5 (by decide) (by decide) i first later
      isFirst isLater

/--
Over a whole run of either task a session that ends is counted, and sessions
do not begin too close together.
-/
theorem reconnects_paced (readers : Readers Text) (market : Market) :
    (∀ (coinbase : Option CoinbaseFeedStatus)
        (turns : List (Turn (FeedEvent Text))) (final : Loop (Conn Text)),
      run (runFeed readers)
          (.start feedPolicy (Conn.spawned market coinbase)) turns =
        some final →
      final.state.output.shared.status.reconnects = .ofNat final.log.length ∧
        SessionsPaced final) ∧
    ∀ (product : String) (turns : List (Turn (CoinbaseEvent Text)))
        (final : Loop (CoinbaseConn Text)),
      run (runCoinbaseFeed readers product)
          (.start feedPolicy (CoinbaseAccounting.spawned market product))
          turns = some final →
      (∃ cb, final.state.output.shared.status.coinbase = some cb ∧
        cb.reconnects = .ofNat final.log.length) ∧ SessionsPaced final := by
  constructor
  · intro coinbase turns final reached
    exact ⟨reconnects_runFeed reached,
      sessionsPaced_of_isPaced (isPaced_of_run reached)⟩
  · intro product turns final reached
    exact ⟨Option.map_eq_some_iff.mp (reconnects_runCoinbaseFeed reached),
      sessionsPaced_of_isPaced (isPaced_of_run reached)⟩

/-- Seven sessions that fail at once, each as soon as the pause is over. -/
def failing {Label : Type} (fails : Label) : List (Turn Label) :=
  [0, 1, 3, 7, 15, 31, 63].flatMap fun start =>
    [.begin (start * second), .act (start * second) fails]

theorem reconnects_paced_failing :
    (∃ final, run (runFeed Readers.parsed)
        (.start feedPolicy (Conn.spawned btc15m none))
        (failing (.connect (.error "listing open markets"))) = some final ∧
      final.begun[6]? = some (63 * second) ∧
      final.state.output.shared.status.reconnects = .ofNat final.log.length ∧
        SessionsPaced final) ∧
    ∃ final, run (runCoinbaseFeed Readers.parsed "BTC-USD")
        (.start feedPolicy (CoinbaseAccounting.spawned btc15m "BTC-USD"))
        (failing (.ended (.error "websocket closed"))) = some final ∧
      final.begun[6]? = some (63 * second) ∧
      (∃ cb, final.state.output.shared.status.coinbase = some cb ∧
        cb.reconnects = .ofNat final.log.length) ∧ SessionsPaced final := by
  constructor
  · have runs : (run (runFeed Readers.parsed)
        (.start feedPolicy (Conn.spawned btc15m none))
        (failing (.connect (.error "listing open markets")))).map
          (fun final => final.begun[6]?) = some (some (63 * second)) := by
      decide +kernel
    rcases Option.map_eq_some_iff.mp runs with ⟨final, reached, begun⟩
    exact ⟨final, reached, begun,
      (reconnects_paced .parsed btc15m).1 none _ final reached⟩
  · have runs : (run (runCoinbaseFeed Readers.parsed "BTC-USD")
        (.start feedPolicy (CoinbaseAccounting.spawned btc15m "BTC-USD"))
        (failing (.ended (.error "websocket closed")))).map
          (fun final => final.begun[6]?) = some (some (63 * second)) := by
      decide +kernel
    rcases Option.map_eq_some_iff.mp runs with ⟨final, reached, begun⟩
    exact ⟨final, reached, begun,
      (reconnects_paced .parsed btc15m).2 "BTC-USD" _ final reached⟩

end ChudMoney.Feeds.Reconnect
