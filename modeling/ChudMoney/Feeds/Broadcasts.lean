import ChudMoney.Feeds.Handling

/-!
# What a feed broadcasts

A feed has one broadcast channel for the frames of the index and one for those
of the orderbooks.  What a step of the task adds to a channel is the text that
it took, if the text is a frame of the channel.
-/

namespace ChudMoney.Feeds.Broadcasts

open ChudMoney.Feeds.Frames
open ChudMoney.Feeds.Handling
open ChudMoney.Feeds.Shared
open ChudMoney.Feeds.Task
open ChudMoney.Kalshi.Client
open ChudMoney.Kalshi.Stream
open ChudMoney.Lib.Json
open ChudMoney.Model

variable {Text : Type}

def tickerCapacity : Nat := 64

def orderbookCapacity : Nat := 1024

inductive Channel where
  | ticker
  | orderbook
  deriving DecidableEq

/-- How many frames a channel keeps for those who fall behind. -/
def Channel.capacity : Channel → Nat
  | .ticker => tickerCapacity
  | .orderbook => orderbookCapacity

/-- The frames sent on a channel so far. -/
def Channel.tx (shared : FeedShared Text) : Channel → List Text
  | .ticker => shared.tickerTx
  | .orderbook => shared.orderbookTx

/-- An orderbook frame that follows the last one of its subscription. -/
def inSequence (readers : Readers Text) (conn : Conn Text) (text : Text) :
    Bool :=
  match bookFrame readers text with
  | none => false
  | some (_, env) =>
      match (checkSeq env conn.session.lastSeq).2 with
      | .ok () => true
      | .error _ => false

/-- The frames that a step of the task broadcasts. -/
def broadcasts (readers : Readers Text) (channel : Channel)
    (conn : Conn Text) : FeedEvent Text → List Text
  | .text _ text =>
      match channel with
      | .ticker =>
          if (typed readers indexType text).isSome then [text] else []
      | .orderbook => if inSequence readers conn text then [text] else []
  | .connect _ | .refresh _ | .ended _ => []

theorem tickerTx_sendAll (dropped : FeedStatus → FeedStatus)
    (ilp : Nat → SendOutcome) (n : Nat) (rows : List (Bool × Db.Rows.Row))
    (output : Output Text) :
    (output.sendAll dropped ilp n rows).1.shared.tickerTx =
      output.shared.tickerTx :=
  Output.sendAll_induction (motive := fun after =>
    after.shared.tickerTx = output.shared.tickerTx) ilp
    (fun _ _ same => same) (fun _ same => same) n rows rfl

theorem tickerTx_handleIndex (moment : Moment) (text : Text) (env : Envelope)
    (output : Output Text) :
    (handleIndex moment text env output).shared.tickerTx =
      output.shared.tickerTx ++ [text] := by
  rw [handleIndex_eq]
  cases CfValue5Hz.deserialize env.msg with
  | none => rfl
  | some value => exact tickerTx_sendAll _ _ _ _ _

theorem tickerTx_handleTicker (moment : Moment) (env : Envelope)
    (session : Session) (output : Output Text) :
    (handleTicker moment env session output).shared.tickerTx =
      output.shared.tickerTx := by
  rw [handleTicker_eq]
  cases TickerMsg.deserialize env.msg with
  | none => rfl
  | some msg => exact tickerTx_sendAll _ _ _ _ _

theorem tickerTx_handleOrderbook (isSnapshot : Bool) (moment : Moment)
    (text : Text) (env : Envelope) (output : Output Text)
    (session : Session) :
    (handleOrderbook isSnapshot moment text env output
        session).output.shared.tickerTx = output.shared.tickerTx := by
  rw [handleOrderbook]
  dsimp only
  split
  · rfl
  · split
    · exact tickerTx_sendAll _ _ _ _ _
    · exact tickerTx_sendAll _ _ _ _ _

/-- What a text adds to the two channels. -/
theorem tx_handleText (readers : Readers Text) (channel : Channel)
    (conn : Conn Text) (moment : Moment) (text : Text) :
    channel.tx
        (handleText readers moment text conn.output
          conn.session).output.shared =
      channel.tx conn.output.shared ++
        broadcasts readers channel conn (.text moment text) := by
  have handles :=
    handles_handleText readers moment text conn.output conn.session
  generalize handleText readers moment text conn.output conn.session =
    handled at handles ⊢
  cases handles with
  | index env isTyped =>
      have notBook : bookFrame readers text = none :=
        bookFrame_of_typed isTyped (by decide) (by decide)
      cases channel with
      | ticker =>
          simp only [broadcasts, isTyped, Option.isSome_some, if_true]
          exact tickerTx_handleIndex moment text env conn.output
      | orderbook =>
          simp only [broadcasts, inSequence, notBook, Bool.false_eq_true,
            if_false, List.append_nil]
          exact (untouched_handleIndex moment text env
            conn.output).orderbookTx
  | ticker env isTyped =>
      have notIndex := typed_of_typed isTyped
        (show tickerType ≠ indexType by decide)
      have notBook : bookFrame readers text = none :=
        bookFrame_of_typed isTyped (by decide) (by decide)
      cases channel with
      | ticker =>
          simp only [broadcasts, notIndex, Option.isSome_none,
            Bool.false_eq_true, if_false, List.append_nil]
          exact tickerTx_handleTicker moment env conn.session conn.output
      | orderbook =>
          simp only [broadcasts, inSequence, notBook, Bool.false_eq_true,
            if_false, List.append_nil]
          exact (untouched_handleTicker moment env conn.session
            conn.output).orderbookTx
  | orderbook isSnapshot env framed =>
      have notIndex : typed readers indexType text = none :=
        typed_of_bookFrame framed (by decide) (by decide)
      cases channel with
      | ticker =>
          simp only [broadcasts, notIndex, Option.isSome_none,
            Bool.false_eq_true, if_false, List.append_nil]
          exact tickerTx_handleOrderbook isSnapshot moment text env
            conn.output conn.session
      | orderbook =>
          cases checked : (checkSeq env conn.session.lastSeq).2 with
          | error e =>
              simp only [broadcasts, inSequence, framed, checked,
                Bool.false_eq_true, if_false, List.append_nil,
                handleOrderbook_of_gap checked]
          | ok _ =>
              simp only [broadcasts, inSequence, framed, checked, if_true]
              exact orderbookTx_handleOrderbook checked isSnapshot moment
                text conn.output
  | subscribed env isTyped =>
      have notIndex := typed_of_typed isTyped
        (show subscribedType ≠ indexType by decide)
      have notBook : bookFrame readers text = none :=
        bookFrame_of_typed isTyped (by decide) (by decide)
      cases channel <;>
        simp [broadcasts, inSequence, notIndex, notBook]
  | ignored notIndex notTicker notBook _ =>
      cases channel <;>
        simp [broadcasts, inSequence, notIndex, notBook]

theorem tx_connect (channel : Channel) (conn : Conn Text)
    (markets : Except String (List OpenMarket)) :
    channel.tx (conn.connect markets).output.shared =
      channel.tx conn.output.shared := by
  unfold Conn.connect
  cases markets with
  | error e => cases channel <;> rfl
  | ok markets =>
      dsimp only
      split <;> cases channel <;> rfl

theorem tx_refresh (channel : Channel) (conn : Conn Text)
    (markets : List OpenMarket) :
    channel.tx (conn.refresh markets).output.shared =
      channel.tx conn.output.shared := by
  unfold Conn.refresh
  dsimp only
  split
  · cases channel <;> rfl
  · rw [Conn.rotate, output_resubscribe]
    cases channel <;> rfl

/-- A step of the task adds what it broadcasts to the channels. -/
theorem tx_feedStep {readers : Readers Text} {conn next : Conn Text}
    {event : FeedEvent Text} (channel : Channel)
    (taken : feedStep readers conn event = some next) :
    channel.tx next.output.shared =
      channel.tx conn.output.shared ++
        broadcasts readers channel conn event := by
  cases event with
  | text moment text =>
      have handled := tx_handleText readers channel conn moment text
      rcases feedStep_text_eq_some taken with ⟨_, done | ⟨e, _, ended⟩⟩
      · rw [done.2]
        exact handled
      · rw [ended, ← handled]
        cases channel <;> rfl
  | connect markets =>
      simp only [feedStep] at taken
      split at taken
      · cases taken
      · cases taken
        rw [tx_connect, broadcasts, List.append_nil]
  | refresh markets =>
      simp only [feedStep] at taken
      split at taken
      · cases markets with
        | error e =>
            cases taken
            rw [broadcasts, List.append_nil]
        | ok markets =>
            cases taken
            rw [tx_refresh, broadcasts, List.append_nil]
      · cases taken
  | ended outcome =>
      cases taken
      rw [broadcasts, List.append_nil]
      cases channel <;> rfl

end ChudMoney.Feeds.Broadcasts
