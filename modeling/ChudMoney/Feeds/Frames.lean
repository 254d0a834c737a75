import ChudMoney.Feeds.Task

/-!
# What one frame, one poll and one reconnect do

`handleText` told apart by what the text is: an orderbook frame goes through
`handleOrderbook`, and any other text leaves the cached books, the orderbook
broadcast and the sequence numbers alone.  The cache after a step of the task
is given by one equation for each kind of event.
-/

namespace ChudMoney.Feeds.Frames

open ChudMoney.Db.Rows
open ChudMoney.Feeds.Shared
open ChudMoney.Feeds.Task
open ChudMoney.Kalshi.Book
open ChudMoney.Kalshi.Client
open ChudMoney.Kalshi.Stream
open ChudMoney.Lib.Json
open ChudMoney.Lib.MachineInt

variable {Text : Type}

/-! ## Orderbook frames -/

/--
The envelope of an orderbook frame, and whether its type is
`orderbook_snapshot`.
-/
def orderbookType (env : Envelope) : Option (Bool × Envelope) :=
  if env.typ = "orderbook_snapshot" then some (true, env)
  else if env.typ = "orderbook_delta" then some (false, env)
  else none

/-- The orderbook frame that a text is, if it is one. -/
def bookFrame (readers : Readers Text) (text : Text) :
    Option (Bool × Envelope) :=
  ((readers.fromStr text).bind Envelope.deserialize).bind orderbookType

theorem handleText_of_bookFrame
    {readers : Readers Text} {text : Text} {isSnapshot : Bool}
    {env : Envelope} (framed : bookFrame readers text = some (isSnapshot, env))
    (moment : Moment) (output : Output Text) (session : Session) :
    handleText readers moment text output session =
      handleOrderbook isSnapshot moment text env output session := by
  rw [bookFrame, Option.bind_eq_some_iff] at framed
  rcases framed with ⟨parsed, read, typed⟩
  rw [orderbookType] at typed
  rw [handleText, read]
  by_cases snapshot : parsed.typ = "orderbook_snapshot"
  · simp only [snapshot, if_true, Option.some.injEq, Prod.mk.injEq] at typed
    rcases typed with ⟨rfl, rfl⟩
    simp [snapshot]
  · by_cases delta : parsed.typ = "orderbook_delta"
    · simp only [delta, String.reduceEq, if_true, if_false,
        Option.some.injEq, Prod.mk.injEq] at typed
      rcases typed with ⟨rfl, rfl⟩
      simp [delta]
    · simp [snapshot, delta] at typed

/-- What every handler but that of an orderbook frame leaves alone. -/
structure Untouched (before after : Output Text) : Prop where
  books : after.shared.books = before.shared.books
  orderbookTx : after.shared.orderbookTx = before.shared.orderbookTx
  market : after.shared.market = before.shared.market
  ilp : ∃ rows, after.ilp = before.ilp ++ rows ∧
    ∀ row ∈ rows, ∀ book, row ≠ .contractBook book

theorem Untouched.rfl {output : Output Text} : Untouched output output :=
  ⟨Eq.refl _, Eq.refl _, Eq.refl _, [], by simp, by simp⟩

theorem Untouched.trySend {before after : Output Text}
    (untouched : Untouched before after) (dropped : FeedStatus → FeedStatus)
    (outcome : SendOutcome) {row : Row}
    (other : ∀ book, row ≠ .contractBook book) :
    Untouched before (after.trySend dropped outcome row) := by
  rcases untouched.ilp with ⟨rows, queued, others⟩
  refine
    ⟨by simp [untouched.books], by simp [untouched.orderbookTx],
      by simp [untouched.market],
      rows ++ if outcome = .room then [row] else [], ?_, ?_⟩
  · rw [Output.ilp_trySend, queued, List.append_assoc]
  · intro next member
    rcases List.mem_append.mp member with old | new
    · exact others next old
    · split at new
      · rw [List.mem_singleton.mp new]
        exact other
      · cases new

theorem Untouched.withStatus {before after : Output Text}
    (untouched : Untouched before after) (f : FeedStatus → FeedStatus) :
    Untouched before (after.withStatus f) :=
  ⟨untouched.books, untouched.orderbookTx, untouched.market, untouched.ilp⟩

theorem untouched_handleIndex (moment : Moment) (text : Text) (env : Envelope)
    (output : Output Text) :
    Untouched output (handleIndex moment text env output) := by
  have broadcast :
      Untouched output
        { output with
          shared := { output.shared with
            tickerTx := output.shared.tickerTx ++ [text] } } :=
    ⟨rfl, rfl, rfl, [], by simp, by simp⟩
  rw [handleIndex]
  split
  · exact broadcast
  · apply Untouched.withStatus
    split
    · exact broadcast.trySend _ _ (by simp)
    · exact broadcast

theorem untouched_handleTicker (moment : Moment) (env : Envelope)
    (session : Session) (output : Output Text) :
    Untouched output (handleTicker moment env session output) := by
  rw [handleTicker]
  split
  · exact .rfl
  · apply Untouched.withStatus
    exact Untouched.rfl.trySend _ _ (by simp)

@[simp]
theorem lastSeq_handleSubscribed (env : Envelope) (session : Session) :
    (handleSubscribed env session).lastSeq = session.lastSeq := by
  rw [handleSubscribed]
  split
  · rfl
  · dsimp only
    split
    · rfl
    · split <;> rfl

/-- A text that is no orderbook frame leaves the books alone. -/
theorem handleText_of_bookFrame_eq_none
    {readers : Readers Text} {text : Text}
    (other : bookFrame readers text = none) (moment : Moment)
    (output : Output Text) (session : Session) :
    Untouched output (handleText readers moment text output session).output ∧
      (handleText readers moment text output session).session.lastSeq =
        session.lastSeq ∧
      (handleText readers moment text output session).result = .ok () := by
  rw [handleText]
  cases read : (readers.fromStr text).bind Envelope.deserialize with
  | none => exact ⟨.rfl, rfl, rfl⟩
  | some env =>
      rw [bookFrame, read, Option.bind_some, orderbookType] at other
      dsimp only
      by_cases index : env.typ = "cfbenchmarks_value_5hz"
      · rw [if_pos index]
        exact ⟨untouched_handleIndex moment text env output, rfl, rfl⟩
      rw [if_neg index]
      by_cases ticker : env.typ = "ticker"
      · rw [if_pos ticker]
        exact ⟨untouched_handleTicker moment env session output, rfl, rfl⟩
      rw [if_neg ticker]
      by_cases snapshot : env.typ = "orderbook_snapshot"
      · simp [snapshot] at other
      rw [if_neg snapshot]
      by_cases delta : env.typ = "orderbook_delta"
      · simp [delta] at other
      rw [if_neg delta]
      by_cases subscribed : env.typ = "subscribed"
      · rw [if_pos subscribed]
        exact ⟨.rfl, by simp, rfl⟩
      · rw [if_neg subscribed]
        exact ⟨.rfl, rfl, rfl⟩

/-- A frame out of sequence changes nothing but its own last number. -/
theorem handleOrderbook_of_gap {env : Envelope} {session : Session}
    {e : String} (gap : (checkSeq env session.lastSeq).2 = .error e)
    (isSnapshot : Bool) (moment : Moment) (text : Text)
    (output : Output Text) :
    handleOrderbook isSnapshot moment text env output session =
      ⟨output,
        { session with lastSeq := (checkSeq env session.lastSeq).1 },
        .error e⟩ := by
  rw [handleOrderbook]
  simp only [gap]

section InSequence

variable {env : Envelope} {session : Session}
variable (inSequence : (checkSeq env session.lastSeq).2 = .ok ())
variable (isSnapshot : Bool) (moment : Moment) (text : Text)
variable (output : Output Text)

include inSequence

/-- The sends of a frame in sequence. -/
theorem handleOrderbook_of_inSequence :
    let handled := handleOrderbook isSnapshot moment text env output session
    let sent :=
      (applyFrame isSnapshot text env output).sendAll countDropped
        moment.ilp 0
        (framedRows isSnapshot (timestampMillis moment.now) env
          output.shared.market)
    handled.result = sent.2 ∧
      handled.output.ilp = sent.1.ilp ∧
      handled.session =
        { session with lastSeq := (checkSeq env session.lastSeq).1 } := by
  dsimp only
  rw [handleOrderbook]
  simp only [inSequence]
  split
  next e failed => exact ⟨failed.symm, rfl, rfl⟩
  next done => exact ⟨done.symm, rfl, rfl⟩

theorem books_handleOrderbook :
    (handleOrderbook isSnapshot moment text env output
        session).output.shared.books =
      framedBooks isSnapshot env output.shared.books := by
  rw [handleOrderbook]
  simp only [inSequence]
  split <;> simp [applyFrame]

theorem orderbookTx_handleOrderbook :
    (handleOrderbook isSnapshot moment text env output
        session).output.shared.orderbookTx =
      output.shared.orderbookTx ++ [text] := by
  rw [handleOrderbook]
  simp only [inSequence]
  split <;> simp [applyFrame]

end InSequence

/-- A frame that is handled without error was in sequence. -/
theorem inSequence_of_result {isSnapshot : Bool} {moment : Moment}
    {text : Text} {env : Envelope} {output : Output Text} {session : Session}
    (handled : (handleOrderbook isSnapshot moment text env output
      session).result = .ok ()) :
    (checkSeq env session.lastSeq).2 = .ok () := by
  cases checked : (checkSeq env session.lastSeq).2 with
  | ok _ => rfl
  | error e =>
      rw [handleOrderbook_of_gap checked] at handled
      cases handled

/-- A frame handled without error is the whole step. -/
theorem feedStep_text {readers : Readers Text} {conn next : Conn Text}
    {moment : Moment} {text : Text}
    (handled : (handleText readers moment text conn.output
      conn.session).result = .ok ())
    (taken : feedStep readers conn (.text moment text) = some next) :
    next =
      { conn with
        output := (handleText readers moment text conn.output
          conn.session).output
        session := (handleText readers moment text conn.output
          conn.session).session } := by
  simp only [feedStep, handled] at taken
  split at taken
  · exact (Option.some.inj taken).symm
  · cases taken

/--
A text either leaves the cache and the broadcast alone, or it is an orderbook
frame that is applied and broadcast, whether or not the session then ends.
-/
theorem feedStep_text_cases {readers : Readers Text} {conn next : Conn Text}
    {moment : Moment} {text : Text}
    (taken : feedStep readers conn (.text moment text) = some next) :
    (next.output.shared.books = conn.output.shared.books ∧
      next.output.shared.orderbookTx = conn.output.shared.orderbookTx) ∨
    ∃ isSnapshot env, bookFrame readers text = some (isSnapshot, env) ∧
      next.output.shared.books =
        framedBooks isSnapshot env conn.output.shared.books ∧
      next.output.shared.orderbookTx =
        conn.output.shared.orderbookTx ++ [text] := by
  let handled := handleText readers moment text conn.output conn.session
  have shared : next.output.shared.books = handled.output.shared.books ∧
      next.output.shared.orderbookTx =
        handled.output.shared.orderbookTx := by
    simp only [feedStep] at taken
    split at taken
    · split at taken
      · cases taken
        exact ⟨rfl, rfl⟩
      · cases taken
        exact ⟨rfl, rfl⟩
    · cases taken
  rw [shared.1, shared.2]
  show (handled.output.shared.books = _ ∧ _) ∨ _
  cases framed : bookFrame readers text with
  | none =>
      have untouched :=
        (handleText_of_bookFrame_eq_none framed moment conn.output
          conn.session).1
      exact .inl ⟨untouched.books, untouched.orderbookTx⟩
  | some frame =>
      rcases frame with ⟨isSnapshot, env⟩
      have handles : handled =
          handleOrderbook isSnapshot moment text env conn.output
            conn.session :=
        handleText_of_bookFrame framed moment conn.output conn.session
      cases checked : (checkSeq env conn.session.lastSeq).2 with
      | error e =>
          left
          rw [handles, handleOrderbook_of_gap checked]
          exact ⟨rfl, rfl⟩
      | ok _ =>
          right
          refine ⟨isSnapshot, env, rfl, ?_, ?_⟩
          · rw [handles]
            exact books_handleOrderbook checked _ _ _ _
          · rw [handles]
            exact orderbookTx_handleOrderbook checked _ _ _ _

/-! ## Polls and reconnects -/

section Commands

variable (conn : Conn Text)

@[simp]
theorem output_updateSid (add del : TickerSet) (sid : UInt64) :
    (conn.updateSid add del sid).output = conn.output := by
  rw [Conn.updateSid]
  split <;> split <;> rfl

@[simp]
theorem session_updateSid (add del : TickerSet) (sid : UInt64) :
    (conn.updateSid add del sid).session = conn.session := by
  rw [Conn.updateSid]
  split <;> split <;> rfl

@[simp]
theorem live_updateSid (add del : TickerSet) (sid : UInt64) :
    (conn.updateSid add del sid).live = conn.live := by
  rw [Conn.updateSid]
  split <;> split <;> rfl

theorem output_foldl_updateSid (add del : TickerSet) (sids : List UInt64) :
    (sids.foldl (Conn.updateSid add del) conn).output = conn.output := by
  induction sids generalizing conn with
  | nil => rfl
  | cons sid sids ih => rw [List.foldl_cons, ih, output_updateSid]

@[simp]
theorem output_subscribeMarkets (opened : TickerSet) :
    (conn.subscribeMarkets opened).output = conn.output :=
  rfl

end Commands

theorem getElem?_foldl_erase (tickers : List String)
    (books : HashMap String OrderBook) (ticker : String) :
    (tickers.foldl (fun books t => books.erase t) books)[ticker]? =
      if ticker ∈ tickers then none else books[ticker]? := by
  induction tickers generalizing books with
  | nil => simp
  | cons head tickers ih =>
      rw [List.foldl_cons, ih, Std.ExtTreeMap.getElem?_erase]
      by_cases same : head = ticker
      · simp [same]
      · simp [same, Ne.symm same]

theorem output_resubscribe (conn : Conn Text) (opened add del : TickerSet) :
    (conn.resubscribe opened add del).output = conn.output := by
  rw [Conn.resubscribe]
  split
  · split <;> rfl
  · exact output_foldl_updateSid conn add del conn.session.marketSids

theorem session_foldl_updateSid (conn : Conn Text) (add del : TickerSet)
    (sids : List UInt64) :
    (sids.foldl (Conn.updateSid add del) conn).session = conn.session := by
  induction sids generalizing conn with
  | nil => rfl
  | cons sid sids ih => rw [List.foldl_cons, ih, session_updateSid]

theorem lastSeq_resubscribe (conn : Conn Text) (opened add del : TickerSet) :
    (conn.resubscribe opened add del).session.lastSeq =
      conn.session.lastSeq := by
  rw [Conn.resubscribe]
  split
  · split <;> rfl
  · exact congrArg Session.lastSeq
      (session_foldl_updateSid conn add del conn.session.marketSids)

/-- A session starts with no number seen. -/
theorem lastSeq_connect (conn : Conn Text)
    (markets : Except String (List OpenMarket)) :
    (conn.connect markets).session.lastSeq = ∅ := by
  unfold Conn.connect
  cases markets with
  | error e => rfl
  | ok markets =>
      dsimp only
      split <;> rfl

theorem lastSeq_refresh (conn : Conn Text) (markets : List OpenMarket) :
    (conn.refresh markets).session.lastSeq = conn.session.lastSeq := by
  unfold Conn.refresh
  dsimp only
  split
  · rfl
  · rw [Conn.rotate]
    exact lastSeq_resubscribe _ _ _ _

/-- A session starts with no book. -/
theorem books_connect (conn : Conn Text)
    (markets : Except String (List OpenMarket)) :
    (conn.connect markets).output.shared.books = ∅ := by
  unfold Conn.connect
  cases markets with
  | error e => rfl
  | ok markets =>
      dsimp only
      split <;> rfl

/-- A broadcast outlives the sessions. -/
theorem orderbookTx_connect (conn : Conn Text)
    (markets : Except String (List OpenMarket)) :
    (conn.connect markets).output.shared.orderbookTx =
      conn.output.shared.orderbookTx := by
  unfold Conn.connect
  cases markets with
  | error e => rfl
  | ok markets =>
      dsimp only
      split <;> rfl

theorem subscribed_connect (conn : Conn Text) (markets : List OpenMarket) :
    (conn.connect (.ok markets)).subscribed = Conn.openTickers markets := by
  unfold Conn.connect
  dsimp only
  split
  next isEmpty => exact (Std.ExtTreeSet.isEmpty_iff.mp isEmpty).symm
  next => rfl

theorem mem_of_diff_isEmpty {first second : TickerSet}
    (nothing : (first \ second).isEmpty = true) {ticker : String}
    (member : ticker ∈ first) : ticker ∈ second := by
  by_contra absent
  have left : ticker ∈ first \ second :=
    Std.ExtTreeSet.mem_diff_iff.mpr ⟨member, absent⟩
  rw [Std.ExtTreeSet.isEmpty_iff.mp nothing] at left
  exact absurd left Std.ExtTreeSet.not_mem_empty

/-- A poll that finds nothing to add or to delete found the subscribed set. -/
theorem eq_of_diff_isEmpty {opened subscribed : TickerSet}
    (same : ((opened \ subscribed).isEmpty &&
      (subscribed \ opened).isEmpty) = true) :
    opened = subscribed := by
  rw [Bool.and_eq_true] at same
  apply Std.ExtTreeSet.ext_mem
  intro ticker
  exact ⟨mem_of_diff_isEmpty same.1, mem_of_diff_isEmpty same.2⟩

theorem subscribed_refresh (conn : Conn Text) (markets : List OpenMarket) :
    (conn.refresh markets).subscribed = Conn.openTickers markets := by
  unfold Conn.refresh
  dsimp only
  split
  next same => exact (eq_of_diff_isEmpty same).symm
  next => rfl

theorem ilp_refresh (conn : Conn Text) (markets : List OpenMarket) :
    (conn.refresh markets).output.ilp = conn.output.ilp := by
  unfold Conn.refresh
  dsimp only
  split
  · rfl
  · rw [Conn.rotate]
    simp [output_resubscribe]

theorem orderbookTx_refresh (conn : Conn Text) (markets : List OpenMarket) :
    (conn.refresh markets).output.shared.orderbookTx =
      conn.output.shared.orderbookTx := by
  unfold Conn.refresh
  dsimp only
  split
  · rfl
  · rw [Conn.rotate]
    simp [output_resubscribe]

/-- A refresh removes the books of the markets that are no longer open. -/
theorem getElem?_books_refresh (conn : Conn Text) (markets : List OpenMarket)
    (ticker : String) :
    (conn.refresh markets).output.shared.books[ticker]? =
      if ticker ∈ conn.subscribed ∧ ticker ∉ Conn.openTickers markets then none
      else conn.output.shared.books[ticker]? := by
  unfold Conn.refresh
  dsimp only
  split
  next same =>
    rw [eq_of_diff_isEmpty same]
    simp
  next =>
    rw [Conn.rotate]
    simp only [output_resubscribe, Output.books_withBooks,
      Output.books_withStatus, getElem?_foldl_erase,
      Std.ExtTreeSet.mem_toList, Std.ExtTreeSet.mem_diff_iff]

end ChudMoney.Feeds.Frames
