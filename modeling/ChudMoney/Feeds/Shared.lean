import ChudMoney.Db.Rows
import ChudMoney.Kalshi.Book
import ChudMoney.Kalshi.Client
import ChudMoney.Kalshi.Stream
import ChudMoney.Model.Market

/-!
# What a market's tasks share with each other and with its readers

A broadcast channel is the list of the frames sent on it so far, and the queue
of the ILP writer the list of the rows one task has put there so far.  Whether
there is room in the queue is decided outside the task, row by row.
-/

namespace ChudMoney.Feeds.Shared

open ChudMoney.Db.Rows
open ChudMoney.Kalshi.Book
open ChudMoney.Kalshi.Client
open ChudMoney.Kalshi.Stream
open ChudMoney.Lib.Text
open ChudMoney.Model

/-- `HashMap`; nothing depends on its iteration order. -/
abbrev HashMap (K V : Type) [Ord K] := Std.ExtTreeMap K V

structure CoinbaseFeedStatus where
  product : String
  connected : Bool
  reconnects : UInt32
  tickerMsgs : UInt64
  bookMsgs : UInt64
  droppedRows : UInt64
  lastPrice : Option F64
  lastMsgAt : Option Int
  lastError : Option String
  deriving DecidableEq

structure FeedStatus where
  connected : Bool
  reconnects : UInt32
  openTickers : List String
  openMarkets : List OpenMarket
  lastValue : Option F64
  lastMsgAt : Option Int
  tickerMsgs : UInt64
  contractTickerMsgs : UInt64
  orderbookMsgs : UInt64
  droppedRows : UInt64
  lastError : Option String
  coinbase : Option CoinbaseFeedStatus
  deriving DecidableEq

/-- `CoinbaseFeedStatus` of a feed that has not connected yet. -/
def CoinbaseFeedStatus.default (product : String) : CoinbaseFeedStatus :=
  ⟨product, false, 0, 0, 0, 0, none, none, none⟩

/-- `FeedStatus` of a feed that has not connected yet. -/
def FeedStatus.default (coinbase : Option CoinbaseFeedStatus) : FeedStatus :=
  ⟨false, 0, [], [], none, none, 0, 0, 0, 0, none, coinbase⟩

structure FeedShared (Text : Type) where
  market : Market
  tickerTx : List Text
  orderbookTx : List Text
  books : HashMap String OrderBook
  status : FeedStatus

/-- What becomes of one row sent to the ILP writer's bounded queue. -/
inductive SendOutcome where
  | room
  | full
  | closed
  deriving DecidableEq, Repr

/--
What the world answers while one frame is handled: the two readings of the
clock, and the state of the queue at each row.
-/
structure Moment where
  now : Int
  later : Int
  ilp : Nat → SendOutcome

/-- A moment at the epoch, with room for every row. -/
def Moment.calm : Moment := ⟨0, 0, fun _ => .room⟩

/-- A task's shared state and the rows it has queued. -/
structure Output (Text : Type) where
  shared : FeedShared Text
  ilp : List Row

namespace Output

variable {Text : Type}

def withStatus (output : Output Text) (f : FeedStatus → FeedStatus) :
    Output Text :=
  { output with shared := { output.shared with status := f output.shared.status } }

def withBooks (output : Output Text) (books : HashMap String OrderBook) :
    Output Text :=
  { output with shared := { output.shared with books := books } }

def push (output : Output Text) (row : Row) : Output Text :=
  { output with ilp := output.ilp ++ [row] }

@[simp]
theorem books_withStatus (output : Output Text) (f : FeedStatus → FeedStatus) :
    (output.withStatus f).shared.books = output.shared.books :=
  rfl

@[simp]
theorem orderbookTx_withStatus (output : Output Text)
    (f : FeedStatus → FeedStatus) :
    (output.withStatus f).shared.orderbookTx = output.shared.orderbookTx :=
  rfl

@[simp]
theorem market_withStatus (output : Output Text)
    (f : FeedStatus → FeedStatus) :
    (output.withStatus f).shared.market = output.shared.market :=
  rfl

@[simp]
theorem ilp_withStatus (output : Output Text) (f : FeedStatus → FeedStatus) :
    (output.withStatus f).ilp = output.ilp :=
  rfl

@[simp]
theorem books_withBooks (output : Output Text)
    (books : HashMap String OrderBook) :
    (output.withBooks books).shared.books = books :=
  rfl

@[simp]
theorem orderbookTx_withBooks (output : Output Text)
    (books : HashMap String OrderBook) :
    (output.withBooks books).shared.orderbookTx = output.shared.orderbookTx :=
  rfl

@[simp]
theorem market_withBooks (output : Output Text)
    (books : HashMap String OrderBook) :
    (output.withBooks books).shared.market = output.shared.market :=
  rfl

@[simp]
theorem ilp_withBooks (output : Output Text)
    (books : HashMap String OrderBook) :
    (output.withBooks books).ilp = output.ilp :=
  rfl

@[simp]
theorem shared_push (output : Output Text) (row : Row) :
    (output.push row).shared = output.shared :=
  rfl

@[simp]
theorem ilp_push (output : Output Text) (row : Row) :
    (output.push row).ilp = output.ilp ++ [row] :=
  rfl

/-! ## The queue of the ILP writer -/

/-- `mpsc::Sender::send`: wait for room; fails once the writer is gone. -/
def send (output : Output Text) (outcome : SendOutcome) (row : Row) :
    Output Text × Except String Unit :=
  match outcome with
  | .closed => (output, .error "ilp writer gone")
  | .room | .full => (output.push row, .ok ())

/--
`mpsc::Sender::try_send`: a full queue drops the row and is counted in the
status; a row for a writer that is gone is only logged.
-/
def trySend (dropped : FeedStatus → FeedStatus) (output : Output Text)
    (outcome : SendOutcome) (row : Row) : Output Text :=
  match outcome with
  | .room => output.push row
  | .full => output.withStatus dropped
  | .closed => output

/--
Send rows in order, the `n`-th row of the frame first.  A row that `waits` is
sent with `send`, whose failure ends the loop.
-/
def sendAll (dropped : FeedStatus → FeedStatus) (ilp : Nat → SendOutcome) :
    Nat → List (Bool × Row) → Output Text → Output Text × Except String Unit
  | _, [], output => (output, .ok ())
  | n, (waits, row) :: rows, output =>
      if waits then
        match output.send (ilp n) row with
        | (output, .error e) => (output, .error e)
        | (output, .ok ()) => sendAll dropped ilp (n + 1) rows output
      else
        sendAll dropped ilp (n + 1) rows (output.trySend dropped (ilp n) row)

/-- The rows that `sendAll` queues when it does not fail. -/
def kept (ilp : Nat → SendOutcome) : Nat → List (Bool × Row) → List Row
  | _, [] => []
  | n, (waits, row) :: rows =>
      if waits ∨ ilp n = .room then row :: kept ilp (n + 1) rows
      else kept ilp (n + 1) rows

/-- How many rows `sendAll` drops and counts when it does not fail. -/
def lost (ilp : Nat → SendOutcome) : Nat → List (Bool × Row) → Nat
  | _, [] => 0
  | n, (waits, _) :: rows =>
      (if ¬ waits ∧ ilp n = .full then 1 else 0) + lost ilp (n + 1) rows

/-- Every row that waits for room is queued. -/
theorem kept_waiting (ilp : Nat → SendOutcome) (n : Nat) (rows : List Row) :
    kept ilp n (rows.map fun row => (true, row)) = rows := by
  induction rows generalizing n with
  | nil => rfl
  | cons row rows ih => simp [kept, ih]

theorem mem_of_mem_kept {ilp : Nat → SendOutcome} {n : Nat}
    {rows : List (Bool × Row)} {row : Row} (member : row ∈ kept ilp n rows) :
    row ∈ rows.map Prod.snd := by
  induction rows generalizing n with
  | nil => cases member
  | cons entry rows ih =>
      rw [kept] at member
      split at member
      · rcases List.mem_cons.mp member with rfl | rest
        · simp
        · exact List.mem_cons_of_mem _ (ih rest)
      · exact List.mem_cons_of_mem _ (ih member)

@[simp]
theorem books_trySend (dropped : FeedStatus → FeedStatus)
    (output : Output Text) (outcome : SendOutcome) (row : Row) :
    (output.trySend dropped outcome row).shared.books =
      output.shared.books := by
  cases outcome <;> rfl

@[simp]
theorem orderbookTx_trySend (dropped : FeedStatus → FeedStatus)
    (output : Output Text) (outcome : SendOutcome) (row : Row) :
    (output.trySend dropped outcome row).shared.orderbookTx =
      output.shared.orderbookTx := by
  cases outcome <;> rfl

@[simp]
theorem market_trySend (dropped : FeedStatus → FeedStatus)
    (output : Output Text) (outcome : SendOutcome) (row : Row) :
    (output.trySend dropped outcome row).shared.market =
      output.shared.market := by
  cases outcome <;> rfl

theorem ilp_trySend (dropped : FeedStatus → FeedStatus)
    (output : Output Text) (outcome : SendOutcome) (row : Row) :
    (output.trySend dropped outcome row).ilp =
      output.ilp ++ if outcome = .room then [row] else [] := by
  cases outcome <;> simp [trySend]

/-- A property of the output that no send touches survives `sendAll`. -/
theorem sendAll_induction {motive : Output Text → Prop}
    {dropped : FeedStatus → FeedStatus} (ilp : Nat → SendOutcome)
    (sent : ∀ output row, motive output → motive (output.push row))
    (counted : ∀ output, motive output → motive (output.withStatus dropped))
    (n : Nat) (rows : List (Bool × Row)) {output : Output Text}
    (start : motive output) :
    motive (output.sendAll dropped ilp n rows).1 := by
  induction rows generalizing n output with
  | nil => exact start
  | cons entry rows ih =>
      rcases entry with ⟨waits, row⟩
      cases waits with
      | true =>
          rw [sendAll, if_pos rfl]
          cases outcome : ilp n with
          | closed => exact start
          | room => exact ih _ (sent _ _ start)
          | full => exact ih _ (sent _ _ start)
      | false =>
          rw [sendAll, if_neg (by simp)]
          apply ih
          cases outcome : ilp n with
          | closed => exact start
          | room => exact sent _ _ start
          | full => exact counted _ start

@[simp]
theorem books_sendAll (dropped : FeedStatus → FeedStatus)
    (ilp : Nat → SendOutcome) (n : Nat) (rows : List (Bool × Row))
    (output : Output Text) :
    (output.sendAll dropped ilp n rows).1.shared.books =
      output.shared.books :=
  sendAll_induction (motive := fun after =>
    after.shared.books = output.shared.books) ilp
    (fun _ _ same => same) (fun _ same => same) n rows rfl

@[simp]
theorem orderbookTx_sendAll (dropped : FeedStatus → FeedStatus)
    (ilp : Nat → SendOutcome) (n : Nat) (rows : List (Bool × Row))
    (output : Output Text) :
    (output.sendAll dropped ilp n rows).1.shared.orderbookTx =
      output.shared.orderbookTx :=
  sendAll_induction (motive := fun after =>
    after.shared.orderbookTx = output.shared.orderbookTx) ilp
    (fun _ _ same => same) (fun _ same => same) n rows rfl

@[simp]
theorem market_sendAll (dropped : FeedStatus → FeedStatus)
    (ilp : Nat → SendOutcome) (n : Nat) (rows : List (Bool × Row))
    (output : Output Text) :
    (output.sendAll dropped ilp n rows).1.shared.market =
      output.shared.market :=
  sendAll_induction (motive := fun after =>
    after.shared.market = output.shared.market) ilp
    (fun _ _ same => same) (fun _ same => same) n rows rfl

/-- A `sendAll` that does not fail queues the kept rows in order. -/
theorem ilp_sendAll {dropped : FeedStatus → FeedStatus}
    {ilp : Nat → SendOutcome} {n : Nat} {rows : List (Bool × Row)}
    {output : Output Text}
    (done : (output.sendAll dropped ilp n rows).2 = .ok ()) :
    (output.sendAll dropped ilp n rows).1.ilp =
      output.ilp ++ kept ilp n rows := by
  induction rows generalizing n output with
  | nil => simp [sendAll, kept]
  | cons entry rows ih =>
      rcases entry with ⟨waits, row⟩
      cases waits with
      | true =>
          rw [sendAll, if_pos rfl] at done ⊢
          cases outcome : ilp n with
          | closed =>
              simp only [outcome, send] at done
              cases done
          | room =>
              simp only [outcome, send] at done ⊢
              rw [ih done, kept]
              simp
          | full =>
              simp only [outcome, send] at done ⊢
              rw [ih done, kept]
              simp
      | false =>
          rw [sendAll, if_neg (by simp)] at done ⊢
          rw [ih done, ilp_trySend, kept]
          by_cases outcome : ilp n = .room <;> simp [outcome]

/-- A `sendAll` that does not fail counts the lost rows. -/
theorem status_sendAll {dropped : FeedStatus → FeedStatus}
    {ilp : Nat → SendOutcome} {n : Nat} {rows : List (Bool × Row)}
    {output : Output Text}
    (done : (output.sendAll dropped ilp n rows).2 = .ok ()) :
    (output.sendAll dropped ilp n rows).1.shared.status =
      dropped^[lost ilp n rows] output.shared.status := by
  induction rows generalizing n output with
  | nil => rfl
  | cons entry rows ih =>
      rcases entry with ⟨waits, row⟩
      cases waits with
      | true =>
          rw [sendAll, if_pos rfl] at done ⊢
          rw [lost, if_neg (by simp), Nat.zero_add]
          cases outcome : ilp n with
          | closed =>
              simp only [outcome, send] at done
              cases done
          | room =>
              simp only [outcome, send] at done ⊢
              rw [ih done, shared_push]
          | full =>
              simp only [outcome, send] at done ⊢
              rw [ih done, shared_push]
      | false =>
          rw [sendAll, if_neg (by simp)] at done ⊢
          rw [ih done, lost]
          cases outcome : ilp n with
          | closed => simp [trySend]
          | room => simp [trySend]
          | full =>
              simp only [trySend, not_false_eq_true, Bool.false_eq_true,
                and_self, if_true]
              rw [Nat.add_comm 1, Function.iterate_succ_apply]
              rfl

/-- Sending to a writer that is not gone does not fail. -/
theorem sendAll_ok (dropped : FeedStatus → FeedStatus)
    {ilp : Nat → SendOutcome} (alive : ∀ n, ilp n ≠ .closed) (n : Nat)
    (rows : List (Bool × Row)) (output : Output Text) :
    (output.sendAll dropped ilp n rows).2 = .ok () := by
  induction rows generalizing n output with
  | nil => rfl
  | cons entry rows ih =>
      rcases entry with ⟨waits, row⟩
      rw [sendAll]
      cases waits with
      | false => exact ih _ _
      | true =>
          cases outcome : ilp n with
          | closed => exact absurd outcome (alive n)
          | room => exact ih _ _
          | full => exact ih _ _

end Output

end ChudMoney.Feeds.Shared
