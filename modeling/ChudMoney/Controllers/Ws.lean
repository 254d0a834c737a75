import ChudMoney.Feeds.Broadcasts
import ChudMoney.Feeds.Proxy
import ChudMoney.Lib.Broadcast

/-!
# Websocket proxies

Any number of clients follow the channels of one feed.  Each has a receiver of
its own; a client that falls behind the frames that its channel keeps is told
how many it has missed, and goes on with the oldest one kept.  The channels
close once the feed is stopped and no upgrade still holds it.

Steps of the feed, of the upgrades and of the pumps interleave in any order.
-/

namespace ChudMoney.Controllers.Ws

open ChudMoney.Feeds.Broadcasts
open ChudMoney.Feeds.Handling (indexType)
open ChudMoney.Feeds.Shared
open ChudMoney.Feeds.Task
open ChudMoney.Kalshi.Book
open ChudMoney.Kalshi.Stream (dataFrame)
open ChudMoney.Lib.Broadcast
open ChudMoney.Lib.Json
open ChudMoney.Lib.Runs
open ChudMoney.Model

variable {Text : Type}

/-! ## A client -/

/-- What is sent on a socket. -/
inductive Sent (Text : Type) where
  | replay (frame : Value)
  | live (text : Text)
  | lagged (notice : String)
  | close

/-- The notice of a client that fell behind. -/
def notice (dropped : Nat) : String :=
  "\x7b\"type\":\"lagged\",\"dropped\":" ++ toString dropped ++ "\x7d"

/-- What is sent of what the receiver is given. -/
def relay : Received Text → Sent Text
  | .item text => .live text
  | .lagged dropped => .lagged (notice dropped)

/--
A client: the place of its receiver when it subscribed and now, the preamble
that it was handed, the frames of it that are still to be sent, `none` until
the cache has been read, and what it has been sent so far.
-/
structure Client (Text : Type) where
  channel : Channel
  start : Nat
  rx : Nat
  handed : List Value
  preamble : Option (List Value)
  sent : List (Sent Text)
  connected : Bool

/-- `ticker` and `orderbook` up to the subscribe; a ticker has no preamble. -/
def Client.subscribed (channel : Channel) (shared : FeedShared Text) :
    Client Text where
  channel := channel
  start := (channel.tx shared).length
  rx := (channel.tx shared).length
  handed := []
  preamble :=
    match channel with
    | .ticker => some []
    | .orderbook => none
  sent := []
  connected := true

/-- The preamble of an upgrade that has read the cache. -/
def Client.handOver (client : Client Text)
    (order : List (String × OrderBook)) : Client Text :=
  let frames := order.map fun entry => entry.2.snapshotFrame entry.1
  { client with handed := frames, preamble := some frames }

/-- An upgrade that still holds the feed. -/
def Client.waiting (client : Client Text) : Bool :=
  client.connected && client.preamble.isNone

/--
One turn of `pump`: the next frame of the preamble, or what the receiver is
given, or a close once the channel is closed and empty.
-/
def pump (shared : FeedShared Text) (closed : Bool) (client : Client Text) :
    Option (Client Text) :=
  match client.preamble with
  | none => none
  | some (frame :: rest) =>
      some { client with
        preamble := some rest
        sent := client.sent ++ [.replay frame] }
  | some [] =>
      match recv client.channel.capacity (client.channel.tx shared)
          client.rx with
      | some (received, rx) =>
          some { client with
            rx := rx
            sent := client.sent ++ [relay received] }
      | none =>
          if closed then
            some { client with
              connected := false
              sent := client.sent ++ [.close] }
          else none

/--
What happens to a client: its upgrade reads the cache, it is pumped, or it is
gone, told by a read or by a send that fails.
-/
inductive ClientAction where
  | readCache (order : List (String × OrderBook))
  | pump
  | leave

def Client.step (shared : FeedShared Text) (closed : Bool)
    (client : Client Text) : ClientAction → Option (Client Text)
  | .readCache order =>
      if client.preamble.isNone ∧ order.Perm shared.books.toList then
        some (client.handOver order)
      else none
  | .pump => Ws.pump shared closed client
  | .leave => some { client with connected := false }

/-! ## The feed and its clients -/

/--
The state of the task and the `seq` of the newest orderbook frame of its
session, whether the feed is running, and its clients, oldest first.
-/
structure World (Text : Type) where
  conn : Conn Text
  newest : Option UInt64
  running : Bool
  clients : List (Client Text)

namespace World

def spawned (market : Market) (coinbase : Option CoinbaseFeedStatus) :
    World Text :=
  ⟨Conn.spawned market coinbase, none, true, []⟩

def shared (world : World Text) : FeedShared Text :=
  world.conn.output.shared

/-- The frames sent on a channel so far. -/
def tx (world : World Text) (channel : Channel) : List Text :=
  channel.tx world.shared

/-- Nothing holds the senders of the channels any more. -/
def closed (world : World Text) : Bool :=
  !world.running && !world.clients.any Client.waiting

end World

/-- `stop` is the end of the aborted tasks. -/
inductive Action (Text : Type) where
  | feed (event : FeedEvent Text)
  | stop
  | upgrade (channel : Channel)
  | client (i : Nat) (action : ClientAction)

/-- One step of the feed or of a client. -/
def step (readers : Readers Text) (world : World Text) :
    Action Text → Option (World Text)
  | .feed event =>
      if world.running then
        (feedStep readers world.conn event).map fun conn =>
          { world with
            conn := conn
            newest := Feeds.Proxy.newestAfter readers world.newest event }
      else none
  | .stop =>
      if world.running then some { world with running := false } else none
  | .upgrade channel =>
      if world.running then
        some { world with
          clients := world.clients ++ [.subscribed channel world.shared] }
      else none
  | .client i action =>
      (world.clients[i]?).bind fun client =>
        if client.connected then
          (client.step world.shared world.closed action).map fun client =>
            { world with clients := world.clients.set i client }
        else none

/-! ## What a step can do -/

variable {readers : Readers Text}

/-- A step of the feed, its end, an upgrade, or a step of one client. -/
theorem step_cases {world next : World Text} {action : Action Text}
    (taken : step readers world action = some next) :
    (∃ event conn, action = .feed event ∧ world.running = true ∧
      feedStep readers world.conn event = some conn ∧
      next = { world with
        conn := conn
        newest := Feeds.Proxy.newestAfter readers world.newest event }) ∨
    (action = .stop ∧ world.running = true ∧
      next = { world with running := false }) ∨
    (∃ channel, action = .upgrade channel ∧ world.running = true ∧
      next = { world with
        clients := world.clients ++ [.subscribed channel world.shared] }) ∨
    ∃ i before act after, action = .client i act ∧
      world.clients[i]? = some before ∧ before.connected = true ∧
      before.step world.shared world.closed act = some after ∧
      next = { world with clients := world.clients.set i after } := by
  cases action with
  | feed event =>
      left
      simp only [step] at taken
      split at taken
      case isFalse => cases taken
      next running =>
        rcases Option.map_eq_some_iff.mp taken with ⟨conn, fed, rfl⟩
        exact ⟨event, conn, rfl, running, fed, rfl⟩
  | stop =>
      right; left
      simp only [step] at taken
      split at taken
      case isFalse => cases taken
      next running =>
        cases taken
        exact ⟨rfl, running, rfl⟩
  | upgrade channel =>
      right; right; left
      simp only [step] at taken
      split at taken
      case isFalse => cases taken
      next running =>
        cases taken
        exact ⟨channel, rfl, running, rfl⟩
  | client i act =>
      right; right; right
      rcases Option.bind_eq_some_iff.mp taken with ⟨before, isClient, taken⟩
      split at taken
      case isFalse => cases taken
      next connected =>
        rcases Option.map_eq_some_iff.mp taken with ⟨after, stepped, rfl⟩
        exact ⟨i, before, act, after, rfl, isClient, connected, stepped, rfl⟩

/-- What a client's step can do to it. -/
inductive Steps (shared : FeedShared Text) (closed : Bool)
    (client : Client Text) : ClientAction → Client Text → Prop where
  | readCache (order : List (String × OrderBook)) :
      client.preamble = none → order.Perm shared.books.toList →
      Steps shared closed client (.readCache order) (client.handOver order)
  | replay (frame : Value) (rest : List Value) :
      client.preamble = some (frame :: rest) →
      Steps shared closed client .pump
        { client with
          preamble := some rest
          sent := client.sent ++ [.replay frame] }
  | relay (received : Received Text) (rx : Nat) :
      client.preamble = some [] →
      recv client.channel.capacity (client.channel.tx shared) client.rx =
        some (received, rx) →
      Steps shared closed client .pump
        { client with rx := rx, sent := client.sent ++ [Ws.relay received] }
  | close :
      client.preamble = some [] →
      recv client.channel.capacity (client.channel.tx shared) client.rx =
        none →
      closed = true →
      Steps shared closed client .pump
        { client with connected := false, sent := client.sent ++ [.close] }
  | leave :
      Steps shared closed client .leave { client with connected := false }

theorem steps_of_step {shared : FeedShared Text} {closed : Bool}
    {client after : Client Text} {action : ClientAction}
    (stepped : client.step shared closed action = some after) :
    Steps shared closed client action after := by
  cases action with
  | readCache order =>
      simp only [Client.step] at stepped
      split at stepped
      case isFalse => cases stepped
      next reads =>
        cases stepped
        exact .readCache order (Option.isNone_iff_eq_none.mp reads.1) reads.2
  | pump =>
      simp only [Client.step, Ws.pump] at stepped
      split at stepped
      · cases stepped
      next frame rest isNext =>
        cases stepped
        exact .replay frame rest isNext
      next replayed =>
        split at stepped
        next received rx isGiven =>
          cases stepped
          exact .relay received rx replayed isGiven
        next nothing =>
          split at stepped
          case isFalse => cases stepped
          next isClosed =>
            cases stepped
            exact .close replayed nothing isClosed
  | leave =>
      cases stepped
      exact .leave

/-- A client after a step: as before, just subscribed, or the one that steps. -/
theorem client_cases {world next : World Text} {action : Action Text}
    (taken : step readers world action = some next) {i : Nat}
    {client : Client Text} (isClient : next.clients[i]? = some client) :
    world.clients[i]? = some client ∨
    (∃ channel, action = .upgrade channel ∧
      client = .subscribed channel world.shared) ∨
    ∃ before act, action = .client i act ∧
      world.clients[i]? = some before ∧ before.connected = true ∧
      Steps world.shared world.closed before act client := by
  rcases step_cases taken with
    ⟨event, conn, rfl, -, -, rfl⟩ | ⟨rfl, -, rfl⟩ |
      ⟨channel, rfl, -, rfl⟩ |
      ⟨j, before, act, after, rfl, isBefore, connected, stepped, rfl⟩
  · exact .inl isClient
  · exact .inl isClient
  · have isClient :
        (world.clients ++ [Client.subscribed channel world.shared])[i]? =
          some client := isClient
    rw [List.getElem?_append] at isClient
    split at isClient
    · exact .inl isClient
    · rcases List.getElem?_eq_some_iff.mp isClient with ⟨bound, isNew⟩
      refine .inr (.inl ⟨channel, rfl, ?_⟩)
      rw [← isNew, List.getElem_singleton]
  · have isClient : (world.clients.set j after)[i]? = some client := isClient
    by_cases same : j = i
    · subst same
      rcases List.getElem?_eq_some_iff.mp isBefore with ⟨bound, -⟩
      rw [List.getElem?_set_self bound] at isClient
      cases isClient
      exact .inr (.inr ⟨before, act, rfl, isBefore, connected,
        steps_of_step stepped⟩)
    · rw [List.getElem?_set_ne same] at isClient
      exact .inl isClient

/-- The feed may only grow the channels, and only while it is running. -/
theorem running_step {world next : World Text} {action : Action Text}
    (channel : Channel) (taken : step readers world action = some next)
    (stopped : world.running = false) :
    next.running = false ∧ next.tx channel = world.tx channel := by
  rcases step_cases taken with
    ⟨event, conn, rfl, running, -, rfl⟩ | ⟨rfl, running, rfl⟩ |
      ⟨other, rfl, running, rfl⟩ |
      ⟨j, before, act, after, rfl, -, -, -, rfl⟩
  · rw [running] at stopped
    cases stopped
  · rw [running] at stopped
    cases stopped
  · rw [running] at stopped
    cases stopped
  · exact ⟨stopped, rfl⟩

/-! ## What a client is sent -/

/-- The frames that a step of the feed or of a client broadcasts. -/
def broadcast (readers : Readers Text) (channel : Channel)
    (world : World Text) : Action Text → List Text
  | .feed event => broadcasts readers channel world.conn event
  | .stop | .upgrade _ | .client _ _ => []

/-- A channel has the frames that the steps so far broadcast. -/
theorem tx_step {world next : World Text} {action : Action Text}
    (channel : Channel) (taken : step readers world action = some next) :
    next.tx channel =
      world.tx channel ++ broadcast readers channel world action := by
  rcases step_cases taken with
    ⟨event, conn, rfl, -, fed, rfl⟩ | ⟨rfl, -, rfl⟩ | ⟨other, rfl, -, rfl⟩ |
      ⟨i, before, act, after, rfl, -, -, -, rfl⟩
  · exact tx_feedStep channel fed
  · rw [broadcast, List.append_nil]
    rfl
  · rw [broadcast, List.append_nil]
    rfl
  · rw [broadcast, List.append_nil]
    rfl

theorem tx_of_run {market : Market} {coinbase : Option CoinbaseFeedStatus}
    {actions : List (Action Text)} {final : World Text} (channel : Channel)
    (reached : run (step readers) (.spawned market coinbase) actions =
      some final) :
    final.tx channel =
      observed (step readers) (broadcast readers channel)
        (.spawned market coinbase) actions :=
  observed_of_guarded (fun world frames => world.tx channel = frames)
    (fun _ _ _ _ same _ taken => by rw [tx_step channel taken, same])
    (show (World.spawned market coinbase).tx channel = [] by
      cases channel <;> rfl)
    (guarded_of_forall (fun _ _ => trivial) _ actions) reached

/--
What a client has been sent: its preamble, then what accounts for the frames
sent since it subscribed, and a close at most.
-/
structure Relayed (world : World Text) (client : Client Text) : Prop where
  start_le : client.start ≤ client.rx
  rx_le : client.rx ≤ (world.tx client.channel).length
  ticker : client.channel = .ticker →
    client.preamble = some [] ∧ client.handed = []
  sent : ∃ replayed given ending,
    client.sent =
      replayed.map Sent.replay ++ given.map relay ++ ending ∧
    replayed ++ client.preamble.getD [] = client.handed ∧
    Accounts
      (between (world.tx client.channel) client.start client.rx) given ∧
    (client.preamble = none → client.handed = []) ∧
    (client.preamble ≠ some [] → given = []) ∧
    (ending = [] ∨ ending = [.close] ∧ client.preamble = some [] ∧
      client.connected = false ∧ world.running = false ∧
      client.rx = (world.tx client.channel).length)

theorem relayed_subscribed (channel : Channel) (world : World Text) :
    Relayed world (.subscribed channel world.shared) := by
  refine ⟨Nat.le_refl _, Nat.le_refl _, ?_, [], [], [], rfl, ?_, ?_,
    fun _ => rfl, fun _ => rfl, .inl rfl⟩
  · rintro rfl
    exact ⟨rfl, rfl⟩
  · cases channel <;> rfl
  · rw [show (Client.subscribed channel world.shared).start =
      (Client.subscribed channel world.shared).rx from rfl, between_self]
    exact .nil

/-- What is known of a client stays known when the channels grow. -/
theorem Relayed.step {world next : World Text} {client : Client Text}
    {action : Action Text} (relayed : Relayed world client)
    (taken : Ws.step readers world action = some next) :
    Relayed next client := by
  rcases relayed with ⟨start_le, rx_le, ticker, replayed, given, ending,
    sent, handed, accounts, notRead, nothing, ends⟩
  have tx := tx_step client.channel taken
  refine ⟨start_le, ?_, ticker, replayed, given, ending, sent, handed, ?_,
    notRead, nothing, ?_⟩
  · rw [tx, List.length_append]
    exact rx_le.trans (Nat.le_add_right _ _)
  · rw [tx, between_append rx_le]
    exact accounts
  · rcases ends with isOpen | ⟨isClose, replayed, gone, stopped, atEnd⟩
    · exact .inl isOpen
    · rcases running_step client.channel taken stopped with ⟨stopped, same⟩
      exact .inr ⟨isClose, replayed, gone, stopped, by rw [same, atEnd]⟩

/-- A step of the client itself. -/
theorem Relayed.steps {world : World Text} {before after : Client Text}
    {action : ClientAction} (relayed : Relayed world before)
    (connected : before.connected = true)
    (steps : Steps world.shared world.closed before action after) :
    Relayed world after := by
  rcases relayed with ⟨start_le, rx_le, ticker, replayed, given, ending,
    sent, handed, accounts, notRead, nothing, ends⟩
  have isOpen : ending = [] := by
    rcases ends with isOpen | ⟨-, -, gone, -, -⟩
    · exact isOpen
    · rw [connected] at gone
      cases gone
  subst isOpen
  rw [List.append_nil] at sent
  cases steps with
  | readCache order waiting perm =>
      have isBook : before.channel ≠ .ticker := by
        intro isTicker
        rw [(ticker isTicker).1] at waiting
        cases waiting
      have notGiven : given = [] := nothing (by rw [waiting]; simp)
      have notReplayed : replayed = [] := by
        rw [notRead waiting, waiting] at handed
        simpa using handed
      refine ⟨start_le, rx_le, fun isTicker => absurd isTicker isBook,
        replayed, given, [], ?_, ?_, accounts, ?_, fun _ => notGiven, .inl rfl⟩
      · rw [List.append_nil]
        exact sent
      · rw [notReplayed]
        rfl
      · intro read
        cases read
  | replay frame rest isNext =>
      have isBook : before.channel ≠ .ticker := by
        intro isTicker
        rw [(ticker isTicker).1] at isNext
        cases isNext
      have notGiven : given = [] := nothing (by rw [isNext]; simp)
      refine ⟨start_le, rx_le, fun isTicker => absurd isTicker isBook,
        replayed ++ [frame], given, [], ?_, ?_, accounts, ?_,
        fun _ => notGiven, .inl rfl⟩
      · show before.sent ++ [.replay frame] = _
        rw [sent, notGiven, List.map_append]
        simp
      · rw [isNext] at handed
        simpa using handed
      · intro read
        cases read
  | relay received rx replaying isGiven =>
      rcases accounts_recv start_le accounts isGiven with
        ⟨further, inside, accounts⟩
      refine ⟨start_le.trans (Nat.le_of_lt further), inside, ticker,
        replayed, given ++ [received], [], ?_, handed, accounts, notRead,
        fun more => absurd replaying more, .inl rfl⟩
      show before.sent ++ [relay received] = _
      rw [sent, List.append_nil, List.map_append, List.append_assoc]
      rfl
  | close replaying empty isClosed =>
      have stopped : world.running = false := by
        simpa [World.closed] using (Bool.and_eq_true_iff.mp isClosed).1
      refine ⟨start_le, rx_le, ticker, replayed, given, [.close], ?_, handed,
        accounts, notRead, nothing,
        .inr ⟨rfl, replaying, rfl, stopped, ?_⟩⟩
      · show before.sent ++ [.close] = _
        rw [sent]
      · exact Nat.le_antisymm rx_le (recv_eq_none_iff.mp empty)
  | leave =>
      refine ⟨start_le, rx_le, ticker, replayed, given, [], ?_, handed,
        accounts, notRead, nothing, .inl rfl⟩
      rw [List.append_nil]
      exact sent

/-- A step keeps what is known of every client. -/
theorem relayed_step {world next : World Text} {action : Action Text}
    (relayed : ∀ (i : Nat) (client : Client Text),
      world.clients[i]? = some client → Relayed world client)
    (taken : step readers world action = some next) (i : Nat)
    (client : Client Text) (isClient : next.clients[i]? = some client) :
    Relayed next client := by
  rcases client_cases taken isClient with
    old | ⟨channel, -, rfl⟩ | ⟨before, act, -, isBefore, connected, steps⟩
  · exact (relayed i client old).step taken
  · exact (relayed_subscribed channel world).step taken
  · exact ((relayed i before isBefore).steps connected steps).step taken

theorem relayed_of_run {market : Market}
    {coinbase : Option CoinbaseFeedStatus} {actions : List (Action Text)}
    {final : World Text}
    (reached : run (step readers) (.spawned market coinbase) actions =
      some final) {i : Nat} {client : Client Text}
    (isClient : final.clients[i]? = some client) : Relayed final client :=
  invariant_of_run
    (fun world => ∀ (i : Nat) (client : Client Text),
      world.clients[i]? = some client → Relayed world client)
    (fun _ _ _ relayed taken => relayed_step relayed taken)
    (fun _ _ nothing => by cases nothing) reached i client isClient

/-! ## The preamble -/

/--
The preamble that a client was handed: none on the ticker channel or before
its upgrade has read the cache, else a frame of each book that was cached when
it was read.
-/
inductive Handed (readers : Readers Text) (start : World Text)
    (actions : List (Action Text)) (i : Nat) (client : Client Text) :
    Prop where
  | ticker : client.channel = .ticker → client.preamble.isSome →
      client.handed = [] → Handed readers start actions i client
  | waiting : client.channel = .orderbook → client.preamble = none →
      client.handed = [] → Handed readers start actions i client
  | cached {earlier later : List (Action Text)}
      {order : List (String × OrderBook)} {world : World Text} :
      client.channel = .orderbook → client.preamble.isSome →
      actions = earlier ++ .client i (.readCache order) :: later →
      run (step readers) start earlier = some world →
      order.Perm world.shared.books.toList →
      client.handed = order.map (fun entry => entry.2.snapshotFrame entry.1) →
        Handed readers start actions i client

theorem handed_subscribed {start : World Text} {actions : List (Action Text)}
    {i : Nat} (channel : Channel) (shared : FeedShared Text) :
    Handed readers start actions i (.subscribed channel shared) := by
  cases channel with
  | ticker => exact .ticker rfl rfl rfl
  | orderbook => exact .waiting rfl rfl rfl

/-- A client that goes on, or steps without reading the cache. -/
theorem Handed.later {start : World Text} {past : List (Action Text)}
    {i : Nat} {before after : Client Text}
    (handed : Handed readers start past i before) (action : Action Text)
    (channel : after.channel = before.channel)
    (same : after.handed = before.handed)
    (read : after.preamble.isSome = before.preamble.isSome) :
    Handed readers start (past ++ [action]) i after := by
  cases handed with
  | ticker isTicker isRead nothing =>
      exact .ticker (channel.trans isTicker) (read ▸ isRead)
        (same.trans nothing)
  | waiting isBook waits nothing =>
      refine .waiting (channel.trans isBook) ?_ (same.trans nothing)
      rw [waits] at read
      simpa using read
  | @cached earlier later order world isBook isRead split reached perm frames =>
      have split : past ++ [action] =
          earlier ++ .client i (.readCache order) :: (later ++ [action]) := by
        rw [split, List.append_assoc, List.cons_append]
      exact .cached (channel.trans isBook) (read ▸ isRead) split reached perm
        (same.trans frames)

theorem Handed.steps {start world : World Text} {past : List (Action Text)}
    {i : Nat} {before after : Client Text} {act : ClientAction}
    (handed : Handed readers start past i before)
    (reached : run (step readers) start past = some world)
    (steps : Steps world.shared world.closed before act after) :
    Handed readers start (past ++ [.client i act]) i after := by
  cases steps with
  | readCache order waits perm =>
      cases handed with
      | ticker isTicker isRead nothing =>
          rw [waits] at isRead
          cases isRead
      | waiting isBook _ nothing =>
          exact .cached isBook rfl rfl reached perm rfl
      | cached isBook isRead split reached perm frames =>
          rw [waits] at isRead
          cases isRead
  | replay frame rest isNext =>
      exact handed.later _ rfl rfl (by rw [isNext]; rfl)
  | relay received rx replaying isGiven => exact handed.later _ rfl rfl rfl
  | close replaying empty isClosed => exact handed.later _ rfl rfl rfl
  | leave => exact handed.later _ rfl rfl rfl

theorem handed_of_run {start final : World Text}
    {actions : List (Action Text)} (nobody : start.clients = [])
    (reached : run (step readers) start actions = some final) {i : Nat}
    {client : Client Text} (isClient : final.clients[i]? = some client) :
    Handed readers start actions i client := by
  have history : run (step readers) start actions = some final ∧
      ∀ (i : Nat) (client : Client Text), final.clients[i]? = some client →
        Handed readers start actions i client := by
    refine history_of_guarded
      (fun world past => run (step readers) start past = some world ∧
        ∀ (i : Nat) (client : Client Text), world.clients[i]? = some client →
          Handed readers start past i client)
      ?_ ⟨rfl, ?_⟩ (guarded_of_forall (fun _ _ => trivial) _ actions) reached
    · rintro world past action next ⟨reached, handed⟩ - taken
      refine ⟨by rw [run_append, reached]; simpa using taken, ?_⟩
      intro i client isClient
      rcases client_cases taken isClient with
        old | ⟨channel, -, rfl⟩ | ⟨before, act, rfl, isBefore, -, steps⟩
      · exact (handed i client old).later action rfl rfl rfl
      · exact handed_subscribed channel world.shared
      · exact (handed i before isBefore).steps reached steps
    · intro i client isClient
      rw [nobody] at isClient
      cases isClient
  exact history.2 i client isClient

/-! ## Clients that keep up -/

/-- The client is not further behind than its channel keeps. -/
def KeepsUp (i : Nat) (world : World Text) (_ : Action Text) : Prop :=
  ∀ client ∈ world.clients[i]?,
    (world.tx client.channel).length ≤ client.rx + client.channel.capacity

/-- The client has been told of no miss. -/
def NotLagged (i : Nat) (world : World Text) : Prop :=
  ∀ client ∈ world.clients[i]?, ∀ notice, Sent.lagged notice ∉ client.sent

theorem notLagged_steps {shared : FeedShared Text} {closed : Bool}
    {before after : Client Text} {action : ClientAction}
    (keeps : (before.channel.tx shared).length ≤
      before.rx + before.channel.capacity)
    (nothing : ∀ notice, Sent.lagged notice ∉ before.sent)
    (steps : Steps shared closed before action after) :
    ∀ notice, Sent.lagged notice ∉ after.sent := by
  intro notice
  have told : ∀ {last : Sent Text}, last ≠ .lagged notice →
      Sent.lagged notice ∉ before.sent ++ [last] := by
    intro last other member
    rcases List.mem_append.mp member with old | new
    · exact nothing notice old
    · exact other (List.mem_singleton.mp new).symm
  cases steps with
  | readCache order waiting perm => exact nothing notice
  | replay frame rest isNext => exact told (by simp)
  | relay received rx replayed isGiven =>
      cases received with
      | item text => exact told (by simp [relay])
      | lagged missed =>
          have behind := (recv_eq_lagged_iff.mp isGiven).1
          exact absurd keeps (Nat.not_le.mpr behind)
  | close replayed empty isClosed => exact told (by simp)
  | leave => exact nothing notice

theorem NotLagged.step {i : Nat} {world next : World Text}
    {action : Action Text} (nothing : NotLagged i world)
    (keeps : KeepsUp i world action)
    (taken : Ws.step readers world action = some next) :
    NotLagged i next := by
  intro client isClient
  rcases client_cases taken isClient with
    old | ⟨channel, -, rfl⟩ | ⟨before, act, -, isBefore, connected, steps⟩
  · exact nothing client old
  · exact fun _ => List.not_mem_nil
  · exact notLagged_steps (keeps before isBefore) (nothing before isBefore)
      steps

theorem notLagged_of_run {market : Market}
    {coinbase : Option CoinbaseFeedStatus} {actions : List (Action Text)}
    {final : World Text} {i : Nat}
    (reached : run (step readers) (.spawned market coinbase) actions =
      some final)
    (keeps : Guarded (step readers) (KeepsUp i) (.spawned market coinbase)
      actions) : NotLagged i final :=
  invariant_of_guarded (NotLagged i)
    (fun _ _ _ nothing keeps taken => nothing.step keeps taken)
    (fun _ nothing => by cases nothing) keeps reached

instance (i : Nat) (world : World Text) (action : Action Text) :
    Decidable (KeepsUp i world action) :=
  inferInstanceAs (Decidable (∀ client ∈ world.clients[i]?,
    (world.tx client.channel).length ≤ client.rx + client.channel.capacity))

/-- A client of each channel, and a feed that is stopped. -/
def twoClients : List (Action Value) :=
  [.feed (.connect (.ok [.named "T"])),
    .upgrade .ticker,
    .feed (.text .calm (dataFrame indexType 5 1 .null)),
    .upgrade .orderbook,
    .feed (.text .calm (dataFrame "orderbook_snapshot" 7 1
      (bookMsg "T" [("yes", wholeLevels [(47, 120)])]))),
    .client 0 .pump,
    .client 1 (.readCache
      [("T", OrderBook.default.snapshot [(4700, 12000)] [] 1)]),
    .feed (.text .calm (dataFrame "orderbook_delta" 7 2
      (bookMsg "T" [("side", .string "yes"),
        ("price_dollars", .string "0.4700"), ("delta_fp", .string "5.00")]))),
    .client 1 .pump, .client 1 .pump, .client 1 .pump]

/--
A client is sent the preamble that it was handed, then the frames broadcast
since it subscribed, verbatim and in order, each miss announced with the number
of frames missed, and a close only after the last frame of a stopped feed.
Nothing else is sent before the whole preamble.  A client that is never
further behind than its channel keeps is sent every frame.
-/
theorem relays (readers : Readers Text) (market : Market)
    (coinbase : Option CoinbaseFeedStatus) (actions : List (Action Text))
    (final : World Text)
    (reached : run (step readers) (.spawned market coinbase) actions =
      some final)
    (i : Nat) (client : Client Text)
    (isClient : final.clients[i]? = some client) :
    let frames :=
      observed (step readers) (broadcast readers client.channel)
        (.spawned market coinbase) actions
    let passed := between frames client.start client.rx
    Handed readers (.spawned market coinbase) actions i client ∧
    ∃ replayed given ending,
      client.sent =
        replayed.map Sent.replay ++ given.map relay ++ ending ∧
      replayed ++ client.preamble.getD [] = client.handed ∧
      (given ≠ [] ∨ ending ≠ [] → replayed = client.handed) ∧
      Accounts passed given ∧
      (ending = [] ∨ ending = [.close] ∧ final.running = false ∧
        client.rx = frames.length) ∧
      (Guarded (step readers) (KeepsUp i) (.spawned market coinbase)
        actions → given = passed.map Received.item) := by
  intro frames passed
  refine ⟨handed_of_run rfl reached isClient, ?_⟩
  have tx : final.tx client.channel = frames :=
    tx_of_run client.channel reached
  rcases (relayed_of_run reached isClient).sent with
    ⟨replayed, given, ending, sent, handed, accounts, -, nothing, ends⟩
  rw [tx] at accounts ends
  refine
    ⟨replayed, given, ending, sent, handed, ?_, accounts, ?_, ?_⟩
  · intro more
    have whole : client.preamble = some [] := by
      rcases more with isGiven | isEnding
      · by_contra unsent
        exact isGiven (nothing unsent)
      · rcases ends with isOpen | ⟨-, whole, -⟩
        · exact absurd isOpen isEnding
        · exact whole
    rw [← handed, whole, Option.getD_some, List.append_nil]
  · rcases ends with isOpen | ⟨isClose, -, -, stopped, atEnd⟩
    · exact .inl isOpen
    · exact .inr ⟨isClose, stopped, atEnd⟩
  · intro keeps
    apply accounts.eq_of_nothing_missed
    intro count member
    apply notLagged_of_run reached keeps client isClient (notice count)
    rw [sent]
    exact List.mem_append_left _ (List.mem_append_right _
      (List.mem_map_of_mem member))

theorem relays_twoClients :
    ∃ final client,
      run (step .parsed) (.spawned btc15m none) twoClients = some final ∧
        final.clients[1]? = some client ∧
        ∃ (given : List (Received Value)) (ending : List (Sent Value)),
          client.sent =
            client.handed.map Sent.replay ++ given.map relay ++ ending ∧
          given =
            (between
              (observed (step .parsed) (broadcast .parsed client.channel)
                (.spawned btc15m none) twoClients)
              client.start client.rx).map Received.item := by
  have runs :
      (run (step .parsed) (.spawned btc15m none) twoClients).map
        (fun final => final.clients[1]?.map fun client =>
          client.preamble.map List.length) = some (some (some 0)) := by
    decide +kernel
  rcases Option.map_eq_some_iff.mp runs with ⟨final, reached, ends⟩
  rcases Option.map_eq_some_iff.mp ends with ⟨client, isClient, ends⟩
  rcases Option.map_eq_some_iff.mp ends with ⟨rest, preamble, empty⟩
  rcases relays .parsed btc15m none twoClients final reached 1 client
    isClient with
    ⟨-, replayed, given, ending, sent, handed, -, -, -, full⟩
  rw [preamble, Option.getD_some, List.length_eq_zero_iff.mp empty,
    List.append_nil] at handed
  rw [handed] at sent
  exact ⟨final, client, reached, isClient, given, ending, sent,
    full (by decide +kernel)⟩

/-! ## Once the feed is stopped -/

/-- What a client may still be sent before it is closed. -/
def Client.left (shared : FeedShared Text) (client : Client Text) : Nat :=
  (client.preamble.getD []).length +
    ((client.channel.tx shared).length - client.rx)

theorem closed_iff {world : World Text} :
    world.closed = true ↔
      world.running = false ∧
        ∀ client ∈ world.clients, client.waiting = false := by
  rw [World.closed, Bool.and_eq_true, Bool.not_eq_eq_eq_not, Bool.not_true,
    Bool.not_eq_eq_eq_not, Bool.not_true, List.any_eq_false]
  simp

/-- A client that no longer waits does not hold the feed. -/
theorem closed_set {world : World Text} (closed : world.closed = true)
    (after : Client Text) (handed : after.preamble.isSome) (i : Nat) :
    World.closed { world with clients := world.clients.set i after } =
      true := by
  rw [closed_iff] at closed ⊢
  refine ⟨closed.1, ?_⟩
  intro client member
  rcases List.mem_or_eq_of_mem_set member with old | rfl
  · exact closed.2 client old
  · rcases Option.isSome_iff_exists.mp handed with ⟨frames, preamble⟩
    rw [Client.waiting, preamble]
    simp

variable (readers) in
/-- A turn of the pump of a client whose channel is closed. -/
theorem step_pump {world : World Text} (closed : world.closed = true) {i : Nat}
    {client after : Client Text} (isClient : world.clients[i]? = some client)
    (connected : client.connected = true)
    (pumped : pump world.shared true client = some after) :
    step readers world (.client i .pump) =
        some { world with clients := world.clients.set i after } ∧
      (world.clients.set i after)[i]? = some after := by
  rcases List.getElem?_eq_some_iff.mp isClient with ⟨inside, -⟩
  refine ⟨?_, List.getElem?_set_self inside⟩
  simp only [step, isClient, Option.bind_some, if_pos connected, Client.step,
    closed, pumped, Option.map_some]

variable (readers) in
/--
Pumping a client that has been sent its preamble sends what accounts for the
frames it has not passed, and a close.
-/
theorem exists_pump_live {world : World Text} (closed : world.closed = true)
    {i : Nat} {client : Client Text}
    (isClient : world.clients[i]? = some client)
    (connected : client.connected = true)
    (replayed : client.preamble = some [])
    (rx_le : client.rx ≤ (world.tx client.channel).length) {bound : Nat}
    (within : (world.tx client.channel).length - client.rx < bound) :
    ∃ turns ≤ bound, ∃ next after given,
      run (step readers) world (List.replicate turns (.client i .pump)) =
        some next ∧
      next.clients[i]? = some after ∧ after.connected = false ∧
      after.sent = client.sent ++ given.map relay ++ [.close] ∧
      Accounts (between (world.tx client.channel) client.rx
        (world.tx client.channel).length) given := by
  induction bound generalizing world client with
  | zero => exact absurd within (Nat.not_lt_zero _)
  | succ bound ih =>
      cases isGiven : recv client.channel.capacity
          (client.channel.tx world.shared) client.rx with
      | none =>
          have atEnd : client.rx = (world.tx client.channel).length :=
            Nat.le_antisymm rx_le (recv_eq_none_iff.mp isGiven)
          let last : Client Text :=
            { client with connected := false, sent := client.sent ++ [.close] }
          have pumped : pump world.shared true client = some last := by
            simp only [pump, replayed, isGiven, if_true, last]
          rcases step_pump readers closed isClient connected
            pumped with ⟨stepped, isAfter⟩
          have sent : last.sent =
              client.sent ++ List.map relay [] ++ [.close] := by
            rw [List.map_nil, List.append_nil]
          have passed : Accounts (between (world.tx client.channel) client.rx
              (world.tx client.channel).length) [] := by
            rw [atEnd, between_self]
            exact .nil
          have reached : run (step readers) world
              (List.replicate 1 (.client i .pump)) =
                some { world with clients := world.clients.set i last } := by
            rw [List.replicate_one, run_cons, stepped]
            rfl
          exact ⟨1, Nat.succ_le_succ (Nat.zero_le _), _, last, [], reached,
            isAfter, rfl, sent, passed⟩
      | some answer =>
          rcases answer with ⟨received, rx⟩
          have start : Accounts (between (client.channel.tx world.shared)
              client.rx client.rx) [] := by
            rw [between_self]
            exact .nil
          rcases accounts_recv (Nat.le_refl _) start isGiven with
            ⟨further, inside, passed⟩
          have inside : rx ≤ (world.tx client.channel).length := inside
          have pumped : pump world.shared true client =
              some { client with
                rx := rx
                sent := client.sent ++ [relay received] } := by
            simp only [pump, replayed, isGiven]
          rcases step_pump readers closed isClient connected
            pumped with ⟨stepped, isAfter⟩
          have stillClosed := closed_set closed
            { client with
              rx := rx
              sent := client.sent ++ [relay received] }
            (by rw [replayed]; rfl) i
          rcases ih stillClosed isAfter connected replayed inside
            (show (world.tx client.channel).length - rx < bound by omega) with
            ⟨turns, le, next, after, given, reached, isLast, gone, sent,
              accounts⟩
          refine ⟨turns + 1, Nat.succ_le_succ le, next, after,
            received :: given, ?_, isLast, gone, ?_, ?_⟩
          · rw [List.replicate_succ, run_cons, stepped]
            exact reached
          · rw [sent]
            simp
          · rw [between_trans (Nat.le_of_lt further) inside le_rfl]
            exact passed.append accounts

variable (readers) in
/--
Pumping a client of a closed channel sends the rest of its preamble, what
accounts for the frames it has not passed, and a close.
-/
theorem exists_pump {world : World Text} (closed : world.closed = true)
    {i : Nat} {client : Client Text}
    (isClient : world.clients[i]? = some client)
    (connected : client.connected = true) {frames : List Value}
    (handed : client.preamble = some frames)
    (rx_le : client.rx ≤ (world.tx client.channel).length) :
    ∃ turns ≤ client.left world.shared + 1, ∃ next after given,
      run (step readers) world (List.replicate turns (.client i .pump)) =
        some next ∧
      next.clients[i]? = some after ∧ after.connected = false ∧
      after.sent = client.sent ++ frames.map Sent.replay ++
        given.map relay ++ [.close] ∧
      Accounts (between (world.tx client.channel) client.rx
        (world.tx client.channel).length) given := by
  induction frames generalizing world client with
  | nil =>
      have left : client.left world.shared =
          (world.tx client.channel).length - client.rx := by
        rw [Client.left, handed]
        exact Nat.zero_add _
      rw [left]
      simpa using exists_pump_live readers closed isClient
        connected handed rx_le (Nat.lt_succ_self _)
  | cons frame frames ih =>
      have pumped : pump world.shared true client =
          some { client with
            preamble := some frames
            sent := client.sent ++ [.replay frame] } := by
        simp only [pump, handed]
      rcases step_pump readers closed isClient connected
        pumped with ⟨stepped, isAfter⟩
      have stillClosed := closed_set closed
        { client with
          preamble := some frames
          sent := client.sent ++ [.replay frame] } rfl i
      rcases ih stillClosed isAfter connected rfl rx_le with
        ⟨turns, le, next, after, given, reached, isLast, gone, sent, accounts⟩
      refine ⟨turns + 1, ?_, next, after, given, ?_, isLast, gone, ?_,
        accounts⟩
      · have left : client.left world.shared =
            Client.left world.shared { client with
              preamble := some frames
              sent := client.sent ++ [.replay frame] } + 1 := by
          simp only [Client.left, handed, Option.getD_some, List.length_cons]
          omega
        rw [left]
        exact Nat.succ_le_succ le
      · rw [List.replicate_succ, run_cons, stepped]
        exact reached
      · rw [sent]
        simp

/-- A client whose upgrade has read the cache; one that had is as it was. -/
def Served (shared : FeedShared Text) (before after : Client Text) : Prop :=
  before.waiting = false ∧ after = before ∨
    before.waiting = true ∧ ∃ order, order.Perm shared.books.toList ∧
      after = before.handOver order

variable (readers) in
/-- Once the feed is stopped, each upgrade that holds it can read the cache. -/
theorem exists_reads {world : World Text} (stopped : world.running = false) :
    ∃ (reads : List (Action Text)) (served : World Text),
      reads.length = world.clients.countP Client.waiting ∧
      (∀ action ∈ reads, ∃ j order, action = .client j (.readCache order)) ∧
      run (step readers) world reads = some served ∧
      served.closed = true ∧ served.conn = world.conn ∧
      ∀ (i : Nat) (client : Client Text), world.clients[i]? = some client →
        ∃ ready, served.clients[i]? = some ready ∧
          Served world.shared client ready := by
  generalize isCount : world.clients.countP Client.waiting = count
  induction count generalizing world with
  | zero =>
      have nobody : ∀ client ∈ world.clients, client.waiting = false := by
        simpa using List.countP_eq_zero.mp isCount
      refine ⟨[], world, rfl, by simp, rfl, closed_iff.mpr ⟨stopped, nobody⟩,
        rfl, ?_⟩
      intro i client isClient
      exact ⟨client, isClient,
        .inl ⟨nobody client (List.mem_of_getElem? isClient), rfl⟩⟩
  | succ count ih =>
      have waiters : 0 < world.clients.countP Client.waiting := by
        omega
      rcases List.countP_pos_iff.mp waiters with ⟨first, member, waits⟩
      rcases List.mem_iff_getElem?.mp member with ⟨j, isFirst⟩
      rcases List.getElem?_eq_some_iff.mp isFirst with ⟨inside, atFirst⟩
      let ready := first.handOver world.shared.books.toList
      have isWaiting : first.connected = true ∧ first.preamble.isNone := by
        simpa [Client.waiting] using waits
      have stepped : step readers world
          (.client j (.readCache world.shared.books.toList)) =
            some { world with clients := world.clients.set j ready } := by
        simp only [step, isFirst, Option.bind_some, if_pos isWaiting.1,
          Client.step, isWaiting.2, List.Perm.refl, and_self, if_true,
          Option.map_some]
        rfl
      have handed : ready.waiting = false := by
        simp [ready, Client.waiting, Client.handOver]
      have fewer :
          (world.clients.set j ready).countP Client.waiting = count := by
        rw [List.countP_set inside, atFirst, if_pos waits, handed, isCount]
        simp
      rcases @ih { world with clients := world.clients.set j ready } stopped
        fewer with
        ⟨reads, served, length, areReads, reached, closed, conn, clients⟩
      refine ⟨.client j (.readCache world.shared.books.toList) :: reads,
        served, ?_, ?_, ?_, closed, conn, ?_⟩
      · rw [List.length_cons, length]
      · intro action member
        rcases List.mem_cons.mp member with rfl | later
        · exact ⟨j, _, rfl⟩
        · exact areReads action later
      · rw [run_cons, stepped]
        exact reached
      · intro i client isClient
        by_cases same : j = i
        · subst same
          rw [isFirst] at isClient
          cases isClient
          rcases clients j ready (List.getElem?_set_self inside) with
            ⟨after, isAfter, ⟨-, rfl⟩ | ⟨again, -⟩⟩
          · exact ⟨ready, isAfter,
              .inr ⟨waits, _, List.Perm.refl _, rfl⟩⟩
          · rw [handed] at again
            cases again
        · exact clients i client
            ((List.getElem?_set_ne same).trans isClient)

/--
Once the feed is stopped, the upgrades that still hold it can finish, with one
read of the cache each.  Then each client still connected is closed after as
many turns of its pump as it has frames left, having been sent the rest of its
preamble and what accounts for every frame that it had not passed.
-/
theorem stopped_feed_closes_clients (readers : Readers Text) (market : Market)
    (coinbase : Option CoinbaseFeedStatus) (actions : List (Action Text))
    (final : World Text)
    (reached : run (step readers) (.spawned market coinbase) actions =
      some final)
    (stopped : final.running = false) :
    ∃ reads served,
      reads.length = final.clients.countP Client.waiting ∧
      (∀ action ∈ reads, ∃ j order, action = .client j (.readCache order)) ∧
      run (step readers) final reads = some served ∧
      ∀ (i : Nat) (client : Client Text), final.clients[i]? = some client →
        client.connected = true →
        ∃ ready, served.clients[i]? = some ready ∧
          Served final.shared client ready ∧
          ∃ turns ≤ ready.left final.shared + 1, ∃ next after given,
            run (step readers) served
              (List.replicate turns (.client i .pump)) = some next ∧
            next.clients[i]? = some after ∧ after.connected = false ∧
            after.sent = client.sent ++
              (ready.preamble.getD []).map .replay ++ given.map relay ++
                [.close] ∧
            Accounts (between (final.tx client.channel) client.rx
              (final.tx client.channel).length) given := by
  rcases exists_reads readers stopped with
    ⟨reads, served, length, areReads, read, closed, conn, clients⟩
  refine ⟨reads, served, length, areReads, read, ?_⟩
  intro i client isClient connected
  rcases clients i client isClient with ⟨ready, isReady, isServed⟩
  have rx_le := (relayed_of_run reached isClient).rx_le
  have shared : served.shared = final.shared := by
    rw [World.shared, conn]
    rfl
  have same : ready.channel = client.channel ∧ ready.rx = client.rx ∧
      ready.sent = client.sent ∧ ready.connected = true ∧
      ready.preamble.isSome := by
    rcases isServed with ⟨served, rfl⟩ | ⟨-, order, -, rfl⟩
    · refine ⟨rfl, rfl, rfl, connected, ?_⟩
      rw [Client.waiting, connected, Bool.true_and] at served
      simpa using served
    · exact ⟨rfl, rfl, rfl, connected, rfl⟩
  rcases same with ⟨channel, rx, sent, connected, handed⟩
  rcases Option.isSome_iff_exists.mp handed with ⟨frames, preamble⟩
  have tx : served.tx ready.channel = final.tx client.channel := by
    rw [World.tx, World.tx, shared, channel]
  rcases exists_pump readers closed isReady connected preamble
    (by rw [tx, rx]; exact rx_le) with
    ⟨turns, le, next, after, given, pumped, isAfter, gone, told, accounts⟩
  rw [tx, rx] at accounts
  rw [shared] at le
  rw [sent] at told
  refine ⟨ready, isReady, isServed, turns, le, next, after, given, pumped,
    isAfter, gone, ?_, accounts⟩
  rw [preamble, Option.getD_some]
  exact told

/-- A client waits for the cache when the feed is stopped. -/
def waitingClient : List (Action Value) :=
  twoClients.take 6 ++ [.stop]

theorem stopped_feed_closes_waitingClient :
    ∃ final reads served turns next after,
      run (step .parsed) (.spawned btc15m none) waitingClient = some final ∧
        final.closed = false ∧
        run (step .parsed) final reads = some served ∧
        run (step .parsed) served (List.replicate turns (.client 1 .pump)) =
          some next ∧
        next.clients[1]? = some after ∧ after.connected = false ∧
        after.sent.getLast? = some .close := by
  have runs :
      (run (step .parsed) (.spawned btc15m none) waitingClient).map
          (fun final => (final.running, final.closed,
            final.clients[1]?.map Client.connected)) =
        some (false, false, some true) := by
    decide +kernel
  rcases Option.map_eq_some_iff.mp runs with ⟨final, reached, ends⟩
  simp only [Prod.mk.injEq] at ends
  rcases ends with ⟨stopped, held, isConnected⟩
  rcases Option.map_eq_some_iff.mp isConnected with
    ⟨client, isClient, connected⟩
  rcases stopped_feed_closes_clients .parsed btc15m none _ final reached
    stopped with ⟨reads, served, -, -, read, clients⟩
  rcases clients 1 client isClient connected with
    ⟨ready, -, -, turns, -, next, after, given, pumped, isAfter, gone, sent,
      -⟩
  refine ⟨final, reads, served, turns, next, after, reached, held, read,
    pumped, isAfter, gone, ?_⟩
  rw [sent, List.getLast?_concat]

end ChudMoney.Controllers.Ws
