import ChudMoney.Controllers.Ws

/-!
# Clients of the orderbook proxy hold the cached books

A client of the orderbook channel that has been told of no miss is a proxy
connection of `Feeds.Proxy`, whatever the other clients do: the frames of its
preamble that are still to be sent count as handed over.  So a client that has
been sent everything holds every cached book.
-/

namespace ChudMoney.Controllers.Ws

open ChudMoney.Feeds.Broadcasts
open ChudMoney.Feeds.Proxy (Connection Consistent Message clientBooks)
open ChudMoney.Feeds.Shared
open ChudMoney.Feeds.Task
open ChudMoney.Kalshi.Book
open ChudMoney.Lib.Broadcast
open ChudMoney.Lib.Json
open ChudMoney.Lib.Replica
open ChudMoney.Lib.Runs
open ChudMoney.Model

variable {Text : Type} {readers : Readers Text}

/-! ## A client as a proxy connection -/

/-- A frame that carries a book or a change of one. -/
def Sent.message : Sent Text → Option (Message Text)
  | .replay frame => some (.replay frame)
  | .live text => some (.live text)
  | .lagged _ | .close => none

def Client.messages (client : Client Text) : List (Message Text) :=
  client.sent.filterMap Sent.message

/-- The connection of a client that is handed its whole preamble at once. -/
def Client.connection (client : Client Text) : Connection Text :=
  ⟨client.rx, client.preamble.map fun rest =>
    client.messages ++ rest.map .replay⟩

/-- The feed with one proxy connection at most. -/
def World.withProxy (world : World Text) (proxy : Option (Connection Text)) :
    Feeds.Proxy.World Text :=
  ⟨world.conn, world.newest, proxy⟩

/-- What is assumed of Kalshi, as for one proxy connection. -/
def Promised (readers : Readers Text) (world : World Text) :
    Action Text → Prop
  | .feed event =>
      Feeds.Proxy.Promised readers (world.withProxy none) (.feed event)
  | .stop | .upgrade _ | .client _ _ => True

instance (readers : Readers Text) (world : World Text) :
    ∀ action, Decidable (Promised readers world action)
  | .feed event =>
      inferInstanceAs (Decidable (Feeds.Proxy.Promised readers
        (world.withProxy none) (.feed event)))
  | .stop | .upgrade _ | .client _ _ => isTrue trivial

/-- A step of the feed or of a client, seen by a connection left alone. -/
theorem consistent_withProxy {world next : World Text} {action : Action Text}
    {proxy : Option (Connection Text)}
    (consistent : Consistent readers (world.withProxy proxy))
    (promised : Promised readers world action)
    (taken : step readers world action = some next) :
    Consistent readers (next.withProxy proxy) := by
  rcases step_cases taken with
    ⟨event, conn, rfl, -, fed, rfl⟩ | ⟨rfl, -, rfl⟩ | ⟨channel, rfl, -, rfl⟩ |
      ⟨j, before, act, after, rfl, -, -, -, rfl⟩
  · refine Consistent.feed consistent ?_ fed
    cases event <;> exact promised
  · exact consistent
  · exact consistent
  · exact consistent

theorem consistent_subscribed {world : World Text}
    (consistent : Consistent readers (world.withProxy none)) :
    Consistent readers (world.withProxy
      (some (Client.subscribed .orderbook world.shared).connection)) := by
  have taken : Feeds.Proxy.step readers (world.withProxy none) .subscribe =
      some (world.withProxy
        (some (Client.subscribed .orderbook world.shared).connection)) :=
    rfl
  refine consistent.step ?_ taken
  trivial

/-- A client that has not been handed a preamble has been sent nothing. -/
theorem Relayed.sent_eq_nil {world : World Text} {client : Client Text}
    (relayed : Relayed world client) (waiting : client.preamble = none) :
    client.sent = [] := by
  rcases relayed.sent with ⟨replayed, given, ending, sent, handed, -, notRead,
    nothing, ends⟩
  have notReplayed : replayed = [] := by
    rw [notRead waiting, waiting] at handed
    simpa using handed
  rw [sent, notReplayed, nothing (by rw [waiting]; simp)]
  rcases ends with rfl | ⟨-, handed, -⟩
  · rfl
  · rw [waiting] at handed
    cases handed

theorem messages_concat (sent : List (Sent Text)) (last : Sent Text) :
    (sent ++ [last]).filterMap Sent.message =
      sent.filterMap Sent.message ++ last.message.toList := by
  rw [List.filterMap_append]
  cases last <;> rfl

/-- A step of a client is a step of its connection, or changes nothing there. -/
theorem consistent_steps {world : World Text} {before after : Client Text}
    {action : ClientAction} (relayed : Relayed world before)
    (isBook : before.channel = .orderbook)
    (nothing : ∀ notice, Sent.lagged notice ∉ after.sent)
    (consistent : Consistent readers
      (world.withProxy (some before.connection)))
    (steps : Steps world.shared world.closed before action after) :
    Consistent readers (world.withProxy (some after.connection)) := by
  cases steps with
  | readCache order waiting perm =>
      have isWaiting : before.connection = ⟨before.rx, none⟩ := by
        rw [Client.connection, waiting, Option.map_none]
      have handed : (before.handOver order).connection =
          ⟨before.rx, some (Feeds.Proxy.preamble order)⟩ := by
        have empty : (before.handOver order).messages = [] := by
          show before.messages = []
          rw [Client.messages, relayed.sent_eq_nil waiting]
          rfl
        rw [Client.connection, empty, Feeds.Proxy.preamble]
        simp [Client.handOver]
      rw [isWaiting] at consistent
      rw [handed]
      have taken : Feeds.Proxy.step readers
          (world.withProxy (some ⟨before.rx, none⟩)) (.readCache order) =
            some (world.withProxy
              (some ⟨before.rx, some (Feeds.Proxy.preamble order)⟩)) := by
        rw [Feeds.Proxy.step]
        exact if_pos perm
      refine consistent.step ?_ taken
      trivial
  | replay frame rest isNext =>
      have same : Client.connection
          { before with
            preamble := some rest
            sent := before.sent ++ [.replay frame] } =
          before.connection := by
        rw [Client.connection, Client.connection, Client.messages,
          messages_concat, isNext]
        simp [Client.messages, Sent.message]
      rw [same]
      exact consistent
  | relay received rx handed isGiven =>
      cases received with
      | lagged missed =>
          exact absurd (List.mem_append_right _ List.mem_cons_self)
            (nothing (notice missed))
      | item text =>
          rcases getElem?_of_recv isGiven with ⟨isText, rfl⟩
          rw [isBook] at isText
          have isHanded : before.connection =
              ⟨before.rx, some before.messages⟩ := by
            rw [Client.connection, handed, Option.map_some, List.map_nil,
              List.append_nil]
          let after : Client Text :=
            { before with
              rx := before.rx + 1
              sent := before.sent ++ [relay (.item text)] }
          have told : after.messages = before.messages ++ [.live text] :=
            messages_concat before.sent (relay (.item text))
          have isTold : after.connection =
              ⟨before.rx + 1, some (before.messages ++ [.live text])⟩ := by
            rw [Client.connection, told,
              show after.preamble = some [] from handed, Option.map_some,
              List.map_nil, List.append_nil]
          have taken : Feeds.Proxy.recv world.shared before.connection =
              some after.connection := by
            have isText : world.shared.orderbookTx[before.rx]? = some text :=
              isText
            rw [isHanded, isTold, Feeds.Proxy.recv, isText]
          have stepped : Feeds.Proxy.step readers
              (world.withProxy (some before.connection)) .recv =
                some (world.withProxy (some after.connection)) :=
            congrArg (Option.map fun connection =>
              world.withProxy (some connection)) taken
          refine consistent.step ?_ stepped
          trivial
  | close handed empty isClosed =>
      have same : Client.connection
          { before with
            connected := false
            sent := before.sent ++ [.close] } = before.connection := by
        rw [Client.connection, Client.connection, Client.messages,
          messages_concat]
        simp [Client.messages, Sent.message]
      rw [same]
      exact consistent
  | leave => exact consistent

/-- What has been sent stays sent. -/
theorem Steps.sent {shared : FeedShared Text} {closed : Bool}
    {before after : Client Text} {action : ClientAction}
    (steps : Steps shared closed before action after) :
    before.sent <+: after.sent := by
  cases steps with
  | readCache order waiting perm => exact List.prefix_rfl
  | replay frame rest isNext => exact List.prefix_append _ _
  | relay received rx handed isGiven => exact List.prefix_append _ _
  | close handed empty isClosed => exact List.prefix_append _ _
  | leave => exact List.prefix_rfl

theorem Steps.channel {shared : FeedShared Text} {closed : Bool}
    {before after : Client Text} {action : ClientAction}
    (steps : Steps shared closed before action after) :
    after.channel = before.channel := by
  cases steps <;> rfl

/-! ## Runs -/

/-- What holds of the feed and of each client that has been told of no miss. -/
structure Current (readers : Readers Text) (world : World Text) : Prop where
  relayed : ∀ (i : Nat) (client : Client Text),
    world.clients[i]? = some client → Relayed world client
  feed : Consistent readers (world.withProxy none)
  client : ∀ (i : Nat) (client : Client Text),
    world.clients[i]? = some client → client.channel = .orderbook →
      (∀ notice, Sent.lagged notice ∉ client.sent) →
        Consistent readers (world.withProxy (some client.connection))

theorem current_spawned (market : Market)
    (coinbase : Option CoinbaseFeedStatus) :
    Current readers (.spawned market coinbase : World Text) := by
  refine ⟨?_, Feeds.Proxy.consistent_start market coinbase, ?_⟩
  · intro i client isClient
    cases isClient
  · intro i client isClient
    cases isClient

theorem Current.step {world next : World Text} {action : Action Text}
    (current : Current readers world)
    (promised : Promised readers world action)
    (taken : Ws.step readers world action = some next) :
    Current readers next := by
  refine ⟨relayed_step current.relayed taken,
    consistent_withProxy current.feed promised taken, ?_⟩
  intro i client isClient isBook nothing
  rcases client_cases taken isClient with
    old | ⟨channel, -, rfl⟩ | ⟨before, act, -, isBefore, -, steps⟩
  · exact consistent_withProxy (current.client i client old isBook nothing)
      promised taken
  · cases isBook
    exact consistent_withProxy (consistent_subscribed current.feed) promised
      taken
  · have isBook : before.channel = .orderbook := steps.channel ▸ isBook
    have earlier := current.client i before isBefore isBook
      fun notice member => nothing notice (steps.sent.subset member)
    exact consistent_withProxy
      (consistent_steps (current.relayed i before isBefore) isBook nothing
        earlier steps) promised taken

/--
A client of the orderbook channel that has been sent its whole preamble and
every frame so far, and told of no miss, holds every cached book, whatever the
other clients do.
-/
theorem drained_client_current (readers : Readers Text) (market : Market)
    (coinbase : Option CoinbaseFeedStatus) (actions : List (Action Text))
    (final : World Text)
    (reached : run (step readers) (.spawned market coinbase) actions =
      some final)
    (promised : Guarded (step readers) (Promised readers)
      (.spawned market coinbase) actions)
    (i : Nat) (client : Client Text)
    (isClient : final.clients[i]? = some client)
    (isBook : client.channel = .orderbook)
    (handed : client.preamble = some [])
    (nothing : ∀ notice, Sent.lagged notice ∉ client.sent)
    (drained : client.rx = (final.tx .orderbook).length) :
    ∀ (ticker : String) (book : OrderBook),
      final.shared.books[ticker]? = some book →
        (clientBooks readers client.messages)[ticker]? = some book := by
  have current : Current readers final :=
    invariant_of_guarded (Current readers)
      (fun _ _ _ current promised taken => current.step promised taken)
      (current_spawned market coinbase) promised reached
  have following := (current.client i client isClient isBook nothing).following
  have isHanded : client.connection = ⟨client.rx, some client.messages⟩ := by
    rw [Client.connection, handed, Option.map_some, List.map_nil,
      List.append_nil]
  have following : Feeds.Proxy.Following readers final.shared.books
      (final.tx .orderbook) (some client.connection) := following
  rw [isHanded] at following
  have holds := following.2
  have silent : Feeds.Proxy.heard readers (final.tx .orderbook) client.rx =
      [] := by
    rw [Feeds.Proxy.heard, drained, List.drop_length]
    rfl
  rw [silent] at holds
  intro ticker book cached
  apply Feeds.Proxy.getElem?_of_view
  apply holds
  rw [Feeds.Proxy.view_apply, cached]
  rfl

theorem drained_client_current_twoClients :
    ∃ final client,
      run (step .parsed) (.spawned btc15m none) twoClients = some final ∧
        final.clients[1]? = some client ∧
        ∀ (ticker : String) (book : OrderBook),
          final.shared.books[ticker]? = some book →
            (clientBooks .parsed client.messages)[ticker]? = some book := by
  have runs :
      (run (step .parsed) (.spawned btc15m none) twoClients).map
        (fun final => final.clients[1]?.map fun client =>
          (client.channel, client.preamble.map List.length,
            decide (client.rx = (final.tx .orderbook).length))) =
        some (some (.orderbook, some 0, true)) := by
    decide +kernel
  rcases Option.map_eq_some_iff.mp runs with ⟨final, reached, ends⟩
  rcases Option.map_eq_some_iff.mp ends with ⟨client, isClient, ends⟩
  simp only [Prod.mk.injEq, decide_eq_true_eq] at ends
  rcases ends with ⟨isBook, handed, drained⟩
  rcases Option.map_eq_some_iff.mp handed with ⟨rest, preamble, empty⟩
  rw [List.length_eq_zero_iff.mp empty] at preamble
  have nothing : NotLagged 1 final :=
    notLagged_of_run reached (by decide +kernel)
  exact ⟨final, client, reached, isClient,
    drained_client_current .parsed btc15m none twoClients final reached
      (by decide +kernel) 1 client isClient isBook preamble
      (nothing client isClient) drained⟩

end ChudMoney.Controllers.Ws
