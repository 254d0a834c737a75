import ChudMoney.Feeds.Frames
import ChudMoney.Lib.Remote

/-!
# Rotation and the subscriptions at Kalshi

When the set of open markets changes, the task either subscribes the
per-market channels or updates the subscriptions whose sids it has learnt.
Kalshi applies the commands in the order sent and answers every subscribe at
some later time, so that a poll may find a new set while a sid is not known
yet.  The subscription of that sid is then left behind for good: the task
takes the new set for subscribed.

The subscriptions are right in every run in which no such poll happens.
-/

namespace ChudMoney.Feeds.Rotation

open ChudMoney.Feeds.Frames
open ChudMoney.Feeds.Shared
open ChudMoney.Feeds.Task
open ChudMoney.Kalshi.Client
open ChudMoney.Kalshi.Stream
open ChudMoney.Lib.Json
open ChudMoney.Lib.Remote
open ChudMoney.Lib.Runs
open ChudMoney.Model

variable {Text : Type}

/-! ## Kalshi -/

/-- A subscription: its sid, its channel and its tickers. -/
abbrev Subscription := Holding String UInt64 TickerSet

/-- The tickers of a subscription after an update. -/
def updated (action : String) (marketTickers : List String)
    (tickers : TickerSet) : TickerSet :=
  if action = "add_markets" then tickers ∪ .ofList marketTickers
  else if action = "delete_markets" then tickers \ .ofList marketTickers
  else tickers

/-- What Kalshi reads in a command; a subscribe names one channel. -/
def order : Command → Option (Order String UInt64 TickerSet)
  | .subscribe _ (.index [channel] _) => some (.create channel ∅)
  | .subscribe _ (.markets [channel] marketTickers) =>
      some (.create channel (.ofList marketTickers))
  | .subscribe _ _ => none
  | .updateSubscription _ sids marketTickers action =>
      some (.change sids (updated action marketTickers))

/-- The answer to a subscribe, until the task has read it. -/
structure Reply where
  id : Nat
  channel : String
  sid : UInt64

/-- The envelope of a text of type `subscribed`. -/
def subscribedFrame (readers : Readers Text) (text : Text) : Option Envelope :=
  match (readers.fromStr text).bind Envelope.deserialize with
  | some env => if env.typ = "subscribed" then some env else none
  | none => none

/-- A text is an answer. -/
def Reply.IsText (readers : Readers Text) (reply : Reply) (text : Text) :
    Prop :=
  ∃ env ∈ subscribedFrame readers text,
    env.id.map UInt64.toNat = some reply.id ∧
      ∃ msg ∈ Subscribed.deserialize env.msg,
        msg.channel = reply.channel ∧ msg.sid = reply.sid

instance (readers : Readers Text) (reply : Reply) (text : Text) :
    Decidable (reply.IsText readers text) :=
  inferInstanceAs (Decidable (∃ env ∈ subscribedFrame readers text,
    env.id.map UInt64.toNat = some reply.id ∧
      ∃ msg ∈ Subscribed.deserialize env.msg,
        msg.channel = reply.channel ∧ msg.sid = reply.sid))

/-! ## One session -/

/--
A session and Kalshi's side of it: how many of the commands sent Kalshi has
processed, the subscriptions it has, and the answers the task has yet to read.
-/
structure World (Text : Type) where
  conn : Conn Text
  processed : Nat
  subscriptions : List Subscription
  replies : List Reply

namespace World

/-- A session whose first poll found `markets`. -/
def opened (conn : Conn Text) (markets : List OpenMarket) : World Text :=
  ⟨conn.connect (.ok markets), 0, [], []⟩

/-- The commands that Kalshi has yet to process. -/
def queue (world : World Text) : List Command :=
  world.conn.sent.drop world.processed

/-- How many subscriptions of a channel have a ticker. -/
def coverage (world : World Text) (channel ticker : String) : Nat :=
  (world.subscriptions.filter fun subscription =>
    subscription.tag = channel ∧ ticker ∈ subscription.value).length

end World

inductive Action (Text : Type) where
  | refresh (markets : Except String (List OpenMarket))
  | process (sid : UInt64)
  | reply (place : Nat) (moment : Moment) (text : Text)
  | frame (moment : Moment) (text : Text)

/-- Kalshi processes its next command; a subscription gets a fresh sid. -/
def process (world : World Text) (sid : UInt64) : Option (World Text) :=
  match world.queue with
  | [] => none
  | command :: _ =>
      match order command with
      | none => none
      | some (.change sids f) =>
          some { world with
            processed := world.processed + 1
            subscriptions :=
              world.subscriptions.map (Holding.changed (.change sids f)) }
      | some (.create channel tickers) =>
          if sid ∈ world.subscriptions.map Holding.handle then none
          else
            some { world with
              processed := world.processed + 1
              subscriptions :=
                world.subscriptions ++ [⟨sid, channel, tickers⟩]
              replies := world.replies ++ [⟨command.id, channel, sid⟩] }

/--
One step of the session or of Kalshi.  The only texts of type `subscribed` are
the answers; they may come in any order.
-/
def step (readers : Readers Text) (world : World Text) :
    Action Text → Option (World Text)
  | .refresh markets =>
      (feedStep readers world.conn (.refresh markets)).map fun conn =>
        { world with conn := conn }
  | .process sid => process world sid
  | .reply place moment text =>
      match world.replies[place]? with
      | none => none
      | some reply =>
          if reply.IsText readers text then
            (feedStep readers world.conn (.text moment text)).map fun conn =>
              { world with
                conn := conn
                replies := world.replies.eraseIdx place }
          else none
  | .frame moment text =>
      if (subscribedFrame readers text).isSome then none
      else
        (feedStep readers world.conn (.text moment text)).map fun conn =>
          { world with conn := conn }

/-- No answer to a per-market subscribe is outstanding. -/
def Confirmed (session : Session) : Prop :=
  ∀ entry ∈ session.pending.toList, entry.2 = .index

instance (session : Session) : Decidable (Confirmed session) :=
  inferInstanceAs (Decidable (∀ entry ∈ session.pending.toList, _))

/--
A poll that finds a new set of open markets finds it while no answer to a
per-market subscribe is outstanding.
-/
def Patient (world : World Text) : Action Text → Prop
  | .refresh (.ok markets) =>
      Conn.openTickers markets ≠ world.conn.subscribed →
        Confirmed world.conn.session
  | _ => True

instance (world : World Text) : ∀ action, Decidable (Patient world action)
  | .refresh (.ok markets) =>
      inferInstanceAs (Decidable (
        Conn.openTickers markets ≠ world.conn.subscribed →
          Confirmed world.conn.session))
  | .refresh (.error _) | .process _ | .reply .. | .frame .. => isTrue trivial

/-! ## What the task and Kalshi agree on -/

/-- The channel that a subscribe was for. -/
def subChannel : Sub → String
  | .index => channelCf5hz
  | .orderbook => channelOrderbook
  | .ticker => channelTicker

theorem subChannel_injective : Function.Injective subChannel := by
  intro first second same
  cases first <;> cases second <;> first | rfl | exact absurd same (by decide)

/-- The sid that a session has learnt. -/
def sidOf (session : Session) : Sub → Option UInt64
  | .index => none
  | .orderbook => session.orderbookSid
  | .ticker => session.tickerSid

/-- The ticker sets of a channel once Kalshi has processed the queue. -/
def World.settled (world : World Text) (sub : Sub) : List TickerSet :=
  Lib.Remote.settled (subChannel sub) world.subscriptions
    (world.queue.filterMap order)

/-- Nothing is subscribed per market. -/
def Unsubscribed (world : World Text) : Prop :=
  world.conn.subscribed = ∅ ∧ ∀ sub, sub ≠ .index →
    world.settled sub = [] ∧ sidOf world.conn.session sub = none

/--
Each per-market channel has one subscription of the open markets, whose sid
the task has learnt or is waiting for.
-/
def Upheld (world : World Text) : Prop :=
  ∀ sub, sub ≠ .index →
    world.settled sub = [world.conn.subscribed] ∧
      (sidOf world.conn.session sub = none →
        ∃ id : Nat, world.conn.session.pending[id]? = some sub)

/-- What holds in every state of a run whose polls are patient. -/
structure Agreed (world : World Text) : Prop where
  processed : world.processed ≤ world.conn.sent.length
  nodup : (world.subscriptions.map Holding.handle).Nodup
  named : ∀ asked ∈ world.queue.filterMap order, ∀ sid ∈ asked.handles,
    sid ∈ world.subscriptions.map Holding.handle
  answered : ∀ reply ∈ world.replies,
    (reply.sid, reply.channel) ∈ labels world.subscriptions
  expected : ∀ reply ∈ world.replies,
    ∀ sub ∈ world.conn.session.pending[reply.id]?,
      subChannel sub = reply.channel
  queued : ∀ command ∈ world.queue, ∀ channel tickers,
    order command = some (.create channel tickers) →
      ∀ sub ∈ world.conn.session.pending[command.id]?,
        subChannel sub = channel
  repliesNumbered : ∀ reply ∈ world.replies, reply.id ≤ world.conn.cmdId
  queueNumbered : ∀ command ∈ world.queue, command.id ≤ world.conn.cmdId
  known : ∀ sub sid, sidOf world.conn.session sub = some sid →
    (sid, subChannel sub) ∈ labels world.subscriptions
  phase : Unsubscribed world ∨ Upheld world

/-- The task has sent and learnt nothing in between. -/
structure Same (conn next : Conn Text) : Prop where
  sent : next.sent = conn.sent
  subscribed : next.subscribed = conn.subscribed
  cmdId : next.cmdId = conn.cmdId
  pending : next.session.pending = conn.session.pending
  orderbookSid : next.session.orderbookSid = conn.session.orderbookSid
  tickerSid : next.session.tickerSid = conn.session.tickerSid

theorem Same.sidOf {conn next : Conn Text} (same : Same conn next)
    (sub : Sub) :
    sidOf next.session sub = Rotation.sidOf conn.session sub := by
  cases sub with
  | index => rfl
  | orderbook => exact same.orderbookSid
  | ticker => exact same.tickerSid

/-- The phase is told from what will be settled and what the task knows. -/
theorem phase_congr {world next : World Text}
    (phase : Unsubscribed world ∨ Upheld world)
    (settled : ∀ sub, next.settled sub = world.settled sub)
    (subscribed : next.conn.subscribed = world.conn.subscribed)
    (sids : ∀ sub, Rotation.sidOf next.conn.session sub =
      Rotation.sidOf world.conn.session sub)
    (pending : next.conn.session.pending = world.conn.session.pending) :
    Unsubscribed next ∨ Upheld next := by
  unfold Unsubscribed Upheld at phase ⊢
  simpa only [settled, subscribed, sids, pending] using phase

theorem Agreed.same {world : World Text} {next : Conn Text}
    (agreed : Agreed world) (same : Same world.conn next) :
    Agreed { world with conn := next } := by
  have queue : ({ world with conn := next } : World Text).queue =
      world.queue := by
    rw [World.queue, World.queue, same.sent]
  constructor
  case processed => rw [same.sent]; exact agreed.processed
  case nodup => exact agreed.nodup
  case named => rw [queue]; exact agreed.named
  case answered => exact agreed.answered
  case expected => rw [same.pending]; exact agreed.expected
  case queued => rw [queue, same.pending]; exact agreed.queued
  case repliesNumbered => rw [same.cmdId]; exact agreed.repliesNumbered
  case queueNumbered => rw [queue, same.cmdId]; exact agreed.queueNumbered
  case known =>
    intro sub sid found
    exact agreed.known sub sid (same.sidOf sub ▸ found)
  case phase =>
    refine phase_congr agreed.phase ?_ same.subscribed same.sidOf same.pending
    intro sub
    rw [World.settled, World.settled, queue]

/-! ## Kalshi processes a command -/

/-- What is left for Kalshi after its next command. -/
theorem queue_processed {world : World Text} {command : Command}
    {rest : List Command} (queue : world.queue = command :: rest) :
    world.conn.sent.drop (world.processed + 1) = rest ∧
      world.processed + 1 ≤ world.conn.sent.length := by
  rw [World.queue] at queue
  constructor
  · rw [← List.tail_drop, queue, List.tail_cons]
  · have length := congrArg List.length queue
    rw [List.length_drop, List.length_cons] at length
    omega

/--
A step of Kalshi that takes the next command from the queue keeps the
agreement if it leaves what will be settled as it is.
-/
theorem Agreed.next {world : World Text} (agreed : Agreed world)
    {command : Command} {rest : List Command}
    (queue : world.queue = command :: rest)
    {subscriptions : List Subscription} {replies : List Reply}
    (nodup : (subscriptions.map Holding.handle).Nodup)
    (grows : ∀ label ∈ labels world.subscriptions,
      label ∈ labels subscriptions)
    (answers : ∀ reply ∈ replies, reply ∈ world.replies ∨
      (reply.id = command.id ∧
        (reply.sid, reply.channel) ∈ labels subscriptions ∧
        ∃ tickers, order command = some (.create reply.channel tickers)))
    (settled : ∀ sub, Lib.Remote.settled (subChannel sub) subscriptions
      (rest.filterMap order) = world.settled sub) :
    Agreed
      { world with
        processed := world.processed + 1
        subscriptions := subscriptions
        replies := replies } := by
  rcases queue_processed queue with ⟨isRest, le⟩
  have first : command ∈ world.queue := by
    rw [queue]
    exact List.mem_cons_self
  have later : ∀ other ∈ rest, other ∈ world.queue := by
    intro other member
    rw [queue]
    exact List.mem_cons_of_mem _ member
  have handles : ∀ sid ∈ world.subscriptions.map Holding.handle,
      sid ∈ subscriptions.map Holding.handle := by
    intro sid member
    rw [← handles_labels, List.mem_map] at member ⊢
    rcases member with ⟨label, member, rfl⟩
    exact ⟨label, grows label member, rfl⟩
  constructor
  case processed => exact le
  case nodup => exact nodup
  case named =>
    show ∀ asked ∈ (world.conn.sent.drop (world.processed + 1)).filterMap
      order, _
    rw [isRest]
    intro asked member sid named
    rcases List.mem_filterMap.mp member with ⟨other, member, isOrder⟩
    exact handles sid (agreed.named asked
      (List.mem_filterMap.mpr ⟨other, later other member, isOrder⟩) sid named)
  case answered =>
    intro reply member
    rcases answers reply member with old | ⟨-, label, -⟩
    · exact grows _ (agreed.answered reply old)
    · exact label
  case expected =>
    intro reply member sub awaited
    rcases answers reply member with old | ⟨same, -, tickers, isOrder⟩
    · exact agreed.expected reply old sub awaited
    · rw [same] at awaited
      exact agreed.queued command first _ tickers isOrder sub awaited
  case queued =>
    show ∀ other ∈ world.conn.sent.drop (world.processed + 1), _
    rw [isRest]
    exact fun other member => agreed.queued other (later other member)
  case repliesNumbered =>
    intro reply member
    rcases answers reply member with old | ⟨same, -, -⟩
    · exact agreed.repliesNumbered reply old
    · rw [same]
      exact agreed.queueNumbered command first
  case queueNumbered =>
    show ∀ other ∈ world.conn.sent.drop (world.processed + 1), _
    rw [isRest]
    exact fun other member => agreed.queueNumbered other (later other member)
  case known =>
    intro sub sid found
    exact grows _ (agreed.known sub sid found)
  case phase =>
    refine phase_congr agreed.phase ?_ rfl (fun _ => rfl) rfl
    intro sub
    rw [← settled sub]
    show Lib.Remote.settled _ _ ((world.conn.sent.drop
      (world.processed + 1)).filterMap order) = _
    rw [isRest]

/-- A command that Kalshi processes leaves what will be settled as it is. -/
theorem Agreed.process {world next : World Text} {sid : UInt64}
    (agreed : Agreed world) (taken : Rotation.process world sid = some next) :
    Agreed next := by
  rw [Rotation.process] at taken
  split at taken
  · cases taken
  next command rest queue =>
    have asked : ∀ {first}, order command = some first →
        world.queue.filterMap order = first :: rest.filterMap order := by
      intro first isOrder
      rw [queue, List.filterMap_cons_some isOrder]
    split at taken
    · cases taken
    next sids f isOrder =>
      cases taken
      apply agreed.next queue
      · rw [← handles_labels, labels_map_changed, handles_labels]
        exact agreed.nodup
      · intro label member
        rw [labels_map_changed]
        exact member
      · exact fun reply member => .inl member
      · intro sub
        rw [settled_changed rfl, World.settled, asked isOrder]
    next channel tickers isOrder =>
      split at taken
      · cases taken
      next fresh =>
        cases taken
        apply agreed.next queue
        · rw [List.map_append, List.nodup_append]
          refine ⟨agreed.nodup, List.nodup_singleton _, ?_⟩
          intro old isOld new isNew same
          rw [List.map_singleton, List.mem_singleton] at isNew
          rw [same, isNew] at isOld
          exact fresh isOld
        · intro label member
          rw [labels_append]
          exact List.mem_append_left _ member
        · intro reply member
          rcases List.mem_append.mp member with old | new
          · exact .inl old
          · rw [List.mem_singleton.mp new, labels_append]
            right
            exact ⟨rfl, List.mem_append_right _ (List.mem_singleton.mpr rfl),
              tickers, isOrder⟩
        · intro sub
          rw [settled_created, World.settled, asked isOrder]
          intro other member named
          apply fresh
          apply agreed.named other _ sid named
          rw [asked isOrder]
          exact List.mem_cons_of_mem _ member

/-! ## The session reads a text -/

/-- A text changes the session as its handler does and sends nothing. -/
theorem session_feedStep_text {readers : Readers Text} {conn next : Conn Text}
    {moment : Moment} {text : Text}
    (taken : feedStep readers conn (.text moment text) = some next) :
    next.sent = conn.sent ∧ next.subscribed = conn.subscribed ∧
      next.cmdId = conn.cmdId ∧
      next.session =
        (handleText readers moment text conn.output conn.session).session := by
  simp only [feedStep] at taken
  split at taken
  · split at taken
    · cases taken
      exact ⟨rfl, rfl, rfl, rfl⟩
    · cases taken
      exact ⟨rfl, rfl, rfl, rfl⟩
  · cases taken

theorem session_handleOrderbook (isSnapshot : Bool) (moment : Moment)
    (text : Text) (env : Envelope) (output : Output Text) (session : Session) :
    (handleOrderbook isSnapshot moment text env output session).session =
      { session with lastSeq := (checkSeq env session.lastSeq).1 } := by
  cases checked : (checkSeq env session.lastSeq).2 with
  | error e => rw [handleOrderbook_of_gap checked]
  | ok _ =>
      exact (handleOrderbook_of_inSequence checked isSnapshot moment text
        output).2.2

/-- No other text than an answer changes what the task knows. -/
theorem same_of_frame {readers : Readers Text} {conn next : Conn Text}
    {moment : Moment} {text : Text}
    (other : subscribedFrame readers text = none)
    (taken : feedStep readers conn (.text moment text) = some next) :
    Same conn next := by
  rcases session_feedStep_text taken with ⟨sent, subscribed, cmdId, session⟩
  have kept :
      let after :=
        (handleText readers moment text conn.output conn.session).session
      after.pending = conn.session.pending ∧
        after.orderbookSid = conn.session.orderbookSid ∧
        after.tickerSid = conn.session.tickerSid := by
    rw [subscribedFrame] at other
    rw [handleText]
    cases read : (readers.fromStr text).bind Envelope.deserialize with
    | none => exact ⟨rfl, rfl, rfl⟩
    | some env =>
        simp only [read] at other
        have untyped : ¬ env.typ = "subscribed" := by
          intro typed
          rw [if_pos typed] at other
          cases other
        dsimp only
        split
        · exact ⟨rfl, rfl, rfl⟩
        split
        · exact ⟨rfl, rfl, rfl⟩
        split
        · rw [session_handleOrderbook]
          exact ⟨rfl, rfl, rfl⟩
        split
        · rw [session_handleOrderbook]
          exact ⟨rfl, rfl, rfl⟩
        exact ⟨rfl, rfl, rfl⟩
  rw [← session] at kept
  exact ⟨sent, subscribed, cmdId, kept.1, kept.2.1, kept.2.2⟩

/-- An answer is handled as such. -/
theorem session_of_answer {readers : Readers Text} {conn next : Conn Text}
    {moment : Moment} {text : Text} {env : Envelope}
    (framed : subscribedFrame readers text = some env)
    (taken : feedStep readers conn (.text moment text) = some next) :
    next.session = handleSubscribed env conn.session := by
  rcases session_feedStep_text taken with ⟨-, -, -, session⟩
  rw [session, handleText]
  rw [subscribedFrame] at framed
  cases read : (readers.fromStr text).bind Envelope.deserialize with
  | none => simp [read] at framed
  | some parsed =>
      simp only [read] at framed
      split at framed
      case isFalse => cases framed
      next typed =>
        cases framed
        simp [typed]

/-- What the task learns of an answer to what it awaits. -/
theorem handleSubscribed_of_reply {reply : Reply} {env : Envelope}
    {msg : Subscribed} {session : Session}
    (id : env.id.map UInt64.toNat = some reply.id)
    (found : Subscribed.deserialize env.msg = some msg)
    (channel : msg.channel = reply.channel) (sid : msg.sid = reply.sid)
    (expected : ∀ sub ∈ session.pending[reply.id]?,
      subChannel sub = reply.channel) :
    (handleSubscribed env session).pending = session.pending.erase reply.id ∧
      ∀ sub, sidOf (handleSubscribed env session) sub =
        if sub ≠ .index ∧ subChannel sub = reply.channel then some reply.sid
        else sidOf session sub := by
  rcases Option.map_eq_some_iff.mp id with ⟨word, isId, toNat⟩
  have learns : ∀ sub, (session.pending[reply.id]? = some sub ∨
      msg.channel = subChannel sub) ↔ subChannel sub = reply.channel := by
    intro sub
    constructor
    · rintro (pending | named)
      · exact expected sub pending
      · exact named.symm.trans channel
    · intro same
      exact .inr (channel.trans same.symm)
  have orderbook : (session.pending[reply.id]? = some .orderbook ∨
      msg.channel = channelOrderbook) ↔
        subChannel .orderbook = reply.channel := learns .orderbook
  have ticker : (session.pending[reply.id]? = some .ticker ∨
      msg.channel = channelTicker) ↔
        subChannel .ticker = reply.channel := learns .ticker
  have only : ∀ {learnt : Sub}, subChannel learnt = reply.channel → ∀ sub,
      subChannel sub = reply.channel ↔ sub = learnt := by
    intro learnt same sub
    rw [← same]
    exact subChannel_injective.eq_iff
  unfold handleSubscribed
  simp only [found, isId, Option.bind_some, toNat, sid]
  simp only [orderbook, ticker]
  by_cases forBook : subChannel .orderbook = reply.channel
  · rw [if_pos forBook]
    refine ⟨rfl, ?_⟩
    intro sub
    cases sub <;> simp [only forBook, sidOf]
  rw [if_neg forBook]
  by_cases forTicker : subChannel .ticker = reply.channel
  · rw [if_pos forTicker]
    refine ⟨rfl, ?_⟩
    intro sub
    cases sub <;> simp [only forTicker, sidOf]
  · rw [if_neg forTicker]
    refine ⟨rfl, ?_⟩
    intro sub
    cases sub <;> simp [forBook, forTicker, sidOf]

theorem mem_of_mem_erase {pending : HashMap Nat Sub} {id other : Nat}
    {sub : Sub} (awaited : sub ∈ (pending.erase id)[other]?) :
    sub ∈ pending[other]? := by
  rw [Std.ExtTreeMap.getElem?_erase] at awaited
  split at awaited
  · cases awaited
  · exact awaited

/-- An answer tells the sid of a channel in place of what was awaited. -/
theorem Agreed.phase_of_reply {world next : World Text}
    (agreed : Agreed world) {reply : Reply} (member : reply ∈ world.replies)
    (settled : ∀ sub, next.settled sub = world.settled sub)
    (subscribed : next.conn.subscribed = world.conn.subscribed)
    (pending : next.conn.session.pending =
      world.conn.session.pending.erase reply.id)
    (sids : ∀ sub, sidOf next.conn.session sub =
      if sub ≠ .index ∧ subChannel sub = reply.channel then some reply.sid
      else sidOf world.conn.session sub) :
    Unsubscribed next ∨ Upheld next := by
  rcases agreed.phase with ⟨nothing, unsubscribed⟩ | upheld
  · left
    refine ⟨subscribed.trans nothing, ?_⟩
    intro sub perMarket
    rw [settled, sids]
    refine ⟨(unsubscribed sub perMarket).1, ?_⟩
    split
    next both =>
      -- There is nothing to answer for on a channel that nothing settles on.
      have label := agreed.answered reply member
      rw [← both.2] at label
      exact absurd (unsubscribed sub perMarket).1 (settled_ne_nil label _)
    next => exact (unsubscribed sub perMarket).2
  · right
    intro sub perMarket
    rw [settled, sids, subscribed, pending]
    refine ⟨(upheld sub perMarket).1, ?_⟩
    intro unknown
    split at unknown
    · cases unknown
    next other =>
      rcases (upheld sub perMarket).2 unknown with ⟨id, awaited⟩
      refine ⟨id, ?_⟩
      rw [Std.ExtTreeMap.getElem?_erase, if_neg]
      · exact awaited
      · intro same
        have same : reply.id = id := by simpa using same
        rw [← same] at awaited
        exact other ⟨perMarket, agreed.expected reply member sub awaited⟩

/-- The task reads an answer. -/
theorem Agreed.reply {readers : Readers Text} {world : World Text}
    {next : Conn Text} {place : Nat} {reply : Reply} {moment : Moment}
    {text : Text} (agreed : Agreed world)
    (isReply : world.replies[place]? = some reply)
    (isText : reply.IsText readers text)
    (taken : feedStep readers world.conn (.text moment text) = some next) :
    Agreed
      { world with
        conn := next
        replies := world.replies.eraseIdx place } := by
  rcases isText with ⟨env, framed, id, msg, found, channel, sid⟩
  have member : reply ∈ world.replies := List.mem_of_getElem? isReply
  rcases session_feedStep_text taken with ⟨sent, subscribed, cmdId, -⟩
  have session := session_of_answer framed taken
  rcases handleSubscribed_of_reply id found channel sid
    (agreed.expected reply member) with ⟨pending, sids⟩
  rw [← session] at pending sids
  have others : ∀ other ∈ world.replies.eraseIdx place,
      other ∈ world.replies :=
    fun _ => List.mem_of_mem_eraseIdx
  have queue : World.queue
      { world with
        conn := next
        replies := world.replies.eraseIdx place } = world.queue := by
    show next.sent.drop world.processed = world.conn.sent.drop world.processed
    rw [sent]
  have settled : ∀ sub, World.settled
      { world with
        conn := next
        replies := world.replies.eraseIdx place } sub =
          world.settled sub := by
    intro sub
    rw [World.settled, World.settled, queue]
  constructor
  case processed =>
    show world.processed ≤ next.sent.length
    rw [sent]
    exact agreed.processed
  case nodup => exact agreed.nodup
  case named => rw [queue]; exact agreed.named
  case answered =>
    exact fun other left => agreed.answered other (others other left)
  case expected =>
    intro other left sub awaited
    rw [pending] at awaited
    exact agreed.expected other (others other left) sub
      (mem_of_mem_erase awaited)
  case queued =>
    rw [queue]
    intro command member channel tickers isOrder sub awaited
    rw [pending] at awaited
    exact agreed.queued command member channel tickers isOrder sub
      (mem_of_mem_erase awaited)
  case repliesNumbered =>
    intro other left
    show other.id ≤ next.cmdId
    rw [cmdId]
    exact agreed.repliesNumbered other (others other left)
  case queueNumbered =>
    rw [queue]
    show ∀ command ∈ world.queue, command.id ≤ next.cmdId
    rw [cmdId]
    exact agreed.queueNumbered
  case known =>
    intro sub sid known
    rw [sids] at known
    split at known
    next both =>
      cases known
      rw [both.2]
      exact agreed.answered reply member
    next => exact agreed.known sub sid known
  case phase =>
    exact agreed.phase_of_reply member settled subscribed pending sids

/-! ## The session sends commands -/

/-- What is in the queue once more commands are sent. -/
theorem queue_of_sent {world : World Text} {next : Conn Text}
    {commands : List Command}
    (processed : world.processed ≤ world.conn.sent.length)
    (sent : next.sent = world.conn.sent ++ commands) :
    World.queue { world with conn := next } = world.queue ++ commands := by
  show next.sent.drop world.processed = _
  rw [sent, List.drop_append_of_le_length processed]
  rfl

/--
Commands that the session sends, where all it awaits besides is answers to
them, and what they are to settle.
-/
theorem Agreed.send {world : World Text} {next : Conn Text}
    {commands : List Command} (agreed : Agreed world)
    (sent : next.sent = world.conn.sent ++ commands)
    (cmdId : world.conn.cmdId ≤ next.cmdId)
    (numbered : ∀ command ∈ commands, command.id ≤ next.cmdId)
    (named : ∀ command ∈ commands, ∀ asked ∈ order command,
      ∀ sid ∈ asked.handles, sid ∈ world.subscriptions.map Holding.handle)
    (pending : ∀ id ≤ world.conn.cmdId,
      next.session.pending[id]? = world.conn.session.pending[id]?)
    (awaited : ∀ command ∈ commands, ∀ channel tickers,
      order command = some (.create channel tickers) →
        ∀ sub ∈ next.session.pending[command.id]?, subChannel sub = channel)
    (sids : ∀ sub, sidOf next.session sub = sidOf world.conn.session sub)
    (phase : Unsubscribed { world with conn := next } ∨
      Upheld { world with conn := next }) :
    Agreed { world with conn := next } := by
  have queue := queue_of_sent agreed.processed sent
  constructor
  case processed =>
    show world.processed ≤ next.sent.length
    rw [sent, List.length_append]
    exact agreed.processed.trans (Nat.le_add_right _ _)
  case nodup => exact agreed.nodup
  case named =>
    rw [queue, List.filterMap_append]
    intro asked member
    rcases List.mem_append.mp member with old | new
    · exact agreed.named asked old
    · rcases List.mem_filterMap.mp new with ⟨command, member, isOrder⟩
      exact named command member asked isOrder
  case answered => exact agreed.answered
  case expected =>
    intro reply member
    show ∀ sub ∈ next.session.pending[reply.id]?, _
    rw [pending reply.id (agreed.repliesNumbered reply member)]
    exact agreed.expected reply member
  case queued =>
    rw [queue]
    intro command member channel tickers isOrder
    rcases List.mem_append.mp member with before | new
    · show ∀ sub ∈ next.session.pending[command.id]?, _
      rw [pending command.id (agreed.queueNumbered command before)]
      exact agreed.queued command before channel tickers isOrder
    · exact awaited command new channel tickers isOrder
  case repliesNumbered =>
    exact fun reply member => (agreed.repliesNumbered reply member).trans cmdId
  case queueNumbered =>
    rw [queue]
    intro command member
    rcases List.mem_append.mp member with before | new
    · exact (agreed.queueNumbered command before).trans cmdId
    · exact numbered command new
  case known =>
    intro sub sid isSid
    exact agreed.known sub sid ((sids sub).symm.trans isSid)
  case phase => exact phase

/-! ## The session subscribes -/

theorem ofList_toList (tickers : TickerSet) :
    (.ofList tickers.toList : TickerSet) = tickers := by
  apply Std.ExtTreeSet.ext_mem
  intro ticker
  simp [Std.ExtTreeSet.mem_ofList]

/-- The commands of the first subscribes of a session. -/
def subscribes (cmdId : Nat) (opened : TickerSet) : List Command :=
  [subscribeOrderbook (cmdId + 1) opened, subscribeTicker (cmdId + 2) opened]

theorem sent_subscribeMarkets (conn : Conn Text) (opened : TickerSet) :
    (conn.subscribeMarkets opened).sent =
      conn.sent ++ subscribes conn.cmdId opened := by
  show (conn.sent ++ _) ++ _ = conn.sent ++ subscribes conn.cmdId opened
  rw [List.append_assoc]
  rfl

/-- What the session awaits after the first subscribes. -/
theorem pending_subscribeMarkets (conn : Conn Text) (opened : TickerSet)
    (id : Nat) :
    (conn.subscribeMarkets opened).session.pending[id]? =
      if conn.cmdId + 2 = id then some .ticker
      else if conn.cmdId + 1 = id then some .orderbook
      else conn.session.pending[id]? := by
  show ((conn.session.pending.insert (conn.cmdId + 1) .orderbook).insert
    (conn.cmdId + 2) .ticker)[id]? = _
  simp only [Std.ExtTreeMap.getElem?_insert, compare_eq_iff_eq]

/-- The first subscribes of a session. -/
theorem Agreed.subscribe {world : World Text} (agreed : Agreed world)
    (nothing : ∀ sub, sub ≠ .index →
      world.settled sub = [] ∧ sidOf world.conn.session sub = none)
    (opened : TickerSet) :
    Agreed
      { world with
        conn :=
          { world.conn.subscribeMarkets opened with
            subscribed := opened } } := by
  let next : Conn Text :=
    { world.conn.subscribeMarkets opened with subscribed := opened }
  have sent : next.sent =
      world.conn.sent ++ subscribes world.conn.cmdId opened :=
    sent_subscribeMarkets world.conn opened
  have pending := pending_subscribeMarkets world.conn opened
  have forBook := pending (world.conn.cmdId + 1)
  have forTicker := pending (world.conn.cmdId + 2)
  rw [if_neg (by omega), if_pos rfl] at forBook
  rw [if_pos rfl] at forTicker
  show Agreed { world with conn := next }
  apply agreed.send sent
  case cmdId => exact Nat.le_add_right _ 2
  case numbered =>
    intro command member
    show command.id ≤ world.conn.cmdId + 2
    rcases List.mem_pair.mp member with rfl | rfl
    · exact Nat.le_succ _
    · exact Nat.le_refl _
  case named =>
    intro command member asked isOrder
    rcases List.mem_pair.mp member with rfl | rfl
    · cases isOrder
      exact fun sid named => absurd named List.not_mem_nil
    · cases isOrder
      exact fun sid named => absurd named List.not_mem_nil
  case pending =>
    intro id le
    show (world.conn.subscribeMarkets opened).session.pending[id]? = _
    rw [pending, if_neg (by omega), if_neg (by omega)]
  case awaited =>
    intro command member channel tickers isOrder sub awaited
    rcases List.mem_pair.mp member with rfl | rfl
    · cases isOrder
      cases forBook.symm.trans awaited
      rfl
    · cases isOrder
      cases forTicker.symm.trans awaited
      rfl
  case sids => exact fun sub => rfl
  case phase =>
    right
    intro sub perMarket
    have settled : World.settled { world with conn := next } sub =
        ((subscribes world.conn.cmdId opened).filterMap order).filterMap
          (Order.created (subChannel sub)) := by
      rw [World.settled, queue_of_sent agreed.processed sent,
        List.filterMap_append]
      exact settled_append_of_nil (nothing sub perMarket).1 _
    rw [settled]
    cases sub with
    | index => exact absurd rfl perMarket
    | orderbook =>
        refine ⟨?_, fun _ => ⟨world.conn.cmdId + 1, forBook⟩⟩
        show [(.ofList opened.toList : TickerSet)] = [opened]
        rw [ofList_toList]
    | ticker =>
        refine ⟨?_, fun _ => ⟨world.conn.cmdId + 2, forTicker⟩⟩
        show [(.ofList opened.toList : TickerSet)] = [opened]
        rw [ofList_toList]

/-! ## The session updates its subscriptions -/

/-- What the commands that update one subscription ask of Kalshi. -/
def updates (add del : TickerSet) (sid : UInt64) :
    List (Order String UInt64 TickerSet) :=
  (if add.isEmpty then []
    else [.change [sid] (updated "add_markets" add.toList)]) ++
  if del.isEmpty then []
  else [.change [sid] (updated "delete_markets" del.toList)]

/-- The task sends commands that ask `orders` and learns nothing. -/
structure Sends (conn next : Conn Text)
    (orders : List (Order String UInt64 TickerSet)) : Prop where
  sent : ∃ commands, next.sent = conn.sent ++ commands ∧
    commands.filterMap order = orders ∧
      ∀ command ∈ commands, command.id ≤ next.cmdId
  cmdId : conn.cmdId ≤ next.cmdId
  session : next.session = conn.session

theorem Sends.nothing (conn : Conn Text) : Sends conn conn [] :=
  ⟨⟨[], by simp, rfl, by simp⟩, Nat.le_refl _, rfl⟩

theorem Sends.trans {first second third : Conn Text}
    {orders more : List (Order String UInt64 TickerSet)}
    (before : Sends first second orders) (after : Sends second third more) :
    Sends first third (orders ++ more) := by
  rcases before.sent with ⟨commands, sent, asked, numbered⟩
  rcases after.sent with ⟨later, sentLater, askedLater, numberedLater⟩
  refine ⟨⟨commands ++ later, ?_, ?_, ?_⟩,
    before.cmdId.trans after.cmdId, after.session.trans before.session⟩
  · rw [sentLater, sent, List.append_assoc]
  · rw [List.filterMap_append, asked, askedLater]
  · intro command member
    rcases List.mem_append.mp member with old | new
    · exact (numbered command old).trans after.cmdId
    · exact numberedLater command new

theorem sends_sendCmd (conn : Conn Text) {build : Nat → Command}
    {asked : Order String UInt64 TickerSet}
    (isOrder : ∀ id, order (build id) = some asked)
    (numbered : ∀ id, (build id).id = id) :
    Sends conn (conn.sendCmd build) [asked] := by
  refine ⟨⟨[build (conn.cmdId + 1)], rfl, ?_, ?_⟩, Nat.le_succ _, rfl⟩
  · rw [List.filterMap_cons_some (isOrder _)]
    rfl
  · intro command member
    rw [List.mem_singleton.mp member, numbered]
    exact Nat.le_refl _

theorem sends_updateSid (conn : Conn Text) (add del : TickerSet)
    (sid : UInt64) :
    Sends conn (conn.updateSid add del sid) (updates add del sid) := by
  have part : ∀ (conn : Conn Text) (action : String) (tickers : TickerSet),
      Sends conn
        (if tickers.isEmpty then conn
          else conn.sendCmd fun id =>
            updateMarketsCmd id sid action tickers.toList)
        (if tickers.isEmpty then []
          else [.change [sid] (updated action tickers.toList)]) := by
    intro conn action tickers
    split
    · exact .nothing conn
    · exact sends_sendCmd conn (fun _ => rfl) (fun _ => rfl)
  exact (part conn "add_markets" add).trans (part _ "delete_markets" del)

/-- The tickers of an updated subscription. -/
theorem foldl_updates_self (add del : TickerSet) (sid : UInt64)
    (tickers : TickerSet) :
    (updates add del sid).foldl (Order.effect sid) tickers =
      (tickers ∪ add) \ del := by
  have added : ∀ tickers : TickerSet,
      (if add.isEmpty then []
        else [Order.change [sid] (updated "add_markets" add.toList)] :
          List (Order String UInt64 TickerSet)).foldl (Order.effect sid)
        tickers = tickers ∪ add := by
    intro tickers
    split
    next isEmpty =>
      rw [Std.ExtTreeSet.isEmpty_iff.mp isEmpty]
      apply Std.ExtTreeSet.ext_mem
      intro ticker
      simp [Std.ExtTreeSet.mem_union_iff]
    next =>
      show (if sid ∈ [sid] then _ else _) = _
      rw [if_pos (List.mem_singleton.mpr rfl)]
      show tickers ∪ .ofList add.toList = _
      rw [ofList_toList]
  have deleted : ∀ tickers : TickerSet,
      (if del.isEmpty then []
        else [Order.change [sid] (updated "delete_markets" del.toList)] :
          List (Order String UInt64 TickerSet)).foldl (Order.effect sid)
        tickers = tickers \ del := by
    intro tickers
    split
    next isEmpty =>
      rw [Std.ExtTreeSet.isEmpty_iff.mp isEmpty]
      apply Std.ExtTreeSet.ext_mem
      intro ticker
      simp [Std.ExtTreeSet.mem_diff_iff]
    next =>
      show (if sid ∈ [sid] then _ else _) = _
      rw [if_pos (List.mem_singleton.mpr rfl)]
      show tickers \ .ofList del.toList = _
      rw [ofList_toList]
  rw [updates, List.foldl_append, added, deleted]

theorem handles_updates {add del : TickerSet} {sid : UInt64}
    {asked : Order String UInt64 TickerSet}
    (member : asked ∈ updates add del sid) :
    ∃ f, asked = .change [sid] f := by
  rw [updates, List.mem_append] at member
  rcases member with added | deleted
  · split at added
    · cases added
    · exact ⟨_, List.mem_singleton.mp added⟩
  · split at deleted
    · cases deleted
    · exact ⟨_, List.mem_singleton.mp deleted⟩

/-- The update of one subscription is no business of another. -/
theorem foldl_updates_of_ne {sid other : UInt64} (distinct : sid ≠ other)
    (add del tickers : TickerSet) :
    (updates add del other).foldl (Order.effect sid) tickers = tickers := by
  apply Order.foldl_effect_of_notMem
  intro asked member named
  rcases handles_updates member with ⟨f, rfl⟩
  exact distinct (List.mem_singleton.mp named)

/-- The sets that a rotation takes the subscriptions to. -/
theorem union_diff_diff (opened subscribed : TickerSet) :
    (subscribed ∪ (opened \ subscribed)) \ (subscribed \ opened) =
      opened := by
  apply Std.ExtTreeSet.ext_mem
  intro ticker
  simp only [Std.ExtTreeSet.mem_diff_iff, Std.ExtTreeSet.mem_union_iff]
  by_cases old : ticker ∈ subscribed <;> by_cases new : ticker ∈ opened <;>
    simp [old, new]

theorem diff_self (tickers : TickerSet) : tickers \ tickers = ∅ := by
  apply Std.ExtTreeSet.ext_mem
  intro ticker
  simp [Std.ExtTreeSet.mem_diff_iff]

/-- Two sids that the task has learnt are the sids of two subscriptions. -/
theorem Agreed.distinct {world : World Text} (agreed : Agreed world)
    {first second : Sub} (other : first ≠ second) {sid sid' : UInt64}
    (isFirst : sidOf world.conn.session first = some sid)
    (isSecond : sidOf world.conn.session second = some sid') :
    sid ≠ sid' := by
  rintro rfl
  have labelFirst := agreed.known first sid isFirst
  have labelSecond := agreed.known second sid isSecond
  exact other (subChannel_injective
    (tag_unique agreed.nodup labelFirst labelSecond))

/-- The updates of a rotation, where both sids are known. -/
theorem Agreed.update {world : World Text} {next : Conn Text}
    (agreed : Agreed world)
    (single : ∀ sub, sub ≠ .index →
      world.settled sub = [world.conn.subscribed])
    {book ticker : UInt64}
    (isBook : sidOf world.conn.session .orderbook = some book)
    (isTicker : sidOf world.conn.session .ticker = some ticker)
    {add del : TickerSet}
    (sends : Sends world.conn next
      (updates add del book ++ updates add del ticker))
    (subscribed : next.subscribed = (world.conn.subscribed ∪ add) \ del) :
    Agreed { world with conn := next } := by
  rcases sends with ⟨⟨commands, sent, asked, numbered⟩, cmdId, session⟩
  have changes : ∀ command ∈ commands, ∀ first ∈ order command,
      ∃ sid f, first = .change [sid] f ∧ (sid = book ∨ sid = ticker) := by
    intro command member first isOrder
    have isAsked := List.mem_filterMap.mpr ⟨command, member, isOrder⟩
    rw [asked] at isAsked
    rcases List.mem_append.mp isAsked with forBook | forTicker
    · rcases handles_updates forBook with ⟨f, rfl⟩
      exact ⟨book, f, rfl, .inl rfl⟩
    · rcases handles_updates forTicker with ⟨f, rfl⟩
      exact ⟨ticker, f, rfl, .inr rfl⟩
  have distinct : book ≠ ticker :=
    agreed.distinct (by decide) isBook isTicker
  apply agreed.send sent cmdId numbered
  case named =>
    intro command member first isOrder
    rcases changes command member first isOrder with ⟨sid, f, rfl, isKnown⟩
    have label : ∃ channel, (sid, channel) ∈ labels world.subscriptions := by
      rcases isKnown with rfl | rfl
      · exact ⟨_, agreed.known _ _ isBook⟩
      · exact ⟨_, agreed.known _ _ isTicker⟩
    rcases label with ⟨channel, label⟩
    intro other named
    rw [List.mem_singleton.mp named, ← handles_labels]
    exact List.mem_map_of_mem label
  case pending =>
    intro id _
    rw [session]
  case awaited =>
    intro command member channel tickers isOrder
    rcases changes command member _ isOrder with ⟨sid, f, same, -⟩
    cases same
  case sids =>
    intro sub
    rw [session]
  case phase =>
    have settled : ∀ sub sid, sub ≠ .index →
        sidOf world.conn.session sub = some sid →
          World.settled { world with conn := next } sub =
            [(updates add del book ++ updates add del ticker).foldl
              (Order.effect sid) world.conn.subscribed] := by
      intro sub sid perMarket isSid
      rw [World.settled, queue_of_sent agreed.processed sent,
        List.filterMap_append, ← asked]
      apply settled_append_of_singleton (single sub perMarket)
        (agreed.known sub sid isSid)
      intro first member
      rcases List.mem_filterMap.mp member with ⟨command, member, isOrder⟩
      rcases changes command member first isOrder with ⟨sid, f, rfl, -⟩
      rfl
    right
    intro sub perMarket
    show _ = [next.subscribed] ∧ (sidOf next.session sub = none → _)
    rw [session, subscribed]
    cases sub with
    | index => exact absurd rfl perMarket
    | orderbook =>
        refine ⟨?_, fun unknown => by rw [isBook] at unknown; cases unknown⟩
        rw [settled .orderbook book perMarket isBook, List.foldl_append,
          foldl_updates_self, foldl_updates_of_ne distinct]
    | ticker =>
        refine ⟨?_, fun unknown => by rw [isTicker] at unknown; cases unknown⟩
        rw [settled .ticker ticker perMarket isTicker, List.foldl_append,
          foldl_updates_of_ne distinct.symm, foldl_updates_self]

/-! ## Polls -/

/-- Where no answer is outstanding, every sid is known. -/
theorem Upheld.sidOf_of_confirmed {world : World Text} (upheld : Upheld world)
    (confirmed : Confirmed world.conn.session) (sub : Sub)
    (perMarket : sub ≠ .index) :
    ∃ sid, sidOf world.conn.session sub = some sid := by
  cases found : sidOf world.conn.session sub with
  | some sid => exact ⟨sid, rfl⟩
  | none =>
      rcases (upheld sub perMarket).2 found with ⟨id, awaited⟩
      exact absurd (confirmed (id, sub)
        (Std.ExtTreeMap.mem_toList_iff_getElem?_eq_some.mpr awaited)) perMarket

/-- A rotation that knows of every subscription. -/
theorem Agreed.rotate {world : World Text} (agreed : Agreed world)
    (opened : TickerSet) (changed : opened ≠ world.conn.subscribed)
    (confirmed : Confirmed world.conn.session) :
    Agreed
      { world with
        conn := world.conn.rotate opened (opened \ world.conn.subscribed)
          (world.conn.subscribed \ opened) } := by
  rcases agreed.phase with ⟨nothing, unsubscribed⟩ | upheld
  · have noBook := (unsubscribed .orderbook (by decide)).2
    have noTicker := (unsubscribed .ticker (by decide)).2
    have isEmpty : world.conn.session.marketSids.isEmpty = true := by
      rw [Session.marketSids]
      simp [show world.conn.session.orderbookSid = none from noBook,
        show world.conn.session.tickerSid = none from noTicker]
    have occupied : ¬ opened.isEmpty = true := by
      intro isEmpty
      rw [nothing, Std.ExtTreeSet.isEmpty_iff.mp isEmpty] at changed
      exact changed rfl
    apply (agreed.subscribe unsubscribed opened).same
    rw [Conn.rotate, Conn.resubscribe, if_pos isEmpty, if_neg occupied]
    exact ⟨rfl, rfl, rfl, rfl, rfl, rfl⟩
  · rcases upheld.sidOf_of_confirmed confirmed .orderbook (by decide) with
      ⟨book, isBook⟩
    rcases upheld.sidOf_of_confirmed confirmed .ticker (by decide) with
      ⟨ticker, isTicker⟩
    have sids : world.conn.session.marketSids = [book, ticker] := by
      rw [Session.marketSids]
      simp [show world.conn.session.orderbookSid = some book from isBook,
        show world.conn.session.tickerSid = some ticker from isTicker]
    apply agreed.update (fun sub perMarket => (upheld sub perMarket).1)
      isBook isTicker
    · have sends := (sends_updateSid world.conn
        (opened \ world.conn.subscribed) (world.conn.subscribed \ opened)
        book).trans (sends_updateSid _ (opened \ world.conn.subscribed)
          (world.conn.subscribed \ opened) ticker)
      rw [Conn.rotate, Conn.resubscribe, if_neg (by simp [sids]), sids]
      exact ⟨sends.sent, sends.cmdId, sends.session⟩
    · rw [union_diff_diff]
      rfl

/-- A poll that finds the subscribed set, or one that can be patient. -/
theorem Agreed.refresh {world : World Text} (agreed : Agreed world)
    (markets : List OpenMarket)
    (patient : Conn.openTickers markets ≠ world.conn.subscribed →
      Confirmed world.conn.session) :
    Agreed { world with conn := world.conn.refresh markets } := by
  let conn : Conn Text :=
    { world.conn with
      session := world.conn.session.setMarkets markets
      output := world.conn.output.withStatus fun status =>
        { status with openMarkets := markets } }
  have same : Same world.conn conn := ⟨rfl, rfl, rfl, rfl, rfl, rfl⟩
  have agreed : Agreed { world with conn := conn } := agreed.same same
  unfold Conn.refresh
  dsimp only
  split
  · exact agreed
  next changed =>
    have differs : Conn.openTickers markets ≠ conn.subscribed := by
      intro unchanged
      apply changed
      show ((Conn.openTickers markets \ conn.subscribed).isEmpty &&
        (conn.subscribed \ Conn.openTickers markets).isEmpty) = true
      rw [unchanged, diff_self]
      rfl
    exact agreed.rotate (Conn.openTickers markets) differs (patient differs)

/-- One step of the session or of Kalshi. -/
theorem Agreed.step {readers : Readers Text} {world next : World Text}
    {action : Action Text} (agreed : Agreed world)
    (patient : Patient world action)
    (taken : Rotation.step readers world action = some next) :
    Agreed next := by
  cases action with
  | refresh markets =>
      rcases Option.map_eq_some_iff.mp taken with ⟨conn, refreshed, rfl⟩
      simp only [feedStep] at refreshed
      split at refreshed
      case isFalse => cases refreshed
      cases markets with
      | error e =>
          cases refreshed
          exact agreed
      | ok markets =>
          cases refreshed
          exact agreed.refresh markets patient
  | process sid => exact agreed.process taken
  | reply place moment text =>
      rw [Rotation.step] at taken
      split at taken
      · cases taken
      next reply isReply =>
        split at taken
        case isFalse => cases taken
        next isText =>
          rcases Option.map_eq_some_iff.mp taken with ⟨conn, read, rfl⟩
          exact agreed.reply isReply isText read
  | frame moment text =>
      rw [Rotation.step] at taken
      split at taken
      · cases taken
      next other =>
        rcases Option.map_eq_some_iff.mp taken with ⟨conn, read, rfl⟩
        exact agreed.same (same_of_frame (by simpa using other) read)

/-- A session up to its select loop. -/
theorem agreed_opened (conn : Conn Text) (markets : List OpenMarket) :
    Agreed (World.opened conn markets) := by
  let indexId := conn.output.shared.market.indexId
  let base : Conn Text :=
    { conn with
      session :=
        { Session.default with
          pending := (∅ : HashMap Nat Sub).insert 1 .index }
      cmdId := 1
      subscribed := ∅
      sent := [subscribeIndex 1 indexId] }
  have start : Agreed (⟨base, 0, [], []⟩ : World Text) := by
    constructor
    case processed => exact Nat.zero_le _
    case nodup => exact List.nodup_nil
    case named =>
      intro asked member
      have isOrder : asked = .create channelCf5hz ∅ :=
        List.mem_singleton.mp member
      rw [isOrder]
      exact fun sid named => absurd named List.not_mem_nil
    case answered => exact fun reply member => absurd member List.not_mem_nil
    case expected => exact fun reply member => absurd member List.not_mem_nil
    case queued =>
      intro command member channel tickers isOrder sub awaited
      rw [List.mem_singleton.mp member] at isOrder awaited
      cases isOrder
      have isIndex : ((∅ : HashMap Nat Sub).insert 1 .index)[1]? = some sub :=
        awaited
      rw [Std.ExtTreeMap.getElem?_insert_self] at isIndex
      cases isIndex
      rfl
    case repliesNumbered =>
      exact fun reply member => absurd member List.not_mem_nil
    case queueNumbered =>
      intro command member
      rw [List.mem_singleton.mp member]
      exact Nat.le_refl _
    case known =>
      intro sub sid found
      cases sub <;> cases found
    case phase =>
      left
      refine ⟨rfl, ?_⟩
      intro sub perMarket
      cases sub with
      | index => exact absurd rfl perMarket
      | orderbook => exact ⟨rfl, rfl⟩
      | ticker => exact ⟨rfl, rfl⟩
  show Agreed (⟨conn.connect (.ok markets), 0, [], []⟩ : World Text)
  unfold Conn.connect
  dsimp only
  split
  · exact start.same ⟨rfl, rfl, rfl, rfl, rfl, rfl⟩
  · have unsubscribed : ∀ sub, sub ≠ .index →
        World.settled (⟨base, 0, [], []⟩ : World Text) sub = [] ∧
          sidOf base.session sub = none := by
      intro sub perMarket
      cases sub with
      | index => exact absurd rfl perMarket
      | orderbook => exact ⟨rfl, rfl⟩
      | ticker => exact ⟨rfl, rfl⟩
    apply (start.subscribe unsubscribed (Conn.openTickers markets)).same
    exact ⟨rfl, rfl, rfl, rfl, rfl, rfl⟩

/-! ## Runs -/

theorem agreed_of_run {readers : Readers Text} {conn : Conn Text}
    {markets : List OpenMarket} {actions : List (Action Text)}
    {final : World Text}
    (reached : run (step readers) (World.opened conn markets) actions =
      some final)
    (patient : Guarded (step readers) Patient (World.opened conn markets)
      actions) :
    Agreed final :=
  invariant_of_guarded Agreed
    (fun _ _ _ agreed patient taken => agreed.step patient taken)
    (agreed_opened conn markets) patient reached

/-- A subscription has a ticker once for each settled set that has it. -/
theorem coverage_eq {world : World Text} (processed : world.queue = [])
    (sub : Sub) (ticker : String) :
    world.coverage (subChannel sub) ticker =
      ((world.settled sub).filter fun tickers => ticker ∈ tickers).length := by
  rw [World.settled, processed, List.filterMap_nil, settled_nil,
    List.filter_map, List.length_map, List.filter_filter, World.coverage]
  congr 1
  apply List.filter_congr
  intro subscription _
  simp [and_comm]

/-- The open markets that a session starts with. -/
def openA : List OpenMarket := [.named "A"]

/-- An answer of Kalshi's. -/
def subscribedReply (id sid : UInt64) (channel : String) : Value :=
  .object [("type", .string "subscribed"), ("id", .number (.posInt id)),
    ("msg", .object [("channel", .string channel),
      ("sid", .number (.posInt sid))])]

/-- A poll finds a new market once both sids are known. -/
def patientActions : List (Action Value) :=
  [.process 5, .process 6, .reply 0 .calm (subscribedReply 1 5 channelCf5hz),
    .process 7, .reply 1 .calm (subscribedReply 3 7 channelTicker),
    .reply 0 .calm (subscribedReply 2 6 channelOrderbook),
    .refresh (.ok [.named "A", .named "B"]), .process 0, .process 0]

/-- A poll finds a new market between the two per-market answers. -/
def hastyActions : List (Action Value) :=
  [.process 5, .process 6, .process 7,
    .reply 1 .calm (subscribedReply 2 6 channelOrderbook),
    .refresh (.ok [.named "A", .named "B"]), .process 0]

/--
In every run whose polls are patient, each per-market channel is subscribed
to exactly the open markets, each by one subscription, whenever Kalshi has
processed all commands.
-/
theorem coverage_of_patient (readers : Readers Text) (conn : Conn Text)
    (markets : List OpenMarket) (actions : List (Action Text))
    (final : World Text)
    (reached : run (step readers) (World.opened conn markets) actions =
      some final)
    (patient : Guarded (step readers) Patient (World.opened conn markets)
      actions)
    (processed : final.queue = []) :
    ∀ channel ∈ [channelOrderbook, channelTicker], ∀ ticker : String,
      final.coverage channel ticker =
        if ticker ∈ final.conn.subscribed then 1 else 0 := by
  have agreed := agreed_of_run reached patient
  have covers : ∀ sub, sub ≠ .index → ∀ ticker : String,
      final.coverage (subChannel sub) ticker =
        if ticker ∈ final.conn.subscribed then 1 else 0 := by
    intro sub perMarket ticker
    rw [coverage_eq processed]
    rcases agreed.phase with ⟨nothing, unsubscribed⟩ | upheld
    · rw [(unsubscribed sub perMarket).1, nothing]
      simp
    · rw [(upheld sub perMarket).1]
      by_cases subscribed : ticker ∈ final.conn.subscribed <;>
        simp [subscribed]
  intro channel member
  simp only [List.mem_cons, List.not_mem_nil, or_false] at member
  rcases member with rfl | rfl
  · exact covers .orderbook (by decide)
  · exact covers .ticker (by decide)

theorem coverage_patientActions :
    ∃ final,
      run (step .parsed) (World.opened (Conn.spawned btc15m none) openA)
          patientActions = some final ∧
        ∀ channel ∈ [channelOrderbook, channelTicker], ∀ ticker : String,
          final.coverage channel ticker =
            if ticker ∈ final.conn.subscribed then 1 else 0 := by
  have runs :
      (run (step .parsed) (World.opened (Conn.spawned btc15m none) openA)
        patientActions).map World.queue = some [] := by
    decide +kernel
  rcases Option.map_eq_some_iff.mp runs with ⟨final, reached, processed⟩
  refine ⟨final, reached, ?_⟩
  exact coverage_of_patient .parsed _ openA patientActions final reached
    (by decide +kernel) processed

/--
In `hastyActions` the update reaches the orderbook channel only, and the task
takes both channels for up to date.
-/
theorem coverage_hastyActions :
    ∃ final,
      run (step .parsed) (World.opened (Conn.spawned btc15m none) openA)
          hastyActions = some final ∧
        final.queue = [] ∧ "B" ∈ final.conn.subscribed ∧
          final.coverage channelOrderbook "B" = 1 ∧
          final.coverage channelTicker "B" = 0 := by
  have runs :
      (run (step .parsed) (World.opened (Conn.spawned btc15m none) openA)
        hastyActions).map (fun final => (final.queue,
          decide ("B" ∈ final.conn.subscribed),
          final.coverage channelOrderbook "B",
          final.coverage channelTicker "B")) = some ([], true, 1, 0) := by
    decide +kernel
  rcases Option.map_eq_some_iff.mp runs with ⟨final, reached, ends⟩
  simp only [Prod.mk.injEq] at ends
  rcases ends with ⟨processed, subscribed, book, ticker⟩
  exact ⟨final, reached, processed, of_decide_eq_true subscribed, book, ticker⟩

end ChudMoney.Feeds.Rotation
