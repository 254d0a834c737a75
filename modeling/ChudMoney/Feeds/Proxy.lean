import ChudMoney.Feeds.Frames
import ChudMoney.Kalshi.SnapshotFrame
import ChudMoney.Lib.Replica

/-!
# Proxy clients converge to the cached books

A proxy client subscribes to the orderbook broadcast, is handed the cached
books as snapshot frames and then every frame broadcast since it subscribed.
Frames, rotations and whole reconnects may fall between the two steps, so a
frame may be both in the preamble and in the stream.

The client is a replica of the cache: `view` reads books as the numbered values
of `Lib.Replica`, and what the task and the client do with a frame are its
`publish` and `receive`.
-/

namespace ChudMoney.Feeds.Proxy

open ChudMoney.Feeds.Frames
open ChudMoney.Feeds.Shared
open ChudMoney.Feeds.Task
open ChudMoney.Kalshi.Book
open ChudMoney.Kalshi.Client
open ChudMoney.Kalshi.Stream
open ChudMoney.Lib.Json
open ChudMoney.Lib.Ladder
open ChudMoney.Lib.Replica
open ChudMoney.Lib.Runs
open ChudMoney.Model

variable {Text : Type}

/-! ## The proxy -/

/-- A frame that a client is sent: one of the preamble, or a broadcast one. -/
inductive Message (Text : Type) where
  | replay (frame : Value)
  | live (text : Text)

/--
A proxy connection: the place of its receiver in the broadcast, and what it
has sent since the cache was read.
-/
structure Connection (Text : Type) where
  rx : Nat
  sent : Option (List (Message Text))

/-- `orderbook_tx.subscribe()`. -/
def subscribe (shared : FeedShared Text) : Connection Text :=
  ⟨shared.orderbookTx.length, none⟩

/-- The preamble; `order` is how the map of the cached books is iterated. -/
def preamble (order : List (String × OrderBook)) : List (Message Text) :=
  order.map fun entry => .replay (entry.2.snapshotFrame entry.1)

/-- The next frame of the broadcast, if there is one. -/
def recv (shared : FeedShared Text) (connection : Connection Text) :
    Option (Connection Text) :=
  match connection.sent, shared.orderbookTx[connection.rx]? with
  | some sent, some text =>
      some ⟨connection.rx + 1, some (sent ++ [.live text])⟩
  | _, _ => none

/-! ## The client -/

/-- The envelope of a frame, if it has one. -/
def Message.envelope (readers : Readers Text) : Message Text → Option Envelope
  | .replay frame => Envelope.deserialize frame
  | .live text => (readers.fromStr text).bind Envelope.deserialize

/--
What a client makes of an orderbook frame: it replaces a book on a snapshot
frame, and skips a delta whose `seq` is at or below that of its book.
-/
def handleFrame (books : HashMap String OrderBook) (isSnapshot : Bool)
    (env : Envelope) : HashMap String OrderBook :=
  match OrderbookMsg.deserialize env.msg with
  | none => books
  | some msg =>
      if isSnapshot then
        books.insert msg.marketTicker
          (OrderBook.default.applyMsg msg env.seq).1
      else
        match books[msg.marketTicker]? with
        | none => books
        | some book =>
            if env.seq ≤ book.seq then books
            else books.insert msg.marketTicker (book.applyMsg msg env.seq).1

def handleMessage (readers : Readers Text) (books : HashMap String OrderBook)
    (message : Message Text) : HashMap String OrderBook :=
  match (message.envelope readers).bind orderbookType with
  | none => books
  | some (isSnapshot, env) => handleFrame books isSnapshot env

/-- The books of a client that was sent these frames. -/
def clientBooks (readers : Readers Text) (sent : List (Message Text)) :
    HashMap String OrderBook :=
  sent.foldl (handleMessage readers) ∅

/-! ## The task and one proxy connection -/

/--
The state of the task, the `seq` of the newest orderbook frame of its session
and one proxy connection, if it has subscribed.
-/
structure World (Text : Type) where
  conn : Conn Text
  newest : Option UInt64
  proxy : Option (Connection Text)

def World.start (market : Market) (coinbase : Option CoinbaseFeedStatus) :
    World Text :=
  ⟨Conn.spawned market coinbase, none, none⟩

/-- The broadcast so far. -/
def World.orderbookTx (world : World Text) : List Text :=
  world.conn.output.shared.orderbookTx

/-- The cached books. -/
def World.books (world : World Text) : HashMap String OrderBook :=
  world.conn.output.shared.books

inductive Action (Text : Type) where
  | feed (event : FeedEvent Text)
  | subscribe
  | readCache (order : List (String × OrderBook))
  | recv

/-- The newest `seq` of the session after an event. -/
def newestAfter (readers : Readers Text) (newest : Option UInt64) :
    FeedEvent Text → Option UInt64
  | .connect _ => none
  | .text _ text =>
      match bookFrame readers text with
      | some (_, env) => some env.seq
      | none => newest
  | .refresh _ | .ended _ => newest

/-- One step of the task or of the proxy connection. -/
def step (readers : Readers Text) (world : World Text) :
    Action Text → Option (World Text)
  | .feed event =>
      (feedStep readers world.conn event).map fun conn =>
        { world with
          conn := conn
          newest := newestAfter readers world.newest event }
  | .subscribe =>
      match world.proxy with
      | none =>
          some { world with proxy := some (subscribe world.conn.output.shared) }
      | some _ => none
  | .readCache order =>
      match world.proxy with
      | some ⟨rx, none⟩ =>
          if order.Perm world.books.toList then
            some { world with proxy := some ⟨rx, some (preamble order)⟩ }
          else none
      | _ => none
  | .recv =>
      match world.proxy with
      | none => none
      | some connection =>
          (recv world.conn.output.shared connection).map fun connection =>
            { world with proxy := some connection }

/-! ## Well-formed frames -/

/--
A message with the payload of its frame's type: a snapshot has sides, and a
delta a side, a price and a size that parse.  Its prices have a decimal text.
-/
structure WellFormed (isSnapshot : Bool) (msg : OrderbookMsg) : Prop where
  shape : msg.isSnapshot = isSnapshot
  parts : isSnapshot = false → msg.deltaParts.isSome
  priced : msg.Priced

instance (isSnapshot : Bool) (msg : OrderbookMsg) :
    Decidable (WellFormed isSnapshot msg) :=
  decidable_of_iff
    (msg.isSnapshot = isSnapshot ∧
      (isSnapshot = false → msg.deltaParts.isSome) ∧ msg.Priced)
    ⟨fun all => ⟨all.1, all.2.1, all.2.2⟩,
      fun msg => ⟨msg.shape, msg.parts, msg.priced⟩⟩

/-- Every orderbook frame that a text may be has a well-formed message. -/
def WellFormedText (readers : Readers Text) (text : Text) : Prop :=
  ∀ frame ∈ bookFrame readers text,
    ∃ msg ∈ OrderbookMsg.deserialize frame.2.msg, WellFormed frame.1 msg

/--
What is assumed of Kalshi: orderbook frames are well formed, and their numbers
increase within a session.
-/
def Promised (readers : Readers Text) (world : World Text) :
    Action Text → Prop
  | .feed (.text _ text) =>
      WellFormedText readers text ∧
        ∀ frame ∈ bookFrame readers text, ∀ last ∈ world.newest,
          last < frame.2.seq
  | _ => True

instance (readers : Readers Text) (text : Text) :
    Decidable (WellFormedText readers text) :=
  inferInstanceAs (Decidable (∀ frame ∈ bookFrame readers text,
    ∃ msg ∈ OrderbookMsg.deserialize frame.2.msg, WellFormed frame.1 msg))

instance (readers : Readers Text) (world : World Text) :
    ∀ action, Decidable (Promised readers world action)
  | .feed (.text _ text) =>
      have newer : DecidablePred fun frame : Bool × Envelope =>
          ∀ last ∈ world.newest, last < frame.2.seq :=
        fun _ => Option.decidableForallMem world.newest
      have : Decidable (∀ frame ∈ bookFrame readers text,
          ∀ last ∈ world.newest, last < frame.2.seq) :=
        @Option.decidableForallMem _ _ newer _
      inferInstanceAs (Decidable (WellFormedText readers text ∧ _))
  | .feed (.connect _) | .feed (.refresh _) | .feed (.ended _)
  | .subscribe | .readCache _ | .recv => isTrue trivial

/-! ## Books as numbered ladders -/

abbrev Ladder := Depth (Side × Int64) Int64

/-- A level and what is added to its size. -/
abbrev Change := (Side × Int64) × Int64

def applyChange (ladder : Ladder) (change : Change) : Ladder :=
  bump ladder change.1 change.2

/-- The numbered ladder of each book. -/
def view (books : HashMap String OrderBook) : Store String Ladder Nat :=
  fun ticker => (books[ticker]?).map fun book => (book.seq.toNat, book.depth)

/-- A message as a numbered frame of its ticker. -/
def frame (isSnapshot : Bool) (seq : UInt64) (msg : OrderbookMsg) :
    Option (Frame String Ladder Change Nat) :=
  if isSnapshot then
    some ⟨msg.marketTicker, seq.toNat,
      .whole (OrderBook.default.applyMsg msg seq).1.depth⟩
  else
    msg.deltaParts.map fun parts =>
      ⟨msg.marketTicker, seq.toNat,
        .change ((parts.1, parts.2.1), parts.2.2)⟩

/-- A text as a numbered frame, if it is an orderbook frame. -/
def frameOf (readers : Readers Text) (text : Text) :
    Option (Frame String Ladder Change Nat) :=
  (bookFrame readers text).bind fun (isSnapshot, env) =>
    (OrderbookMsg.deserialize env.msg).bind (frame isSnapshot env.seq)

theorem view_apply (books : HashMap String OrderBook) (ticker : String) :
    view books ticker =
      (books[ticker]?).map fun book => (book.seq.toNat, book.depth) :=
  rfl

@[simp]
theorem view_empty : view ∅ = fun _ => none := by
  funext ticker
  simp [view_apply]

theorem view_insert (books : HashMap String OrderBook) (ticker : String)
    (book : OrderBook) :
    view (books.insert ticker book) =
      Function.update (view books) ticker
        (some (book.seq.toNat, book.depth)) := by
  funext other
  rw [view_apply, Std.ExtTreeMap.getElem?_insert]
  by_cases same : other = ticker
  · subst same
    simp
  · have distinct : ¬ ticker = other := Ne.symm same
    simp [same, distinct, view_apply]

/-- A book is held where its numbered ladder is. -/
theorem getElem?_of_view {books : HashMap String OrderBook}
    {ticker : String} {book : OrderBook}
    (same : view books ticker = some (book.seq.toNat, book.depth)) :
    books[ticker]? = some book := by
  rw [view_apply, Option.map_eq_some_iff] at same
  rcases same with ⟨other, held, both⟩
  rw [held]
  rw [Prod.mk.injEq] at both
  rw [OrderBook.ext_depth both.2 (UInt64.toNat_inj.mp both.1)]

/-- Entering what a ticker has already changes nothing. -/
theorem view_eq_update {books : HashMap String OrderBook} {ticker : String}
    {value : Option (Nat × Ladder)} (held : view books ticker = value) :
    view books = Function.update (view books) ticker value := by
  rw [← held, Function.update_eq_self]

/-! ## A frame is published by the cache and received by the client -/

section WellFormedFrame

variable {isSnapshot : Bool} {msg : OrderbookMsg}
variable (wellFormed : WellFormed isSnapshot msg) (seq : UInt64)

include wellFormed

/-- A well-formed message makes the same book of every book. -/
theorem applyMsg_of_snapshot (whole : isSnapshot = true) (book : OrderBook) :
    book.applyMsg msg seq = OrderBook.default.applyMsg msg seq := by
  have shape : msg.isSnapshot = true := wellFormed.shape.trans whole
  rw [OrderBook.applyMsg, if_pos shape, OrderBook.applyMsg, if_pos shape]
  rfl

theorem seq_applyMsg (book : OrderBook) :
    (book.applyMsg msg seq).1.seq = seq := by
  cases isSnapshot with
  | true =>
      rw [OrderBook.applyMsg_of_isSnapshot wellFormed.shape,
        OrderBook.seq_snapshot]
  | false =>
      rcases Option.isSome_iff_exists.mp (wellFormed.parts rfl) with
        ⟨⟨side, price, delta⟩, parts⟩
      rw [OrderBook.applyMsg_of_deltaParts wellFormed.shape parts,
        OrderBook.seq_applyDelta]

/-- What a well-formed message does, said of its numbered frame. -/
theorem exists_frame :
    ∃ told, frame isSnapshot seq msg = some told ∧
      told.key = msg.marketTicker ∧ told.number = seq.toNat ∧
      match told.payload with
      | .whole ladder =>
          isSnapshot = true ∧ ∀ book : OrderBook,
            (book.applyMsg msg seq).1.depth = ladder
      | .change change =>
          isSnapshot = false ∧ ∀ book : OrderBook,
            (book.applyMsg msg seq).1.depth =
              applyChange book.depth change := by
  cases isSnapshot with
  | true =>
      refine ⟨_, rfl, rfl, rfl, rfl, ?_⟩
      intro book
      rw [applyMsg_of_snapshot wellFormed seq rfl book]
  | false =>
      rcases Option.isSome_iff_exists.mp (wellFormed.parts rfl) with
        ⟨⟨side, price, delta⟩, parts⟩
      refine ⟨⟨msg.marketTicker, seq.toNat, .change ((side, price), delta)⟩,
        ?_, rfl, rfl, rfl, ?_⟩
      · rw [frame, parts]
        rfl
      · intro book
        rw [OrderBook.applyMsg_of_deltaParts wellFormed.shape parts,
          OrderBook.depth_applyDelta]
        rfl

/-- The cache publishes the frame. -/
theorem view_cacheMsg {told : Frame String Ladder Change Nat}
    (framed : frame isSnapshot seq msg = some told)
    (books : HashMap String OrderBook) :
    view (cacheMsg isSnapshot seq msg books) =
      publish applyChange (view books) told := by
  rcases exists_frame wellFormed seq with ⟨other, isFrame, key, number, does⟩
  rw [framed] at isFrame
  cases isFrame
  rw [publish, key, number, view_apply]
  cases payload : told.payload with
  | whole ladder =>
      simp only [payload] at does
      rcases does with ⟨rfl, does⟩
      rw [cacheMsg]
      cases held : books[msg.marketTicker]? with
      | some book =>
          show view (books.insert _ _) = _
          rw [view_insert, does, seq_applyMsg wellFormed]
      | none =>
          show view (books.insert _ _) = _
          rw [view_insert, does, seq_applyMsg wellFormed]
  | change change =>
      simp only [payload] at does
      rcases does with ⟨rfl, does⟩
      rw [cacheMsg]
      cases held : books[msg.marketTicker]? with
      | some book =>
          show view (books.insert _ _) = _
          rw [view_insert, does, seq_applyMsg wellFormed]
          rfl
      | none =>
          show view books = Function.update (view books) _ none
          apply view_eq_update
          rw [view_apply, held]
          rfl

/-- The client receives the frame. -/
theorem view_handleFrame {told : Frame String Ladder Change Nat}
    {env : Envelope} (framed : frame isSnapshot env.seq msg = some told)
    (found : OrderbookMsg.deserialize env.msg = some msg)
    (books : HashMap String OrderBook) :
    view (handleFrame books isSnapshot env) =
      receive applyChange (view books) told := by
  rcases exists_frame wellFormed env.seq with
    ⟨other, isFrame, key, number, does⟩
  rw [framed] at isFrame
  cases isFrame
  rw [receive, key, number, view_apply, handleFrame, found]
  dsimp only
  cases payload : told.payload with
  | whole ladder =>
      simp only [payload] at does
      rcases does with ⟨rfl, does⟩
      rw [if_pos rfl, view_insert, does, seq_applyMsg wellFormed]
  | change change =>
      simp only [payload] at does
      rcases does with ⟨rfl, does⟩
      rw [if_neg (by simp)]
      cases held : books[msg.marketTicker]? with
      | some book =>
          by_cases seen : env.seq ≤ book.seq
          · have seenNat : env.seq.toNat ≤ book.seq.toNat := seen
            simp only [Option.map_some, if_pos seen, if_pos seenNat]
            apply view_eq_update
            rw [view_apply, held]
            rfl
          · have unseenNat : ¬ env.seq.toNat ≤ book.seq.toNat := seen
            simp only [Option.map_some, if_neg seen, if_neg unseenNat]
            rw [view_insert, does, seq_applyMsg wellFormed]
      | none =>
          show view books = Function.update (view books) _ none
          apply view_eq_update
          rw [view_apply, held]
          rfl

end WellFormedFrame

/-! ## Texts -/

variable {readers : Readers Text}

/-- The message and the numbered frame of a well-formed orderbook frame. -/
theorem exists_frameOf {text : Text} (wellFormed : WellFormedText readers text)
    {isSnapshot : Bool} {env : Envelope}
    (framed : bookFrame readers text = some (isSnapshot, env)) :
    ∃ msg told, OrderbookMsg.deserialize env.msg = some msg ∧
      WellFormed isSnapshot msg ∧ frame isSnapshot env.seq msg = some told ∧
      frameOf readers text = some told := by
  rcases wellFormed _ framed with ⟨msg, found, wellFormed⟩
  rcases exists_frame wellFormed env.seq with ⟨told, isFrame, -⟩
  refine ⟨msg, told, found, wellFormed, isFrame, ?_⟩
  rw [frameOf, framed]
  show (OrderbookMsg.deserialize env.msg).bind _ = _
  have read : OrderbookMsg.deserialize env.msg = some msg := found
  rw [read]
  exact isFrame

/-- A client that handles a text has received the first of what it heard. -/
theorem foldl_receive_cons {text : Text}
    (wellFormed : WellFormedText readers text) (texts : List Text)
    (books : HashMap String OrderBook) :
    ((text :: texts).filterMap (frameOf readers)).foldl
        (receive applyChange) (view books) =
      (texts.filterMap (frameOf readers)).foldl (receive applyChange)
        (view (handleMessage readers books (.live text))) := by
  rw [List.filterMap_cons]
  cases framed : bookFrame readers text with
  | none =>
      have nothing : frameOf readers text = none := by
        rw [frameOf, framed]
        rfl
      have handled : handleMessage readers books (.live text) = books := by
        show (match bookFrame readers text with
          | none => books
          | some (isSnapshot, env) => handleFrame books isSnapshot env) = books
        rw [framed]
      rw [nothing, handled]
  | some both =>
      rcases both with ⟨isSnapshot, env⟩
      rcases exists_frameOf wellFormed framed with
        ⟨msg, told, found, wellFormed, isFrame, told_eq⟩
      have handled : handleMessage readers books (.live text) =
          handleFrame books isSnapshot env := by
        show (match bookFrame readers text with
          | none => books
          | some (isSnapshot, env) => handleFrame books isSnapshot env) = _
        rw [framed]
      rw [told_eq, handled, view_handleFrame wellFormed isFrame found]
      rfl

/-! ## The preamble -/

/-- A client that is handed a book has it. -/
theorem handleMessage_replay {book : OrderBook} (printable : book.Printable)
    (ticker : String) (books : HashMap String OrderBook) :
    handleMessage readers books (.replay (book.snapshotFrame ticker)) =
      books.insert ticker book := by
  rcases deserialize_snapshotFrame book ticker with
    ⟨env, read, typ, seq, found⟩
  have typed : (Message.envelope readers
      (.replay (book.snapshotFrame ticker))).bind orderbookType =
        some (true, env) := by
    show (Envelope.deserialize (book.snapshotFrame ticker)).bind _ = _
    rw [read, Option.bind_some, orderbookType, if_pos typ]
  rw [handleMessage, typed]
  show handleFrame books true env = _
  rw [handleFrame, found, seq]
  show books.insert ticker _ = _
  rw [applyMsg_snapshotMsg printable ticker OrderBook.default]

/-- Entering entries of a map in any order gives the map on their keys. -/
theorem getElem?_foldl_insert {books : HashMap String OrderBook}
    (order : List (String × OrderBook))
    (held : ∀ entry ∈ order, books[entry.1]? = some entry.2)
    (start : HashMap String OrderBook) (ticker : String) :
    (order.foldl (fun books entry => books.insert entry.1 entry.2)
        start)[ticker]? =
      if ticker ∈ order.map Prod.fst then books[ticker]?
      else start[ticker]? := by
  induction order generalizing start with
  | nil => simp
  | cons entry order ih =>
      have first := held entry List.mem_cons_self
      rw [List.foldl_cons, ih fun other member =>
        held other (List.mem_cons_of_mem _ member)]
      rw [List.map_cons, Std.ExtTreeMap.getElem?_insert]
      by_cases same : ticker = entry.1
      · simp [same, first]
      · have distinct : ¬ compare entry.1 ticker = .eq := by
          simpa using Ne.symm same
        simp only [List.mem_cons, same, false_or, if_neg distinct]

/-- A preamble hands over the cached books, in whichever order. -/
theorem clientBooks_preamble {books : HashMap String OrderBook}
    {order : List (String × OrderBook)} (perm : order.Perm books.toList)
    (printable : ∀ (ticker : String) (book : OrderBook),
      books[ticker]? = some book → book.Printable) :
    clientBooks readers (preamble order) = books := by
  have held : ∀ entry ∈ order, books[entry.1]? = some entry.2 := by
    intro entry member
    exact Std.ExtTreeMap.mem_toList_iff_getElem?_eq_some.mp
      (perm.mem_iff.mp member)
  have entered : ∀ (part : List (String × OrderBook)) start,
      (∀ entry ∈ part, books[entry.1]? = some entry.2) →
        (part.map fun entry =>
            Message.replay (entry.2.snapshotFrame entry.1)).foldl
            (handleMessage readers) start =
          part.foldl (fun books entry => books.insert entry.1 entry.2)
            start := by
    intro part
    induction part with
    | nil => exact fun _ _ => rfl
    | cons entry part ih =>
        intro start held
        have first := held entry List.mem_cons_self
        rw [List.map_cons, List.foldl_cons, List.foldl_cons,
          handleMessage_replay (printable _ _ first)]
        exact ih _ fun other member =>
          held other (List.mem_cons_of_mem _ member)
  apply Std.ExtTreeMap.ext_getElem?
  intro ticker
  rw [clientBooks, preamble, entered order ∅ held,
    getElem?_foldl_insert order held]
  split
  · rfl
  next absent =>
    rw [Std.ExtTreeMap.getElem?_empty]
    cases cached : books[ticker]? with
    | none => rfl
    | some book =>
        have member : (ticker, book) ∈ order := perm.mem_iff.mpr
          (Std.ExtTreeMap.mem_toList_iff_getElem?_eq_some.mpr cached)
        exact absurd (List.mem_map_of_mem member) absent

/-! ## What a step does to the cache -/

/-- A book that a message leaves cached is an old one or the message's. -/
theorem getElem?_cacheMsg {isSnapshot : Bool} {seq : UInt64}
    {msg : OrderbookMsg} {books : HashMap String OrderBook} {ticker : String}
    {book : OrderBook}
    (held : (cacheMsg isSnapshot seq msg books)[ticker]? = some book) :
    books[ticker]? = some book ∨
      ∃ before, (before = OrderBook.default ∨
          books[msg.marketTicker]? = some before) ∧
        book = (before.applyMsg msg seq).1 := by
  rw [cacheMsg] at held
  split at held
  next before was =>
    rw [Std.ExtTreeMap.getElem?_insert] at held
    split at held
    · exact .inr ⟨before, .inr was, (Option.some.inj held).symm⟩
    · exact .inl held
  next =>
    split at held
    · rw [Std.ExtTreeMap.getElem?_insert] at held
      split at held
      · exact .inr ⟨_, .inl rfl, (Option.some.inj held).symm⟩
      · exact .inl held
    · exact .inl held

/-- What the proxy hears of the broadcast from its receiver on. -/
def heard (readers : Readers Text) (tx : List Text) (rx : Nat) :
    List (Frame String Ladder Change Nat) :=
  (tx.drop rx).filterMap (frameOf readers)

theorem heard_append {tx : List Text} {rx : Nat} (le : rx ≤ tx.length)
    {text : Text} {told : Frame String Ladder Change Nat}
    (tells : frameOf readers text = some told) :
    heard readers (tx ++ [text]) rx = heard readers tx rx ++ [told] := by
  rw [heard, List.drop_append_of_le_length le, List.filterMap_append, heard]
  simp [tells]

/-- What a proxy that has subscribed may count on. -/
def Following (readers : Readers Text) (books : HashMap String OrderBook)
    (tx : List Text) : Option (Connection Text) → Prop
  | none => True
  | some ⟨rx, none⟩ =>
      rx ≤ tx.length ∧
        ∀ ticker value, view books ticker = some value →
          Covered applyChange (heard readers tx rx) ticker value
  | some ⟨rx, some sent⟩ =>
      rx ≤ tx.length ∧
        Holds (view books)
          ((heard readers tx rx).foldl (receive applyChange)
            (view (clientBooks readers sent)))

/-- Forgetting books asks nothing of the proxy. -/
theorem Following.forget {books fewer : HashMap String OrderBook}
    {tx : List Text} {proxy : Option (Connection Text)}
    (following : Following readers books tx proxy)
    (forgets : ∀ ticker : String,
      fewer[ticker]? = none ∨ fewer[ticker]? = books[ticker]?) :
    Following readers fewer tx proxy := by
  have gone : ∀ ticker,
      view fewer ticker = none ∨ view fewer ticker = view books ticker := by
    intro ticker
    rcases forgets ticker with nothing | same
    · left
      rw [view_apply, nothing]
      rfl
    · right
      rw [view_apply, same]
      rfl
  match proxy, following with
  | none, _ => trivial
  | some ⟨rx, none⟩, ⟨le, covered⟩ =>
      refine ⟨le, ?_⟩
      intro ticker value kept
      rcases gone ticker with nothing | same
      · rw [nothing] at kept
        cases kept
      · exact covered ticker value (same ▸ kept)
  | some ⟨rx, some sent⟩, ⟨le, holds⟩ => exact ⟨le, holds.forget gone⟩

/-- A frame that is published and broadcast reaches the proxy. -/
theorem Following.publish {books after : HashMap String OrderBook}
    {tx : List Text} {proxy : Option (Connection Text)}
    (following : Following readers books tx proxy) {text : Text}
    {told : Frame String Ladder Change Nat}
    (tells : frameOf readers text = some told)
    (published : view after =
      Lib.Replica.publish applyChange (view books) told)
    (newer : Newer (view books) told) :
    Following readers after (tx ++ [text]) proxy := by
  have longer : tx.length ≤ (tx ++ [text]).length := by simp
  match proxy, following with
  | none, _ => trivial
  | some ⟨rx, none⟩, ⟨le, covered⟩ =>
      refine ⟨le.trans longer, ?_⟩
      intro ticker value kept
      rw [heard_append le tells]
      exact Covered.after_publish newer (covered ticker) (published ▸ kept)
  | some ⟨rx, some sent⟩, ⟨le, holds⟩ =>
      refine ⟨le.trans longer, ?_⟩
      rw [heard_append le tells, List.foldl_append, published]
      exact holds.after_publish newer

/-- What holds in every state of a run whose frames are as promised. -/
structure Consistent (readers : Readers Text) (world : World Text) :
    Prop where
  wellFormed : ∀ text ∈ world.orderbookTx, WellFormedText readers text
  printable : ∀ (ticker : String) (book : OrderBook),
    world.books[ticker]? = some book → book.Printable
  numbered : ∀ (ticker : String) (book : OrderBook),
    world.books[ticker]? = some book →
      ∃ last ∈ world.newest, book.seq ≤ last
  following : Following readers world.books world.orderbookTx world.proxy

theorem consistent_start (market : Market)
    (coinbase : Option CoinbaseFeedStatus) :
    Consistent readers (World.start market coinbase : World Text) := by
  constructor
  · intro text member
    exact absurd member List.not_mem_nil
  · intro ticker book held
    simp [World.books, World.start, Conn.spawned] at held
  · intro ticker book held
    simp [World.books, World.start, Conn.spawned] at held
  · trivial

/-! ## Steps -/

/-- A number seen stays at or below the newest one. -/
theorem exists_newestAfter {world : World Text} {moment : Moment} {text : Text}
    (promised : Promised readers world (.feed (.text moment text)))
    {seq : UInt64} (seen : ∃ last ∈ world.newest, seq ≤ last) :
    ∃ last ∈ newestAfter readers world.newest (.text moment text),
      seq ≤ last := by
  rw [newestAfter]
  cases framed : bookFrame readers text with
  | none => exact seen
  | some frame =>
      rcases seen with ⟨last, isNewest, le⟩
      have above := promised.2 frame framed last isNewest
      exact ⟨frame.2.seq, rfl, UInt64.le_of_lt (UInt64.lt_of_le_of_lt le above)⟩

/-- A step of the task that only forgets books. -/
theorem Consistent.fewer {world : World Text} {conn : Conn Text}
    {newest : Option UInt64} (consistent : Consistent readers world)
    (tx : conn.output.shared.orderbookTx = world.orderbookTx)
    (forgets : ∀ ticker : String,
      conn.output.shared.books[ticker]? = none ∨
        conn.output.shared.books[ticker]? = world.books[ticker]?)
    (numbered : ∀ (ticker : String) (book : OrderBook),
      conn.output.shared.books[ticker]? = some book →
        ∃ last ∈ newest, book.seq ≤ last) :
    Consistent readers { world with conn := conn, newest := newest } := by
  have kept : ∀ (ticker : String) (book : OrderBook),
      conn.output.shared.books[ticker]? = some book →
        world.books[ticker]? = some book := by
    intro ticker book held
    rcases forgets ticker with nothing | same
    · rw [nothing] at held
      cases held
    · exact same ▸ held
  constructor
  · show ∀ text ∈ conn.output.shared.orderbookTx, _
    rw [tx]
    exact consistent.wellFormed
  · intro ticker book held
    exact consistent.printable ticker book (kept ticker book held)
  · exact numbered
  · show Following readers conn.output.shared.books
      conn.output.shared.orderbookTx world.proxy
    rw [tx]
    exact consistent.following.forget forgets

/-- A frame that is applied and broadcast. -/
theorem Consistent.framed {world : World Text} {conn : Conn Text}
    {moment : Moment} {text : Text} (consistent : Consistent readers world)
    (promised : Promised readers world (.feed (.text moment text)))
    {isSnapshot : Bool} {env : Envelope}
    (framed : bookFrame readers text = some (isSnapshot, env))
    (books : conn.output.shared.books =
      framedBooks isSnapshot env world.books)
    (tx : conn.output.shared.orderbookTx = world.orderbookTx ++ [text]) :
    Consistent readers
      { world with
        conn := conn
        newest := newestAfter readers world.newest (.text moment text) } := by
  have newest : newestAfter readers world.newest (.text moment text) =
      some env.seq := by
    rw [newestAfter, framed]
  rcases exists_frameOf promised.1 framed with
    ⟨msg, told, found, wellFormed, isFrame, tells⟩
  have cached : conn.output.shared.books =
      cacheMsg isSnapshot env.seq msg world.books := by
    rw [books, framedBooks, found]
  constructor
  · show ∀ text ∈ conn.output.shared.orderbookTx, _
    rw [tx]
    intro other member
    rcases List.mem_append.mp member with old | new
    · exact consistent.wellFormed other old
    · rw [List.mem_singleton.mp new]
      exact promised.1
  · intro ticker book held
    have held : (cacheMsg isSnapshot env.seq msg world.books)[ticker]? =
        some book := cached ▸ held
    rcases getElem?_cacheMsg held with old | ⟨before, was, rfl⟩
    · exact consistent.printable ticker book old
    · apply printable_applyMsg _ wellFormed.priced
      rcases was with rfl | was
      · exact printable_default
      · exact consistent.printable _ _ was
  · intro ticker book held
    have held : (cacheMsg isSnapshot env.seq msg world.books)[ticker]? =
        some book := cached ▸ held
    rcases getElem?_cacheMsg held with old | ⟨before, was, rfl⟩
    · exact exists_newestAfter promised (consistent.numbered ticker book old)
    · refine ⟨env.seq, newest, ?_⟩
      rw [seq_applyMsg wellFormed]
      exact UInt64.le_refl _
  · show Following readers conn.output.shared.books
      conn.output.shared.orderbookTx world.proxy
    rw [tx]
    apply consistent.following.publish tells
    · rw [cached]
      exact view_cacheMsg wellFormed env.seq isFrame world.books
    · intro ticker value held
      rw [view_apply, Option.map_eq_some_iff] at held
      rcases held with ⟨book, held, rfl⟩
      rcases consistent.numbered ticker book held with ⟨last, isNewest, le⟩
      have above := promised.2 _ framed last isNewest
      rcases exists_frame wellFormed env.seq with ⟨other, same, -, number, -⟩
      rw [isFrame] at same
      cases same
      rw [number]
      exact UInt64.lt_of_le_of_lt le above

/-- One step of the task. -/
theorem Consistent.feed {world : World Text} {conn : Conn Text}
    {event : FeedEvent Text} (consistent : Consistent readers world)
    (promised : Promised readers world (.feed event))
    (taken : feedStep readers world.conn event = some conn) :
    Consistent readers
      { world with
        conn := conn
        newest := newestAfter readers world.newest event } := by
  cases event with
  | text moment text =>
      rcases feedStep_text_cases taken with
        ⟨books, tx⟩ | ⟨isSnapshot, env, framed, books, tx⟩
      · apply consistent.fewer tx
        · intro ticker
          rw [books]
          exact .inr rfl
        · intro ticker book held
          rw [books] at held
          exact exists_newestAfter promised
            (consistent.numbered ticker book held)
      · exact consistent.framed promised framed books tx
  | ended outcome =>
      cases taken
      exact consistent.fewer rfl (fun _ => .inr rfl) consistent.numbered
  | connect markets =>
      rw [feedStep] at taken
      split at taken
      · cases taken
      cases taken
      apply consistent.fewer (orderbookTx_connect _ _)
      · intro ticker
        rw [books_connect]
        exact .inl Std.ExtTreeMap.getElem?_empty
      · intro ticker book held
        rw [books_connect] at held
        simp at held
  | refresh markets =>
      simp only [feedStep] at taken
      split at taken
      case isFalse => cases taken
      cases markets with
      | error e =>
          cases taken
          exact consistent.fewer rfl (fun _ => .inr rfl) consistent.numbered
      | ok markets =>
          cases taken
          have forgets : ∀ ticker : String,
              (world.conn.refresh markets).output.shared.books[ticker]? =
                  none ∨
                (world.conn.refresh markets).output.shared.books[ticker]? =
                  world.books[ticker]? := by
            intro ticker
            rw [getElem?_books_refresh]
            split
            · exact .inl rfl
            · exact .inr rfl
          apply consistent.fewer (orderbookTx_refresh _ _) forgets
          intro ticker book held
          rcases forgets ticker with nothing | same
          · rw [nothing] at held
            cases held
          · exact consistent.numbered ticker book (same ▸ held)

/-- The place of a frame that the proxy has received. -/
theorem recv_cases {shared : FeedShared Text} {before after : Connection Text}
    (taken : recv shared before = some after) :
    ∃ rx sent text, before = ⟨rx, some sent⟩ ∧
      shared.orderbookTx[rx]? = some text ∧
      after = ⟨rx + 1, some (sent ++ [.live text])⟩ := by
  rcases before with ⟨rx, sent⟩
  rw [recv] at taken
  split at taken
  next sent text isSent isText =>
    cases taken
    exact ⟨rx, sent, text, by rw [← isSent], isText, rfl⟩
  next => cases taken

/-- What is heard at a place is the text there and what is heard after it. -/
theorem heard_of_getElem? {tx : List Text} {rx : Nat} {text : Text}
    (isText : tx[rx]? = some text) (wellFormed : WellFormedText readers text)
    (sent : List (Message Text)) :
    rx + 1 ≤ tx.length ∧
      (heard readers tx rx).foldl (receive applyChange)
          (view (clientBooks readers sent)) =
        (heard readers tx (rx + 1)).foldl (receive applyChange)
          (view (clientBooks readers (sent ++ [.live text]))) := by
  rcases List.getElem?_eq_some_iff.mp isText with ⟨bound, isText⟩
  refine ⟨bound, ?_⟩
  rw [heard, List.drop_eq_getElem_cons bound, isText,
    foldl_receive_cons wellFormed, heard]
  rw [clientBooks, clientBooks, List.foldl_append]
  rfl

/-- One step of the task or of the proxy. -/
theorem Consistent.step {world next : World Text} {action : Action Text}
    (consistent : Consistent readers world)
    (promised : Promised readers world action)
    (taken : Proxy.step readers world action = some next) :
    Consistent readers next := by
  rcases consistent with ⟨wellFormed, printable, numbered, following⟩
  cases action with
  | feed event =>
      rcases Option.map_eq_some_iff.mp taken with ⟨conn, fed, rfl⟩
      exact Consistent.feed ⟨wellFormed, printable, numbered, following⟩
        promised fed
  | subscribe =>
      rw [Proxy.step] at taken
      split at taken
      case h_2 => cases taken
      cases taken
      refine ⟨wellFormed, printable, numbered, Nat.le_refl _, ?_⟩
      intro ticker value held
      left
      intro frame member
      have nothing : heard readers world.orderbookTx
          world.orderbookTx.length = [] := by
        rw [heard, List.drop_length]
        rfl
      have member : frame ∈ heard readers world.orderbookTx
          world.orderbookTx.length := member
      rw [nothing] at member
      cases member
  | readCache order =>
      rw [Proxy.step] at taken
      split at taken
      case h_2 => cases taken
      next rx waiting =>
        split at taken
        case isFalse => cases taken
        next perm =>
          cases taken
          rw [waiting] at following
          refine ⟨wellFormed, printable, numbered, following.1, ?_⟩
          rw [clientBooks_preamble perm printable]
          exact holds_of_covered following.2
  | recv =>
      rw [Proxy.step] at taken
      split at taken
      · cases taken
      next connection isProxy =>
        rcases Option.map_eq_some_iff.mp taken with ⟨after, received, rfl⟩
        rcases recv_cases received with ⟨rx, sent, text, rfl, isText, rfl⟩
        rw [isProxy] at following
        have member : text ∈ world.orderbookTx := List.mem_of_getElem? isText
        rcases heard_of_getElem? isText (wellFormed text member) sent with
          ⟨bound, heard_eq⟩
        refine ⟨wellFormed, printable, numbered, bound, ?_⟩
        show Holds (view world.books)
          ((heard readers world.conn.output.shared.orderbookTx
            (rx + 1)).foldl _ _)
        rw [← heard_eq]
        exact following.2

theorem consistent_of_run {market : Market}
    {coinbase : Option CoinbaseFeedStatus} {actions : List (Action Text)}
    {final : World Text}
    (reached : run (step readers) (World.start market coinbase) actions =
      some final)
    (promised : Guarded (step readers) (Promised readers)
      (World.start market coinbase) actions) :
    Consistent readers final :=
  invariant_of_guarded (Consistent readers)
    (fun _ _ _ consistent promised taken => consistent.step promised taken)
    (consistent_start market coinbase) promised reached

/-! ## A client catches up -/

/-- A broadcast is only ever appended to. -/
theorem orderbookTx_feedStep {conn next : Conn Text} {event : FeedEvent Text}
    (taken : feedStep readers conn event = some next) :
    conn.output.shared.orderbookTx <+: next.output.shared.orderbookTx := by
  cases event with
  | text moment text =>
      rcases feedStep_text_cases taken with
        ⟨-, tx⟩ | ⟨_, _, -, -, tx⟩
      · simp only [tx, List.prefix_rfl]
      · rw [tx]
        exact List.prefix_append _ _
  | ended outcome =>
      cases taken
      exact List.prefix_rfl
  | connect markets =>
      rw [feedStep] at taken
      split at taken
      · cases taken
      cases taken
      simp only [orderbookTx_connect, List.prefix_rfl]
  | refresh markets =>
      simp only [feedStep] at taken
      split at taken
      case isFalse => cases taken
      cases markets with
      | error e =>
          cases taken
          exact List.prefix_rfl
      | ok markets =>
          cases taken
          simp only [orderbookTx_refresh, List.prefix_rfl]

/--
A client of the proxy that will hold `books` once it has handled what is left
for it of the broadcast `tx`.
-/
structure CatchesUp (readers : Readers Text)
    (books : HashMap String OrderBook) (tx : List Text)
    (world : World Text) : Prop where
  broadcast : tx <+: world.orderbookTx
  proxy : ∃ rx sent, world.proxy = some ⟨rx, some sent⟩ ∧
    (rx ≤ tx.length →
      Holds (view books)
        ((heard readers tx rx).foldl (receive applyChange)
          (view (clientBooks readers sent))))

theorem CatchesUp.step {books : HashMap String OrderBook} {tx : List Text}
    {world next : World Text} {action : Action Text}
    (wellFormed : ∀ text ∈ tx, WellFormedText readers text)
    (catches : CatchesUp readers books tx world)
    (taken : Proxy.step readers world action = some next) :
    CatchesUp readers books tx next := by
  rcases catches with ⟨broadcast, rx, sent, isProxy, holds⟩
  cases action with
  | feed event =>
      rcases Option.map_eq_some_iff.mp taken with ⟨conn, fed, rfl⟩
      exact ⟨broadcast.trans (orderbookTx_feedStep fed),
        rx, sent, isProxy, holds⟩
  | subscribe =>
      rw [Proxy.step, isProxy] at taken
      cases taken
  | readCache order =>
      rw [Proxy.step, isProxy] at taken
      cases taken
  | recv =>
      rw [Proxy.step, isProxy] at taken
      rcases Option.map_eq_some_iff.mp taken with ⟨after, received, rfl⟩
      rcases recv_cases received with ⟨place, told, text, same, isText, rfl⟩
      cases same
      refine ⟨broadcast, rx + 1, sent ++ [.live text], rfl, ?_⟩
      intro bound
      have inside : tx[rx]? = some text := by
        rcases broadcast with ⟨later, longer⟩
        have isText : world.orderbookTx[rx]? = some text := isText
        rw [← longer, List.getElem?_append_left bound] at isText
        exact isText
      have member : text ∈ tx := List.mem_of_getElem? inside
      rw [← (heard_of_getElem? inside (wellFormed text member) sent).2]
      exact holds (Nat.le_of_succ_le bound)

/-- A market whose session restarts while a proxy joins. -/
def joiningActions : List (Action Value) :=
  [.feed (.connect (.ok [.named "T"])),
    .feed (.text .calm (dataFrame "orderbook_snapshot" 7 1
      (bookMsg "T" [("yes", wholeLevels [(47, 120)])]))),
    .subscribe,
    .feed (.text .calm (dataFrame "orderbook_delta" 7 2
      (bookMsg "T" [("side", .string "yes"), ("price_dollars", .string "0.4700"),
        ("delta_fp", .string "5.00")]))),
    .feed (.ended (.ok ())),
    .feed (.connect (.ok [.named "T"])),
    .feed (.text .calm (dataFrame "orderbook_snapshot" 3 1
      (bookMsg "T" [("yes", wholeLevels [(47, 80)])]))),
    .readCache [("T", OrderBook.default.snapshot [(4700, 8000)] [] 1)],
    .feed (.text .calm (dataFrame "orderbook_delta" 3 2
      (bookMsg "T" [("side", .string "no"), ("price_dollars", .string "0.5210"),
        ("delta_fp", .string "3.50")])))]

/--
Once a client has handled every frame broadcast up to some point after the
cache was read for it, it holds every book that was cached at that point.
-/
theorem client_converges (readers : Readers Text) (market : Market)
    (coinbase : Option CoinbaseFeedStatus) (before after : List (Action Text))
    (point final : World Text)
    (reached : run (step readers) (World.start market coinbase) before =
      some point)
    (promised : Guarded (step readers) (Promised readers)
      (World.start market coinbase) before)
    (rx : Nat) (sent sent' : List (Message Text))
    (joined : point.proxy = some ⟨rx, some sent⟩)
    (continued : run (step readers) point after = some final)
    (received : final.proxy = some ⟨point.orderbookTx.length, some sent'⟩) :
    ∀ (ticker : String) (book : OrderBook),
      point.books[ticker]? = some book →
        (clientBooks readers sent')[ticker]? = some book := by
  have consistent := consistent_of_run reached promised
  have start : CatchesUp readers point.books point.orderbookTx point := by
    refine ⟨List.prefix_rfl, rx, sent, joined, fun _ => ?_⟩
    have following := consistent.following
    rw [joined] at following
    exact following.2
  have caughtUp :
      CatchesUp readers point.books point.orderbookTx final :=
    invariant_of_run _
      (fun _ _ _ catches taken => catches.step consistent.wellFormed taken)
      start continued
  rcases caughtUp.proxy with ⟨place, told, isProxy, holds⟩
  rw [received] at isProxy
  cases isProxy
  have holds := holds (Nat.le_refl _)
  have nothing : heard readers point.orderbookTx
      point.orderbookTx.length = [] := by
    rw [heard, List.drop_length]
    rfl
  rw [nothing] at holds
  intro ticker book held
  apply getElem?_of_view
  apply holds
  rw [view_apply, held]
  rfl

/-- The proxy has joined and its receiver is at `place`. -/
def Connection.joinedAt (place : Nat) : Option (Connection Text) → Bool
  | some ⟨rx, some _⟩ => rx == place
  | _ => false

theorem Connection.exists_of_joinedAt {place : Nat}
    {proxy : Option (Connection Text)}
    (joined : Connection.joinedAt place proxy = true) :
    ∃ sent, proxy = some ⟨place, some sent⟩ := by
  match proxy, joined with
  | some ⟨rx, some sent⟩, joined =>
      have same : rx = place := beq_iff_eq.mp joined
      exact ⟨sent, by rw [same]⟩

/-- The client of `joiningActions` after the three frames since it joined. -/
theorem client_converges_joiningActions :
    ∃ point final sent,
      run (step .parsed) (World.start btc15m none) joiningActions =
          some point ∧
        run (step .parsed) point [.recv, .recv, .recv] = some final ∧
        final.proxy = some ⟨4, some sent⟩ ∧
        ∀ (ticker : String) (book : OrderBook),
          point.books[ticker]? = some book →
            (clientBooks .parsed sent)[ticker]? = some book := by
  have runs :
      (run (step .parsed) (World.start btc15m none) joiningActions).map
          (fun point => (point.orderbookTx.length,
            Connection.joinedAt 1 point.proxy,
            (run (step .parsed) point [.recv, .recv, .recv]).map
              fun final => Connection.joinedAt 4 final.proxy)) =
        some (4, true, some true) := by
    decide +kernel
  rcases Option.map_eq_some_iff.mp runs with ⟨point, reached, ends⟩
  simp only [Prod.mk.injEq] at ends
  rcases ends with ⟨length, joined, ends⟩
  rcases Option.map_eq_some_iff.mp ends with ⟨final, continued, received⟩
  rcases Connection.exists_of_joinedAt joined with ⟨sent, joined⟩
  rcases Connection.exists_of_joinedAt received with ⟨sent', received⟩
  refine ⟨point, final, sent', reached, continued, received, ?_⟩
  rw [← length] at received
  exact client_converges .parsed btc15m none joiningActions _ point final
    reached (by decide +kernel) 1 sent sent' joined continued received

end ChudMoney.Feeds.Proxy
