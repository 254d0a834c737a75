import ChudMoney.Feeds.Cache
import ChudMoney.Feeds.Coinbase
import ChudMoney.Lib.Sequence

/-!
# No lost, repeated or reordered frame goes unnoticed

Kalshi numbers the orderbook frames of each subscription, Coinbase all frames
of a connection.  Both handlers are receivers that check such a numbering: the
slots are `last_seq`, the sources the sids of the one feed and the connection
itself on the other.
-/

namespace ChudMoney.Feeds.Gaps

open ChudMoney.Feeds.Cache
open ChudMoney.Feeds.Coinbase
open ChudMoney.Feeds.Frames
open ChudMoney.Feeds.Shared
open ChudMoney.Feeds.Task
open ChudMoney.Kalshi.Client
open ChudMoney.Lib.Json
open ChudMoney.Lib.Runs
open ChudMoney.Lib.Sequence
open ChudMoney.Model

variable {Text : Type}

/-- A number that has a successor in 64 bits. -/
abbrev HasSuccessor (number : Nat) : Prop :=
  number + 1 < 2 ^ 64

theorem toNat_succ {last : UInt64} (bound : HasSuccessor last.toNat) :
    (last + 1).toNat = last.toNat + 1 := by
  rw [UInt64.toNat_add]
  exact Nat.mod_eq_of_lt bound

/-- The check of a slot, in numbers that have a successor. -/
theorem follows_iff {slot : Option UInt64} {seq : UInt64}
    (bound : ∀ last ∈ slot, HasSuccessor last.toNat) :
    (∀ last ∈ slot, seq = last + 1) ↔
      ∀ last ∈ slot.map UInt64.toNat, seq.toNat = last + 1 := by
  cases slot with
  | none => simp
  | some last =>
      simp only [Option.mem_some_iff, Option.map_some, forall_eq']
      rw [← toNat_succ (bound last rfl), UInt64.toNat_inj]

/-! ## The Kalshi feed -/

/-- The sid and number of the orderbook frame that an event is, if it is. -/
def numbered (readers : Readers Text) : FeedEvent Text → List (UInt64 × Nat)
  | .text _ text =>
      ((bookFrame readers text).bind fun frame =>
        frame.2.sid.map fun sid => (sid, frame.2.seq.toNat)).toList
  | _ => []

/-- An event inside one session that ends in no error. -/
def Undisturbed (readers : Readers Text) (conn : Conn Text) :
    FeedEvent Text → Prop
  | .text moment text =>
      (handleText readers moment text conn.output conn.session).result =
        .ok ()
  | .refresh _ => True
  | .connect _ | .ended _ => False

instance (readers : Readers Text) (conn : Conn Text) :
    ∀ event, Decidable (Undisturbed readers conn event)
  | .text moment text =>
      inferInstanceAs (Decidable (
        (handleText readers moment text conn.output conn.session).result =
          .ok ()))
  | .refresh _ => isTrue trivial
  | .connect _ | .ended _ => isFalse id

/-- The last number of each subscription. -/
def slots (session : Session) (sid : UInt64) : Option Nat :=
  (session.lastSeq[sid]?).map UInt64.toNat

theorem slots_insert (session : Session) (sid seq : UInt64) :
    slots { session with lastSeq := session.lastSeq.insert sid seq } =
      Function.update (slots session) sid (some seq.toNat) := by
  ext1 other
  by_cases same : other = sid
  · subst other
    simp [slots]
  · have apart : ¬ sid = other := Ne.symm same
    simp [slots, Std.ExtTreeMap.getElem?_insert, same, apart]

/-- A frame on a subscription passes the check if it follows its slot. -/
theorem checkSeq_eq_ok_iff {env : Kalshi.Stream.Envelope} {sid : UInt64}
    (on : env.sid = some sid) (lastSeq : HashMap UInt64 UInt64) :
    (Task.checkSeq env lastSeq).2 = .ok () ↔
      ∀ last ∈ lastSeq[sid]?, env.seq = last + 1 := by
  rw [Task.checkSeq, on]
  cases held : lastSeq[sid]? with
  | none => simp [held]
  | some last => simp [held]

/-- The slots of a session track the numbered frames of its past. -/
structure Tracked (readers : Readers Text) (conn : Conn Text)
    (past : List (FeedEvent Text)) : Prop where
  tracks : Tracks (slots conn.session) (past.flatMap (numbered readers))
  bounded : ∀ sid last : UInt64, conn.session.lastSeq[sid]? = some last →
    HasSuccessor last.toNat

theorem Tracked.text {readers : Readers Text} {conn next : Conn Text}
    {past : List (FeedEvent Text)} {moment : Moment} {text : Text}
    (tracked : Tracked readers conn past)
    (handled : (handleText readers moment text conn.output
      conn.session).result = .ok ())
    (bounded : ∀ message ∈ numbered readers (.text moment text),
      HasSuccessor message.2)
    (taken : feedStep readers conn (.text moment text) = some next) :
    Tracked readers next (past ++ [.text moment text]) := by
  rw [feedStep_text handled taken]
  cases framed : bookFrame readers text with
  | none =>
      have untouched :=
        (handleText_of_bookFrame_eq_none framed moment conn.output
          conn.session).2.1
      constructor
      · have same : slots (handleText readers moment text conn.output
            conn.session).session = slots conn.session := by
          ext1 sid
          rw [slots, slots, untouched]
        simpa [same, numbered, framed] using tracked.tracks
      · rw [untouched]
        exact tracked.bounded
  | some frame =>
      rcases frame with ⟨isSnapshot, env⟩
      rw [handleText_of_bookFrame framed] at handled ⊢
      have inSequence := inSequence_of_result handled
      have session :=
        (handleOrderbook_of_inSequence inSequence isSnapshot moment text
          conn.output).2.2
      rw [session]
      cases on : env.sid with
      | none =>
          have unchecked :
              (Task.checkSeq env conn.session.lastSeq).1 =
                conn.session.lastSeq := by
            rw [Task.checkSeq, on]
          rw [unchecked]
          constructor
          · simpa [numbered, framed, on] using tracked.tracks
          · exact tracked.bounded
      | some sid =>
          have entered :
              (Task.checkSeq env conn.session.lastSeq).1 =
                conn.session.lastSeq.insert sid env.seq := by
            rw [Task.checkSeq, on]
          have number :
              numbered readers (.text moment text) =
                [(sid, env.seq.toNat)] := by
            simp [numbered, framed, on]
          have follows := (checkSeq_eq_ok_iff on _).mp inSequence
          rw [follows_iff (tracked.bounded sid)] at follows
          rw [entered]
          constructor
          · rw [slots_insert, List.flatMap_append, List.flatMap_singleton,
              number]
            exact tracked.tracks.accept follows
          · intro other last held
            rw [Std.ExtTreeMap.getElem?_insert] at held
            split at held
            · cases held
              exact bounded (sid, env.seq.toNat) (by simp [number])
            · exact tracked.bounded other last held

/-- One event inside a session keeps its slots on its frames. -/
theorem Tracked.step {readers : Readers Text} {conn next : Conn Text}
    {past : List (FeedEvent Text)} {event : FeedEvent Text}
    (tracked : Tracked readers conn past)
    (undisturbed : Undisturbed readers conn event)
    (bounded : ∀ message ∈ numbered readers event, HasSuccessor message.2)
    (taken : feedStep readers conn event = some next) :
    Tracked readers next (past ++ [event]) := by
  cases event with
  | text moment text => exact tracked.text undisturbed bounded taken
  | connect markets => exact undisturbed.elim
  | ended outcome => exact undisturbed.elim
  | refresh markets =>
      have same : next.session.lastSeq = conn.session.lastSeq := by
        simp only [feedStep] at taken
        split at taken
        case isFalse => cases taken
        cases markets with
        | error e =>
            cases taken
            rfl
        | ok markets =>
            cases taken
            exact lastSeq_refresh conn markets
      constructor
      · have sameSlots : slots next.session = slots conn.session := by
          ext1 sid
          rw [slots, slots, same]
        simpa [sameSlots, numbered] using tracked.tracks
      · rw [same]
        exact tracked.bounded

/-- A session's slots track its frames from its first one on. -/
theorem tracked_of_run {readers : Readers Text} {conn final : Conn Text}
    {markets : Except String (List OpenMarket)}
    {events : List (FeedEvent Text)}
    (reached : run (feedStep readers) (conn.connect markets) events =
      some final)
    (undisturbed : Guarded (feedStep readers) (Undisturbed readers)
      (conn.connect markets) events)
    (bounded : ∀ event ∈ events, ∀ message ∈ numbered readers event,
      HasSuccessor message.2) :
    Tracked readers final events := by
  apply history_of_guarded (Tracked readers)
    (fun conn past event next tracked guard taken =>
      tracked.step guard.1 guard.2 taken)
    _ (undisturbed.and (guarded_of_forall_mem bounded)) reached
  constructor
  · have fresh : slots (conn.connect markets).session = fun _ => none := by
      ext1 sid
      simp [slots, lastSeq_connect]
    rw [fresh]
    exact tracks_nil
  · intro sid last held
    simp [lastSeq_connect] at held

/-- A frame that does not follow its slot is refused before it does anything. -/
theorem handleText_of_not_follows {readers : Readers Text} {conn : Conn Text}
    {past : List (FeedEvent Text)} (tracked : Tracked readers conn past)
    {moment : Moment} {text : Text} {sid : UInt64} {number last : Nat}
    (isNumbered : (sid, number) ∈ numbered readers (.text moment text))
    (previous : (numbers sid (past.flatMap (numbered readers))).getLast? =
      some last)
    (gap : number ≠ last + 1) :
    (∃ e, (handleText readers moment text conn.output
        conn.session).result = .error e) ∧
      (handleText readers moment text conn.output conn.session).output =
        conn.output := by
  cases framed : bookFrame readers text with
  | none => simp [numbered, framed] at isNumbered
  | some frame =>
      rcases frame with ⟨isSnapshot, env⟩
      have found : env.sid = some sid ∧ env.seq.toNat = number := by
        simpa [numbered, framed] using isNumbered
      rw [handleText_of_bookFrame framed]
      cases checked : (Task.checkSeq env conn.session.lastSeq).2 with
      | error e =>
          rw [handleOrderbook_of_gap checked]
          exact ⟨⟨e, rfl⟩, rfl⟩
      | ok done =>
          have follows := (checkSeq_eq_ok_iff found.1 _).mp checked
          rw [follows_iff (tracked.bounded sid)] at follows
          have slot := tracked.tracks.last sid
          rw [previous, slots] at slot
          have follow := follows last slot
          rw [found.2] at follow
          exact absurd follow gap

/-! ## The Coinbase feed -/

/-- The envelope of a numbered frame: one that parses and has a channel. -/
def numberedEnvelope (readers : Readers Text) (text : Text) :
    Option Coinbase.Stream.Envelope :=
  ((readers.fromStr text).bind Coinbase.Stream.Envelope.deserialize).filter
    fun env => !env.channel.isEmpty

/-- The number of the frame that an event is, if it is one. -/
def coinbaseNumbered (readers : Readers Text) :
    CoinbaseEvent Text → List (Unit × Nat)
  | .text _ text =>
      ((numberedEnvelope readers text).map fun env =>
        ((), env.sequenceNum.toNat)).toList
  | _ => []

/-- A frame of one session that is handled without error. -/
def CoinbaseUndisturbed (readers : Readers Text) (product : String)
    (conn : CoinbaseConn Text) : CoinbaseEvent Text → Prop
  | .text moment text =>
      (Coinbase.handleText readers moment product text conn.output
        conn.lastSeq).result = .ok ()
  | .connect _ | .ended _ => False

instance (readers : Readers Text) (product : String)
    (conn : CoinbaseConn Text) :
    ∀ event, Decidable (CoinbaseUndisturbed readers product conn event)
  | .text moment text =>
      inferInstanceAs (Decidable (
        (Coinbase.handleText readers moment product text conn.output
          conn.lastSeq).result = .ok ()))
  | .connect _ | .ended _ => isFalse id

/-- A text without a number is passed over. -/
theorem coinbase_handleText_of_unnumbered {readers : Readers Text}
    {text : Text} (unnumbered : numberedEnvelope readers text = none)
    (moment : Moment) (product : String) (output : Output Text)
    (lastSeq : Option UInt64) :
    Coinbase.handleText readers moment product text output lastSeq =
      ⟨output, lastSeq, .ok ()⟩ := by
  rw [numberedEnvelope] at unnumbered
  rw [Coinbase.handleText]
  cases read : (readers.fromStr text).bind
      Coinbase.Stream.Envelope.deserialize with
  | none => rfl
  | some env =>
      have silent : env.channel.isEmpty = true := by
        rw [read] at unnumbered
        simpa [Option.filter] using unnumbered
      simp only [silent, if_true]

theorem coinbase_handleText_of_numbered {readers : Readers Text}
    {text : Text} {env : Coinbase.Stream.Envelope}
    (isNumbered : numberedEnvelope readers text = some env)
    (moment : Moment) (product : String) (output : Output Text)
    (lastSeq : Option UInt64) :
    Coinbase.handleText readers moment product text output lastSeq =
      match (Coinbase.checkSeq env lastSeq).2 with
      | .error e => ⟨output, some env.sequenceNum, .error e⟩
      | .ok () =>
          let handled :=
            handleChannel readers.parseFromRfc3339 moment product env output
          ⟨handled.1, some env.sequenceNum, handled.2⟩ := by
  rw [numberedEnvelope, Option.filter_eq_some_iff] at isNumbered
  rcases isNumbered with ⟨read, channel⟩
  have spoken : env.channel.isEmpty = false := by simpa using channel
  rw [Coinbase.handleText, read]
  simp only [spoken, Bool.false_eq_true, if_false]
  rfl

theorem coinbase_checkSeq_eq_ok_iff (env : Coinbase.Stream.Envelope)
    (lastSeq : Option UInt64) :
    (Coinbase.checkSeq env lastSeq).2 = .ok () ↔
      ∀ last ∈ lastSeq, env.sequenceNum = last + 1 := by
  cases lastSeq <;> simp [Coinbase.checkSeq]

/-- The slot of a connection tracks its numbered frames. -/
structure CoinbaseTracked (readers : Readers Text) (conn : CoinbaseConn Text)
    (past : List (CoinbaseEvent Text)) : Prop where
  tracks : Tracks (fun _ : Unit => conn.lastSeq.map UInt64.toNat)
    (past.flatMap (coinbaseNumbered readers))
  bounded : ∀ last, conn.lastSeq = some last → HasSuccessor last.toNat

theorem CoinbaseTracked.step {readers : Readers Text} {product : String}
    {conn next : CoinbaseConn Text} {past : List (CoinbaseEvent Text)}
    {event : CoinbaseEvent Text}
    (tracked : CoinbaseTracked readers conn past)
    (undisturbed : CoinbaseUndisturbed readers product conn event)
    (bounded : ∀ message ∈ coinbaseNumbered readers event,
      HasSuccessor message.2)
    (taken : coinbaseStep readers product conn event = some next) :
    CoinbaseTracked readers next (past ++ [event]) := by
  cases event with
  | connect jwt => exact undisturbed.elim
  | ended outcome => exact undisturbed.elim
  | text moment text =>
      have handled : (Coinbase.handleText readers moment product text
          conn.output conn.lastSeq).result = .ok () :=
        undisturbed
      have entered : next.lastSeq =
          (Coinbase.handleText readers moment product text conn.output
            conn.lastSeq).lastSeq := by
        simp only [coinbaseStep, handled] at taken
        split at taken
        · cases taken
          rfl
        · cases taken
      cases numbering : numberedEnvelope readers text with
      | none =>
          rw [coinbase_handleText_of_unnumbered numbering] at entered
          constructor
          · rw [entered]
            simpa [coinbaseNumbered, numbering] using tracked.tracks
          · rw [entered]
            exact tracked.bounded
      | some env =>
          have number :
              coinbaseNumbered readers (.text moment text) =
                [((), env.sequenceNum.toNat)] := by
            simp [coinbaseNumbered, numbering]
          rw [coinbase_handleText_of_numbered numbering] at handled entered
          cases checked : (Coinbase.checkSeq env conn.lastSeq).2 with
          | error e =>
              rw [checked] at handled
              cases handled
          | ok done =>
              rw [checked] at entered
              have follows :=
                (coinbase_checkSeq_eq_ok_iff env conn.lastSeq).mp checked
              rw [follows_iff tracked.bounded] at follows
              constructor
              · have slot :
                    (fun _ : Unit => next.lastSeq.map UInt64.toNat) =
                      Function.update
                        (fun _ => conn.lastSeq.map UInt64.toNat) ()
                        (some env.sequenceNum.toNat) := by
                  ext1 connection
                  rw [entered]
                  rfl
                rw [slot, List.flatMap_append, List.flatMap_singleton,
                  number]
                exact tracked.tracks.accept follows
              · intro last held
                rw [entered] at held
                cases held
                exact bounded ((), env.sequenceNum.toNat) (by simp [number])

theorem coinbaseTracked_of_run {readers : Readers Text} {product : String}
    {jwt : String → Option String} {conn final : CoinbaseConn Text}
    {events : List (CoinbaseEvent Text)}
    (reached : run (coinbaseStep readers product) (conn.connect product jwt)
      events = some final)
    (undisturbed : Guarded (coinbaseStep readers product)
      (CoinbaseUndisturbed readers product) (conn.connect product jwt) events)
    (bounded : ∀ event ∈ events, ∀ message ∈ coinbaseNumbered readers event,
      HasSuccessor message.2) :
    CoinbaseTracked readers final events := by
  apply history_of_guarded (CoinbaseTracked readers)
    (fun conn past event next tracked guard taken =>
      tracked.step guard.1 guard.2 taken)
    _ (undisturbed.and (guarded_of_forall_mem bounded)) reached
  exact ⟨tracks_nil, by simp [CoinbaseConn.connect]⟩

theorem coinbase_handleText_of_not_follows {readers : Readers Text}
    {conn : CoinbaseConn Text} {past : List (CoinbaseEvent Text)}
    (tracked : CoinbaseTracked readers conn past) (product : String)
    {moment : Moment} {text : Text} {number last : Nat}
    (isNumbered : ((), number) ∈ coinbaseNumbered readers (.text moment text))
    (previous : (numbers () (past.flatMap
      (coinbaseNumbered readers))).getLast? = some last)
    (gap : number ≠ last + 1) :
    (∃ e, (Coinbase.handleText readers moment product text conn.output
        conn.lastSeq).result = .error e) ∧
      (Coinbase.handleText readers moment product text conn.output
        conn.lastSeq).output = conn.output := by
  cases numbering : numberedEnvelope readers text with
  | none => simp [coinbaseNumbered, numbering] at isNumbered
  | some env =>
      have found : env.sequenceNum.toNat = number := by
        simpa [coinbaseNumbered, numbering, eq_comm] using isNumbered
      rw [coinbase_handleText_of_numbered numbering]
      cases checked : (Coinbase.checkSeq env conn.lastSeq).2 with
      | error e => exact ⟨⟨e, rfl⟩, rfl⟩
      | ok done =>
          have follows :=
            (coinbase_checkSeq_eq_ok_iff env conn.lastSeq).mp checked
          rw [follows_iff tracked.bounded] at follows
          have slot := tracked.tracks.last ()
          rw [previous] at slot
          have follow := follows last slot
          rw [found] at follow
          exact absurd follow gap

/-! ## Both feeds -/

/--
In a session whose frames are all handled without error, the numbers of each
subscription (on Coinbase, of the connection) are consecutive; and a frame
whose number does not follow the one before it is refused with an error and
changes no book, is not broadcast and queues no row.
-/
theorem gaps_noticed :
    (∀ (readers : Readers Text) (conn final : Conn Text)
        (markets : Except String (List OpenMarket))
        (events : List (FeedEvent Text)),
      run (feedStep readers) (conn.connect markets) events = some final →
      Guarded (feedStep readers) (Undisturbed readers) (conn.connect markets)
        events →
      (∀ event ∈ events, ∀ message ∈ numbered readers event,
        HasSuccessor message.2) →
      (∀ sid, Consecutive
        (numbers sid (events.flatMap (numbered readers)))) ∧
      ∀ moment text sid number last,
        (sid, number) ∈ numbered readers (.text moment text) →
        (numbers sid (events.flatMap (numbered readers))).getLast? =
          some last →
        number ≠ last + 1 →
        (∃ e, (Task.handleText readers moment text final.output
            final.session).result = .error e) ∧
          (Task.handleText readers moment text final.output
            final.session).output = final.output) ∧
    (∀ (readers : Readers Text) (product : String)
        (jwt : String → Option String) (conn final : CoinbaseConn Text)
        (events : List (CoinbaseEvent Text)),
      run (coinbaseStep readers product) (conn.connect product jwt) events =
        some final →
      Guarded (coinbaseStep readers product)
        (CoinbaseUndisturbed readers product) (conn.connect product jwt)
        events →
      (∀ event ∈ events, ∀ message ∈ coinbaseNumbered readers event,
        HasSuccessor message.2) →
      Consecutive (numbers () (events.flatMap (coinbaseNumbered readers))) ∧
      ∀ moment text number last,
        ((), number) ∈ coinbaseNumbered readers (.text moment text) →
        (numbers () (events.flatMap (coinbaseNumbered readers))).getLast? =
          some last →
        number ≠ last + 1 →
        (∃ e, (Coinbase.handleText readers moment product text final.output
            final.lastSeq).result = .error e) ∧
          (Coinbase.handleText readers moment product text final.output
            final.lastSeq).output = final.output) := by
  constructor
  · intro readers conn final markets events reached undisturbed bounded
    have tracked := tracked_of_run reached undisturbed bounded
    refine ⟨tracked.tracks.consecutive, ?_⟩
    intro moment text sid number last isNumbered previous gap
    exact handleText_of_not_follows tracked isNumbered previous gap
  · intro readers product jwt conn final events reached undisturbed bounded
    have tracked := coinbaseTracked_of_run reached undisturbed bounded
    refine ⟨tracked.tracks.consecutive (), ?_⟩
    intro moment text number last isNumbered previous gap
    exact coinbase_handleText_of_not_follows tracked product isNumbered
      previous gap

/-- Two heartbeats of one connection. -/
def heartbeats : List (CoinbaseEvent Value) :=
  [.text .calm (Coinbase.Stream.serverFrame "heartbeats" 3 []),
    .text .calm (Coinbase.Stream.serverFrame "heartbeats" 4 [])]

/-- A Coinbase task that has not connected yet. -/
def CoinbaseConn.idle (shared : FeedShared Value) : CoinbaseConn Value :=
  ⟨⟨shared, []⟩, false, none, []⟩

theorem gaps_noticed_heartbeats :
    (∃ final,
      run (feedStep .parsed)
          ((Conn.spawned btc15m none).connect (.ok [.named "T"]))
          quietFrames = some final ∧
        Consecutive (numbers 7
          (quietFrames.flatMap (numbered .parsed))) ∧
        ∃ e, (Task.handleText .parsed .calm
          (Kalshi.Stream.dataFrame "orderbook_delta" 7 4 .null) final.output
          final.session).result = .error e) ∧
    ∃ final,
      run (coinbaseStep .parsed "BTC-USD")
          ((CoinbaseConn.idle
            (Conn.spawned btc15m none).output.shared).connect "BTC-USD"
              fun _ => none)
          heartbeats = some final ∧
        Consecutive (numbers ()
          (heartbeats.flatMap (coinbaseNumbered .parsed))) ∧
        ∃ e, (Coinbase.handleText .parsed .calm "BTC-USD"
          (Coinbase.Stream.serverFrame "heartbeats" 6 []) final.output
          final.lastSeq).result = .error e := by
  constructor
  · have runs :
        (run (feedStep .parsed)
          ((Conn.spawned btc15m none).connect (.ok [.named "T"]))
          quietFrames).isSome := by
      decide +kernel
    rcases Option.isSome_iff_exists.mp runs with ⟨final, reached⟩
    have noticed := gaps_noticed.1 .parsed _ final _ quietFrames reached
      (by decide +kernel) (by decide +kernel)
    refine ⟨final, reached, noticed.1 7, ?_⟩
    exact (noticed.2 .calm _ 7 4 2 (by decide +kernel) (by decide +kernel)
      (by decide)).1
  · have runs :
        (run (coinbaseStep .parsed "BTC-USD")
          ((CoinbaseConn.idle
            (Conn.spawned btc15m none).output.shared).connect "BTC-USD"
              fun _ => none)
          heartbeats).isSome := by
      decide +kernel
    rcases Option.isSome_iff_exists.mp runs with ⟨final, reached⟩
    have noticed := gaps_noticed.2 .parsed "BTC-USD" _ _ final heartbeats
      reached (by decide +kernel) (by decide +kernel)
    refine ⟨final, reached, noticed.1, ?_⟩
    exact (noticed.2 .calm _ 6 4 (by decide +kernel) (by decide +kernel)
      (by decide)).1

end ChudMoney.Feeds.Gaps
