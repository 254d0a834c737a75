import ChudMoney.Controllers.Products
import ChudMoney.Controllers.Router
import ChudMoney.Model.Documents

/-!
# Restarts

The process may die between any two steps, and with it the requests that were
under way.  The next one reads the documents and spawns a feed for each, so
that documents and feeds that have come apart are together again.  A write
that MongoDB was sent is made or lost before then, whether or not the request
was still there to be told.
-/

namespace ChudMoney.Controllers.Restart

open ChudMoney.Controllers.Markets
open ChudMoney.Controllers.Router
open ChudMoney.Feeds.Registry
open ChudMoney.Lib.Json
open ChudMoney.Lib.Runs
open ChudMoney.Model

/-! ## Starting -/

/-- The documents of a collection, under the ids that MongoDB chose. -/
def documents (ids : Market → Value) (markets : List Market) : List Value :=
  markets.map fun market => market.document (ids market)

/-- `Model::all`, of the documents found; it fails if one cannot be read. -/
def readAll (documents : List Value) : Option (List Market) :=
  documents.mapM Market.deserialize

/-- `main`, up to where the server listens. -/
def main (ids : Market → Value) (config : Config) (markets : Collection) :
    Option World :=
  (readAll (documents ids markets.all)).map fun read =>
    { state :=
        { config := config
          markets := markets
          feeds := read.foldl
            (fun feeds market => (FeedRegistry.spawn feeds market).1) ∅ }
      requests := [] }

inductive Event where
  | act (action : Action)
  /-- The process dies where it is, and is started again. -/
  | restart (config : Config)

def step (validate : Market → List String) (ids : Market → Value)
    (world : World) : Event → Option World
  | .act action => Markets.step validate world action
  | .restart config => main ids config world.state.markets

theorem readAll_documents (ids : Market → Value) (markets : List Market) :
    readAll (documents ids markets) = some markets := by
  induction markets with
  | nil => rfl
  | cons market markets ih =>
      rw [readAll, documents] at ih ⊢
      rw [List.map_cons, List.mapM_cons, deserialize_document, ih]
      rfl

/-- The start never fails, whatever the documents. -/
theorem main_eq (ids : Market → Value) (config : Config)
    (markets : Collection) :
    main ids config markets = some (World.start config markets) := by
  rw [main, readAll_documents]
  rfl

/-! ## What is stored -/

/-- A market that `POST /add` makes, on some server. -/
def Made (market : Market) : Prop :=
  ∃ input config now, market = Market.fromAdd input config now

/-- A market that was made and that the schema admits. -/
structure Written (validate : Market → List String) (market : Market) :
    Prop where
  made : Made market
  valid : validate market = []

/--
Documents, feeds, and what requests are going to make of them: all are of
markets that are known to be `written`.
-/
structure Sound (validate : Market → List String) (written : Market → Prop)
    (world : World) : Prop where
  makes : ∀ input now, envError world.state.config input = none →
    validate (Market.fromAdd input world.state.config now) = [] →
      written (Market.fromAdd input world.state.config now)
  stored : ∀ tag market, world.stored tag = some market → written market
  running : ∀ tag market, world.running tag = some market → written market
  keyed : ∀ tag market, world.running tag = some market → market.tag = tag
  inserting : ∀ market, .inserting market ∈ world.requests →
    validate market = [] → written market
  spawning : ∀ market, .spawning market ∈ world.requests → written market

section Step

variable {validate : Market → List String} {written : Market → Prop}
  {world : World} {state after : AppState} {request next : Request}

/-- Only an add that found its tag free goes on to insert. -/
theorem exists_add_of_moves
    (moves : Moves validate state request after next) {market : Market}
    (inserting : next = .inserting market) :
    ∃ input now, envError state.config input = none ∧
      market = Market.fromAdd input state.config now := by
  cases moves with
  | @cleared input now right free =>
      cases inserting
      exact ⟨input, now, right, rfl⟩
  | refused | conflicted | rejected | inserted | spawned | reported
    | stopped | deleted => cases inserting

/-- A feed is under the tag of its market, where it was spawned. -/
theorem keyed_of_moves (moves : Moves validate state request after next)
    (keyed : ∀ tag market, FeedRegistry.running state.feeds tag =
      some market → market.tag = tag) {tag : String} {market : Market}
    (isRunning : FeedRegistry.running after.feeds tag = some market) :
    market.tag = tag := by
  cases moves with
  | refused | conflicted | cleared | rejected | inserted | reported
    | deleted => exact keyed tag market isRunning
  | @spawned spawned =>
      rw [FeedRegistry.running_spawn] at isRunning
      split at isRunning
      next same =>
        rcases Option.or_eq_some_iff.mp isRunning with before | ⟨-, isNew⟩
        · exact keyed tag market before
        · cases isNew
          exact same
      · exact keyed tag market isRunning
  | @stopped stopped existed =>
      rw [FeedRegistry.running_stop] at isRunning
      split at isRunning
      · cases isRunning
      · exact keyed tag market isRunning

theorem keyed_of_fails (fails : Fails validate state request after next)
    (keyed : ∀ tag market, FeedRegistry.running state.feeds tag =
      some market → market.tag = tag) {tag : String} {market : Market}
    (isRunning : FeedRegistry.running after.feeds tag = some market) :
    market.tag = tag := by
  rcases fails.effect with rfl | ⟨done, moves⟩
  · exact keyed tag market isRunning
  · exact keyed_of_moves moves keyed isRunning

/-- A server that has just been started. -/
theorem sound_start (config : Config) {markets : Collection}
    (makes : ∀ input now, envError config input = none →
      validate (Market.fromAdd input config now) = [] →
        written (Market.fromAdd input config now))
    (stored : ∀ tag market, markets.find tag = some market →
      written market) :
    Sound validate written (World.start config markets) := by
  have fed : ∀ tag market,
      (World.start config markets).running tag = some market →
        markets.find tag = some market := by
    intro tag market isRunning
    exact (running_start config markets tag).symm.trans isRunning
  constructor
  · exact makes
  · exact stored
  · exact fun tag market isRunning =>
      stored tag market (fed tag market isRunning)
  · exact fun tag market isRunning =>
      Collection.tag_of_find (fed tag market isRunning)
  · exact fun market member => absurd member List.not_mem_nil
  · exact fun market member => absurd member List.not_mem_nil

/-- A request that arrives has nothing to insert or to spawn yet. -/
theorem Sound.arrive (sound : Sound validate written world)
    (early : ∀ market, request ≠ .inserting market ∧
      request ≠ .spawning market) :
    Sound validate written
      { world with requests := world.requests ++ [request] } := by
  refine ⟨sound.makes, sound.stored, sound.running, sound.keyed, ?_, ?_⟩
  · intro market member
    rcases List.mem_append.mp member with before | isRequest
    · exact sound.inserting market before
    · exact absurd (List.mem_singleton.mp isRequest).symm (early market).1
  · intro market member
    rcases List.mem_append.mp member with before | isRequest
    · exact sound.spawning market before
    · exact absurd (List.mem_singleton.mp isRequest).symm (early market).2

/-- One step of a request, of which its sources are known. -/
theorem Sound.advance (sound : Sound validate written world) {place : Nat}
    (member : request ∈ world.requests)
    (sources : Products.Sources validate world.state request after next)
    (config : after.config = world.state.config)
    (keyed : ∀ tag market, FeedRegistry.running after.feeds tag =
      some market → market.tag = tag)
    (inserting : ∀ market, next = .inserting market →
      validate market = [] → written market) :
    Sound validate written ⟨after, world.requests.set place next⟩ := by
  have started : ∀ market, request = .inserting market →
      validate market = [] → written market := by
    rintro market rfl
    exact sound.inserting market member
  constructor
  · rw [config]
    exact sound.makes
  · intro tag market isStored
    rcases sources.stored tag market isStored with before | ⟨isRequest, valid⟩
    · exact sound.stored tag market before
    · exact started market isRequest valid
  · intro tag market isRunning
    rcases sources.running tag market isRunning with before | rfl
    · exact sound.running tag market before
    · exact sound.spawning market member
  · exact keyed
  · intro market isInserting
    rcases List.mem_or_eq_of_mem_set isInserting with before | isNext
    · exact sound.inserting market before
    · exact inserting market isNext.symm
  · intro market isSpawning
    rcases List.mem_or_eq_of_mem_set isSpawning with before | isNext
    · exact sound.spawning market before
    · rcases sources.spawning market isNext.symm with ⟨isRequest, valid⟩
      exact started market isRequest valid

/-- One step of the server. -/
theorem Sound.act (sound : Sound validate written world) {next : World}
    {action : Action}
    (taken : Markets.step validate world action = some next) :
    Sound validate written next := by
  cases action with
  | add input now =>
      cases taken
      exact sound.arrive (by simp)
  | remove tag =>
      cases taken
      exact sound.arrive (by simp)
  | report tag status =>
      cases taken
      have same := FeedRegistry.running_report world.state.feeds tag status
      refine ⟨sound.makes, sound.stored, ?_, ?_, sound.inserting,
        sound.spawning⟩
      · intro other market isRunning
        exact sound.running other market ((same other).symm.trans isRunning)
      · intro other market isRunning
        exact sound.keyed other market ((same other).symm.trans isRunning)
  | advance place =>
      rcases exists_advance taken with
        ⟨request, state, after, isRequest, moved, rfl⟩
      have moves := moves_of_advance moved
      apply sound.advance (List.mem_of_getElem? isRequest)
        (Products.sources_of_moves moves) (tag_of_moves moves).2
      · exact fun tag market => keyed_of_moves moves sound.keyed
      · intro market isNext
        rcases exists_add_of_moves moves isNext with ⟨input, now, right, rfl⟩
        exact sound.makes input now right
  | fail place failure =>
      rcases exists_fail taken with
        ⟨request, state, after, isRequest, failed, rfl⟩
      have fails := fails_of_fail failed
      apply sound.advance (List.mem_of_getElem? isRequest)
        (Products.sources_of_fails fails) fails.config
      · exact fun tag market => keyed_of_fails fails sound.keyed
      · rintro market rfl
        cases fails.answered

theorem Sound.step (sound : Sound validate (Written validate) world)
    {ids : Market → Value} {next : World} {event : Event}
    (taken : step validate ids world event = some next) :
    Sound validate (Written validate) next := by
  cases event with
  | act action => exact sound.act taken
  | restart config =>
      rw [Restart.step, main_eq] at taken
      cases taken
      exact sound_start config
        (fun input now _ valid => ⟨⟨input, config, now, rfl⟩, valid⟩)
        sound.stored

end Step

/-! ## Whole runs -/

/--
A market that clients can use: it conforms to the schema, and its proxy URLs
lead back to its own websockets.
-/
structure Served (market : Market) : Prop where
  conforms : Conforms market
  proxied : ∃ base ticker orderbook,
    market.proxy = ⟨base ++ ticker, base ++ orderbook⟩ ∧
      router.dispatch .get ticker =
        .handled .wsTicker [("tag", market.tag)] ∧
      router.dispatch .get orderbook =
        .handled .wsOrderbook [("tag", market.tag)]

theorem Written.served {validate : Market → List String}
    (validates : Products.Validates validate) {market : Market}
    (written : Written validate market) : Served market := by
  have conforms :=
    (valid_market_iff market).mp (validates market written.valid)
  have pattern := (Bool.and_eq_true _ _ ▸ conforms.tag).1
  have ws := dispatch_ws (isSegment_of_tagPattern pattern)
  rcases written.made with ⟨input, config, now, rfl⟩
  refine ⟨conforms, config.publicWsBase, _, _, ?_, ws⟩
  simp [Market.fromAdd, String.append_assoc]

/--
Whatever came before, crashes at any step included: every document and every
feed is of a market that clients can use, a restart succeeds and has a feed
for each document, and from there they agree once more when the requests on a
tag are answered, if none of their steps is disturbed.
-/
theorem restart_agrees {validate : Market → List String}
    (validates : Products.Validates validate) (ids : Market → Value)
    (config : Config) (events : List Event) (final : World)
    (reached : run (step validate ids) (World.start config .empty) events =
      some final) :
    (∀ tag market,
      final.stored tag = some market ∨ final.running tag = some market →
        market.tag = tag ∧ Served market) ∧
    ∀ config : Config, ∃ next,
      step validate ids final (.restart config) = some next ∧
      (∀ tag, next.stored tag = final.stored tag ∧
        next.running tag = final.stored tag) ∧
      ∀ tag actions later,
        run (Markets.step validate) next actions = some later →
        Guarded (Markets.step validate) (Clear validate tag) next actions →
        Finished tag later → later.running tag = later.stored tag := by
  have start : Sound validate (Written validate)
      (World.start config .empty) := by
    apply sound_start config
    · exact fun input now _ valid => ⟨⟨input, config, now, rfl⟩, valid⟩
    · intro tag market isStored
      simp [Collection.find, Collection.empty] at isStored
  have sound : Sound validate (Written validate) final :=
    invariant_of_run (Sound validate (Written validate))
      (fun _ _ _ sound taken => sound.step taken) start reached
  constructor
  · rintro tag market (isStored | isRunning)
    · exact ⟨Collection.tag_of_find isStored,
        (sound.stored tag market isStored).served validates⟩
    · exact ⟨sound.keyed tag market isRunning,
        (sound.running tag market isRunning).served validates⟩
  · intro config
    refine ⟨World.start config final.state.markets, main_eq _ _ _, ?_, ?_⟩
    · exact fun tag => ⟨rfl, running_start config final.state.markets tag⟩
    · intro tag actions later continued clear finished
      have agree : Agree tag later :=
        invariant_of_guarded (Agree tag)
          (fun _ _ _ agree clear taken => agree.step clear taken)
          (agree_start config final.state.markets tag) clear continued
      exact agree.finished finished

/-- The process dies before a document's feed is spawned. -/
def crashEvents : List Event :=
  (Products.productActions.take 3).map .act

/-- MongoDB's ids do not matter. -/
def noIds : Market → Value :=
  fun _ => .null

theorem restart_agrees_crashEvents :
    ∃ final, run (step Products.btcUsdErrors noIds)
          (World.start testConfig .empty) crashEvents = some final ∧
      final.stored "btc-15m" = some btcUsd ∧
      final.running "btc-15m" = none ∧ Served btcUsd ∧
      ∃ next, step Products.btcUsdErrors noIds final (.restart testConfig) =
          some next ∧
        next.running "btc-15m" = some btcUsd := by
  have runs :
      (run (step Products.btcUsdErrors noIds) (World.start testConfig .empty)
        crashEvents).map (fun final =>
          (final.stored "btc-15m", final.running "btc-15m")) =
        some (some btcUsd, none) := by
    decide +kernel
  rcases Option.map_eq_some_iff.mp runs with ⟨final, reached, ends⟩
  simp only [Prod.mk.injEq] at ends
  rcases ends with ⟨stored, running⟩
  have agrees := restart_agrees Products.validates_btcUsdErrors noIds
    testConfig crashEvents final reached
  have served := (agrees.1 "btc-15m" btcUsd (Or.inl stored)).2
  rcases agrees.2 testConfig with ⟨next, restarted, fed, -⟩
  exact ⟨final, reached, stored, running, served, next, restarted,
    (fed "btc-15m").2.trans stored⟩

end ChudMoney.Controllers.Restart
