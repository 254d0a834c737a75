import ChudMoney.Controllers.Markets
import ChudMoney.Model.MarketSpec

/-!
# Stored products have Coinbase feeds

`POST /add` stores a market once the schema finds nothing wrong with it, and a
feed is spawned with a Coinbase feed if its product passes a check by hand.  As
the check accepts what the schema's pattern accepts, no product that is stored
is refused by a spawn, through all interleavings and restarts.
-/

namespace ChudMoney.Controllers.Products

open ChudMoney.Controllers.Markets
open ChudMoney.Feeds.Registry
open ChudMoney.Feeds.Shared
open ChudMoney.Lib.Patterns
open ChudMoney.Lib.Runs
open ChudMoney.Lib.Schemas
open ChudMoney.Model

/-! ## Spawned Coinbase feeds -/

/-- The product that a market's Coinbase task is spawned with, if it is. -/
def coinbaseTask (market : Market) : Option String :=
  market.coinbaseProduct.filter validCoinbaseProduct

/-- A spawn that starts the market's feed starts its Coinbase feed. -/
def GetsCoinbaseFeed (market : Market) (product : String) : Prop :=
  coinbaseTask market = some product ∧
    ∀ feeds : FeedRegistry, market.tag ∉ feeds →
      (FeedRegistry.spawn feeds market).2 = true ∧
        ∃ status, FeedRegistry.status (FeedRegistry.spawn feeds market).1
            market.tag = some status ∧
          status.coinbase = some (CoinbaseFeedStatus.default product)

theorem spawned_coinbase (market : Market) :
    (FeedHandle.spawned market).status.coinbase =
      (coinbaseTask market).map CoinbaseFeedStatus.default :=
  rfl

theorem coinbaseTask_of_valid {market : Market} {product : String}
    (isProduct : market.coinbaseProduct = some product)
    (valid : validCoinbaseProduct product = true) :
    coinbaseTask market = some product := by
  rw [coinbaseTask, isProduct, Option.filter_some, if_pos valid]

/-- The registry's answer to a spawn on a free tag. -/
theorem getsCoinbaseFeed_of_task {market : Market} {product : String}
    (task : coinbaseTask market = some product) :
    GetsCoinbaseFeed market product := by
  refine ⟨task, ?_⟩
  intro feeds free
  rw [FeedRegistry.spawn, if_neg free]
  refine ⟨rfl, (FeedHandle.spawned market).status, ?_, ?_⟩
  · show ((feeds.insert market.tag _)[market.tag]?).map _ = _
    rw [Std.ExtTreeMap.getElem?_insert_self]
    rfl
  · rw [spawned_coinbase, task]
    rfl

/-! ## Where documents and feeds come from -/

section Steps

variable {validate : Market → List String} {state after : AppState}
  {request next : Request}

/-- What a step of a request may add to the server's state. -/
structure Sources (validate : Market → List String) (state : AppState)
    (request : Request) (after : AppState) (next : Request) : Prop where
  stored : ∀ tag market, after.markets.find tag = some market →
    state.markets.find tag = some market ∨
      request = .inserting market ∧ validate market = []
  spawning : ∀ market, next = .spawning market →
    request = .inserting market ∧ validate market = []
  running : ∀ tag market, FeedRegistry.running after.feeds tag = some market →
    FeedRegistry.running state.feeds tag = some market ∨
      request = .spawning market

/-- A step that adds nothing. -/
theorem sources_of_kept (stored : after.markets = state.markets)
    (running : after.feeds = state.feeds)
    (quiet : ∀ market, next ≠ .spawning market) :
    Sources validate state request after next := by
  constructor
  · intro tag market isStored
    rw [stored] at isStored
    exact Or.inl isStored
  · intro market isSpawning
    exact absurd isSpawning (quiet market)
  · intro tag market isRunning
    rw [running] at isRunning
    exact Or.inl isRunning

theorem sources_of_moves (moves : Moves validate state request after next) :
    Sources validate state request after next := by
  cases moves with
  | refused | conflicted | cleared | rejected | reported =>
      exact sources_of_kept rfl rfl (by simp)
  | @inserted market valid =>
      constructor
      · intro tag other isStored
        rw [Collection.find_replaceOne] at isStored
        split at isStored
        · cases isStored
          exact Or.inr ⟨rfl, valid⟩
        · exact Or.inl isStored
      · intro other isSpawning
        cases isSpawning
        exact ⟨rfl, valid⟩
      · exact fun tag other isRunning => Or.inl isRunning
  | @spawned market =>
      constructor
      · exact fun tag other isStored => Or.inl isStored
      · exact fun other isSpawning => by cases isSpawning
      · intro tag other isRunning
        rw [FeedRegistry.running_spawn] at isRunning
        split at isRunning
        · rcases Option.or_eq_some_iff.mp isRunning with before | ⟨-, started⟩
          · exact Or.inl before
          · cases started
            exact Or.inr rfl
        · exact Or.inl isRunning
  | @stopped tag existed =>
      constructor
      · exact fun tag other isStored => Or.inl isStored
      · exact fun other isSpawning => by cases isSpawning
      · intro other market isRunning
        rw [FeedRegistry.running_stop] at isRunning
        split at isRunning
        · cases isRunning
        · exact Or.inl isRunning
  | @deleted tag existed response =>
      constructor
      · intro other market isStored
        rw [Collection.find_delete] at isStored
        split at isStored
        · cases isStored
        · exact Or.inl isStored
      · exact fun other isSpawning => by cases isSpawning
      · exact fun tag other isRunning => Or.inl isRunning

/-- An answered request spawns nothing. -/
theorem sources_of_fails (fails : Fails validate state request after next) :
    Sources validate state request after next := by
  have quiet : ∀ market, next ≠ .spawning market := by
    rintro market rfl
    cases fails.answered
  rcases fails.effect with rfl | ⟨done, moves⟩
  · exact sources_of_kept rfl rfl quiet
  · have sources := sources_of_moves moves
    exact ⟨sources.stored,
      fun market isSpawning => absurd isSpawning (quiet market),
      sources.running⟩

end Steps

/-- The schema has found nothing wrong with any market the server holds. -/
structure Passed (validate : Market → List String) (world : World) :
    Prop where
  stored : ∀ tag market, world.stored tag = some market → validate market = []
  spawning : ∀ market, .spawning market ∈ world.requests → validate market = []
  running : ∀ tag market, world.running tag = some market →
    validate market = []

section Runs

variable {validate : Market → List String} {world next : World}

/-- One step of a request. -/
theorem Passed.advance {place : Nat} {request after : Request}
    {state : AppState} (passed : Passed validate world)
    (isRequest : world.requests[place]? = some request)
    (sources : Sources validate world.state request state after) :
    Passed validate ⟨state, world.requests.set place after⟩ := by
  constructor
  · intro tag market isStored
    rcases sources.stored tag market isStored with before | ⟨-, valid⟩
    · exact passed.stored tag market before
    · exact valid
  · intro market member
    rcases List.mem_or_eq_of_mem_set member with before | isAfter
    · exact passed.spawning market before
    · exact (sources.spawning market isAfter.symm).2
  · intro tag market isRunning
    rcases sources.running tag market isRunning with before | rfl
    · exact passed.running tag market before
    · exact passed.spawning market (List.mem_of_getElem? isRequest)

theorem Passed.arrive (passed : Passed validate world) {request : Request}
    (quiet : ∀ market, request ≠ .spawning market) :
    Passed validate { world with requests := world.requests ++ [request] } := by
  refine ⟨passed.stored, ?_, passed.running⟩
  intro market member
  rcases List.mem_append.mp member with before | isRequest
  · exact passed.spawning market before
  · exact absurd (List.mem_singleton.mp isRequest).symm (quiet market)

theorem Passed.step {action : Action} (passed : Passed validate world)
    (taken : Markets.step validate world action = some next) :
    Passed validate next := by
  cases action with
  | add input now =>
      cases taken
      exact passed.arrive (by simp)
  | remove tag =>
      cases taken
      exact passed.arrive (by simp)
  | advance place =>
      rcases exists_advance taken with
        ⟨request, state, after, isRequest, moved, rfl⟩
      exact passed.advance isRequest (sources_of_moves (moves_of_advance moved))
  | fail place failure =>
      rcases exists_fail taken with
        ⟨request, state, after, isRequest, failed, rfl⟩
      exact passed.advance isRequest (sources_of_fails (fails_of_fail failed))
  | report tag status =>
      cases taken
      refine ⟨passed.stored, passed.spawning, ?_⟩
      intro other market isRunning
      apply passed.running other market
      rw [← isRunning]
      exact (FeedRegistry.running_report _ _ _ _).symm

/-- A server that starts with documents that have passed. -/
theorem passed_start (config : Config) {markets : Collection}
    (stored : ∀ tag market, markets.find tag = some market →
      validate market = []) :
    Passed validate (World.start config markets) := by
  refine ⟨stored, ?_, ?_⟩
  · intro market member
    cases member
  · intro tag market isRunning
    exact stored tag market ((running_start config markets tag).symm.trans
      isRunning)

theorem passed_of_run {actions : List Action} (passed : Passed validate world)
    (reached : run (Markets.step validate) world actions = some next) :
    Passed validate next :=
  invariant_of_run (Passed validate)
    (fun _ _ _ passed taken => passed.step taken) passed reached

end Runs

/-! ## The products that are stored -/

/-- Documents that were stored through the server, over all its restarts. -/
inductive Served (validate : Market → List String) : Collection → Prop where
  | nothing : Served validate .empty
  | served {config : Config} {markets : Collection} {actions : List Action}
      {world : World} (before : Served validate markets)
      (reached : run (step validate) (World.start config markets) actions =
        some world) :
      Served validate world.state.markets

theorem Served.passed {validate : Market → List String} {markets : Collection}
    (served : Served validate markets) :
    ∀ tag market, markets.find tag = some market → validate market = [] := by
  induction served with
  | nothing =>
      intro tag market isStored
      simp [Collection.find, Collection.empty] at isStored
  | served before reached ih =>
      exact (passed_of_run (passed_start _ ih) reached).stored

/-- The validator finds something wrong with what the schema does not allow. -/
def Validates (validate : Market → List String) : Prop :=
  ∀ market, validate market = [] → marketSpec.Valid market.toValue

theorem Validates.task {validate : Market → List String}
    (validates : Validates validate) {market : Market} {product : String}
    (passed : validate market = [])
    (isProduct : market.coinbaseProduct = some product) :
    coinbaseTask market = some product := by
  have conforms := (valid_market_iff market).mp (validates market passed)
  exact coinbaseTask_of_valid isProduct
    (conforms.coinbaseProduct product isProduct)

/-- No product that the server holds is refused by a spawn. -/
structure ProductsFed (world : World) : Prop where
  stored : ∀ tag market product, world.stored tag = some market →
    market.coinbaseProduct = some product → GetsCoinbaseFeed market product
  spawning : ∀ market product, .spawning market ∈ world.requests →
    market.coinbaseProduct = some product → GetsCoinbaseFeed market product
  running : ∀ tag market product, world.running tag = some market →
    market.coinbaseProduct = some product → coinbaseTask market = some product
  refused : ∀ product, validCoinbaseProduct product = false →
    ∀ tag market, world.stored tag = some market →
      market.coinbaseProduct ≠ some product

theorem Passed.productsFed {validate : Market → List String} {world : World}
    (validates : Validates validate) (passed : Passed validate world) :
    ProductsFed world := by
  constructor
  · intro tag market product isStored isProduct
    have valid := passed.stored tag market isStored
    exact getsCoinbaseFeed_of_task (validates.task valid isProduct)
  · intro market product member isProduct
    have valid := passed.spawning market member
    exact getsCoinbaseFeed_of_task (validates.task valid isProduct)
  · intro tag market product isRunning isProduct
    exact validates.task (passed.running tag market isRunning) isProduct
  · intro product refused tag market isStored isProduct
    have task := validates.task (passed.stored tag market isStored) isProduct
    rw [coinbaseTask, isProduct, Option.filter_some, refused] at task
    cases task

/--
The check by hand accepts the strings that match the pattern as a whole.  So
no stored product is refused by a spawn, in every run of the server; and if no
step on a tag is disturbed, its stored product has its feed in the end.
-/
theorem validCoinbaseProduct_pattern (validate : Market → List String)
    (validates : Validates validate) :
    (∃ body, Pattern.ofText coinbaseProductPattern.toList =
        some ⟨true, body, true⟩ ∧
      ∀ product : String, validCoinbaseProduct product = true ↔
        product.toList ∈ body.matches') ∧
    ∀ (config : Config) (markets : Collection) (actions : List Action)
      (world : World), Served validate markets →
        run (step validate) (World.start config markets) actions =
            some world →
          ProductsFed world ∧
            ∀ tag, Guarded (step validate) (Clear validate tag)
                (World.start config markets) actions →
              Finished tag world →
                ∀ market product, world.stored tag = some market →
                  market.coinbaseProduct = some product →
                    world.running tag = some market ∧
                      coinbaseTask market = some product := by
  constructor
  · refine ⟨_, read_coinbaseProductPattern, ?_⟩
    intro product
    rw [validCoinbaseProduct_iff, accepts_whole read_coinbaseProductPattern]
  · intro config markets actions world served reached
    have passed := passed_of_run (passed_start config served.passed) reached
    refine ⟨passed.productsFed validates, ?_⟩
    intro tag clear finished market product isStored isProduct
    have agree : Agree tag world :=
      invariant_of_guarded (Agree tag)
        (fun _ _ _ agree clear taken => agree.step clear taken)
        (agree_start config markets tag) clear reached
    refine ⟨(agree.finished finished).trans isStored, ?_⟩
    exact validates.task (passed.stored tag market isStored) isProduct

/-- A market with a product is added. -/
def productActions : List Action :=
  [.add { addSeries "KXBTC15M" with coinbaseProduct := some "BTC-USD" }
      "2026-09-18T13:00:00+00:00",
    .advance 0, .advance 0, .advance 0, .advance 0]

/-- What the validator answers of the market that is added. -/
def btcUsdErrors (market : Market) : List String :=
  if market = btcUsd then []
  else ["/coinbase_product: not \"BTC-USD\""]

theorem validates_btcUsdErrors : Validates btcUsdErrors := by
  intro market passed
  rw [btcUsdErrors] at passed
  split at passed
  next same =>
    rw [same]
    exact (valid_market_iff btcUsd).mpr conforms_btcUsd
  next => cases passed

theorem validCoinbaseProduct_pattern_btcUsd :
    ∃ world,
      run (step btcUsdErrors) (World.start testConfig .empty)
          productActions = some world ∧
        world.stored "btc-15m" = some btcUsd ∧
        world.running "btc-15m" = some btcUsd ∧
        coinbaseTask btcUsd = some "BTC-USD" := by
  have runs :
      (run (step btcUsdErrors) (World.start testConfig .empty)
        productActions).map (fun world =>
          (world.stored "btc-15m", decide (Finished "btc-15m" world))) =
        some (some btcUsd, true) := by
    decide +kernel
  rcases Option.map_eq_some_iff.mp runs with ⟨world, reached, ends⟩
  simp only [Prod.mk.injEq] at ends
  rcases ends with ⟨stored, finished⟩
  have pattern := validCoinbaseProduct_pattern btcUsdErrors
    validates_btcUsdErrors
  have fed := (pattern.2 testConfig .empty productActions world .nothing
    reached).2 "btc-15m" (by decide +kernel) (of_decide_eq_true finished)
    btcUsd "BTC-USD" stored rfl
  exact ⟨world, reached, stored, fed⟩

end ChudMoney.Controllers.Products
