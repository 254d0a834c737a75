import ChudMoney.AppError
import ChudMoney.Feeds.Registry
import ChudMoney.Lib.Runs

/-!
# Concurrent requests that add and remove markets

`POST /add` is a find, an upsert and a spawn, and `DELETE /{tag}` a stop and a
delete, with no lock around them.  `advance` is the next such step of one
request, and a run is any interleaving of the steps of any requests.  A step
that calls MongoDB may also fail; then the request is answered with 500.

Documents and feeds of a tag agree in the end if every step finds the tag as
the step before it of the same request left it.  Two adds that both find the
tag free are already enough to part them.
-/

namespace ChudMoney.Controllers.Markets

open ChudMoney.Feeds.Registry
open ChudMoney.Feeds.Shared
open ChudMoney.Lib.Runs
open ChudMoney.Model

/-! ## The handlers, step by step -/

structure AppState where
  config : Config
  markets : Collection
  feeds : FeedRegistry

/-- The state in which the server starts to listen. -/
def AppState.start (config : Config) (markets : Collection) : AppState where
  config := config
  markets := markets
  feeds := markets.all.foldl
    (fun feeds market => (FeedRegistry.spawn feeds market).1) ∅

structure MarketView where
  market : Market
  feed : Option FeedStatus
  deriving DecidableEq

/-- Body of the response to `DELETE /{tag}`. -/
structure Removed where
  tag : String
  deleted : Bool
  feedStopped : Bool
  deriving DecidableEq

/-- Where a request is. -/
inductive Request where
  | adding (input : AddMarket) (now : String)
  | inserting (market : Market)
  | spawning (market : Market)
  | reporting (market : Market)
  | added (tag : String) (response : Except AppError MarketView)
  | removing (tag : String)
  | deleting (tag : String) (stopped : Bool)
  | removed (tag : String) (response : Except AppError Removed)
  deriving DecidableEq

namespace Request

def tag : Request → String
  | .adding input _ => input.tag
  | .inserting market | .spawning market | .reporting market => market.tag
  | .added tag _ | .removing tag | .deleting tag _ | .removed tag _ => tag

/-- The HTTP status of the response, once there is one. -/
def status : Request → Option Nat
  | .added _ (.ok _) => some 201
  | .removed _ (.ok _) => some 200
  | .added _ (.error e) | .removed _ (.error e) => some e.status
  | _ => none

end Request

/-- The error of an add for another Kalshi environment than the server's. -/
def envError (config : Config) (input : AddMarket) : Option AppError :=
  match input.kalshiEnv with
  | some env =>
      if env ≠ config.kalshiEnv then
        some (.badRequest s!"this server is configured for kalshi env '{config.kalshiEnv.asStr}'")
      else none
  | none => none

/-- The next step of a request; `none` once it is answered. -/
def advance (validate : Market → List String) (state : AppState) :
    Request → Option (AppState × Request)
  | .adding input now =>
      match envError state.config input with
      | some e => some (state, .added input.tag (.error e))
      | none =>
          let market := Market.fromAdd input state.config now
          match state.markets.find market.tag with
          | some _ =>
              some (state, .added market.tag
                (.error (.conflict s!"market '{market.tag}' already exists")))
          | none => some (state, .inserting market)
  | .inserting market =>
      match state.markets.upsert validate market with
      | .ok markets => some ({ state with markets := markets }, .spawning market)
      | .error e => some (state, .added market.tag (.error (.model e)))
  | .spawning market =>
      some ({ state with feeds := (FeedRegistry.spawn state.feeds market).1 },
        .reporting market)
  | .reporting market =>
      some (state, .added market.tag
        (.ok ⟨market, FeedRegistry.status state.feeds market.tag⟩))
  | .removing tag =>
      let (feeds, stopped) := FeedRegistry.stop state.feeds tag
      some ({ state with feeds := feeds }, .deleting tag stopped)
  | .deleting tag stopped =>
      let (markets, deleted) := state.markets.delete tag
      some ({ state with markets := markets },
        .removed tag
          (if !deleted && !stopped then
            .error (.notFound s!"market '{tag}'")
          else .ok ⟨tag, deleted, stopped⟩))
  | .added .. | .removed .. => none

/-- A call to MongoDB that fails. -/
structure Failure where
  message : String
  /-- A write was made, but its answer was lost. -/
  written : Bool

/-- The next step of a request, if it calls MongoDB and the call fails. -/
def fail (validate : Market → List String) (state : AppState)
    (failure : Failure) : Request → Option (AppState × Request)
  | .adding input _ =>
      match envError state.config input with
      | some _ => none
      | none =>
          some (state, .added input.tag
            (.error (.model (.mongo failure.message))))
  | .inserting market =>
      match state.markets.upsert validate market with
      | .ok markets =>
          some (if failure.written then { state with markets := markets }
              else state,
            .added market.tag (.error (.model (.mongo failure.message))))
      | .error _ => none
  | .deleting tag _ =>
      some (if failure.written then
            { state with markets := (state.markets.delete tag).1 }
          else state,
        .removed tag (.error (.model (.mongo failure.message))))
  | .spawning _ | .reporting _ | .removing _ => none
  | .added .. | .removed .. => none

/-! ## Interleavings -/

/-- The server and the requests that it has received. -/
structure World where
  state : AppState
  requests : List Request

def World.start (config : Config) (markets : Collection) : World :=
  ⟨.start config markets, []⟩

namespace World

/-- The document stored under a tag. -/
def stored (world : World) (tag : String) : Option Market :=
  world.state.markets.find tag

/-- The market whose feed is running under a tag. -/
def running (world : World) (tag : String) : Option Market :=
  FeedRegistry.running world.state.feeds tag

end World

inductive Action where
  | add (input : AddMarket) (now : String)
  | remove (tag : String)
  | advance (place : Nat)
  | fail (place : Nat) (failure : Failure)
  | report (tag : String) (status : FeedStatus)

/-- A request arrives, takes a step or fails, or a feed reports its status. -/
def step (validate : Market → List String) (world : World) :
    Action → Option World
  | .add input now =>
      some { world with requests := world.requests ++ [.adding input now] }
  | .remove tag =>
      some { world with requests := world.requests ++ [.removing tag] }
  | .advance place =>
      (world.requests[place]?).bind fun request =>
        (Markets.advance validate world.state request).map fun (state, next) =>
          ⟨state, world.requests.set place next⟩
  | .fail place failure =>
      (world.requests[place]?).bind fun request =>
        (Markets.fail validate world.state failure request).map
          fun (state, next) => ⟨state, world.requests.set place next⟩
  | .report tag status =>
      some { world with
        state := { world.state with
          feeds := FeedRegistry.report world.state.feeds tag status } }

/-! ## Steps that nothing came before -/

/--
A step of a request on `tag` that finds the tag as its request left it: an
upsert still finds no document, a spawn that starts a feed still finds the
document of its request, and a delete still finds no feed.
-/
def Undisturbed (validate : Market → List String) (tag : String)
    (world : World) : Request → Prop
  | .inserting market =>
      market.tag = tag → validate market = [] → world.stored tag = none
  | .spawning market =>
      market.tag = tag → world.running tag = none →
        world.stored tag = some market
  | .deleting other _ => other = tag → world.running tag = none
  | _ => True

/-- No step of a request on `tag` is disturbed, and its calls succeed. -/
def Clear (validate : Market → List String) (tag : String) (world : World) :
    Action → Prop
  | .advance place =>
      ∀ request ∈ world.requests[place]?, Undisturbed validate tag world request
  | .fail place _ => ∀ request ∈ world.requests[place]?, request.tag ≠ tag
  | _ => True

instance (validate : Market → List String) (tag : String) (world : World) :
    ∀ request, Decidable (Undisturbed validate tag world request)
  | .inserting market =>
      inferInstanceAs (Decidable
        (market.tag = tag → validate market = [] → world.stored tag = none))
  | .spawning market =>
      inferInstanceAs (Decidable
        (market.tag = tag → world.running tag = none →
          world.stored tag = some market))
  | .deleting other _ =>
      inferInstanceAs (Decidable (other = tag → world.running tag = none))
  | .adding .. | .reporting _ | .added .. | .removing _ | .removed .. =>
      isTrue trivial

instance (validate : Market → List String) (tag : String) (world : World) :
    ∀ action, Decidable (Clear validate tag world action)
  | .advance place =>
      inferInstanceAs (Decidable (∀ request ∈ world.requests[place]?,
        Undisturbed validate tag world request))
  | .fail place _ =>
      inferInstanceAs (Decidable (∀ request ∈ world.requests[place]?,
        request.tag ≠ tag))
  | .add .. | .remove _ | .report .. => isTrue trivial

/--
An action by which no market of `tag` is removed, and none added that the
server would refuse for its Kalshi environment or its schema.
-/
def Adds (validate : Market → List String) (config : Config) (tag : String) :
    Action → Prop
  | .add input now =>
      input.tag = tag → envError config input = none ∧
        validate (Market.fromAdd input config now) = []
  | .remove other => other ≠ tag
  | _ => True

instance (validate : Market → List String) (config : Config) (tag : String) :
    ∀ action, Decidable (Adds validate config tag action)
  | .add input now =>
      inferInstanceAs (Decidable (input.tag = tag →
        envError config input = none ∧
          validate (Market.fromAdd input config now) = []))
  | .remove other => inferInstanceAs (Decidable (other ≠ tag))
  | .advance _ | .fail .. | .report .. => isTrue trivial

/-! ## What a step does -/

/-- The steps of requests, one for each branch of a handler. -/
inductive Moves (validate : Market → List String) (state : AppState) :
    Request → AppState → Request → Prop where
  | refused {input : AddMarket} {now : String} {e : AppError}
      (wrong : envError state.config input = some e) :
      Moves validate state (.adding input now) state
        (.added input.tag (.error e))
  | conflicted {input : AddMarket} {now message : String} {document : Market}
      (right : envError state.config input = none)
      (found : state.markets.find input.tag = some document) :
      Moves validate state (.adding input now) state
        (.added input.tag (.error (.conflict message)))
  | cleared {input : AddMarket} {now : String}
      (right : envError state.config input = none)
      (free : state.markets.find input.tag = none) :
      Moves validate state (.adding input now) state
        (.inserting (Market.fromAdd input state.config now))
  | rejected {market : Market} {e : AppError} (invalid : validate market ≠ []) :
      Moves validate state (.inserting market) state
        (.added market.tag (.error e))
  | inserted {market : Market} (valid : validate market = []) :
      Moves validate state (.inserting market)
        { state with markets := state.markets.replaceOne market }
        (.spawning market)
  | spawned {market : Market} :
      Moves validate state (.spawning market)
        { state with feeds := (FeedRegistry.spawn state.feeds market).1 }
        (.reporting market)
  | reported {market : Market} {view : MarketView} :
      Moves validate state (.reporting market) state
        (.added market.tag (.ok view))
  | stopped {tag : String} {existed : Bool} :
      Moves validate state (.removing tag)
        { state with feeds := (FeedRegistry.stop state.feeds tag).1 }
        (.deleting tag existed)
  | deleted {tag : String} {existed : Bool}
      {response : Except AppError Removed} :
      Moves validate state (.deleting tag existed)
        { state with markets := (state.markets.delete tag).1 }
        (.removed tag response)

theorem moves_of_advance {validate : Market → List String}
    {state after : AppState} {request next : Request}
    (taken : advance validate state request = some (after, next)) :
    Moves validate state request after next := by
  cases request with
  | adding input now =>
      rw [advance] at taken
      split at taken
      next e wrong =>
        cases taken
        exact .refused wrong
      next right =>
        dsimp only at taken
        split at taken
        next document found =>
          cases taken
          exact .conflicted right found
        next free =>
          cases taken
          exact .cleared right free
  | inserting market =>
      rw [advance, Collection.upsert] at taken
      cases errors : validate market with
      | nil =>
          simp only [errors] at taken
          cases taken
          exact .inserted errors
      | cons first rest =>
          simp only [errors] at taken
          cases taken
          apply Moves.rejected
          rw [errors]
          exact List.cons_ne_nil first rest
  | spawning market =>
      cases taken
      exact .spawned
  | reporting market =>
      cases taken
      exact .reported
  | removing tag =>
      cases taken
      exact .stopped
  | deleting tag existed =>
      cases taken
      exact .deleted
  | added _ _ => cases taken
  | removed _ _ => cases taken

/-- A call that fails was made or lost, and its request is answered. -/
structure Fails (validate : Market → List String) (state : AppState)
    (request : Request) (after : AppState) (next : Request) : Prop where
  answered : next.status = some 500
  tag : next.tag = request.tag
  effect : after = state ∨ ∃ done, Moves validate state request after done

theorem fails_of_fail {validate : Market → List String}
    {state after : AppState} {failure : Failure} {request next : Request}
    (taken : fail validate state failure request = some (after, next)) :
    Fails validate state request after next := by
  cases request with
  | adding input now =>
      rw [fail] at taken
      split at taken
      · cases taken
      · cases taken
        exact ⟨rfl, rfl, .inl rfl⟩
  | inserting market =>
      rw [fail, Collection.upsert] at taken
      cases errors : validate market with
      | nil =>
          simp only [errors] at taken
          cases taken
          refine ⟨rfl, rfl, ?_⟩
          split
          · exact .inr ⟨_, .inserted errors⟩
          · exact .inl rfl
      | cons first rest =>
          simp only [errors] at taken
          cases taken
  | deleting tag existed =>
      cases taken
      refine ⟨rfl, rfl, ?_⟩
      split
      · exact .inr ⟨.removed tag (.ok ⟨tag, false, false⟩), .deleted⟩
      · exact .inl rfl
  | spawning _ | reporting _ | removing _ => cases taken
  | added _ _ | removed _ _ => cases taken

/-! ### Steps on another tag -/

theorem tag_of_moves {validate : Market → List String}
    {state after : AppState} {request next : Request}
    (moves : Moves validate state request after next) :
    next.tag = request.tag ∧ after.config = state.config := by
  cases moves <;> exact ⟨rfl, rfl⟩

/-- A step of a request leaves the documents of other tags alone. -/
theorem find_of_moves_ne {validate : Market → List String}
    {state after : AppState} {request next : Request} {tag : String}
    (other : request.tag ≠ tag)
    (moves : Moves validate state request after next) :
    after.markets.find tag = state.markets.find tag := by
  cases moves with
  | refused | conflicted | cleared | rejected => rfl
  | spawned | reported | stopped => rfl
  | @inserted market valid =>
      have different : market.tag ≠ tag := other
      rw [Collection.find_replaceOne, if_neg different]
  | @deleted removed existed response =>
      have different : removed ≠ tag := other
      rw [Collection.find_delete, if_neg different]

/-- A step of a request leaves the feeds of other tags alone. -/
theorem running_of_moves_ne {validate : Market → List String}
    {state after : AppState} {request next : Request} {tag : String}
    (other : request.tag ≠ tag)
    (moves : Moves validate state request after next) :
    FeedRegistry.running after.feeds tag =
      FeedRegistry.running state.feeds tag := by
  cases moves with
  | refused | conflicted | cleared | rejected | inserted => rfl
  | reported | deleted => rfl
  | @spawned market =>
      have different : market.tag ≠ tag := other
      rw [FeedRegistry.running_spawn, if_neg different]
  | @stopped stopped existed =>
      have different : stopped ≠ tag := other
      rw [FeedRegistry.running_stop, if_neg different]

/-- What a step of a request on another tag leaves as it was. -/
structure Beside (tag : String) (state : AppState) (request : Request)
    (after : AppState) (next : Request) : Prop where
  sameTag : next.tag = request.tag
  config : after.config = state.config
  stored : after.markets.find tag = state.markets.find tag
  running : FeedRegistry.running after.feeds tag =
    FeedRegistry.running state.feeds tag

theorem Moves.beside {validate : Market → List String}
    {state after : AppState} {request next : Request} {tag : String}
    (moves : Moves validate state request after next)
    (other : request.tag ≠ tag) : Beside tag state request after next :=
  ⟨(tag_of_moves moves).1, (tag_of_moves moves).2,
    find_of_moves_ne other moves, running_of_moves_ne other moves⟩

theorem Fails.config {validate : Market → List String}
    {state after : AppState} {request next : Request}
    (fails : Fails validate state request after next) :
    after.config = state.config := by
  rcases fails.effect with rfl | ⟨done, moves⟩
  · rfl
  · exact (tag_of_moves moves).2

theorem Fails.beside {validate : Market → List String}
    {state after : AppState} {request next : Request} {tag : String}
    (fails : Fails validate state request after next)
    (other : request.tag ≠ tag) : Beside tag state request after next := by
  rcases fails.effect with rfl | ⟨done, moves⟩
  · exact ⟨fails.tag, rfl, rfl, rfl⟩
  · exact { moves.beside other with sameTag := fails.tag }

/-! ### Steps of the server -/

theorem exists_advance {validate : Market → List String} {world next : World}
    {place : Nat}
    (taken : step validate world (.advance place) = some next) :
    ∃ request state after, world.requests[place]? = some request ∧
      advance validate world.state request = some (state, after) ∧
      next = ⟨state, world.requests.set place after⟩ := by
  rcases Option.bind_eq_some_iff.mp taken with ⟨request, isRequest, taken⟩
  rcases Option.map_eq_some_iff.mp taken with ⟨⟨state, after⟩, moved, rfl⟩
  exact ⟨request, state, after, isRequest, moved, rfl⟩

theorem exists_fail {validate : Market → List String} {world next : World}
    {place : Nat} {failure : Failure}
    (taken : step validate world (.fail place failure) = some next) :
    ∃ request state after, world.requests[place]? = some request ∧
      fail validate world.state failure request = some (state, after) ∧
      next = ⟨state, world.requests.set place after⟩ := by
  rcases Option.bind_eq_some_iff.mp taken with ⟨request, isRequest, taken⟩
  rcases Option.map_eq_some_iff.mp taken with ⟨⟨state, after⟩, failed, rfl⟩
  exact ⟨request, state, after, isRequest, failed, rfl⟩

/-! ## Documents and feeds -/

theorem mem_set_of_ne {requests : List Request} {place : Nat}
    {request other next : Request}
    (isRequest : requests[place]? = some request)
    (member : other ∈ requests) (different : other ≠ request) :
    other ∈ requests.set place next := by
  rcases List.mem_iff_getElem?.mp member with ⟨index, isOther⟩
  have elsewhere : place ≠ index := by
    rintro rfl
    rw [isRequest] at isOther
    exact different (Option.some.inj isOther).symm
  apply List.mem_iff_getElem?.mpr
  exact ⟨index, by rw [List.getElem?_set_ne elsewhere, isOther]⟩

theorem mem_set_self {requests : List Request} {place : Nat}
    {request : Request} (isRequest : requests[place]? = some request)
    (next : Request) : next ∈ requests.set place next := by
  rcases List.getElem?_eq_some_iff.mp isRequest with ⟨bound, -⟩
  exact List.mem_set bound next

/-- The request is about to start the feed of a document or to delete it. -/
def Settles (tag : String) (market : Market) (request : Request) : Prop :=
  request = .spawning market ∨ ∃ stopped, request = .deleting tag stopped

/--
A running feed has the document of its tag, and a document without a feed is
being dealt with.
-/
structure Agree (tag : String) (world : World) : Prop where
  running : ∀ market, world.running tag = some market →
    world.stored tag = some market
  stored : ∀ market, world.stored tag = some market →
    world.running tag = none →
      ∃ request ∈ world.requests, Settles tag market request

section Advance

variable {tag : String} {world : World} {place : Nat} {request : Request}
variable (isRequest : world.requests[place]? = some request)

include isRequest

/-- A step that changes neither feed nor document of the tag. -/
theorem Agree.keep (agree : Agree tag world) {state : AppState}
    (next : Request)
    (running : FeedRegistry.running state.feeds tag = world.running tag)
    (stored : state.markets.find tag = world.stored tag)
    (idle : ∀ market, world.stored tag = some market →
      ¬ Settles tag market request) :
    Agree tag ⟨state, world.requests.set place next⟩ := by
  constructor
  · intro market isRunning
    show state.markets.find tag = some market
    rw [stored]
    exact agree.running market (running.symm.trans isRunning)
  · intro market isStored notRunning
    have isStored : world.stored tag = some market :=
      stored.symm.trans isStored
    rcases agree.stored market isStored (running.symm.trans notRunning) with
      ⟨other, member, settles⟩
    refine ⟨other, mem_set_of_ne isRequest member ?_, settles⟩
    rintro rfl
    exact idle market isStored settles

/-- A step of a request on another tag. -/
theorem Agree.elsewhere (agree : Agree tag world) {state : AppState}
    {next : Request} (other : request.tag ≠ tag)
    (beside : Beside tag world.state request state next) :
    Agree tag ⟨state, world.requests.set place next⟩ := by
  apply agree.keep isRequest _ beside.running beside.stored
  rintro market isStored (rfl | ⟨stopped, rfl⟩)
  · exact other (Collection.tag_of_find isStored)
  · exact other rfl

omit isRequest in
/-- A tag that has neither a feed nor a document. -/
theorem agree_of_none {state : AppState} {requests : List Request}
    (running : FeedRegistry.running state.feeds tag = none)
    (stored : state.markets.find tag = none) :
    Agree tag ⟨state, requests⟩ := by
  constructor
  · intro market isRunning
    have isRunning : FeedRegistry.running state.feeds tag = some market :=
      isRunning
    rw [running] at isRunning
    cases isRunning
  · intro market isStored
    have isStored : state.markets.find tag = some market := isStored
    rw [stored] at isStored
    cases isStored

/-- A document without a feed whose request goes on to settle it. -/
theorem agree_of_settling {state : AppState} {next : Request}
    (running : FeedRegistry.running state.feeds tag = none)
    (settles : ∀ market, state.markets.find tag = some market →
      Settles tag market next) :
    Agree tag ⟨state, world.requests.set place next⟩ := by
  constructor
  · intro market isRunning
    have isRunning : FeedRegistry.running state.feeds tag = some market :=
      isRunning
    rw [running] at isRunning
    cases isRunning
  · intro market isStored _
    exact ⟨next, mem_set_self isRequest next, settles market isStored⟩

omit isRequest in
/-- A feed is started for the document of its tag, unless one is running. -/
theorem Agree.spawned (agree : Agree tag world) {state : AppState}
    {requests : List Request} {market : Market}
    (running : FeedRegistry.running state.feeds tag =
      (world.running tag).or (some market))
    (stored : state.markets.find tag = world.stored tag)
    (own : world.running tag = none → world.stored tag = some market) :
    Agree tag ⟨state, requests⟩ := by
  constructor
  · intro other isRunning
    have isRunning := running.symm.trans isRunning
    apply stored.trans
    cases was : world.running tag with
    | some before =>
        rw [was] at isRunning
        exact agree.running other (was.trans isRunning)
    | none =>
        rw [was] at isRunning
        cases isRunning
        exact own was
  · intro other _ notRunning
    have notRunning := running.symm.trans notRunning
    simp at notRunning

omit isRequest in
/-- A free tag has no feed. -/
theorem Agree.quiet (agree : Agree tag world)
    (free : world.stored tag = none) : world.running tag = none := by
  cases isRunning : world.running tag with
  | none => rfl
  | some market =>
      have stored := agree.running market isRunning
      rw [free] at stored
      cases stored

/-- One step of a request. -/
theorem Agree.advance {validate : Market → List String}
    (agree : Agree tag world)
    (undisturbed : Undisturbed validate tag world request)
    {state : AppState} {next : Request}
    (moves : Moves validate world.state request state next) :
    Agree tag ⟨state, world.requests.set place next⟩ := by
  have elsewhere := fun other : request.tag ≠ tag =>
    agree.elsewhere isRequest other (moves.beside other)
  cases moves with
  | refused | conflicted | cleared | rejected | reported =>
      apply agree.keep isRequest _ rfl rfl
      rintro market - (same | ⟨_, same⟩) <;> cases same
  | @inserted market valid =>
      by_cases same : market.tag = tag
      · apply agree_of_settling isRequest
        · exact agree.quiet (undisturbed same valid)
        · intro other isStored
          rw [Collection.find_replaceOne, if_pos same] at isStored
          cases isStored
          exact .inl rfl
      · exact elsewhere same
  | @spawned market =>
      by_cases same : market.tag = tag
      · apply agree.spawned
        · rw [FeedRegistry.running_spawn, if_pos same]
          rfl
        · rfl
        · exact undisturbed same
      · exact elsewhere same
  | @stopped other existed =>
      by_cases same : other = tag
      · subst same
        apply agree_of_settling isRequest
        · rw [FeedRegistry.running_stop, if_pos rfl]
        · exact fun market _ => .inr ⟨_, rfl⟩
      · exact elsewhere same
  | @deleted other existed response =>
      by_cases same : other = tag
      · apply agree_of_none
        · exact undisturbed same
        · rw [Collection.find_delete, if_pos same]
      · exact elsewhere same

end Advance

theorem Agree.step {validate : Market → List String} {tag : String}
    {world next : World} {action : Action} (agree : Agree tag world)
    (clear : Clear validate tag world action)
    (taken : Markets.step validate world action = some next) :
    Agree tag next := by
  have more : ∀ request,
      Agree tag { world with requests := world.requests ++ [request] } := by
    intro request
    refine ⟨agree.running, ?_⟩
    intro market isStored notRunning
    rcases agree.stored market isStored notRunning with
      ⟨other, member, settles⟩
    exact ⟨other, List.mem_append_left _ member, settles⟩
  cases action with
  | add input now =>
      cases taken
      exact more _
  | remove other =>
      cases taken
      exact more _
  | advance place =>
      rcases exists_advance taken with
        ⟨request, state, after, isRequest, moved, rfl⟩
      exact agree.advance isRequest (clear request isRequest)
        (moves_of_advance moved)
  | fail place failure =>
      rcases exists_fail taken with
        ⟨request, state, after, isRequest, failed, rfl⟩
      have other := clear request isRequest
      exact agree.elsewhere isRequest other
        ((fails_of_fail failed).beside other)
  | report other status =>
      cases taken
      have same : FeedRegistry.running
          (FeedRegistry.report world.state.feeds other status) tag =
            world.running tag :=
        FeedRegistry.running_report _ _ _ _
      constructor
      · intro market isRunning
        exact agree.running market (same.symm.trans isRunning)
      · intro market isStored notRunning
        exact agree.stored market isStored (same.symm.trans notRunning)

/-! ## The start -/

/-- The feeds of documents that are spawned in some order. -/
theorem running_foldl_spawn {markets : Collection} (order : List Market)
    (stored : ∀ market ∈ order, markets.find market.tag = some market)
    (feeds : FeedRegistry) (tag : String) :
    FeedRegistry.running
        (order.foldl (fun feeds market =>
          (FeedRegistry.spawn feeds market).1) feeds) tag =
      (FeedRegistry.running feeds tag).or
        (if tag ∈ order.map Market.tag then markets.find tag else none) := by
  induction order generalizing feeds with
  | nil => simp
  | cons market order ih =>
      have first := stored market List.mem_cons_self
      rw [List.foldl_cons, ih fun other member =>
        stored other (List.mem_cons_of_mem _ member),
        FeedRegistry.running_spawn]
      by_cases same : market.tag = tag
      · subst same
        rw [if_pos rfl, first]
        cases FeedRegistry.running feeds market.tag <;> simp
      · have other : ¬ tag = market.tag := Ne.symm same
        simp only [if_neg same, List.map_cons, List.mem_cons, other,
          false_or]

/-- When the server starts to listen, every document has its feed. -/
theorem running_start (config : Config) (markets : Collection)
    (tag : String) :
    FeedRegistry.running (AppState.start config markets).feeds tag =
      markets.find tag := by
  have stored : ∀ market ∈ markets.all,
      markets.find market.tag = some market := by
    intro market member
    rcases List.mem_map.mp member with ⟨⟨tag, document⟩, entry, rfl⟩
    have isStored : markets.find tag = some document :=
      Std.ExtTreeMap.mem_toList_iff_getElem?_eq_some.mp entry
    show markets.find document.tag = some document
    rw [Collection.tag_of_find isStored]
    exact isStored
  show FeedRegistry.running (markets.all.foldl _ ∅) tag = _
  rw [running_foldl_spawn markets.all stored]
  have nothing : FeedRegistry.running ∅ tag = none := by
    rw [FeedRegistry.running, Std.ExtTreeMap.getElem?_empty]
    rfl
  rw [nothing, Option.none_or]
  split
  · rfl
  next absent =>
    cases found : markets.find tag with
    | none => rfl
    | some market =>
        have member : market ∈ markets.all :=
          List.mem_map_of_mem
            (Std.ExtTreeMap.mem_toList_iff_getElem?_eq_some.mpr found)
        rw [← Collection.tag_of_find found] at absent
        exact absurd (List.mem_map_of_mem member) absent

theorem agree_start (config : Config) (markets : Collection) (tag : String) :
    Agree tag (World.start config markets) := by
  have same : (World.start config markets).running tag =
      (World.start config markets).stored tag :=
    running_start config markets tag
  constructor
  · intro market isRunning
    exact same.symm.trans isRunning
  · intro market isStored notRunning
    rw [same, isStored] at notRunning
    cases notRunning

/-! ## How adds of a free tag are answered -/

/-- The request has not yet written to the collection. -/
def Request.early : Request → Bool
  | .adding .. | .inserting _ => true
  | _ => false

/-- The request has upserted its market, and will be or is answered so. -/
def Request.holds : Request → Bool
  | .spawning _ | .reporting _ | .added _ (.ok _) => true
  | _ => false

/-- An add that is refused for a conflict only. -/
def Accepted (validate : Market → List String) (config : Config) :
    Request → Prop
  | .adding input now => envError config input = none ∧
      validate (Market.fromAdd input config now) = []
  | .inserting market => validate market = []
  | .spawning _ | .reporting _ | .added _ (.ok _) => True
  | .added _ (.error e) => ∃ message, e = .conflict message
  | _ => False

/-- The requests on the tag that hold it. -/
def holders (tag : String) (requests : List Request) : Nat :=
  requests.countP fun request => request.tag = tag && request.holds

/-- While the tag is free none holds it, and one does once it is taken. -/
structure Tally (validate : Market → List String) (config : Config)
    (tag : String) (world : World) : Prop where
  configured : world.state.config = config
  accepted : ∀ request ∈ world.requests, request.tag = tag →
    Accepted validate config request
  free : world.stored tag = none →
    ∀ request ∈ world.requests, request.tag = tag → request.early = true
  held : world.stored tag ≠ none → holders tag world.requests = 1

section Tally

variable {validate : Market → List String} {config : Config} {tag : String}
variable {world : World} {place : Nat} {request : Request}
variable (isRequest : world.requests[place]? = some request)

include isRequest

theorem holders_set (tag : String) (next : Request) :
    holders tag (world.requests.set place next) +
        (if request.tag = tag && request.holds then 1 else 0) =
      holders tag world.requests +
        if next.tag = tag && next.holds then 1 else 0 := by
  rcases List.getElem?_eq_some_iff.mp isRequest with ⟨bound, isRequest⟩
  rw [holders, holders, List.countP_set bound, isRequest]
  by_cases holds : (decide (request.tag = tag) && request.holds) = true
  · have positive : 0 < world.requests.countP fun request =>
        request.tag = tag && request.holds :=
      List.countP_pos_iff.mpr ⟨request, List.mem_of_getElem isRequest, holds⟩
    rw [if_pos holds]
    omega
  · rw [if_neg holds]
    omega

/-- A step by which no document comes or goes. -/
theorem Tally.keep (tally : Tally validate config tag world)
    {state : AppState} {next : Request}
    (sameTag : next.tag = request.tag)
    (sameConfig : state.config = world.state.config)
    (stored : state.markets.find tag = world.stored tag)
    (accepted : request.tag = tag → Accepted validate config next)
    (holds : request.tag = tag → next.holds = request.holds)
    (early : request.tag = tag → world.stored tag = none →
      next.early = true) :
    Tally validate config tag ⟨state, world.requests.set place next⟩ := by
  constructor
  · exact sameConfig.trans tally.configured
  · intro other member about
    rcases List.mem_or_eq_of_mem_set member with old | new
    · exact tally.accepted other old about
    · rw [new] at about ⊢
      exact accepted (sameTag.symm.trans about)
  · intro free other member about
    have wasFree : world.stored tag = none := stored.symm.trans free
    rcases List.mem_or_eq_of_mem_set member with old | new
    · exact tally.free wasFree other old about
    · rw [new] at about ⊢
      exact early (sameTag.symm.trans about) wasFree
  · intro taken
    have taken : world.stored tag ≠ none := fun free =>
      taken (stored.trans free)
    have one := tally.held taken
    have moved := holders_set isRequest tag next
    by_cases about : request.tag = tag
    · rw [sameTag, holds about, one] at moved
      show holders tag (world.requests.set place next) = 1
      omega
    · rw [sameTag, one] at moved
      show holders tag (world.requests.set place next) = 1
      simpa [about] using moved

/-- A step of a request on another tag. -/
theorem Tally.elsewhere (tally : Tally validate config tag world)
    {state : AppState} {next : Request} (other : request.tag ≠ tag)
    (beside : Beside tag world.state request state next) :
    Tally validate config tag ⟨state, world.requests.set place next⟩ := by
  apply tally.keep isRequest beside.sameTag beside.config beside.stored
  · exact fun about => absurd about other
  · exact fun about => absurd about other
  · exact fun about => absurd about other

/-- An upsert on a free tag makes its request the one that holds it. -/
theorem Tally.inserted (tally : Tally validate config tag world)
    (free : world.stored tag = none) {state : AppState} {market : Market}
    (isInserting : request = .inserting market) (same : market.tag = tag)
    (sameConfig : state.config = world.state.config)
    (stored : state.markets.find tag = some market) :
    Tally validate config tag
      ⟨state, world.requests.set place (.spawning market)⟩ := by
  constructor
  · exact sameConfig.trans tally.configured
  · intro other member about
    rcases List.mem_or_eq_of_mem_set member with old | rfl
    · exact tally.accepted other old about
    · trivial
  · intro nowFree
    have nowFree : state.markets.find tag = none := nowFree
    rw [stored] at nowFree
    cases nowFree
  · intro _
    have none : holders tag world.requests = 0 := by
      apply List.countP_eq_zero.mpr
      intro other member holds
      rw [Bool.and_eq_true, decide_eq_true_iff] at holds
      have early := tally.free free other member holds.1
      cases other <;> simp_all [Request.early, Request.holds]
    have moved := holders_set isRequest tag (.spawning market)
    rw [none, isInserting] at moved
    show holders tag (world.requests.set place _) = 1
    simpa [Request.holds, Request.tag, same] using moved

/-- One step of a request. -/
theorem Tally.advance (tally : Tally validate config tag world)
    (undisturbed : Undisturbed validate tag world request)
    {state : AppState} {next : Request}
    (moves : Moves validate world.state request state next) :
    Tally validate config tag ⟨state, world.requests.set place next⟩ := by
  rcases tag_of_moves moves with ⟨sameTag, sameConfig⟩
  have elsewhere := fun other : request.tag ≠ tag =>
    tally.elsewhere isRequest other (moves.beside other)
  have accepted := tally.accepted _ (List.mem_of_getElem? isRequest)
  have early := fun free =>
    tally.free free _ (List.mem_of_getElem? isRequest)
  cases moves with
  | @refused input now e wrong =>
      have other : input.tag ≠ tag := by
        intro about
        rw [tally.configured, (accepted about).1] at wrong
        cases wrong
      exact elsewhere other
  | @conflicted input now message document right found =>
      apply tally.keep isRequest sameTag sameConfig rfl
      · exact fun _ => ⟨_, rfl⟩
      · exact fun _ => rfl
      · intro about free
        have about : input.tag = tag := about
        have found : world.stored input.tag = some document := found
        rw [about, free] at found
        cases found
  | cleared right free =>
      apply tally.keep isRequest sameTag sameConfig rfl
      · intro about
        rw [tally.configured]
        exact (accepted about).2
      · exact fun _ => rfl
      · exact fun _ _ => rfl
  | @rejected market e invalid =>
      exact elsewhere fun about => invalid (accepted about)
  | @inserted market valid =>
      by_cases same : market.tag = tag
      · have free := undisturbed same valid
        apply tally.inserted isRequest free rfl same sameConfig
        rw [Collection.find_replaceOne, if_pos same]
      · exact elsewhere same
  | spawned | reported =>
      apply tally.keep isRequest sameTag sameConfig rfl
      · exact fun _ => trivial
      · exact fun _ => rfl
      · intro about free
        cases early free about
  | stopped => exact elsewhere accepted
  | deleted => exact elsewhere accepted

end Tally

/-- A request that has not taken a step yet. -/
theorem Tally.arrive {validate : Market → List String} {config : Config}
    {tag : String} {world : World} (tally : Tally validate config tag world)
    {request : Request}
    (fresh : request.tag = tag → Accepted validate config request ∧
      request.early = true ∧ request.holds = false) :
    Tally validate config tag
      { world with requests := world.requests ++ [request] } := by
  constructor
  · exact tally.configured
  · intro other member about
    rcases List.mem_append.mp member with old | new
    · exact tally.accepted other old about
    · rw [List.mem_singleton.mp new] at about ⊢
      exact (fresh about).1
  · intro free other member about
    rcases List.mem_append.mp member with old | new
    · exact tally.free free other old about
    · rw [List.mem_singleton.mp new] at about ⊢
      exact (fresh about).2.1
  · intro taken
    show holders tag (world.requests ++ [request]) = 1
    have one := tally.held taken
    rw [holders] at one ⊢
    rw [List.countP_append, one, List.countP_singleton, if_neg]
    intro both
    rw [Bool.and_eq_true, decide_eq_true_iff] at both
    rw [(fresh both.1).2.2] at both
    cases both.2

/-! ## Runs -/

/-- All requests on a tag are answered. -/
def Finished (tag : String) (world : World) : Prop :=
  ∀ request ∈ world.requests, request.tag = tag → request.status.isSome

instance (tag : String) (world : World) : Decidable (Finished tag world) :=
  inferInstanceAs (Decidable (∀ request ∈ world.requests, _))

/-- The statuses with which requests on a tag are answered. -/
def answers (tag : String) (requests : List Request) : List Nat :=
  (requests.filter fun request => request.tag = tag).filterMap Request.status

theorem Agree.finished {tag : String} {world : World} (agree : Agree tag world)
    (finished : Finished tag world) : world.running tag = world.stored tag := by
  cases isStored : world.stored tag with
  | none =>
      cases isRunning : world.running tag with
      | none => rfl
      | some market =>
          have stored := agree.running market isRunning
          rw [isStored] at stored
          cases stored
  | some market =>
      cases isRunning : world.running tag with
      | some other =>
          rw [← agree.running other isRunning, isStored]
      | none =>
          rcases agree.stored market isStored isRunning with
            ⟨request, member, rfl | ⟨stopped, rfl⟩⟩
          · have answered := finished _ member
              (Collection.tag_of_find isStored)
            cases answered
          · have answered := finished _ member rfl
            cases answered

/-- An answered add got the tag or met a conflict. -/
theorem status_of_accepted {validate : Market → List String} {config : Config}
    {request : Request} (accepted : Accepted validate config request)
    (answered : request.status.isSome) :
    (request.status = some 201 ∧ request.holds = true) ∨
      (request.status = some 409 ∧ request.holds = false) := by
  cases request with
  | added tag response =>
      cases response with
      | ok view => exact .inl ⟨rfl, rfl⟩
      | error e =>
          rcases accepted with ⟨message, rfl⟩
          exact .inr ⟨rfl, rfl⟩
  | removed _ _ => exact accepted.elim
  | _ => cases answered

theorem Tally.finished {validate : Market → List String} {config : Config}
    {tag : String} {world : World} (tally : Tally validate config tag world)
    (finished : Finished tag world)
    (asked : ∃ request ∈ world.requests, request.tag = tag) :
    (answers tag world.requests).count 201 = 1 ∧
      ∀ status ∈ answers tag world.requests,
        status = 201 ∨ status = 409 := by
  have told : ∀ request ∈ world.requests, request.tag = tag →
      (request.status = some 201 ∧ request.holds = true) ∨
        (request.status = some 409 ∧ request.holds = false) :=
    fun request member about =>
      status_of_accepted (tally.accepted request member about)
        (finished request member about)
  constructor
  · have taken : world.stored tag ≠ none := by
      intro free
      rcases asked with ⟨request, member, about⟩
      have early := tally.free free request member about
      have answered := finished request member about
      cases request with
      | adding _ _ => cases answered
      | inserting _ => cases answered
      | _ => cases early
    rw [← tally.held taken, answers, holders, List.count_filterMap,
      List.countP_filter]
    apply List.countP_congr
    intro request member
    by_cases about : request.tag = tag
    · rcases told request member about with
        ⟨status, holds⟩ | ⟨status, holds⟩
      · simp [status, holds, about]
      · simp [status, holds]
    · simp [about]
  · intro status member
    rcases List.mem_filterMap.mp member with ⟨request, member, isStatus⟩
    rcases List.mem_filter.mp member with ⟨member, about⟩
    rcases told request member (of_decide_eq_true about) with
      ⟨other, -⟩ | ⟨other, -⟩
    · rw [other] at isStatus
      exact .inl (Option.some.inj isStatus).symm
    · rw [other] at isStatus
      exact .inr (Option.some.inj isStatus).symm

/-! ## Adds that find the tag free later on -/

/-- The world of the requests after the first `n`. -/
def World.since (n : Nat) (world : World) : World :=
  ⟨world.state, world.requests.drop n⟩

/-- An answered request takes no more steps. -/
theorem advance_of_answered {validate : Market → List String}
    {state : AppState} {request : Request}
    (answered : request.status.isSome) :
    advance validate state request = none := by
  cases request with
  | added _ _ => rfl
  | removed _ _ => rfl
  | _ => cases answered

/-- The first `n` requests that are on the tag are answered. -/
structure Past (tag : String) (n : Nat) (world : World) : Prop where
  length : n ≤ world.requests.length
  answered : ∀ request ∈ world.requests.take n, request.tag = tag →
    request.status.isSome

/-- What the later requests have done to a tag that was free before them. -/
structure Later (validate : Market → List String) (config : Config)
    (tag : String) (n : Nat) (world : World) : Prop where
  past : Past tag n world
  tally : Tally validate config tag (world.since n)

theorem later_start (validate : Market → List String) {config : Config}
    {tag : String} {world : World} (configured : world.state.config = config)
    (finished : Finished tag world) (free : world.stored tag = none) :
    Later validate config tag world.requests.length world := by
  have nothing : (world.since world.requests.length).requests = [] :=
    List.drop_length
  constructor
  · constructor
    · exact Nat.le_refl _
    · rw [List.take_length]
      exact finished
  · constructor
    · exact configured
    · rw [nothing]
      exact fun _ member => absurd member List.not_mem_nil
    · rw [nothing]
      exact fun _ _ member => absurd member List.not_mem_nil
    · exact fun taken => absurd free taken

/-- A later request arrives. -/
theorem Later.arrive {validate : Market → List String} {config : Config}
    {tag : String} {n : Nat} {world : World}
    (later : Later validate config tag n world) {request : Request}
    (fresh : request.tag = tag → Accepted validate config request ∧
      request.early = true ∧ request.holds = false) :
    Later validate config tag n
      { world with requests := world.requests ++ [request] } := by
  rcases later with ⟨⟨length, answered⟩, tally⟩
  refine ⟨⟨?_, ?_⟩, ?_⟩
  · rw [List.length_append]
    exact length.trans (Nat.le_add_right _ _)
  · rw [List.take_append_of_le_length length]
    exact answered
  · rw [World.since, List.drop_append_of_le_length length]
    exact tally.arrive fresh

/-- A request of the past that takes a step is on another tag. -/
theorem Past.elsewhere {validate : Market → List String} {tag : String}
    {n place : Nat} {world : World} {request after : Request}
    {state : AppState} (past : Past tag n world) (before : place < n)
    (isRequest : world.requests[place]? = some request)
    (moved : Markets.advance validate world.state request =
      some (state, after)) : request.tag ≠ tag := by
  have isOld : (world.requests.take n)[place]? = some request := by
    rw [List.getElem?_take_of_lt before, isRequest]
  intro about
  have answered := past.answered request (List.mem_of_getElem? isOld) about
  rw [advance_of_answered answered] at moved
  cases moved

/-- A request of the past takes a step, on another tag. -/
theorem Later.advance_past {validate : Market → List String} {config : Config}
    {tag : String} {n place : Nat} {world : World} {request after : Request}
    {state : AppState} (later : Later validate config tag n world)
    (before : place < n) (other : request.tag ≠ tag)
    (beside : Beside tag world.state request state after) :
    Later validate config tag n ⟨state, world.requests.set place after⟩ := by
  rcases later with ⟨⟨length, answered⟩, tally⟩
  refine ⟨⟨?_, ?_⟩, ?_⟩
  · rw [List.length_set]
    exact length
  · intro changed member about
    rw [List.take_set] at member
    rcases List.mem_or_eq_of_mem_set member with old | new
    · exact answered changed old about
    · rw [new, beside.sameTag] at about
      exact absurd about other
  · rw [World.since, List.drop_set_of_lt before]
    constructor
    · exact beside.config.trans tally.configured
    · exact tally.accepted
    · exact fun free => tally.free (beside.stored.symm.trans free)
    · exact fun taken => tally.held fun free =>
        taken (beside.stored.trans free)

/-- A later request takes a step. -/
theorem Later.advance_later {validate : Market → List String}
    {config : Config} {tag : String} {n place : Nat} {world : World}
    {after : Request} {state : AppState}
    (later : Later validate config tag n world) (since : n ≤ place)
    (tally : Tally validate config tag
      ⟨state, (world.since n).requests.set (place - n) after⟩) :
    Later validate config tag n ⟨state, world.requests.set place after⟩ := by
  rcases later with ⟨⟨length, answered⟩, -⟩
  refine ⟨⟨?_, ?_⟩, ?_⟩
  · rw [List.length_set]
    exact length
  · rw [List.take_set_of_le since]
    exact answered
  · rw [World.since, List.drop_set, if_neg (Nat.not_lt.mpr since)]
    exact tally

theorem getElem_since {n place : Nat} {world : World} {request : Request}
    (since : n ≤ place) (isRequest : world.requests[place]? = some request) :
    (world.since n).requests[place - n]? = some request := by
  show (world.requests.drop n)[place - n]? = some request
  rw [List.getElem?_drop, Nat.add_sub_cancel' since, isRequest]

theorem Later.step {validate : Market → List String} {config : Config}
    {tag : String} {n : Nat} {world next : World} {action : Action}
    (later : Later validate config tag n world)
    (clear : Clear validate tag world action)
    (adds : Adds validate config tag action)
    (taken : Markets.step validate world action = some next) :
    Later validate config tag n next := by
  cases action with
  | add input now =>
      cases taken
      exact later.arrive fun about => ⟨adds about, rfl, rfl⟩
  | remove other =>
      cases taken
      exact later.arrive fun about => absurd about adds
  | report other status =>
      cases taken
      rcases later with ⟨past, tally⟩
      exact ⟨⟨past.length, past.answered⟩,
        tally.configured, tally.accepted, tally.free, tally.held⟩
  | advance place =>
      rcases exists_advance taken with
        ⟨request, state, after, isRequest, moved, rfl⟩
      have moves := moves_of_advance moved
      rcases Nat.lt_or_ge place n with before | since
      · have other := later.past.elsewhere before isRequest moved
        exact later.advance_past before other (moves.beside other)
      · exact later.advance_later since
          (later.tally.advance (getElem_since since isRequest)
            (clear request isRequest) moves)
  | fail place failure =>
      rcases exists_fail taken with
        ⟨request, state, after, isRequest, failed, rfl⟩
      have fails := fails_of_fail failed
      have other := clear request isRequest
      rcases Nat.lt_or_ge place n with before | since
      · exact later.advance_past before other (fails.beside other)
      · exact later.advance_later since
          (later.tally.elsewhere (getElem_since since isRequest) other
            (fails.beside other))

/-! ## Whole runs -/

theorem config_of_run {validate : Market → List String} {world final : World}
    {actions : List Action}
    (reached : run (step validate) world actions = some final) :
    final.state.config = world.state.config := by
  apply invariant_of_run
    (fun other => other.state.config = world.state.config) _ rfl reached
  intro other action next same taken
  rw [← same]
  cases action with
  | add input now => cases taken; rfl
  | remove tag => cases taken; rfl
  | report tag status => cases taken; rfl
  | advance place =>
      rcases exists_advance taken with ⟨request, state, after, -, moved, rfl⟩
      exact (tag_of_moves (moves_of_advance moved)).2
  | fail place failure =>
      rcases exists_fail taken with ⟨request, state, after, -, failed, rfl⟩
      exact (fails_of_fail failed).config

/-- A request for a series of the source's test market. -/
def addSeries (seriesTicker : String) : AddMarket where
  tag := "btc-15m"
  seriesTicker := seriesTicker
  indexId := "BRTI"
  coinbaseProduct := none
  title := none
  kalshiEnv := none

def addNow (seriesTicker : String) : Action :=
  .add (addSeries seriesTicker) "2026-09-18T13:00:00+00:00"

/-- A market that is added and removed. -/
def sequentialActions : List Action :=
  [addNow "KXBTC15M", .advance 0, .advance 0, .advance 0, .advance 0,
    .remove "btc-15m", .advance 1, .advance 1]

/-- Of two adds the second finds the document of the first. -/
def orderedActions : List Action :=
  [addNow "KXBTC15M", addNow "KXBTCD", .advance 2, .advance 2, .advance 3,
    .advance 2, .advance 2]

/-- Two adds that both find the tag free. -/
def racingActions : List Action :=
  [addNow "KXBTC15M", addNow "KXBTCD", .advance 0, .advance 1, .advance 0,
    .advance 1, .advance 0, .advance 1, .advance 0, .advance 1]

/-- The configuration of the source's tests. -/
def testConfig : Config where
  publicWsBase := "ws://localhost:3000"
  kalshiEnv := .prod

/--
In every run in which no step on a tag is disturbed, once all requests on the
tag are answered the tag's feed is that of its document; and of the adds after
a point at which the tag was free, if there are no removals, exactly one is
answered 201 and the others 409.
-/
theorem markets_agree (validate : Market → List String) (config : Config)
    (markets : Collection) (tag : String) (before after : List Action)
    (middle final : World)
    (reached : run (step validate) (World.start config markets) before =
      some middle)
    (continued : run (step validate) middle after = some final)
    (clear : Guarded (step validate) (Clear validate tag)
      (World.start config markets) (before ++ after))
    (finished : Finished tag final) :
    final.running tag = final.stored tag ∧
      (Finished tag middle → middle.stored tag = none →
        (∀ action ∈ after, Adds validate config tag action) →
          let added := final.requests.drop middle.requests.length
          (∃ request ∈ added, request.tag = tag) →
            (answers tag added).count 201 = 1 ∧
              ∀ status ∈ answers tag added, status = 201 ∨ status = 409) := by
  have clearBefore := guarded_append clear
  have clearAfter := clear.drop reached
  constructor
  · have agreeMiddle : Agree tag middle :=
      invariant_of_guarded (Agree tag)
        (fun _ _ _ agree clear taken => agree.step clear taken)
        (agree_start config markets tag) clearBefore reached
    have agree : Agree tag final :=
      invariant_of_guarded (Agree tag)
        (fun _ _ _ agree clear taken => agree.step clear taken)
        agreeMiddle clearAfter continued
    exact agree.finished finished
  · intro finishedMiddle free adds added asked
    have start := later_start validate
      (config_of_run reached) finishedMiddle free
    have later :
        Later validate config tag middle.requests.length final :=
      invariant_of_guarded _
        (fun _ _ _ later guard taken => later.step guard.1 guard.2 taken)
        start (clearAfter.and (guarded_of_forall_mem adds)) continued
    apply later.tally.finished ?_ asked
    intro request member about
    exact finished request (List.mem_of_mem_drop member) about

theorem markets_agree_orderedActions :
    ∃ middle final,
      run (step fun _ => []) (World.start testConfig .empty)
          sequentialActions = some middle ∧
        run (step fun _ => []) middle orderedActions = some final ∧
        final.running "btc-15m" = final.stored "btc-15m" ∧
        let added := final.requests.drop middle.requests.length
        (answers "btc-15m" added).count 201 = 1 ∧
          ∀ status ∈ answers "btc-15m" added, status = 201 ∨ status = 409 := by
  have runs :
      (run (step fun _ => []) (World.start testConfig .empty)
        sequentialActions).map (fun middle =>
          (decide (Finished "btc-15m" middle),
            decide (middle.stored "btc-15m" = none),
            (run (step fun _ => []) middle orderedActions).map fun final =>
              (decide (Finished "btc-15m" final),
                decide (∃ request ∈
                  final.requests.drop middle.requests.length,
                  request.tag = "btc-15m")))) =
        some (true, true, some (true, true)) := by
    decide +kernel
  rcases Option.map_eq_some_iff.mp runs with ⟨middle, reached, ends⟩
  simp only [Prod.mk.injEq] at ends
  rcases ends with ⟨finishedMiddle, free, ends⟩
  rcases Option.map_eq_some_iff.mp ends with ⟨final, continued, ends⟩
  simp only [Prod.mk.injEq] at ends
  rcases ends with ⟨finished, asked⟩
  refine ⟨middle, final, reached, continued, ?_⟩
  have agree := markets_agree (fun _ => []) testConfig .empty "btc-15m"
    sequentialActions orderedActions middle final reached continued
    (by decide +kernel) (of_decide_eq_true finished)
  exact ⟨agree.1, agree.2 (of_decide_eq_true finishedMiddle)
    (of_decide_eq_true free) (by decide +kernel) (of_decide_eq_true asked)⟩

/--
Both adds of `racingActions` are answered 201; the feed is that of the first
and the document that of the second.
-/
theorem markets_disagree_racingActions :
    ∃ final,
      run (step fun _ => []) (World.start testConfig .empty) racingActions =
          some final ∧
        Finished "btc-15m" final ∧
        (final.running "btc-15m").map Market.seriesTicker =
          some "KXBTC15M" ∧
        (final.stored "btc-15m").map Market.seriesTicker = some "KXBTCD" ∧
        answers "btc-15m" final.requests = [201, 201] := by
  have runs :
      (run (step fun _ => []) (World.start testConfig .empty)
        racingActions).map (fun final =>
          (decide (Finished "btc-15m" final),
            (final.running "btc-15m").map Market.seriesTicker,
            (final.stored "btc-15m").map Market.seriesTicker,
            answers "btc-15m" final.requests)) =
        some (true, some "KXBTC15M", some "KXBTCD", [201, 201]) := by
    decide +kernel
  rcases Option.map_eq_some_iff.mp runs with ⟨final, reached, ends⟩
  simp only [Prod.mk.injEq] at ends
  rcases ends with ⟨finished, running, stored, answered⟩
  exact ⟨final, reached, of_decide_eq_true finished, running, stored, answered⟩

/-- An upsert whose answer is lost leaves a document without a feed. -/
example :
    (run (step fun _ => []) (World.start testConfig .empty)
      [addNow "KXBTC15M", .advance 0,
        .fail 0 ⟨"connection reset", true⟩]).map (fun final =>
          (final.requests.map Request.status,
            (final.stored "btc-15m").isSome,
            (final.running "btc-15m").isSome)) =
      some ([some 500], true, false) := by
  decide +kernel

end ChudMoney.Controllers.Markets
