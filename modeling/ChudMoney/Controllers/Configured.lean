import ChudMoney.Controllers.Restart
import ChudMoney.ProcessConfig

/-!
# What a configured server accepts

The document of an add is made of the request and of the configuration, and
its schema checks both.  So a server may start with an environment under which
it answers no add with 201.
-/

namespace ChudMoney.Controllers.Configured

open ChudMoney.Controllers.Markets
open ChudMoney.Controllers.Restart (Sound sound_start)
open ChudMoney.Feeds.Registry
open ChudMoney.Lib.Patterns
open ChudMoney.Lib.Runs
open ChudMoney.Model
open ChudMoney.ProcessConfig

/-! ## Acceptable adds -/

/-- What the environment check and the schema ask of an add. -/
@[mk_iff]
structure Acceptable (config : Model.Config) (input : AddMarket)
    (now : String) : Prop where
  kalshiEnv : ∀ env ∈ input.kalshiEnv, env = config.kalshiEnv
  publicWsBase : Accepts "^wss?://" config.publicWsBase
  tag : tagAccepted input.tag = true
  seriesTicker : Accepts "^[A-Z0-9]+$" input.seriesTicker
  indexId : Accepts "^[A-Z0-9_]+$" input.indexId
  coinbaseProduct : ∀ product ∈ input.coinbaseProduct,
    validCoinbaseProduct product = true
  title : ∀ title ∈ input.title, 1 ≤ title.length ∧ title.length ≤ 200
  /-- The default title is made of these two. -/
  defaultTitle : input.title = none →
    input.seriesTicker.length + input.indexId.length ≤ 197
  createdAt : 20 ≤ now.length

instance (config : Model.Config) (input : AddMarket) (now : String) :
    Decidable (Acceptable config input now) :=
  decidable_of_iff _ (acceptable_iff config input now).symm

theorem envError_eq_none {config : Model.Config} {input : AddMarket} :
    envError config input = none ↔
      ∀ env ∈ input.kalshiEnv, env = config.kalshiEnv := by
  rw [envError]
  cases input.kalshiEnv with
  | none => simp
  | some env => by_cases same : env = config.kalshiEnv <;> simp [same]

theorem title_fromAdd (input : AddMarket) (config : Model.Config)
    (now : String) :
    (1 ≤ (Market.fromAdd input config now).title.length ∧
      (Market.fromAdd input config now).title.length ≤ 200) ↔
        (∀ title ∈ input.title, 1 ≤ title.length ∧ title.length ≤ 200) ∧
          (input.title = none →
            input.seriesTicker.length + input.indexId.length ≤ 197) := by
  rw [Market.fromAdd]
  cases input.title with
  | some title => simp
  | none =>
      have parens : " (".length = 2 ∧ ")".length = 1 := ⟨rfl, rfl⟩
      simp only [Option.getD_none, String.length_append, parens,
        Option.mem_def, reduceCtorEq, false_imp_iff, implies_true, true_and,
        forall_const]
      omega

/-- The endpoints of both environments pass the schema. -/
theorem accepts_endpoints (env : KalshiEnv) :
    Accepts "^https?://" env.endpoints.rest ∧
      Accepts "^wss?://" env.endpoints.ws := by
  constructor
  · cases env <;>
      exact @accepts_of_start _ _ "https://".toList _ _ rfl rfl
        (by decide +kernel)
  · cases env <;>
      exact @accepts_of_start _ _ "wss://".toList _ _ rfl rfl
        (by decide +kernel)

theorem proxied_fromAdd {config : Model.Config}
    (trimmed : config.publicWsBase.toList.getLast? ≠ some '/')
    (input : AddMarket) (now : String) :
    (Accepts "^wss?://" (Market.fromAdd input config now).proxy.tickerWs ∧
      Accepts "^wss?://"
        (Market.fromAdd input config now).proxy.orderbookWs) ↔
      Accepts "^wss?://" config.publicWsBase := by
  simp only [Market.fromAdd, String.append_assoc]
  rw [accepts_ws_append trimmed, accepts_ws_append trimmed, and_self]

/-- The document of an add conforms if and only if the add is acceptable. -/
theorem conforms_fromAdd {config : Model.Config}
    (trimmed : config.publicWsBase.toList.getLast? ≠ some '/')
    (input : AddMarket) (now : String) :
    (envError config input = none ∧
      Conforms (Market.fromAdd input config now)) ↔
        Acceptable config input now := by
  have titled := title_fromAdd input config now
  have proxied := proxied_fromAdd trimmed input now
  constructor
  · rintro ⟨right, conforms⟩
    exact {
      kalshiEnv := envError_eq_none.mp right
      publicWsBase := proxied.mp ⟨conforms.tickerWs, conforms.orderbookWs⟩
      tag := conforms.tag
      seriesTicker := conforms.seriesTicker
      indexId := conforms.indexId
      coinbaseProduct := conforms.coinbaseProduct
      title := (titled.mp conforms.title).1
      defaultTitle := (titled.mp conforms.title).2
      createdAt := conforms.createdAt }
  · intro acceptable
    have endpoints :=
      accepts_endpoints (input.kalshiEnv.getD config.kalshiEnv)
    have urls := proxied.mpr acceptable.publicWsBase
    exact ⟨envError_eq_none.mpr acceptable.kalshiEnv, {
      tag := acceptable.tag
      seriesTicker := acceptable.seriesTicker
      indexId := acceptable.indexId
      coinbaseProduct := acceptable.coinbaseProduct
      title := titled.mpr ⟨acceptable.title, acceptable.defaultTitle⟩
      restBase := endpoints.1
      wsUrl := endpoints.2
      channels := List.cons_ne_nil _ _
      tickerWs := urls.1
      orderbookWs := urls.2
      createdAt := acceptable.createdAt }⟩

/-! ## What becomes of an add -/

section Follows

variable (validate : Market → List String) (config : Model.Config)
  (input : AddMarket) (now : String) (failed : Prop)

/-- Both checks of an add pass. -/
def Admitted : Prop :=
  envError config input = none ∧
    validate (Market.fromAdd input config now) = []

/--
Where an add may have got to, and what was found out on the way; `failed` is
that a call of it to MongoDB has failed.
-/
def Follows : Request → Prop
  | .adding other time => other = input ∧ time = now
  | .inserting market =>
      envError config input = none ∧
        market = Market.fromAdd input config now
  | .spawning market | .reporting market =>
      Admitted validate config input now ∧
        market = Market.fromAdd input config now
  | .added _ (.ok _) => Admitted validate config input now
  | .added _ (.error (.conflict _)) => True
  | .added _ (.error (.model (.mongo _))) => failed
  | .added _ (.error e) =>
      e.status = 400 ∧ ¬ Admitted validate config input now
  | .removing _ | .deleting .. | .removed .. => False

variable {validate config input now failed}
variable {state after : AppState} {request next : Request}

theorem badRequest_of_envError {e : AppError}
    (wrong : envError config input = some e) :
    ∃ message, e = .badRequest message := by
  rw [envError] at wrong
  split at wrong
  · split at wrong
    · cases wrong
      exact ⟨_, rfl⟩
    · cases wrong
  · cases wrong

/-- One step of the add. -/
theorem Follows.advance
    (follows : Follows validate config input now failed request)
    (configured : state.config = config)
    (taken : advance validate state request = some (after, next)) :
    Follows validate config input now failed next := by
  subst configured
  cases request with
  | adding other time =>
      rcases follows with ⟨rfl, rfl⟩
      rw [Markets.advance] at taken
      split at taken
      next e wrong =>
        rcases badRequest_of_envError wrong with ⟨message, rfl⟩
        cases taken
        refine ⟨rfl, fun admitted => ?_⟩
        rw [admitted.1] at wrong
        cases wrong
      next right =>
        dsimp only at taken
        split at taken
        · cases taken
          trivial
        · cases taken
          exact ⟨right, rfl⟩
  | inserting market =>
      rcases follows with ⟨right, rfl⟩
      rw [Markets.advance, Collection.upsert] at taken
      split at taken
      next markets written =>
        split at written
        next valid =>
          cases taken
          exact ⟨⟨right, valid⟩, rfl⟩
        next => cases written
      next e refused =>
        split at refused
        next => cases refused
        next invalid =>
          cases refused
          cases taken
          exact ⟨rfl, fun admitted => invalid admitted.2⟩
  | spawning market =>
      cases taken
      exact follows
  | reporting market =>
      cases taken
      exact follows.1
  | added _ _ => cases taken
  | removing _ | deleting _ _ | removed _ _ => exact follows.elim

/-- A call of the add fails. -/
theorem Follows.fail {failure : Failure}
    (follows : Follows validate config input now failed request)
    (isFailed : failed)
    (taken : fail validate state failure request = some (after, next)) :
    Follows validate config input now failed next := by
  cases request with
  | adding other time =>
      rw [Markets.fail] at taken
      split at taken
      · cases taken
      · cases taken
        exact isFailed
  | inserting market =>
      rw [Markets.fail] at taken
      split at taken
      · cases taken
        exact isFailed
      · cases taken
  | spawning _ | reporting _ | added _ _ => cases taken
  | removing _ | deleting _ _ | removed _ _ => exact follows.elim

theorem Follows.answered {status : Nat}
    (follows : Follows validate config input now failed request)
    (answered : request.status = some status) :
    (status = 201 ∧ Admitted validate config input now) ∨
      (status = 400 ∧ ¬ Admitted validate config input now) ∨
        status = 409 ∨ status = 500 ∧ failed := by
  cases request with
  | added tag response =>
      cases response with
      | ok view =>
          cases answered
          exact Or.inl ⟨rfl, follows⟩
      | error e =>
          cases answered
          cases e with
          | conflict message => exact Or.inr (Or.inr (Or.inl rfl))
          | badRequest _ | notFound _ | tooManyRequests _ =>
              exact Or.inr (Or.inl follows)
          | model e =>
              cases e with
              | validation _ => exact Or.inr (Or.inl follows)
              | mongo _ => exact Or.inr (Or.inr (Or.inr ⟨rfl, follows⟩))
  | removed _ _ => exact follows.elim
  | adding _ _ | inserting _ | spawning _ | reporting _ | removing _
    | deleting _ _ => cases answered

/-- The request at a place is an add that has got somewhere. -/
structure Tracked (validate : Market → List String) (config : Model.Config)
    (input : AddMarket) (now : String) (failed : Prop) (place : Nat)
    (world : World) : Prop where
  configured : world.state.config = config
  follows : ∃ request, world.requests[place]? = some request ∧
    Follows validate config input now failed request

variable {place other : Nat} {world : World}

/-- Another request arrives. -/
theorem Tracked.arrive
    (tracked : Tracked validate config input now failed place world)
    (request : Request) :
    Tracked validate config input now failed place
      { world with requests := world.requests ++ [request] } := by
  rcases tracked.follows with ⟨add, isAdd, follows⟩
  refine ⟨tracked.configured, add, ?_, follows⟩
  rcases List.getElem?_eq_some_iff.mp isAdd with ⟨bound, -⟩
  rw [List.getElem?_append_left bound, isAdd]

/-- A request takes a step, maybe the add. -/
theorem Tracked.replace
    (tracked : Tracked validate config input now failed place world)
    (isRequest : world.requests[other]? = some request)
    (sameConfig : state.config = world.state.config)
    (own : other = place → Follows validate config input now failed request →
      Follows validate config input now failed next) :
    Tracked validate config input now failed place
      ⟨state, world.requests.set other next⟩ := by
  refine ⟨sameConfig.trans tracked.configured, ?_⟩
  rcases tracked.follows with ⟨add, isAdd, follows⟩
  by_cases same : other = place
  · subst same
    rw [isRequest] at isAdd
    cases isAdd
    rcases List.getElem?_eq_some_iff.mp isRequest with ⟨bound, -⟩
    exact ⟨next, List.getElem?_set_self bound, own rfl follows⟩
  · exact ⟨add, (List.getElem?_set_ne same).trans isAdd, follows⟩

theorem Tracked.step {later : World} {action : Action}
    (tracked : Tracked validate config input now failed place world)
    (blamed : ∀ failure, action = .fail place failure → failed)
    (taken : step validate world action = some later) :
    Tracked validate config input now failed place later := by
  cases action with
  | add input now =>
      cases taken
      exact tracked.arrive _
  | remove tag =>
      cases taken
      exact tracked.arrive _
  | report tag status =>
      cases taken
      exact ⟨tracked.configured, tracked.follows⟩
  | advance other =>
      rcases exists_advance taken with
        ⟨request, state, after, isRequest, moved, rfl⟩
      apply tracked.replace isRequest (tag_of_moves (moves_of_advance moved)).2
      exact fun _ follows => follows.advance tracked.configured moved
  | fail other failure =>
      rcases exists_fail taken with
        ⟨request, state, after, isRequest, missed, rfl⟩
      apply tracked.replace isRequest (fails_of_fail missed).config
      rintro rfl follows
      exact follows.fail (blamed failure rfl) missed

end Follows

/-! ## Adds that are left to themselves -/

section Alone

variable {validate : Market → List String} {state after : AppState}
  {before : List Request} {request next : Request} {final : World}

/-- With steps of the last request alone, `final` is reached. -/
def Leads (validate : Market → List String) (before : List Request)
    (state : AppState) (request : Request) (final : World) : Prop :=
  ∃ count, run (step validate) ⟨state, before ++ [request]⟩
    (List.replicate count (.advance before.length)) = some final

theorem Leads.here :
    Leads validate before state request ⟨state, before ++ [request]⟩ :=
  ⟨0, rfl⟩

theorem Leads.advance (leads : Leads validate before after next final)
    (moved : advance validate state request = some (after, next)) :
    Leads validate before state request final := by
  rcases leads with ⟨count, reached⟩
  refine ⟨count + 1, ?_⟩
  rw [List.replicate_succ, run_cons_eq_some]
  refine ⟨⟨after, before ++ [next]⟩, ?_, reached⟩
  simp [Markets.step, moved]

/-- How an add that is left to itself ends, if it is `admitted` or not. -/
structure Ends (admitted : Prop) (state : AppState) (input : AddMarket)
    (now : String) (after : AppState) (answer : Request) : Prop where
  accepted : state.markets.find input.tag = none → admitted →
    answer.status = some 201 ∧
      after.markets.find input.tag =
        some (Market.fromAdd input state.config now)
  refused : state.markets.find input.tag = none → ¬ admitted →
    answer.status = some 400 ∧ after = state
  taken : state.markets.find input.tag ≠ none →
    (answer.status = some 400 ∨ answer.status = some 409) ∧ after = state

theorem exists_ends_of_free (validate : Market → List String)
    (before : List Request) {input : AddMarket} {now : String}
    (right : envError state.config input = none)
    (free : state.markets.find input.tag = none) :
    ∃ after answer,
      Leads validate before state (.adding input now)
        ⟨after, before ++ [answer]⟩ ∧
      Ends (Admitted validate state.config input now) state input now after
        answer := by
  have cleared : advance validate state (.adding input now) =
      some (state, .inserting (Market.fromAdd input state.config now)) := by
    simp [Markets.advance, right, Market.fromAdd, free]
  cases errors : validate (Market.fromAdd input state.config now) with
  | nil =>
      have inserted : advance validate state
          (.inserting (Market.fromAdd input state.config now)) =
            some (⟨state.config, state.markets.replaceOne
                (Market.fromAdd input state.config now), state.feeds⟩,
              .spawning (Market.fromAdd input state.config now)) := by
        rw [Markets.advance, Collection.upsert, errors]
      refine ⟨_, _, (((Leads.here.advance rfl).advance rfl).advance
        inserted).advance cleared, ?_⟩
      constructor
      · intro _ _
        refine ⟨rfl, ?_⟩
        exact (Collection.find_replaceOne _ _ _).trans (if_pos rfl)
      · exact fun _ refused => absurd ⟨right, errors⟩ refused
      · exact fun taken => absurd free taken
  | cons first rest =>
      have rejected : advance validate state
          (.inserting (Market.fromAdd input state.config now)) =
            some (state, .added input.tag
              (.error (.model (.validation (first :: rest))))) := by
        rw [Markets.advance, Collection.upsert, errors]
        rfl
      refine ⟨_, _, (Leads.here.advance rejected).advance cleared, ?_⟩
      constructor
      · intro _ admitted
        rw [admitted.2] at errors
        cases errors
      · exact fun _ _ => ⟨rfl, rfl⟩
      · exact fun taken => absurd free taken

theorem exists_ends (validate : Market → List String) (state : AppState)
    (before : List Request) (input : AddMarket) (now : String) :
    ∃ after answer,
      Leads validate before state (.adding input now)
        ⟨after, before ++ [answer]⟩ ∧
      Ends (Admitted validate state.config input now) state input now after
        answer := by
  cases right : envError state.config input with
  | some e =>
      rcases badRequest_of_envError right with ⟨message, rfl⟩
      refine ⟨state, _, Leads.here.advance (by rw [Markets.advance, right]), ?_⟩
      constructor
      · intro _ admitted
        rw [admitted.1] at right
        cases right
      · exact fun _ _ => ⟨rfl, rfl⟩
      · exact fun _ => ⟨Or.inl rfl, rfl⟩
  | none =>
      cases found : state.markets.find input.tag with
      | some document =>
          have moved : advance validate state (.adding input now) =
              some (state, .added input.tag (.error
                (.conflict s!"market '{input.tag}' already exists"))) := by
            simp [Markets.advance, right, Market.fromAdd, found]
          refine ⟨state, _, Leads.here.advance moved, ?_⟩
          constructor
          · intro free
            rw [found] at free
            cases free
          · intro free
            rw [found] at free
            cases free
          · exact fun _ => ⟨Or.inr rfl, rfl⟩
      | none => exact exists_ends_of_free validate before right found

end Alone

/-! ## Whole runs -/

/-- The validator finds something wrong with what the schema forbids only. -/
def Exact (validate : Market → List String) : Prop :=
  ∀ market, validate market = [] ↔ marketSpec.Valid market.toValue

theorem admitted_iff {validate : Market → List String}
    (exact : Exact validate) {config : Model.Config}
    (trimmed : config.publicWsBase.toList.getLast? ≠ some '/')
    (input : AddMarket) (now : String) :
    Admitted validate config input now ↔ Acceptable config input now := by
  rw [Admitted, exact, valid_market_iff]
  exact conforms_fromAdd trimmed input now

/--
A server that the environment configures, in every state that it reaches from
the documents it finds: all that it stores or feeds was there or was
acceptable; an add that arrives is never answered but with 201 if it is
acceptable, with 400 if it is not, with 409, or with 500 when a call of it to
MongoDB has failed; and left to itself on a free tag it is answered, and stored
if it is acceptable.
-/
theorem configured_adds {validate : Market → List String}
    (exact : Exact validate) {vars : String → Option String}
    {config : ProcessConfig.Config} (isConfig : fromEnv vars = .ok config)
    (markets : Collection) (actions : List Action) (world : World)
    (reached : run (step validate) (World.start config.toConfig markets)
      actions = some world) :
    (∀ tag market,
      world.stored tag = some market ∨ world.running tag = some market →
        markets.find tag = some market ∨
          ∃ input now, market = Market.fromAdd input config.toConfig now ∧
            Acceptable config.toConfig input now) ∧
    ∀ input now,
      (∀ later final,
        run (step validate) world (.add input now :: later) = some final →
          ∃ request, final.requests[world.requests.length]? = some request ∧
            ∀ status, request.status = some status →
              (status = 201 ∧ Acceptable config.toConfig input now) ∨
                (status = 400 ∧ ¬ Acceptable config.toConfig input now) ∨
                  status = 409 ∨
                    status = 500 ∧ ∃ failure,
                      .fail world.requests.length failure ∈ later) ∧
      ∃ count after answer,
        run (step validate) world (.add input now ::
            List.replicate count (.advance world.requests.length)) =
          some ⟨after, world.requests ++ [answer]⟩ ∧
        Ends (Acceptable config.toConfig input now) world.state input now
          after answer := by
  have trimmed : config.publicWsBase.toList.getLast? ≠ some '/' := by
    rw [(fromEnv_eq_ok isConfig).2.2.2]
    exact getLast_trimEndMatches '/' _
  have admitted := admitted_iff exact trimmed
  have configured : world.state.config = config.toConfig :=
    config_of_run reached
  refine ⟨?_, fun input now => ⟨?_, ?_⟩⟩
  · have start : Sound validate
        (fun market => markets.find market.tag = some market ∨
          ∃ input now, market = Market.fromAdd input config.toConfig now ∧
            Acceptable config.toConfig input now)
        (World.start config.toConfig markets) := by
      apply sound_start config.toConfig
      · intro input now right valid
        exact Or.inr ⟨input, now, rfl, (admitted input now).mp ⟨right, valid⟩⟩
      · intro tag market isStored
        have isTag := Collection.tag_of_find isStored
        exact Or.inl (isTag ▸ isStored)
    have sound :=
      invariant_of_run _ (fun _ _ _ sound taken => sound.act taken) start
        reached
    rintro tag market (isStored | isRunning)
    · have known := sound.stored tag market isStored
      rw [Collection.tag_of_find isStored] at known
      exact known
    · have known := sound.running tag market isRunning
      rw [sound.keyed tag market isRunning] at known
      exact known
  · intro later final continued
    rcases run_cons_eq_some.mp continued with ⟨next, arrived, continued⟩
    cases arrived
    have blamed : ∀ action ∈ later, ∀ failure,
        action = .fail world.requests.length failure →
          ∃ failure, .fail world.requests.length failure ∈ later := by
      rintro action member failure rfl
      exact ⟨failure, member⟩
    have tracked : Tracked validate config.toConfig input now
        (∃ failure, .fail world.requests.length failure ∈ later)
        world.requests.length final := by
      apply invariant_of_guarded _
        (fun _ _ _ tracked blamed taken => tracked.step blamed taken) _
        (guarded_of_forall_mem blamed) continued
      exact ⟨configured, .adding input now, by simp, rfl, rfl⟩
    rcases tracked.follows with ⟨request, isRequest, follows⟩
    refine ⟨request, isRequest, fun status answered => ?_⟩
    rw [← admitted input now]
    exact follows.answered answered
  · rcases exists_ends validate world.state world.requests input now with
      ⟨after, answer, ⟨count, ran⟩, ends⟩
    rw [configured, propext (admitted input now)] at ends
    exact ⟨count, after, answer, ran, ends⟩

instance (market : Market) : Decidable (Conforms market) :=
  decidable_of_iff _ (conforms_iff market).symm

/-- A validator that says no more than that the schema is not met. -/
def schemaErrors (market : Market) : List String :=
  if Conforms market then [] else [": the schema is not met"]

theorem exact_schemaErrors : Exact schemaErrors := by
  intro market
  rw [valid_market_iff, schemaErrors]
  by_cases conforms : Conforms market <;> simp [conforms]

/-- An environment with what must be set, and the base of the proxy URLs. -/
def testVars (base : String) (name : String) : Option String :=
  [("CHUD_MONEY_API_CLIENT_ID", "chud-money"), ("KALSHI_API_KEY_ID", "key"),
    ("PUBLIC_WS_BASE", base)].lookup name

theorem exists_testConfig (base : String) :
    ∃ config, fromEnv (testVars base) = .ok config ∧
      config.publicWsBase = trimEndMatches '/' base := by
  have loads : ∃ config, fromEnv (testVars base) = .ok config :=
    exists_fromEnv_iff.mpr ⟨⟨.demo, rfl⟩, rfl, rfl⟩
  rcases loads with ⟨config, isConfig⟩
  exact ⟨config, isConfig, (fromEnv_eq_ok isConfig).2.2.2⟩

theorem acceptable_addSeries (config : Model.Config) :
    Acceptable config (addSeries "KXBTC15M") "2026-09-18T13:00:00+00:00" ↔
      Accepts "^wss?://" config.publicWsBase := by
  constructor
  · exact Acceptable.publicWsBase
  · intro isBase
    constructor
    case publicWsBase => exact isBase
    case kalshiEnv => simp [addSeries]
    all_goals decide +kernel

theorem configured_adds_testVars :
    (∃ config count after answer,
      fromEnv (testVars "ws://localhost:3000/") = .ok config ∧
      run (step schemaErrors) (World.start config.toConfig .empty)
          (.add (addSeries "KXBTC15M") "2026-09-18T13:00:00+00:00" ::
            List.replicate count (.advance 0)) =
        some ⟨after, [answer]⟩ ∧ answer.status = some 201) ∧
    ∃ config count after answer,
      fromEnv (testVars "http://localhost:3000") = .ok config ∧
      run (step schemaErrors) (World.start config.toConfig .empty)
          (.add (addSeries "KXBTC15M") "2026-09-18T13:00:00+00:00" ::
            List.replicate count (.advance 0)) =
        some ⟨after, [answer]⟩ ∧ answer.status = some 400 := by
  have free : ∀ tag, Collection.empty.find tag = none := by
    simp [Collection.find, Collection.empty]
  constructor
  · rcases exists_testConfig "ws://localhost:3000/" with
      ⟨config, isConfig, isBase⟩
    rcases ((configured_adds exact_schemaErrors isConfig .empty [] _ rfl).2
      (addSeries "KXBTC15M") "2026-09-18T13:00:00+00:00").2 with
      ⟨count, after, answer, ran, ends⟩
    refine ⟨config, count, after, answer, isConfig, ran, ?_⟩
    refine (ends.accepted (free _) ((acceptable_addSeries _).mpr ?_)).1
    rw [isBase]
    decide +kernel
  · rcases exists_testConfig "http://localhost:3000" with
      ⟨config, isConfig, isBase⟩
    rcases ((configured_adds exact_schemaErrors isConfig .empty [] _ rfl).2
      (addSeries "KXBTC15M") "2026-09-18T13:00:00+00:00").2 with
      ⟨count, after, answer, ran, ends⟩
    refine ⟨config, count, after, answer, isConfig, ran, ?_⟩
    refine (ends.refused (free _) (mt (acceptable_addSeries _).mp ?_)).1
    rw [isBase]
    decide +kernel

end ChudMoney.Controllers.Configured
