import ChudMoney.Controllers.Exports
import ChudMoney.Controllers.JobTable
import ChudMoney.Controllers.Markets
import ChudMoney.Controllers.Router
import ChudMoney.Middleware.Authenticated

/-!
# Who may change what

Requests are routed, and those of the protected router, its 405 included, wait
for the guard to verify their token.  A handler that starts acts on the
markets, the backfill jobs or the exports; what these do after that interleaves
with everything.

Whatever has changed is traced to a request that the guard let through.  What
a handler answers is not part of this.
-/

namespace ChudMoney.Controllers.Server

open ChudMoney.Controllers.Data (RangeQuery accept)
open ChudMoney.Controllers.Exports
open ChudMoney.Controllers.IngestJobs
open ChudMoney.Controllers.Router
open ChudMoney.Controllers.RunJob (payloadEnv)
open ChudMoney.Controllers.Throttled
open ChudMoney.Feeds.Shared
open ChudMoney.Lib.Json
open ChudMoney.Lib.MachineInt
open ChudMoney.Lib.Owners
open ChudMoney.Lib.Routes (Dispatched find segments)
open ChudMoney.Lib.Runs
open ChudMoney.Middleware.Authenticated
open ChudMoney.Model

variable {Text Key Body : Type}

/-! ## Requests -/

structure HttpRequest (Body : Type) where
  method : Method
  path : String
  credentials : Credentials
  lastEventId : Option String
  body : Body

/-- What the extractors of the handlers make of the parts of a request. -/
structure Extractors (Body : Type) where
  path : String → Option String
  range : Option String → Option RangeQuery
  addMarket : Body → Option AddMarket
  ingestRequest : Body → Option IngestRequest

/-- What the world answers a handler that starts. -/
structure Answers where
  now : String
  utcNow : Int
  jobId : String
  env : Env
  fuel : Nat
  /-- Why MongoDB fails to find a document, if it does. -/
  failure : Option String

/-- What a handler that starts finds under a tag. -/
def Answers.find (answers : Answers) (stored : String → Option Market) :
    Find :=
  fun tag =>
    match answers.failure with
    | some message => .error (.mongo message)
    | none => .ok (stored tag)

theorem Answers.stored_of_find {answers : Answers}
    {stored : String → Option Market} {tag : String} {document : Option Market}
    (found : answers.find stored tag = .ok document) :
    stored tag = document := by
  rw [Answers.find] at found
  split at found
  · cases found
  · exact Except.ok.inj found

/-- The handlers behind the guard: those that the protected router lists. -/
def isProtected (handler : Handler) : Bool :=
  protectedRouter.any fun entry =>
    entry.2.any fun listed => listed.2 = handler

/--
The guard is a layer over all that the paths of the protected router answer,
their 405 for any other method included.
-/
def guardsPath (path : String) : Bool :=
  (find (segments path) router.routes).any fun found =>
    found.handler.any fun listed => isProtected listed.2

/-- The probe's path is not listed, though `DELETE /{tag}` is. -/
example : guardsPath "/btc-15m" = true ∧ guardsPath "/healthz" = false := by
  decide +kernel

/-! ## Handlers -/

/-- What the handlers act on. -/
structure Service where
  markets : Markets.World
  jobs : JobTable.World
  exports : Exports.World

def Service.start (config : Config) (markets : Collection) : Service where
  markets := .start config markets
  jobs := .init
  exports := .start

/-- What the program is run with. -/
structure Setting (Text Key Body : Type) where
  readers : Readers Text
  validate : Market → List String
  extract : Extractors Body
  decoder : Decoder Key
  config : AuthConfig

variable (setting : Setting Text Key Body)

/-- What `Path` makes of a capture. -/
def pathOf (captures : List (String × String)) (name : String) :
    Option String :=
  (captures.lookup name).bind setting.extract.path

/-- A handler starts, unless an extractor refuses the request. -/
def begin (handler : Handler) (captures : List (String × String))
    (request : HttpRequest Body) (answers : Answers) (service : Service) :
    Option Service :=
  match handler with
  | .marketsAdd =>
      match setting.extract.addMarket request.body with
      | none => some service
      | some input =>
          (Markets.step setting.validate service.markets
            (.add input answers.now)).map fun markets =>
              { service with markets := markets }
  | .marketsRemove =>
      match pathOf setting captures "tag" with
      | none => some service
      | some tag =>
          (Markets.step setting.validate service.markets
            (.remove tag)).map fun markets =>
              { service with markets := markets }
  | .ingestStart =>
      match setting.extract.ingestRequest request.body with
      | none => some service
      | some req =>
          (JobTable.step service.jobs
            (.post (answers.find service.markets.stored) answers.jobId
              answers.utcNow req answers.env answers.fuel)).map fun jobs =>
                { service with jobs := jobs }
  | .dataStream =>
      match pathOf setting captures "tag", pathOf setting captures "table",
          setting.extract.range request.credentials.query with
      | some tag, some table, some range =>
          (Exports.step setting.readers service.exports
            (.request (answers.find service.markets.stored)
              ⟨tag, table, range, request.lastEventId⟩)).map fun exports =>
                { service with exports := exports }
      | _, _, _ => some service
  | .authMe | .wsTicker | .wsOrderbook => some service
  | .marketsList | .healthz | .ingestStatus | .marketsShow => some service

/-! ## The server -/

/-- Where a request is. -/
inductive Stage where
  | guarding (token : String)
  | refused (e : AuthError)
  | called (user : Option AuthUser)
  /-- No handler: 404 or 405. -/
  | unrouted
  deriving DecidableEq

structure Conversation (Body : Type) where
  request : HttpRequest Body
  stage : Stage

structure World (Body : Type) where
  service : Service
  conversations : List (Conversation Body)

def World.start (config : Config) (markets : Collection) : World Body :=
  ⟨.start config markets, []⟩

/--
`authenticated` is the end of the guard of a request, with what the key server
answers.  The steps after it are those of handlers, tasks and feeds.
-/
inductive Action (Key Body : Type) where
  | receive (request : HttpRequest Body) (answers : Answers)
  | authenticated (i : Nat) (key : Except String Key) (now : Nat)
      (answers : Answers)
  | advance (place : Nat)
  | fail (place : Nat) (failure : Markets.Failure)
  | report (tag : String) (status : FeedStatus)
  | write (jobId : String)
  | bounds (i : Nat) (bounds : Except String (Option (Int64 × Int64)))
  | opened (i : Nat) (result : Except String Unit)
  | stop (i : Nat)

def dispatched (request : HttpRequest Body) : Dispatched Handler :=
  router.dispatch request.method request.path

/-- A request arrives; a handler without a guard starts at once. -/
def receive (request : HttpRequest Body) (answers : Answers)
    (world : World Body) : Option (World Body) :=
  let push (stage : Stage) (service : Service) : World Body :=
    ⟨service, world.conversations ++ [⟨request, stage⟩]⟩
  let guard : World Body :=
    match tokenFrom request.credentials with
    | .error e => push (.refused e) world.service
    | .ok token => push (.guarding token) world.service
  match dispatched request with
  | .handled handler captures =>
      if isProtected handler then some guard
      else
        (begin setting handler captures request answers world.service).map
          (push (.called none))
  | .methodNotAllowed =>
      if guardsPath request.path then some guard
      else some (push .unrouted world.service)
  | .notFound => some (push .unrouted world.service)

/-- The guard has verified a token; what is behind it starts if it lets it. -/
def authenticated (i : Nat) (key : Except String Key) (now : Nat)
    (answers : Answers) (world : World Body) : Option (World Body) :=
  (world.conversations[i]?).bind fun conversation =>
    match conversation.stage with
    | .guarding token =>
        let leave (stage : Stage) (service : Service) : World Body :=
          ⟨service, world.conversations.set i
            { conversation with stage := stage }⟩
        match authenticate setting.decoder setting.config key now token with
        | .error e => some (leave (.refused e) world.service)
        | .ok user =>
            match dispatched conversation.request with
            | .handled handler captures =>
                (begin setting handler captures conversation.request answers
                  world.service).map (leave (.called (some user)))
            | .methodNotAllowed | .notFound =>
                some (leave .unrouted world.service)
    | _ => none

/-- A step of what handlers have started. -/
def later (service : Service) : Action Key Body → Option Service
  | .receive .. | .authenticated .. => none
  | .advance place =>
      (Markets.step setting.validate service.markets (.advance place)).map
        fun markets => { service with markets := markets }
  | .fail place failure =>
      (Markets.step setting.validate service.markets
        (.fail place failure)).map fun markets =>
          { service with markets := markets }
  | .report tag status =>
      (Markets.step setting.validate service.markets
        (.report tag status)).map fun markets =>
          { service with markets := markets }
  | .write jobId =>
      (JobTable.step service.jobs (.write jobId)).map fun jobs =>
        { service with jobs := jobs }
  | .bounds i bounds =>
      (Exports.step setting.readers service.exports (.bounds i bounds)).map
        fun exports => { service with exports := exports }
  | .opened i result =>
      (Exports.step setting.readers service.exports (.opened i result)).map
        fun exports => { service with exports := exports }
  | .stop i =>
      (Exports.step setting.readers service.exports (.stop i)).map
        fun exports => { service with exports := exports }

def step (world : World Body) (action : Action Key Body) :
    Option (World Body) :=
  match action with
  | .receive request answers => receive setting request answers world
  | .authenticated i key now answers =>
      authenticated setting i key now answers world
  | action =>
      (later setting world.service action).map fun service =>
        { world with service := service }

/-! ## What a step does -/

section Steps

variable {setting : Setting Text Key Body}

/-- The steps of the server, one for each branch. -/
inductive Steps (setting : Setting Text Key Body) (world : World Body) :
    Action Key Body → World Body → Prop where
  | refused {request : HttpRequest Body} {answers : Answers} {e : AuthError} :
      tokenFrom request.credentials = .error e →
      Steps setting world (.receive request answers)
        ⟨world.service, world.conversations ++ [⟨request, .refused e⟩]⟩
  | guarding {request : HttpRequest Body} {answers : Answers}
      {token : String} :
      tokenFrom request.credentials = .ok token →
      Steps setting world (.receive request answers)
        ⟨world.service, world.conversations ++ [⟨request, .guarding token⟩]⟩
  | unguarded {request : HttpRequest Body} {answers : Answers}
      {handler : Handler} {captures : List (String × String)}
      {service : Service} :
      dispatched request = .handled handler captures →
      isProtected handler = false →
      begin setting handler captures request answers world.service =
        some service →
      Steps setting world (.receive request answers)
        ⟨service, world.conversations ++ [⟨request, .called none⟩]⟩
  | unrouted {request : HttpRequest Body} {answers : Answers} :
      Steps setting world (.receive request answers)
        ⟨world.service, world.conversations ++ [⟨request, .unrouted⟩]⟩
  | dismissed {i : Nat} {key : Except String Key} {now : Nat}
      {answers : Answers} {conversation : Conversation Body} {token : String}
      {e : AuthError} :
      world.conversations[i]? = some conversation →
      conversation.stage = .guarding token →
      Steps setting world (.authenticated i key now answers)
        ⟨world.service, world.conversations.set i
          { conversation with stage := .refused e }⟩
  | misdirected {i : Nat} {key : Except String Key} {now : Nat}
      {answers : Answers} {conversation : Conversation Body} {token : String} :
      world.conversations[i]? = some conversation →
      conversation.stage = .guarding token →
      Steps setting world (.authenticated i key now answers)
        ⟨world.service, world.conversations.set i
          { conversation with stage := .unrouted }⟩
  | admitted {i : Nat} {key : Except String Key} {now : Nat}
      {answers : Answers} {conversation : Conversation Body} {token : String}
      {user : AuthUser} {handler : Handler}
      {captures : List (String × String)} {service : Service} :
      world.conversations[i]? = some conversation →
      conversation.stage = .guarding token →
      dispatched conversation.request = .handled handler captures →
      authenticate setting.decoder setting.config key now token = .ok user →
      begin setting handler captures conversation.request answers
        world.service = some service →
      Steps setting world (.authenticated i key now answers)
        ⟨service, world.conversations.set i
          { conversation with stage := .called (some user) }⟩
  | later {action : Action Key Body} {service : Service} :
      later setting world.service action = some service →
      Steps setting world action { world with service := service }

/-- The guard reads the token of a request. -/
theorem steps_guard {world : World Body} (request : HttpRequest Body)
    (answers : Answers) :
    Steps setting world (.receive request answers)
      (match tokenFrom request.credentials with
      | .error e =>
          ⟨world.service, world.conversations ++ [⟨request, .refused e⟩]⟩
      | .ok token =>
          ⟨world.service,
            world.conversations ++ [⟨request, .guarding token⟩]⟩) := by
  cases found : tokenFrom request.credentials with
  | error e => exact .refused found
  | ok token => exact .guarding found

theorem steps_of_step {world next : World Body} {action : Action Key Body}
    (taken : step setting world action = some next) :
    Steps setting world action next := by
  cases action with
  | receive request answers =>
      simp only [step, receive] at taken
      split at taken
      next handler captures routed =>
        split at taken
        · cases taken
          exact steps_guard request answers
        next unguarded =>
          rcases Option.map_eq_some_iff.mp taken with ⟨service, begun, rfl⟩
          exact .unguarded routed (Bool.eq_false_iff.mpr unguarded) begun
      · split at taken
        · cases taken
          exact steps_guard request answers
        · cases taken
          exact .unrouted
      · cases taken
        exact .unrouted
  | authenticated i key now answers =>
      simp only [step, authenticated] at taken
      rcases Option.bind_eq_some_iff.mp taken with
        ⟨conversation, isHere, taken⟩
      split at taken
      case h_2 => cases taken
      next token waiting =>
        split at taken
        next e failed =>
          cases taken
          exact .dismissed isHere waiting
        next user passed =>
          split at taken
          next handler captures routed =>
            rcases Option.map_eq_some_iff.mp taken with ⟨service, begun, rfl⟩
            exact .admitted isHere waiting routed passed begun
          · cases taken
            exact .misdirected isHere waiting
          · cases taken
            exact .misdirected isHere waiting
  | advance | fail | report | write | bounds | opened | stop =>
      simp only [step] at taken
      rcases Option.map_eq_some_iff.mp taken with ⟨service, moved, rfl⟩
      exact .later moved

/-! ## The guard -/

/-- A conversation whose caller the guard has let through, in these steps. -/
def Authorized (setting : Setting Text Key Body)
    (past : List (Action Key Body)) (conversation : Conversation Body) :
    Prop :=
  ∃ user token i signing now answers payload,
    conversation.stage = .called (some user) ∧
    tokenFrom conversation.request.credentials = .ok token ∧
    .authenticated i (.ok signing) now answers ∈ past ∧
    Vouches setting.decoder setting.config signing now token user payload

theorem Authorized.append {past : List (Action Key Body)}
    {conversation : Conversation Body}
    (authorized : Authorized setting past conversation)
    (more : List (Action Key Body)) :
    Authorized setting (past ++ more) conversation := by
  rcases authorized with
    ⟨user, token, i, signing, now, answers, payload, stage, token_eq, member,
      vouches⟩
  exact ⟨user, token, i, signing, now, answers, payload, stage, token_eq,
    List.mem_append_left _ member, vouches⟩

/-- What a request waits for is its own token, and no call is unguarded. -/
structure Guarded (setting : Setting Text Key Body)
    (past : List (Action Key Body)) (conversation : Conversation Body) :
    Prop where
  waiting : ∀ token, conversation.stage = .guarding token →
    tokenFrom conversation.request.credentials = .ok token
  called : ∀ handler captures user,
    dispatched conversation.request = .handled handler captures →
    isProtected handler = true → conversation.stage = .called user →
    Authorized setting past conversation

/-- A conversation whose handler has not started is guarded by its token. -/
theorem guarded_of_not_called {past : List (Action Key Body)}
    {conversation : Conversation Body}
    (waiting : ∀ token, conversation.stage = .guarding token →
      tokenFrom conversation.request.credentials = .ok token)
    (silent : ∀ user, conversation.stage ≠ .called user) :
    Guarded setting past conversation :=
  ⟨waiting, fun _ _ user _ _ called => absurd called (silent user)⟩

theorem Guarded.append {past : List (Action Key Body)}
    {conversation : Conversation Body}
    (guarded : Guarded setting past conversation)
    (more : List (Action Key Body)) :
    Guarded setting (past ++ more) conversation :=
  ⟨guarded.waiting, fun handler captures user routed isGuarded called =>
    (guarded.called handler captures user routed isGuarded called).append more⟩

/-- A step keeps every conversation that is past the guard. -/
theorem Steps.kept {world next : World Body} {action : Action Key Body}
    (steps : Steps setting world action next)
    {conversation : Conversation Body}
    (member : conversation ∈ world.conversations)
    (past : ∀ token, conversation.stage ≠ .guarding token) :
    conversation ∈ next.conversations := by
  have replaced : ∀ (i : Nat) (before after : Conversation Body)
      (token : String), world.conversations[i]? = some before →
        before.stage = .guarding token →
        conversation ∈ world.conversations.set i after := by
    intro i before after token isBefore waiting
    rcases List.mem_iff_getElem?.mp member with ⟨j, isHere⟩
    have other : i ≠ j := by
      rintro rfl
      rw [isHere] at isBefore
      cases isBefore
      exact past token waiting
    apply List.mem_of_getElem? (i := j)
    rw [List.getElem?_set_ne other]
    exact isHere
  cases steps with
  | refused | guarding | unguarded | unrouted =>
      exact List.mem_append_left _ member
  | dismissed isHere waiting => exact replaced _ _ _ _ isHere waiting
  | misdirected isHere waiting => exact replaced _ _ _ _ isHere waiting
  | admitted isHere waiting => exact replaced _ _ _ _ isHere waiting
  | later => exact member

theorem Steps.guarded {world next : World Body} {action : Action Key Body}
    {past : List (Action Key Body)} (steps : Steps setting world action next)
    (guarded : ∀ conversation ∈ world.conversations,
      Guarded setting past conversation) :
    ∀ conversation ∈ next.conversations,
      Guarded setting (past ++ [action]) conversation := by
  have before : ∀ conversation ∈ world.conversations,
      Guarded setting (past ++ [action]) conversation :=
    fun conversation member => (guarded conversation member).append [action]
  have added : ∀ last, Guarded setting (past ++ [action]) last →
      ∀ conversation ∈ world.conversations ++ [last],
        Guarded setting (past ++ [action]) conversation := by
    intro last isLast conversation member
    rcases List.mem_append.mp member with old | new
    · exact before conversation old
    · cases List.mem_singleton.mp new
      exact isLast
  have replaced : ∀ (i : Nat) (after : Conversation Body),
      Guarded setting (past ++ [action]) after →
      ∀ conversation ∈ world.conversations.set i after,
        Guarded setting (past ++ [action]) conversation := by
    intro i after isAfter conversation member
    rcases List.mem_or_eq_of_mem_set member with old | rfl
    · exact before conversation old
    · exact isAfter
  cases steps with
  | refused => exact added _ (guarded_of_not_called nofun nofun)
  | guarding good =>
      apply added
      refine guarded_of_not_called ?_ nofun
      intro token waiting
      cases waiting
      exact good
  | @unguarded request answers handler captures service routed isOpen begun =>
      apply added
      refine ⟨nofun, ?_⟩
      intro other names user reached isGuarded called
      cases routed.symm.trans reached
      rw [isOpen] at isGuarded
      cases isGuarded
  | unrouted => exact added _ (guarded_of_not_called nofun nofun)
  | dismissed | misdirected =>
      exact replaced _ _ (guarded_of_not_called nofun nofun)
  | @admitted i key now answers conversation token user handler captures
      service isHere waiting routed passed begun =>
      apply replaced
      refine ⟨nofun, ?_⟩
      intro _ _ _ _ _ _
      rcases vouches_of_authenticate passed with
        ⟨signing, payload, rfl, vouches⟩
      have own := (guarded conversation (List.mem_of_getElem? isHere)).waiting
        token waiting
      exact ⟨user, token, i, signing, now, answers, payload, rfl, own,
        List.mem_append_right _ List.mem_cons_self, vouches⟩
  | later => exact before

end Steps

/-! ## What handlers and tasks change -/

/-- A document or a feed of the tag has come, gone or changed. -/
def Differs (initial service : Service) (tag : String) : Prop :=
  service.markets.stored tag ≠ initial.markets.stored tag ∨
    service.markets.running tag ≠ initial.markets.running tag

/-- All that a service has is known to be of some cause. -/
structure Traced (initial : Service) (concerns : String → Prop)
    (ingests : String → IngestKind → Prop) (streams : Data.Admitted → Prop)
    (service : Service) : Prop where
  requests : ∀ request ∈ service.markets.requests, concerns request.tag
  changed : ∀ tag, Differs initial service tag → concerns tag
  jobs : ∀ (jobId : String) job, service.jobs.jobs[jobId]? = some job →
    ingests job.tag job.kind
  exports : ∀ running ∈ service.exports.exports, streams running.admitted
  sound : Sound JobTable.rules service.jobs.table

theorem traced_start (config : Config) (markets : Collection)
    (concerns : String → Prop) (ingests : String → IngestKind → Prop)
    (streams : Data.Admitted → Prop) :
    Traced (.start config markets) concerns ingests streams
      (.start config markets) := by
  refine ⟨?_, ?_, ?_, ?_, JobTable.sound_init⟩
  · exact fun request member => (List.not_mem_nil member).elim
  · rintro tag (differs | differs)
    · exact (differs rfl).elim
    · exact (differs rfl).elim
  · intro jobId job entry
    have empty : JobTable.World.init.jobs[jobId]? = none :=
      Std.ExtTreeMap.getElem?_empty
    rw [Service.start, empty] at entry
    cases entry
  · exact fun running member => (List.not_mem_nil member).elim

section Traced

variable {initial service : Service} {concerns : String → Prop}
variable {ingests : String → IngestKind → Prop} {streams : Data.Admitted → Prop}
variable {setting : Setting Text Key Body}

theorem Traced.mono
    (traced : Traced initial concerns ingests streams service)
    {concerns' : String → Prop} {ingests' : String → IngestKind → Prop}
    {streams' : Data.Admitted → Prop}
    (more : ∀ tag, concerns tag → concerns' tag)
    (moreJobs : ∀ tag kind, ingests tag kind → ingests' tag kind)
    (moreExports : ∀ admitted, streams admitted → streams' admitted) :
    Traced initial concerns' ingests' streams' service where
  requests request member := more _ (traced.requests request member)
  changed tag differs := more _ (traced.changed tag differs)
  jobs jobId job entry := moreJobs _ _ (traced.jobs jobId job entry)
  exports running member := moreExports _ (traced.exports running member)
  sound := traced.sound

/-- A step of a request about markets changes what is under its own tag. -/
theorem Traced.replace
    (traced : Traced initial concerns ingests streams service) {place : Nat}
    {request next : Markets.Request} {state : Markets.AppState}
    (isRequest : service.markets.requests[place]? = some request)
    (sameTag : next.tag = request.tag)
    (beside : ∀ tag, request.tag ≠ tag →
      Markets.Beside tag service.markets.state request state next) :
    Traced initial concerns ingests streams
      { service with
        markets := ⟨state, service.markets.requests.set place next⟩ } := by
  have own := traced.requests request (List.mem_of_getElem? isRequest)
  refine { traced with requests := ?_, changed := ?_ }
  · intro other member
    rcases List.mem_or_eq_of_mem_set member with old | rfl
    · exact traced.requests other old
    · rw [sameTag]
      exact own
  · intro tag differs
    by_cases same : request.tag = tag
    · rw [← same]
      exact own
    · apply traced.changed tag
      rcases differs with differs | differs
      · exact .inl fun equal => differs ((beside tag same).stored.trans equal)
      · exact .inr fun equal => differs ((beside tag same).running.trans equal)

theorem Traced.report
    (traced : Traced initial concerns ingests streams service)
    {validate : Market → List String} {tag : String} {status : FeedStatus}
    {markets : Markets.World}
    (taken : Markets.step validate service.markets (.report tag status) =
      some markets) :
    Traced initial concerns ingests streams
      { service with markets := markets } := by
  cases taken
  refine { traced with changed := ?_ }
  intro other differs
  apply traced.changed other
  have running := Feeds.Registry.FeedRegistry.running_report
    service.markets.state.feeds tag status other
  rcases differs with differs | differs
  · exact .inl differs
  · exact .inr fun equal => differs (running.trans equal)

/-- A task writes versions of its own job only. -/
theorem Traced.write
    (traced : Traced initial concerns ingests streams service)
    {jobId : String} {jobs : JobTable.World}
    (taken : JobTable.step service.jobs (.write jobId) = some jobs) :
    Traced initial concerns ingests streams { service with jobs := jobs } := by
  refine { traced with
    jobs := ?_, sound := traced.sound.step (JobTable.step_table taken) }
  rw [JobTable.step] at taken
  split at taken
  case h_1 => cases taken
  next job rest pending =>
    cases taken
    intro other version entry
    rcases traced.sound.writing pending with ⟨old, isOld, follows, -⟩
    rw [Std.ExtTreeMap.getElem?_insert] at entry
    split at entry
    · cases entry
      rw [follows.2.tag, follows.2.kind]
      exact traced.jobs jobId old isOld
    · exact traced.jobs other version entry

/-- A step of an export that was admitted before. -/
theorem Traced.moved
    (traced : Traced initial concerns ingests streams service)
    {i : Nat} {f : Phase → Option Phase} {exports : Exports.World}
    (moved : service.exports.move i f = some exports) :
    Traced initial concerns ingests streams
      { service with exports := exports } := by
  rcases move_eq_some moved with ⟨before, phase, isExport, -, rfl⟩
  refine { traced with exports := ?_ }
  intro running member
  rcases List.mem_or_eq_of_mem_set member with old | rfl
  · exact traced.exports running old
  · exact traced.exports before (List.mem_of_getElem? isExport)

theorem Traced.later
    (traced : Traced initial concerns ingests streams service)
    {action : Action Key Body} {after : Service}
    (taken : later setting service action = some after) :
    Traced initial concerns ingests streams after := by
  cases action with
  | receive | authenticated => cases taken
  | advance place =>
      rcases Option.map_eq_some_iff.mp taken with ⟨markets, stepped, rfl⟩
      rcases Markets.exists_advance stepped with
        ⟨request, state, next, isRequest, moved, rfl⟩
      have moves := Markets.moves_of_advance moved
      exact traced.replace isRequest (Markets.tag_of_moves moves).1
        fun tag other => moves.beside other
  | fail place failure =>
      rcases Option.map_eq_some_iff.mp taken with ⟨markets, stepped, rfl⟩
      rcases Markets.exists_fail stepped with
        ⟨request, state, next, isRequest, failed, rfl⟩
      have fails := Markets.fails_of_fail failed
      exact traced.replace isRequest fails.tag
        fun tag other => fails.beside other
  | report tag status =>
      rw [Server.later] at taken
      rcases Option.map_eq_some_iff.mp taken with ⟨markets, stepped, rfl⟩
      exact traced.report stepped
  | write jobId =>
      rcases Option.map_eq_some_iff.mp taken with ⟨jobs, stepped, rfl⟩
      exact traced.write stepped
  | bounds i bounds =>
      rcases Option.map_eq_some_iff.mp taken with ⟨exports, stepped, rfl⟩
      rcases Option.bind_eq_some_iff.mp stepped with ⟨running, -, moved⟩
      exact traced.moved moved
  | opened i result =>
      rcases Option.map_eq_some_iff.mp taken with ⟨exports, stepped, rfl⟩
      rw [Exports.step] at stepped
      exact traced.moved stepped
  | stop i =>
      rcases Option.map_eq_some_iff.mp taken with ⟨exports, stepped, rfl⟩
      rw [Exports.step] at stepped
      exact traced.moved stepped

end Traced

/-! ## Causes -/

section Causes

variable (setting : Setting Text Key Body)

/-- A request to add or to remove the market of a tag. -/
def Concerns (tag : String) (request : HttpRequest Body) : Prop :=
  (∃ captures input, dispatched request = .handled .marketsAdd captures ∧
    setting.extract.addMarket request.body = some input ∧ input.tag = tag) ∨
  ∃ captures, dispatched request = .handled .marketsRemove captures ∧
    pathOf setting captures "tag" = some tag

/-- A request for a backfill of this kind. -/
def Ingests (tag : String) (kind : IngestKind) (request : HttpRequest Body) :
    Prop :=
  ∃ captures req, dispatched request = .handled .ingestStart captures ∧
    setting.extract.ingestRequest request.body = some req ∧
    req.tag = tag ∧ req.kind = kind

/-- A request that this export has been admitted for. -/
def Streams (admitted : Data.Admitted) (request : HttpRequest Body) : Prop :=
  ∃ captures tag table range find permits,
    dispatched request = .handled .dataStream captures ∧
    pathOf setting captures "tag" = some tag ∧
    pathOf setting captures "table" = some table ∧
    setting.extract.range request.credentials.query = some range ∧
    accept setting.readers find permits
      ⟨tag, table, range, request.lastEventId⟩ = .ok admitted

/-- Some request that the guard has let through asks for it. -/
def Caused (past : List (Action Key Body))
    (conversations : List (Conversation Body))
    (asks : HttpRequest Body → Prop) : Prop :=
  ∃ conversation ∈ conversations,
    Authorized setting past conversation ∧ asks conversation.request

variable {setting}

theorem Caused.step {past : List (Action Key Body)} {world next : World Body}
    {action : Action Key Body} {asks : HttpRequest Body → Prop}
    (caused : Caused setting past world.conversations asks)
    (steps : Steps setting world action next) :
    Caused setting (past ++ [action]) next.conversations asks := by
  rcases caused with ⟨conversation, member, authorized, asked⟩
  refine ⟨conversation, steps.kept member ?_, authorized.append [action], asked⟩
  rcases authorized with ⟨user, _, _, _, _, _, _, called, -⟩
  intro token waiting
  rw [called] at waiting
  cases waiting

/-- A handler without a guard changes nothing. -/
theorem eq_of_begin_unguarded {handler : Handler}
    {captures : List (String × String)} {request : HttpRequest Body}
    {answers : Answers} {service after : Service}
    (isOpen : isProtected handler = false)
    (begun : begin setting handler captures request answers service =
      some after) : after = service := by
  cases handler with
  | marketsList | healthz | ingestStatus | marketsShow | authMe | wsTicker
    | wsOrderbook =>
      cases begun
      rfl
  | marketsAdd | ingestStart | marketsRemove | dataStream =>
      exact absurd isOpen (by decide +kernel)

variable {initial service : Service} {concerns : String → Prop}
variable {ingests : String → IngestKind → Prop} {streams : Data.Admitted → Prop}

/-- What a handler starts is of the cause of its request. -/
theorem Traced.begin
    (traced : Traced initial concerns ingests streams service)
    {handler : Handler} {captures : List (String × String)}
    {request : HttpRequest Body} {answers : Answers} {after : Service}
    (routed : dispatched request = .handled handler captures)
    (begun : begin setting handler captures request answers service =
      some after)
    (concerned : ∀ tag, Concerns setting tag request → concerns tag)
    (ingested : ∀ tag kind, Ingests setting tag kind request →
      ingests tag kind)
    (streamed : ∀ admitted, Streams setting admitted request →
      streams admitted) :
    Traced initial concerns ingests streams after := by
  have arrives : ∀ arriving : Markets.Request, concerns arriving.tag →
      Traced initial concerns ingests streams
        { service with markets :=
          { service.markets with
            requests := service.markets.requests ++ [arriving] } } := by
    intro arriving isOf
    refine { traced with requests := ?_ }
    intro other member
    rcases List.mem_append.mp member with old | new
    · exact traced.requests other old
    · cases List.mem_singleton.mp new
      exact isOf
  cases handler with
  | marketsList | healthz | ingestStatus | marketsShow | authMe | wsTicker
    | wsOrderbook =>
      cases begun
      exact traced
  | marketsAdd =>
      rw [Server.begin] at begun
      split at begun
      next unread =>
        cases begun
        exact traced
      next input read =>
        cases begun
        exact arrives _
          (concerned _ (.inl ⟨captures, input, routed, read, rfl⟩))
  | marketsRemove =>
      rw [Server.begin] at begun
      split at begun
      next unread =>
        cases begun
        exact traced
      next tag read =>
        cases begun
        exact arrives _ (concerned _ (.inr ⟨captures, routed, read⟩))
  | ingestStart =>
      rw [Server.begin] at begun
      split at begun
      next unread =>
        cases begun
        exact traced
      next req read =>
        rcases Option.map_eq_some_iff.mp begun with ⟨jobs, posted, rfl⟩
        refine { traced with
          jobs := ?_, sound := traced.sound.step (JobTable.step_table posted) }
        rw [JobTable.step] at posted
        split at posted
        case isTrue => cases posted
        split at posted
        next job table accepted =>
          cases posted
          rcases JobTable.start_ok accepted with
            ⟨-, ⟨market, found, rfl⟩, -, rfl⟩
          have same : market.tag = req.tag :=
            Collection.tag_of_find (Answers.stored_of_find found)
          intro jobId job entry
          rw [Std.ExtTreeMap.getElem?_insert] at entry
          split at entry
          · cases entry
            exact ingested _ _ ⟨captures, req, routed, read, same.symm, rfl⟩
          · exact traced.jobs jobId job entry
        · cases posted
          exact traced.jobs
  | dataStream =>
      rw [Server.begin] at begun
      split at begun
      next tag table range isTag isTable isRange =>
        rcases Option.map_eq_some_iff.mp begun with ⟨exports, taken, rfl⟩
        refine { traced with exports := ?_ }
        rw [Exports.step] at taken
        split at taken
        · cases taken
          exact traced.exports
        next admitted accepted =>
          cases taken
          intro running member
          rcases List.mem_append.mp member with old | new
          · exact traced.exports running old
          · cases List.mem_singleton.mp new
            exact streamed _ ⟨captures, tag, table, range, _, _, routed, isTag,
              isTable, isRange, accepted⟩
      · cases begun
        exact traced

/-- All that the service has was caused by requests let through. -/
def IsCaused (setting : Setting Text Key Body) (initial : Service)
    (past : List (Action Key Body)) (world : World Body) : Prop :=
  Traced initial
    (fun tag => Caused setting past world.conversations (Concerns setting tag))
    (fun tag kind =>
      Caused setting past world.conversations (Ingests setting tag kind))
    (fun admitted =>
      Caused setting past world.conversations (Streams setting admitted))
    world.service

theorem Steps.isCaused {past : List (Action Key Body)}
    {world next : World Body} {action : Action Key Body}
    (steps : Steps setting world action next)
    (guarded : ∀ conversation ∈ next.conversations,
      Guarded setting (past ++ [action]) conversation)
    (isCaused : IsCaused setting initial past world) :
    IsCaused setting initial (past ++ [action]) next := by
  have still := isCaused.mono (fun tag caused => caused.step steps)
    (fun tag kind caused => caused.step steps)
    (fun admitted caused => caused.step steps)
  cases steps with
  | refused | guarding | unrouted | dismissed | misdirected => exact still
  | unguarded routed isOpen begun =>
      cases eq_of_begin_unguarded isOpen begun
      exact still
  | @admitted i key now answers conversation token user handler captures
      service isHere waiting routed passed begun =>
      cases isGuarded : isProtected handler with
      | false =>
          cases eq_of_begin_unguarded isGuarded begun
          exact still
      | true =>
          rcases List.getElem?_eq_some_iff.mp isHere with ⟨bound, -⟩
          have member := List.mem_set bound
            { conversation with stage := .called (some user) }
          have authorized := (guarded _ member).called handler captures
            (some user) routed isGuarded rfl
          exact still.begin routed begun
            (fun tag asks => ⟨_, member, authorized, asks⟩)
            (fun tag kind asks => ⟨_, member, authorized, asks⟩)
            (fun admitted asks => ⟨_, member, authorized, asks⟩)
  | later moved => exact still.later moved

end Causes

/--
Over any interleaving of requests, handlers, tasks and feeds: no handler of the
protected router runs without a caller that the guard let through, and every
market that has come, gone or changed, every backfill job and every export is
there because such a caller asked for it.
-/
theorem changes_accountable (setting : Setting Text Key Body) (config : Config)
    (markets : Collection) (actions : List (Action Key Body))
    (final : World Body)
    (reached : run (step setting) (.start config markets) actions =
      some final) :
    (∀ conversation ∈ final.conversations, ∀ handler captures user,
      dispatched conversation.request = .handled handler captures →
      isProtected handler = true → conversation.stage = .called user →
      Authorized setting actions conversation) ∧
    (∀ tag, Differs (.start config markets) final.service tag →
      Caused setting actions final.conversations (Concerns setting tag)) ∧
    (∀ (jobId : String) job, final.service.jobs.jobs[jobId]? = some job →
      Caused setting actions final.conversations
        (Ingests setting job.tag job.kind)) ∧
    ∀ running ∈ final.service.exports.exports,
      Caused setting actions final.conversations
        (Streams setting running.admitted) := by
  have both : (∀ conversation ∈ final.conversations,
      Guarded setting actions conversation) ∧
        IsCaused setting (.start config markets) actions final := by
    refine history_of_guarded
      (fun world past =>
        (∀ conversation ∈ world.conversations,
          Guarded setting past conversation) ∧
            IsCaused setting (.start config markets) past world)
      ?_ ⟨?_, ?_⟩
      (@guarded_of_forall _ _ _ (fun _ _ => True) (fun _ _ => trivial) _ _)
      reached
    · rintro world past action next ⟨guarded, isCaused⟩ - taken
      have steps := steps_of_step taken
      have guarded := steps.guarded guarded
      exact ⟨guarded, steps.isCaused guarded isCaused⟩
    · exact fun conversation member => (List.not_mem_nil member).elim
    · exact traced_start config markets _ _ _
  rcases both with ⟨guarded, isCaused⟩
  exact ⟨fun conversation member => (guarded conversation member).called,
    isCaused.changed, isCaused.jobs, isCaused.exports⟩

/-- What the token of the owner says. -/
def ownerPayload : Payload where
  issuer := "https://auth.example"
  audience := ["chud-money-api"]
  expires := 1000
  subject := "owner"
  roles := [requiredRole]

/-- A decoder that knows one token, until it has expired. -/
def ownerDecoder : Decoder Unit where
  Signed _ _ token := token = "header.payload.signature"
  payload token :=
    if token = "header.payload.signature" then some ownerPayload else none
  decode validation _ now token :=
    if token ≠ "header.payload.signature" then .error (.other "bad signature")
    else if ownerPayload.issuer ∈ validation.issuers ∧
        "chud-money-api" ∈ validation.audiences then
      if now ≤ ownerPayload.expires + validation.leeway then
        .ok ⟨ownerPayload.subject, ownerPayload.roles⟩
      else .error .expiredSignature
    else .error (.other "bad claims")
  sound := by
    intro validation key now token claims decoded
    split at decoded
    case isTrue => cases decoded
    next signed =>
      split at decoded
      case isFalse => cases decoded
      next claimed =>
        split at decoded
        case isFalse => cases decoded
        next early =>
          cases decoded
          rw [not_not] at signed
          exact ⟨signed, ownerPayload, if_pos signed, claimed.1,
            ⟨_, List.mem_singleton_self _, claimed.2⟩, fun _ => early, rfl⟩

/-- The bodies are read already, and paths have nothing to decode. -/
def ownerSetting : Setting Value Unit (Option AddMarket) where
  readers := .parsed
  validate _ := []
  extract :=
    { path := some
      range := fun _ => none
      addMarket := id
      ingestRequest := fun _ => none }
  decoder := ownerDecoder
  config := ⟨"https://auth.example", "chud-money-api"⟩

/-- `POST /add` with this query. -/
def addRequest (query : Option String) : HttpRequest (Option AddMarket) where
  method := .post
  path := "/add"
  credentials := ⟨none, query⟩
  lastEventId := none
  body := some (Markets.addSeries "KXBTC15M")

def noAnswers : Answers where
  now := "2026-09-18T13:00:00+00:00"
  utcNow := 0
  jobId := "5f0c"
  env := payloadEnv (.array []) fun _ => "0.5"
  fuel := 0
  failure := none

/-- One request has no token, one a forged token, and one that of the owner. -/
def threeAdds : List (Action Unit (Option AddMarket)) :=
  [.receive (addRequest none) noAnswers,
    .receive (addRequest (some "access_token=forged")) noAnswers,
    .receive (addRequest (some "v=1&access_token=header.payload.signature"))
      noAnswers,
    .authenticated 2 (.ok ()) 900 noAnswers,
    .authenticated 1 (.ok ()) 900 noAnswers,
    .advance 0, .advance 0, .advance 0]

theorem changes_accountable_threeAdds :
    ∃ final, run (step ownerSetting) (.start Markets.testConfig .empty)
        threeAdds = some final ∧
      final.conversations.map Conversation.stage =
        [.refused (.unauthorized
            "authorization header or access_token query parameter required"),
          .refused (.jwt "bad signature"),
          .called (some ⟨"owner", [requiredRole]⟩)] ∧
      Caused ownerSetting threeAdds final.conversations
        (Concerns ownerSetting "btc-15m") := by
  have runs :
      (run (step ownerSetting) (.start Markets.testConfig .empty)
        threeAdds).map (fun final =>
          (final.conversations.map Conversation.stage,
            (final.service.markets.stored "btc-15m").isSome)) =
        some ([.refused (.unauthorized
            "authorization header or access_token query parameter required"),
          .refused (.jwt "bad signature"),
          .called (some ⟨"owner", [requiredRole]⟩)], true) := by
    decide +kernel
  rcases Option.map_eq_some_iff.mp runs with ⟨final, reached, ends⟩
  simp only [Prod.mk.injEq] at ends
  rcases ends with ⟨stages, stored⟩
  rcases changes_accountable ownerSetting Markets.testConfig .empty threeAdds
    final reached with ⟨-, changed, -, -⟩
  refine ⟨final, reached, stages, changed "btc-15m" (.inl ?_)⟩
  intro same
  have free : (Service.start Markets.testConfig .empty).markets.stored
      "btc-15m" = none := Std.ExtTreeMap.getElem?_empty
  rw [same, free] at stored
  cases stored

end ChudMoney.Controllers.Server
