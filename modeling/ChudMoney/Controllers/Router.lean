import ChudMoney.Lib.Routes
import ChudMoney.Model.Market

/-!
# HTTP and websocket routes

The routes of the protected router go through `authenticated` first; the guard
runs after a route has been found and is not part of the dispatch.

The tags that the schema reserves are kept by hand, apart from the routes.
`/healthz` is not among them.
-/

namespace ChudMoney.Controllers.Router

open ChudMoney.Lib.Routes
open ChudMoney.Model

inductive Method where
  | get
  | head
  | post
  | delete
  /-- No route lists it. -/
  | other (name : String)
  deriving DecidableEq, Repr

/-- The functions that requests are dispatched to. -/
inductive Handler where
  | authMe
  | marketsAdd
  | ingestStart
  | marketsRemove
  | dataStream
  | wsTicker
  | wsOrderbook
  | marketsList
  | healthz
  | ingestStatus
  | marketsShow
  deriving DecidableEq, Repr

/-- The methods of a `get` route; HEAD is handled as GET. -/
def get (handler : Handler) : List (Method × Handler) :=
  [(.get, handler), (.head, handler)]

def post (handler : Handler) : List (Method × Handler) :=
  [(.post, handler)]

def delete (handler : Handler) : List (Method × Handler) :=
  [(.delete, handler)]

/-- The routes that need a bearer token. -/
def protectedRouter : Router Method Handler :=
  Router.new
    |>.route "/auth/me" (get .authMe)
    |>.route "/add" (post .marketsAdd)
    |>.route "/ingest" (post .ingestStart)
    |>.route "/{tag}" (delete .marketsRemove)
    |>.route "/{tag}/data/{table}" (get .dataStream)
    |>.route "/ws/{tag}/ticker" (get .wsTicker)
    |>.route "/ws/{tag}/orderbook" (get .wsOrderbook)

def router : Router Method Handler :=
  Router.new
    |>.route "/" (get .marketsList)
    |>.route "/healthz" (get .healthz)
    |>.route "/ingest/{job_id}" (get .ingestStatus)
    |>.route "/{tag}" (get .marketsShow)
    |>.merge protectedRouter

/-- The requests about a market reach the handlers of markets, with its tag. -/
structure Reachable (tag : String) : Prop where
  shown : router.dispatch .get ("/" ++ tag) =
    .handled .marketsShow [("tag", tag)]
  removed : router.dispatch .delete ("/" ++ tag) =
    .handled .marketsRemove [("tag", tag)]
  streamed : ∀ table, IsSegment table →
    router.dispatch .get ("/" ++ tag ++ "/data/" ++ table) =
      .handled .dataStream [("tag", tag), ("table", table)]
  ticker : router.dispatch .get ("/ws/" ++ tag ++ "/ticker") =
    .handled .wsTicker [("tag", tag)]
  orderbook : router.dispatch .get ("/ws/" ++ tag ++ "/orderbook") =
    .handled .wsOrderbook [("tag", tag)]

/-- The router as a table. -/
theorem routes_router : router.routes =
    [⟨[.fixed ""], [], get .marketsList⟩,
      ⟨[.fixed "healthz"], [], get .healthz⟩,
      ⟨[.fixed "ingest", .capture "job_id"], [], get .ingestStatus⟩,
      ⟨[.capture "tag"], [], get .marketsShow ++ delete .marketsRemove⟩,
      ⟨[.fixed "auth", .fixed "me"], [], get .authMe⟩,
      ⟨[.fixed "add"], [], post .marketsAdd⟩,
      ⟨[.fixed "ingest"], [], post .ingestStart⟩,
      ⟨[.capture "tag", .fixed "data", .capture "table"], [],
        get .dataStream⟩,
      ⟨[.fixed "ws", .capture "tag", .fixed "ticker"], [], get .wsTicker⟩,
      ⟨[.fixed "ws", .capture "tag", .fixed "orderbook"], [],
        get .wsOrderbook⟩] := by
  rfl

/-! ## Tags that no fixed route takes -/

/-- The texts that a fixed route starts with. -/
def fixedSegments : List String :=
  ["healthz", "ingest", "auth", "add", "ws"]

/-- A path of one segment shows or removes the market. -/
theorem dispatch_tag {tag : String} (segment : IsSegment tag)
    (free : tag ∉ fixedSegments) {method : Method} {handler : Handler}
    (listed : (get .marketsShow ++ delete .marketsRemove).lookup method =
      some handler) :
    router.dispatch method ("/" ++ tag) =
      .handled handler [("tag", tag)] := by
  have path : "/" ++ tag = joined [tag] := by
    apply String.toList_injective
    simp [joined]
  simp only [fixedSegments, List.mem_cons, not_or] at free
  obtain ⟨healthz, ingest, auth, add, ws, -⟩ := free
  rw [Router.dispatch, path, segments_joined (by simp) (by simpa using segment),
    routes_router]
  simp [find, Route.fixed, Route.captured, segment.1, Ne.symm healthz,
    Ne.symm ingest, Ne.symm auth, Ne.symm add, Ne.symm ws, listed]

/-- A path of three segments streams a table of the market. -/
theorem dispatch_data {tag table : String} (segment : IsSegment tag)
    (free : tag ∉ fixedSegments) (isTable : IsSegment table) :
    router.dispatch .get ("/" ++ tag ++ "/data/" ++ table) =
      .handled .dataStream [("tag", tag), ("table", table)] := by
  have path : "/" ++ tag ++ "/data/" ++ table =
      joined [tag, "data", table] := by
    apply String.toList_injective
    simp [joined]
  have parts : ∀ part ∈ [tag, "data", table], IsSegment part := by
    simpa using ⟨segment, ⟨by decide, by decide⟩, isTable⟩
  simp only [fixedSegments, List.mem_cons, not_or] at free
  obtain ⟨healthz, ingest, auth, add, ws, -⟩ := free
  rw [Router.dispatch, path, segments_joined (by simp) parts, routes_router]
  simp [find, Route.fixed, Route.captured, segment.1, isTable.1, get,
    Ne.symm healthz, Ne.symm ingest, Ne.symm auth, Ne.symm add, Ne.symm ws]

/-- A websocket path takes any tag, as `ws` is preferred to a capture. -/
theorem dispatch_ws {tag : String} (segment : IsSegment tag) :
    router.dispatch .get ("/ws/" ++ tag ++ "/ticker") =
        .handled .wsTicker [("tag", tag)] ∧
      router.dispatch .get ("/ws/" ++ tag ++ "/orderbook") =
        .handled .wsOrderbook [("tag", tag)] := by
  have parts : ∀ stream : String, IsSegment stream →
      ∀ part ∈ ["ws", tag, stream], IsSegment part := by
    intro stream isStream
    simpa using ⟨⟨by decide, by decide⟩, segment, isStream⟩
  constructor
  · have path : "/ws/" ++ tag ++ "/ticker" = joined ["ws", tag, "ticker"] := by
      apply String.toList_injective
      simp [joined]
    rw [Router.dispatch, path,
      segments_joined (by simp) (parts _ ⟨by decide, by decide⟩), routes_router]
    simp [find, Route.fixed, Route.captured, segment.1, get]
  · have path : "/ws/" ++ tag ++ "/orderbook" =
        joined ["ws", tag, "orderbook"] := by
      apply String.toList_injective
      simp [joined]
    rw [Router.dispatch, path,
      segments_joined (by simp) (parts _ ⟨by decide, by decide⟩), routes_router]
    simp [find, Route.fixed, Route.captured, segment.1, get]

/-! ## Tags of the schema -/

/-- A tag of the schema is one segment of a path. -/
theorem isSegment_of_tagPattern {tag : String} (accepted : tagPattern tag) :
    IsSegment tag := by
  unfold tagPattern at accepted
  cases chars : tag.toList with
  | nil =>
      rw [chars] at accepted
      cases accepted
  | cons c rest =>
      rw [chars] at accepted
      simp only [Bool.and_eq_true, List.all_eq_true, Bool.or_eq_true]
        at accepted
      rcases accepted with ⟨⟨first, others⟩, -⟩
      constructor
      · rintro rfl
        cases chars
      · rw [chars]
        intro slash
        rcases List.mem_cons.mp slash with rfl | later
        · exact absurd first (by decide)
        · exact absurd (others '/' later) (by decide)

/--
A market that the schema admits is reachable unless its tag is `healthz`, the
one fixed route that is not reserved.
-/
theorem market_reachable_iff {tag : String} (accepted : tagAccepted tag) :
    Reachable tag ↔ tag ≠ "healthz" := by
  simp only [tagAccepted, Bool.and_eq_true, Bool.not_eq_true'] at accepted
  rcases accepted with ⟨pattern, unreserved⟩
  have segment := isSegment_of_tagPattern pattern
  constructor
  · rintro reachable rfl
    have shown := reachable.shown
    revert shown
    decide +kernel
  · intro other
    have free : tag ∉ fixedSegments := by
      simp only [reservedTags, List.contains_eq_mem, List.mem_cons,
        decide_eq_false_iff_not, not_or] at unreserved
      simp only [fixedSegments, List.mem_cons, not_or]
      tauto
    have ws := dispatch_ws segment
    constructor
    · exact dispatch_tag segment free rfl
    · exact dispatch_tag segment free rfl
    · exact fun table isTable => dispatch_data segment free isTable
    · exact ws.1
    · exact ws.2

theorem market_reachable_btc15m : Reachable "btc-15m" ↔ "btc-15m" ≠ "healthz" :=
  market_reachable_iff (by decide +kernel)

/-- The probe hides a market of that tag. -/
theorem not_reachable_healthz : ¬ ∀ tag, tagAccepted tag → Reachable tag := by
  intro all
  have shown := (all "healthz" (by decide +kernel)).shown
  revert shown
  decide +kernel

/-- The hidden market cannot be deleted either. -/
example : router.dispatch .delete "/healthz" = .methodNotAllowed := by
  decide +kernel

end ChudMoney.Controllers.Router
