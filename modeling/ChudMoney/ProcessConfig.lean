import ChudMoney.Lib.Patterns
import ChudMoney.Model.Market
import Mathlib.Data.List.DropRight

/-!
# Process configuration, loaded from the environment

The base of the proxy URLs loses its trailing slashes here, and what remains is
a websocket URL if and only if the proxy URLs are.
-/

namespace ChudMoney.ProcessConfig

open ChudMoney.Lib.Patterns
open ChudMoney.Lib.Text
open ChudMoney.Model
open RegularExpression

/-! ## Loading -/

structure Config extends Model.Config where
  authUrl : String
  /-- Expected `iss` of Verys access tokens. -/
  verysIssuer : String
  bindAddr : String
  clientId : String
  mongoUri : String
  mongoDb : String
  questdbIlpConf : String
  questdbPgConninfo : String
  kalshiKeyId : String
  kalshiKeyPath : String
  cdpKey : Option (String × String)

inductive ConfigError where
  /-- `KALSHI_ENV must be 'prod' or 'demo', got …`. -/
  | kalshiEnv (other : String)
  | unset (context : String)
  deriving DecidableEq

/-- `str::trim_end_matches` of a character. -/
def trimEndMatches (c : Char) (text : String) : String :=
  .ofList (text.toList.rdropWhile (· == c))

section Loading

variable (vars : String → Option String)

def varOr (name default : String) : String :=
  (vars name).getD default

def nonEmpty (name : String) : Option String :=
  (vars name).filter fun value => trim value.toList ≠ []

/-- Both halves of the key, or none. -/
def cdpKey : Option (String × String) :=
  match nonEmpty vars "CDP_API_KEY_ID", nonEmpty vars "CDP_API_KEY_SECRET" with
  | some id, some secret => some (id, secret)
  | _, _ => none

def kalshiEnv : Except ConfigError KalshiEnv :=
  let name := varOr vars "KALSHI_ENV" "demo"
  if name = "prod" then .ok .prod
  else if name = "demo" then .ok .demo
  else .error (.kalshiEnv name)

/-- A variable without a default. -/
def var (name context : String) : Except ConfigError String :=
  match vars name with
  | some value => .ok value
  | none => .error (.unset context)

def fromEnv : Except ConfigError Config := do
  let kalshiEnv ← kalshiEnv vars
  let pgHost := varOr vars "QUESTDB_PG_HOST" "localhost"
  let pgPort := varOr vars "QUESTDB_PG_PORT" "8812"
  let pgUser := varOr vars "QUESTDB_PG_USER" "admin"
  let pgPassword := varOr vars "QUESTDB_PG_PASSWORD" "quest"
  let pgDb := varOr vars "QUESTDB_PG_DB" "qdb"
  let authUrl :=
    trimEndMatches '/' (varOr vars "AUTH_URL" "http://localhost:8081")
  let verysIssuer := trimEndMatches '/' (varOr vars "VERYS_ISSUER" authUrl)
  let clientId ← var vars "CHUD_MONEY_API_CLIENT_ID"
    "set CHUD_MONEY_API_CLIENT_ID to this API's Verys client id"
  let kalshiKeyId ← var vars "KALSHI_API_KEY_ID"
    "set KALSHI_API_KEY_ID to your Kalshi API key id"
  return {
    authUrl := authUrl
    verysIssuer := verysIssuer
    bindAddr := varOr vars "BIND_ADDR" "0.0.0.0:3000"
    clientId := clientId
    publicWsBase := trimEndMatches '/'
      (varOr vars "PUBLIC_WS_BASE" "ws://localhost:3000")
    mongoUri := varOr vars "MONGO_URI" "mongodb://localhost:27017"
    mongoDb := varOr vars "MONGO_DB" "chud"
    questdbIlpConf :=
      varOr vars "QUESTDB_ILP_CONF" "http::addr=localhost:9000;"
    questdbPgConninfo :=
      "host=" ++ pgHost ++ " port=" ++ pgPort ++ " user=" ++ pgUser ++
        " password=" ++ pgPassword ++ " dbname=" ++ pgDb
    kalshiEnv := kalshiEnv
    kalshiKeyId := kalshiKeyId
    kalshiKeyPath := varOr vars "KALSHI_PRIVATE_KEY_PATH" "kalshi_key.pem"
    cdpKey := cdpKey vars }

end Loading

/-! ## Trailing slashes -/

theorem toList_trimEndMatches (c : Char) (text : String) :
    (trimEndMatches c text).toList = text.toList.rdropWhile (· == c) :=
  String.toList_ofList

/-- What is trimmed does not end in what was trimmed. -/
theorem getLast_trimEndMatches (c : Char) (text : String) :
    (trimEndMatches c text).toList.getLast? ≠ some c := by
  rw [toList_trimEndMatches]
  intro isLast
  rcases List.getLast?_eq_some_iff.mp isLast with ⟨before, whole⟩
  have nonempty : text.toList.rdropWhile (· == c) ≠ [] := by
    rw [whole]
    exact List.append_ne_nil_of_right_ne_nil _ (List.cons_ne_nil c [])
  have last := List.rdropWhile_last_not (· == c) text.toList nonempty
  simp [whole] at last

/-! ## What is loaded -/

section Loaded

variable {vars : String → Option String} {config : Config}

theorem kalshiEnv_eq_ok {env : KalshiEnv} :
    kalshiEnv vars = .ok env ↔
      varOr vars "KALSHI_ENV" "demo" = env.asStr := by
  rw [kalshiEnv]
  split
  next isProd =>
    rw [isProd]
    cases env <;> simp [KalshiEnv.asStr]
  next notProd =>
    split
    next isDemo =>
      rw [isDemo]
      cases env <;> simp [KalshiEnv.asStr]
    next notDemo => cases env <;> simp [KalshiEnv.asStr, *]

theorem var_eq_ok {name context value : String} :
    var vars name context = .ok value ↔ vars name = some value := by
  rw [var]
  split
  next set => simp [set]
  next unset => simp [unset]

theorem exists_of_bind_eq_ok {ε α β : Type} {first : Except ε α}
    {next : α → Except ε β} {result : β}
    (bound : first >>= next = .ok result) :
    ∃ value, first = .ok value ∧ next value = .ok result := by
  cases first with
  | error e => cases bound
  | ok value => exact ⟨value, rfl, bound⟩

/-- A loaded configuration, up to the parts that have defaults. -/
theorem fromEnv_eq_ok (isConfig : fromEnv vars = .ok config) :
    varOr vars "KALSHI_ENV" "demo" = config.kalshiEnv.asStr ∧
      vars "CHUD_MONEY_API_CLIENT_ID" = some config.clientId ∧
      vars "KALSHI_API_KEY_ID" = some config.kalshiKeyId ∧
      config.publicWsBase = trimEndMatches '/'
        (varOr vars "PUBLIC_WS_BASE" "ws://localhost:3000") := by
  rw [fromEnv] at isConfig
  rcases exists_of_bind_eq_ok isConfig with ⟨env, isEnv, isConfig⟩
  rcases exists_of_bind_eq_ok isConfig with ⟨clientId, isClient, isConfig⟩
  rcases exists_of_bind_eq_ok isConfig with ⟨keyId, isKey, isConfig⟩
  cases isConfig
  exact ⟨kalshiEnv_eq_ok.mp isEnv, var_eq_ok.mp isClient, var_eq_ok.mp isKey,
    rfl⟩

/-- What must be set for the process to start. -/
theorem exists_fromEnv_iff :
    (∃ config, fromEnv vars = .ok config) ↔
      (∃ env : KalshiEnv, varOr vars "KALSHI_ENV" "demo" = env.asStr) ∧
        (vars "CHUD_MONEY_API_CLIENT_ID").isSome ∧
        (vars "KALSHI_API_KEY_ID").isSome := by
  constructor
  · rintro ⟨config, isConfig⟩
    rcases fromEnv_eq_ok isConfig with ⟨isEnv, isClient, isKey, -⟩
    exact ⟨⟨_, isEnv⟩, by rw [isClient]; rfl, by rw [isKey]; rfl⟩
  · rintro ⟨⟨env, isEnv⟩, isClient, isKey⟩
    rcases Option.isSome_iff_exists.mp isClient with ⟨clientId, isClient⟩
    rcases Option.isSome_iff_exists.mp isKey with ⟨keyId, isKey⟩
    rw [fromEnv, kalshiEnv_eq_ok.mpr isEnv, var_eq_ok.mpr isClient,
      var_eq_ok.mpr isKey]
    exact ⟨_, rfl⟩

end Loaded

/-! ## Websocket URLs -/

/-- A text that starts as a websocket URL. -/
theorem accepts_ws_iff (text : String) :
    Accepts "^wss?://" text ↔
      "ws://".toList <+: text.toList ∨ "wss://".toList <+: text.toList := by
  have isRead : Pattern.ofText "^wss?://".toList =
      some ⟨true, char 'w' * (char 's' * (optional (char 's') *
        (char ':' * (char '/' * (char '/' * 1))))), false⟩ := rfl
  rw [accepts_start isRead]
  simp only [mem_char_comp, mem_optional_comp, matches'_epsilon,
    Language.mem_one]
  constructor
  · rintro ⟨_, start, _, rfl, _, rfl, isPlain | isSecure⟩
    · rcases isPlain with ⟨_, rfl, _, rfl, _, rfl, rfl⟩
      exact Or.inl start
    · rcases isSecure with ⟨_, rfl, _, rfl, _, rfl, _, rfl, rfl⟩
      exact Or.inr start
  · rintro (start | start)
    · exact ⟨_, start, _, rfl, _, rfl, Or.inl ⟨_, rfl, _, rfl, _, rfl, rfl⟩⟩
    · exact ⟨_, start, _, rfl, _, rfl,
        Or.inr ⟨_, rfl, _, rfl, _, rfl, _, rfl, rfl⟩⟩

/-- Where the start of two joined lists ends. -/
theorem prefix_append_iff {α : Type} {start first second : List α} :
    start <+: first ++ second ↔
      start <+: first ∨
        ∃ rest, start = first ++ rest ∧ rest <+: second := by
  constructor
  · rintro ⟨after, whole⟩
    rcases List.append_eq_append_iff.mp whole with
      ⟨rest, rfl, -⟩ | ⟨rest, rfl, isSecond⟩
    · exact Or.inl (List.prefix_append start rest)
    · exact Or.inr ⟨rest, rfl, ⟨after, isSecond.symm⟩⟩
  · rintro (⟨after, rfl⟩ | ⟨rest, rfl, ⟨after, rfl⟩⟩)
    · exact ⟨after ++ second, by simp⟩
    · exact ⟨after, by simp⟩

/-- A start that ends in two slashes does not end in the path after a base. -/
theorem prefix_base_iff {start base rest : List Char}
    (slashes : start.dropLast.getLast? = some '/')
    (apart : ¬ ['/', 'w'] <:+: start) (trimmed : base.getLast? ≠ some '/') :
    start <+: base ++ '/' :: 'w' :: rest ↔ start <+: base := by
  rw [prefix_append_iff, or_iff_left_iff_imp]
  rintro ⟨more, rfl, isMore⟩
  rcases more with _ | ⟨c, _ | ⟨d, more⟩⟩
  · rw [List.append_nil]
  · rw [List.dropLast_concat] at slashes
    exact absurd slashes trimmed
  · rw [List.cons_prefix_cons, List.cons_prefix_cons] at isMore
    rcases isMore with ⟨rfl, rfl, -⟩
    exact absurd ⟨base, more, by simp⟩ apart

/-- A proxy URL is a websocket URL if and only if its base is. -/
theorem accepts_ws_append {base : String}
    (trimmed : base.toList.getLast? ≠ some '/') (path : String) :
    Accepts "^wss?://" (base ++ ("/ws/" ++ path)) ↔
      Accepts "^wss?://" base := by
  have whole : (base ++ ("/ws/" ++ path)).toList =
      base.toList ++ '/' :: 'w' :: ('s' :: '/' :: path.toList) := by
    rw [String.toList_append, String.toList_append]
    rfl
  rw [accepts_ws_iff, accepts_ws_iff, whole,
    prefix_base_iff (by decide) (by decide) trimmed,
    prefix_base_iff (by decide) (by decide) trimmed]

end ChudMoney.ProcessConfig
