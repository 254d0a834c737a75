import ChudMoney.Lib.Text
import Mathlib.Data.List.Basic

/-!
# The bearer-token guard

A caller presents its token in the `Authorization` header, or as a query
parameter where a browser cannot set headers.  The token is verified by a
`Decoder`, which is outside of the program; what it promises of a token that
it accepts is part of its structure.

Which requests are guarded, and what a handler may then do, is not said here.
-/

namespace ChudMoney.Middleware.Authenticated

open ChudMoney.Lib.Text

/-- The role an identity needs before it may use protected routes. -/
def requiredRole : String := "chud-money"

/-- The query parameter that carries the token. -/
def accessTokenParam : String := "access_token"

/-- Clock skew tolerated when checking `exp`, in seconds. -/
def leewaySecs : Nat := 30

structure AccessClaims where
  sub : String
  roles : List String
  deriving DecidableEq

/-- The caller of a protected route. -/
structure AuthUser where
  id : String
  roles : List String
  deriving DecidableEq

def AuthUser.hasRole (user : AuthUser) (role : String) : Bool :=
  user.roles.any fun other => other == role

/-- What a request is refused with. -/
inductive AuthError where
  | unauthorized (message : String)
  | forbidden (message : String)
  | verys (error : String)
  | jwt (error : String)
  deriving DecidableEq

namespace AuthError

def status : AuthError → Nat
  | unauthorized _ => 401
  | forbidden _ => 403
  | verys _ => 502
  | jwt _ => 401

/-- The text under `error` in the body. -/
def message : AuthError → String
  | unauthorized message => message
  | forbidden message => message
  | verys error => "verys: " ++ error
  | jwt error => "invalid access token: " ++ error

/-- The `WWW-Authenticate` header of the response. -/
def wwwAuthenticate (e : AuthError) : Option String :=
  if e.status = 401 then some "Bearer" else none

end AuthError

/-! ## The token of a request -/

/-- The bytes of a header value, and the query, of a request. -/
structure Credentials where
  authorization : Option (List UInt8)
  query : Option String
  deriving DecidableEq

/-- A byte that `HeaderValue::to_str` accepts. -/
def visibleAscii (b : UInt8) : Bool :=
  (32 ≤ b && b < 127) || b == 9

/-- `HeaderValue::to_str`. -/
def headerText (header : List UInt8) : Option (List Char) :=
  if header.all visibleAscii then
    some (header.map fun b => Char.ofNat b.toNat)
  else none

def eqIgnoreAsciiCase (one two : List Char) : Bool :=
  one.map Char.toLower == two.map Char.toLower

def bearer (header : List UInt8) : Except AuthError String :=
  match headerText header with
  | none => .error (.unauthorized "malformed authorization header")
  | some text =>
      match splitOnce ' ' text with
      | some (scheme, token) =>
          if eqIgnoreAsciiCase scheme "bearer".toList ∧ trim token ≠ [] then
            .ok (String.ofList (trim token))
          else .error (.unauthorized "expected a bearer token")
      | none => .error (.unauthorized "expected a bearer token")

/-- The value of the first pair of a query whose name is the parameter's. -/
def queryToken (query : Option String) : Option String :=
  query.bind fun query =>
    ((((query.toList.splitOn '&').filterMap (splitOnce '=')).find? fun pair =>
      pair.1 = accessTokenParam.toList).map fun pair =>
        String.ofList pair.2).filter fun value => value ≠ ""

/-- The header wins; otherwise the query. -/
def tokenFrom (credentials : Credentials) : Except AuthError String :=
  match credentials.authorization with
  | some header => bearer header
  | none =>
      match queryToken credentials.query with
      | some token => .ok token
      | none =>
          .error (.unauthorized ("authorization header or " ++
            accessTokenParam ++ " query parameter required"))

/-! ## Verification -/

inductive Algorithm where
  | edDSA
  deriving DecidableEq

/-- What is asked of a token. -/
structure Validation where
  algorithm : Algorithm
  issuers : List String
  audiences : List String
  requiredSpecClaims : List String
  validateExp : Bool
  leeway : Nat

inductive JwtError where
  | expiredSignature
  | other (text : String)
  deriving DecidableEq

/-- What the payload of a token says; its audience may be several. -/
structure Payload where
  issuer : String
  audience : List String
  expires : Nat
  subject : String
  roles : List String

/--
`jsonwebtoken::decode`.  A token that it accepts is signed with the key and
says what the validation asks; the claims are those of its payload.
-/
structure Decoder (Key : Type) where
  Signed : Algorithm → Key → String → Prop
  payload : String → Option Payload
  decode : Validation → Key → Nat → String → Except JwtError AccessClaims
  sound : ∀ {validation : Validation} {key : Key} {now : Nat}
    {token : String} {claims : AccessClaims},
    decode validation key now token = .ok claims →
      Signed validation.algorithm key token ∧
        ∃ payload', payload token = some payload' ∧
          payload'.issuer ∈ validation.issuers ∧
          (∃ audience ∈ payload'.audience, audience ∈ validation.audiences) ∧
          (validation.validateExp = true →
            now ≤ payload'.expires + validation.leeway) ∧
          claims = ⟨payload'.subject, payload'.roles⟩

variable {Key : Type}

/-- Signature, issuer, audience and expiry. -/
def verifyAccessToken (decoder : Decoder Key) (key : Key)
    (issuer audience : String) (now : Nat) (token : String) :
    Except AuthError AccessClaims :=
  let validation : Validation :=
    { algorithm := .edDSA
      issuers := [issuer]
      audiences := [audience]
      requiredSpecClaims := ["exp", "iss", "aud", "sub"]
      validateExp := true
      leeway := leewaySecs }
  match decoder.decode validation key now token with
  | .ok claims => .ok claims
  | .error .expiredSignature => .error (.unauthorized "access token expired")
  | .error (.other text) => .error (.jwt text)

def requireRole (user : AuthUser) : Except AuthError Unit :=
  if user.hasRole requiredRole then .ok ()
  else
    .error (.forbidden
      ("this account lacks the `" ++ requiredRole ++ "` role"))

/-- The settings of the process that the guard reads. -/
structure AuthConfig where
  verysIssuer : String
  clientId : String

/-- The full check of one token; `key` is the answer of the key server. -/
def authenticate (decoder : Decoder Key) (config : AuthConfig)
    (key : Except String Key) (now : Nat) (token : String) :
    Except AuthError AuthUser :=
  match key with
  | .error e => .error (.verys e)
  | .ok key =>
      match verifyAccessToken decoder key config.verysIssuer config.clientId
          now token with
      | .error e => .error e
      | .ok claims =>
          let user : AuthUser := ⟨claims.sub, claims.roles⟩
          match requireRole user with
          | .error e => .error e
          | .ok () => .ok user

/-! ## What an accepted token means -/

/-- The identity that a token stands for at this time, and why. -/
structure Vouches (decoder : Decoder Key) (config : AuthConfig) (key : Key)
    (now : Nat) (token : String) (user : AuthUser) (payload : Payload) :
    Prop where
  payload_eq : decoder.payload token = some payload
  signed : decoder.Signed .edDSA key token
  issuer : payload.issuer = config.verysIssuer
  audience : config.clientId ∈ payload.audience
  unexpired : now ≤ payload.expires + leewaySecs
  user_eq : user = ⟨payload.subject, payload.roles⟩
  role : requiredRole ∈ payload.roles

theorem requireRole_eq_ok_iff {user : AuthUser} :
    requireRole user = .ok () ↔ requiredRole ∈ user.roles := by
  have has : user.hasRole requiredRole = true ↔ requiredRole ∈ user.roles := by
    simp [AuthUser.hasRole]
  rw [requireRole, ← has]
  split
  next holds => simp [holds]
  next lacks => simp [lacks]

/-- The guard lets through whom a token signed with the key stands for. -/
theorem vouches_of_authenticate {decoder : Decoder Key} {config : AuthConfig}
    {key : Except String Key} {now : Nat} {token : String} {user : AuthUser}
    (accepted : authenticate decoder config key now token = .ok user) :
    ∃ signing payload, key = .ok signing ∧
      Vouches decoder config signing now token user payload := by
  cases key with
  | error e => cases accepted
  | ok signing =>
      rw [authenticate] at accepted
      split at accepted
      · cases accepted
      next claims verified =>
        dsimp only at accepted
        split at accepted
        · cases accepted
        next holds =>
          cases accepted
          rw [verifyAccessToken] at verified
          split at verified
          case h_2 => cases verified
          case h_3 => cases verified
          next decoded =>
            cases verified
            rcases decoder.sound decoded with ⟨signed, payload, isPayload,
              issuer, ⟨audience, member, listed⟩, unexpired, rfl⟩
            refine ⟨signing, payload, rfl, isPayload, signed,
              List.mem_singleton.mp issuer, ?_, unexpired rfl, rfl,
              requireRole_eq_ok_iff.mp holds⟩
            rw [← List.mem_singleton.mp listed]
            exact member

/-! ## Where a token is read -/

/-- The part of a query that carries a token. -/
def assignment (token : String) : List Char :=
  accessTokenParam.toList ++ '=' :: token.toList

theorem splitOnce_assignment_iff {part : List Char} {value : List Char} :
    splitOnce '=' part = some (accessTokenParam.toList, value) ↔
      part = assignment (String.ofList value) := by
  rw [assignment, String.toList_ofList]
  constructor
  · exact fun split => (splitOnce_some split).symm
  · rintro rfl
    exact splitOnce_append (by decide) value

/-- The first part of a query that carries a token decides. -/
theorem queryToken_eq_some_iff {query token : String} :
    queryToken (some query) = some token ↔
      token ≠ "" ∧ ∃ before after,
        query.toList.splitOn '&' = before ++ assignment token :: after ∧
          ∀ part ∈ before, ∀ value, part ≠ assignment value := by
  have carries : ∀ part : List Char,
      ((splitOnce '=' part).any fun pair =>
        pair.1 = accessTokenParam.toList) = true ↔
          ∃ value, part = assignment value := by
    intro part
    rw [Option.any_eq_true]
    constructor
    · rintro ⟨⟨name, value⟩, split, same⟩
      cases of_decide_eq_true same
      exact ⟨_, splitOnce_assignment_iff.mp split⟩
    · rintro ⟨value, rfl⟩
      refine ⟨(accessTokenParam.toList, value.toList), ?_, decide_eq_true rfl⟩
      rw [splitOnce_assignment_iff, String.ofList_toList]
  rw [queryToken, Option.bind_some, Option.filter_eq_some_iff, and_comm,
    decide_eq_true_iff, List.find?_filterMap, Option.map_eq_some_iff]
  refine and_congr_right fun _ => ?_
  constructor
  · rintro ⟨⟨name, value⟩, found, rfl⟩
    rcases Option.bind_eq_some_iff.mp found with ⟨part, isFirst, split⟩
    rcases List.find?_eq_some_iff_append.mp isFirst with
      ⟨here, before, after, whole, earlier⟩
    rcases (carries part).mp here with ⟨token, rfl⟩
    rw [splitOnce_assignment_iff.mpr (by rw [String.ofList_toList])] at split
    cases split
    rw [String.ofList_toList]
    refine ⟨before, after, whole, fun part member value same => ?_⟩
    have absent := earlier part member
    rw [(carries part).mpr ⟨value, same⟩] at absent
    cases absent
  · rintro ⟨before, after, whole, earlier⟩
    refine ⟨(accessTokenParam.toList, token.toList), ?_,
      String.ofList_toList⟩
    refine Option.bind_eq_some_iff.mpr ⟨assignment token, ?_, ?_⟩
    · refine List.find?_eq_some_iff_append.mpr
        ⟨(carries _).mpr ⟨token, rfl⟩, before, after, whole, ?_⟩
      intro part member
      rw [Bool.not_eq_true', Bool.eq_false_iff]
      intro here
      rcases (carries part).mp here with ⟨value, same⟩
      exact earlier part member value same
    · rw [splitOnce_assignment_iff, String.ofList_toList]

/--
The text of a token, such as base64url and dots: nothing in it ends a header
or a query parameter.
-/
structure IsToken (token : String) : Prop where
  nonempty : token ≠ ""
  whole : ∀ c ∈ token.toList, isWhitespace c = false ∧ c ≠ '&'

/-- White space around a token is trimmed. -/
theorem trim_token {token : String} (isToken : IsToken token)
    {before after : List Char} (blankBefore : ∀ c ∈ before, isWhitespace c)
    (blankAfter : ∀ c ∈ after, isWhitespace c) :
    trim (before ++ token.toList ++ after) = token.toList := by
  have edge : ∀ c ∈ token.toList, isWhitespace c = false :=
    fun c member => (isToken.whole c member).1
  have self : trim token.toList = token.toList :=
    trim_eq_self (fun c first => edge c (List.mem_of_head? first))
      (fun c last => edge c (List.mem_of_getLast? last))
  have front : ∀ rest, (token.toList ++ rest).dropWhile isWhitespace =
      token.toList ++ rest := by
    intro rest
    cases chars : token.toList with
    | nil => exact absurd (String.toList_eq_nil_iff.mp chars) isToken.nonempty
    | cons c more =>
        have first : isWhitespace c = false := edge c (by simp [chars])
        simp [first]
  have bare := front []
  rw [List.append_nil] at bare
  rw [trim, bare] at self
  rw [trim, List.append_assoc, List.dropWhile_append_of_pos blankBefore, front,
    List.reverse_append,
    List.dropWhile_append_of_pos (by simpa using blankAfter), self]

/--
A token is read as it was presented, wherever it is presented.  In a header
the case of the scheme does not matter, nor the white space around the token,
nor the query; in a query it is the first parameter of its name.
-/
theorem token_presented {token : String} (isToken : IsToken token) :
    (∀ (header : List UInt8) (query : Option String)
        (scheme before after : List Char),
      headerText header =
        some (scheme ++ ' ' :: (before ++ token.toList ++ after)) →
      eqIgnoreAsciiCase scheme "bearer".toList = true →
      (∀ c ∈ before, isWhitespace c) → (∀ c ∈ after, isWhitespace c) →
      tokenFrom ⟨some header, query⟩ = .ok token) ∧
    ∀ before after : List (List Char),
      (∀ part ∈ before ++ after, '&' ∉ part) →
      (∀ part ∈ before, ∀ value, part ≠ assignment value) →
      tokenFrom ⟨none, some (String.ofList
        (['&'].intercalate (before ++ assignment token :: after)))⟩ =
          .ok token := by
  constructor
  · intro header query scheme before after isText isBearer blankBefore
      blankAfter
    have spaceless : ' ' ∉ scheme := by
      intro member
      have mapped : Char.toLower ' ' ∈ "bearer".toList.map Char.toLower := by
        rw [← eq_of_beq isBearer]
        exact List.mem_map_of_mem member
      revert mapped
      decide
    have filled : token.toList ≠ [] :=
      fun empty => isToken.nonempty (String.toList_eq_nil_iff.mp empty)
    simp only [tokenFrom, bearer, isText, splitOnce_append spaceless,
      trim_token isToken blankBefore blankAfter, isBearer,
      String.ofList_toList]
    exact if_pos ⟨trivial, filled⟩
  · intro before after whole earlier
    have split : (['&'].intercalate
        (before ++ assignment token :: after)).splitOn '&' =
          before ++ assignment token :: after := by
      apply List.splitOn_intercalate
      · intro part member
        rcases List.mem_append.mp member with early | here
        · exact whole part (List.mem_append_left _ early)
        rcases List.mem_cons.mp here with rfl | late
        · intro ampersand
          rcases List.mem_append.mp ampersand with name | value
          · revert name
            decide
          · rcases List.mem_cons.mp value with equals | value
            · revert equals
              decide
            · exact (isToken.whole _ value).2 rfl
        · exact whole part (List.mem_append_right _ late)
      · simp
    have found : queryToken (some (String.ofList
        (['&'].intercalate (before ++ assignment token :: after)))) =
          some token := by
      refine queryToken_eq_some_iff.mpr
        ⟨isToken.nonempty, before, after, ?_, earlier⟩
      rw [String.toList_ofList, split]
    rw [tokenFrom, found]

/-- The bytes of an ASCII text. -/
def headerBytes (text : String) : List UInt8 :=
  text.toList.map fun c => UInt8.ofNat c.toNat

theorem token_presented_signature :
    tokenFrom ⟨some (headerBytes "bearer  abc.def "),
        some "access_token=other"⟩ = .ok "abc.def" ∧
      tokenFrom ⟨none, some "v=1&access_token=abc.def&t"⟩ = .ok "abc.def" := by
  have all : ("abc.def".toList.all fun c =>
      !isWhitespace c && c != '&') = true := by
    decide +kernel
  have isToken : IsToken "abc.def" :=
    ⟨nofun, fun c member => by
      simpa using List.all_eq_true.mp all c member⟩
  have blank : ∀ c ∈ [' '], isWhitespace c = true :=
    fun c member => List.mem_singleton.mp member ▸ rfl
  rcases token_presented isToken with ⟨header, query⟩
  constructor
  · exact header _ _ "bearer".toList [' '] [' '] (by decide +kernel)
      (by decide +kernel) blank blank
  · exact query ["v=1".toList] ["t".toList] (by decide +kernel) (by
      intro part member value
      cases List.mem_singleton.mp member
      exact nofun)

end ChudMoney.Middleware.Authenticated
