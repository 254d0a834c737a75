import ChudMoney.Lib.Schemas
import ChudMoney.Model.Market
import Mathlib.Tactic.MkIffOfInductiveProp

/-!
# The JSON schema of the `markets` model

A market is stored as the JSON value that serde makes of it, once the schema
finds nothing wrong with that value.  The checks that the program makes by hand
elsewhere are those of the schema's patterns.
-/

namespace ChudMoney.Model

open ChudMoney.Lib.Json
open ChudMoney.Lib.Patterns
open ChudMoney.Lib.Schemas
open ChudMoney.Lib.Text

/-! ## The schema and what it is applied to -/

/-- Coinbase product ids are `BASE-QUOTE`, e.g. `BTC-USD`. -/
def coinbaseProductPattern : String := "^[A-Z0-9]+-[A-Z0-9]+$"

/-- The property `kalshi` of `MARKET_SPEC`. -/
def kalshiSpec : Schema :=
  .object ["env", "rest_base", "ws_url", "channels"]
    [("env", .enum ["prod", "demo"]),
      ("rest_base", .all [.ofType .string, .pattern "^https?://"]),
      ("ws_url", .all [.ofType .string, .pattern "^wss?://"]),
      ("channels", .all
        [.ofType .array, .minItems 1, .items (.ofType .string)])]

/-- The property `proxy` of `MARKET_SPEC`. -/
def proxySpec : Schema :=
  .object ["ticker_ws", "orderbook_ws"]
    [("ticker_ws", .all [.ofType .string, .pattern "^wss?://"]),
      ("orderbook_ws", .all [.ofType .string, .pattern "^wss?://"])]

/-- `MARKET_SPEC`. -/
def marketSpec : Schema :=
  .object
    ["tag", "series_ticker", "index_id", "title", "kalshi", "proxy",
      "created_at"]
    [("tag", .all
        [.ofType .string, .pattern "^[a-z0-9][a-z0-9-]{1,63}$",
          .unless (.enum reservedTags)]),
      ("series_ticker", .all [.ofType .string, .pattern "^[A-Z0-9]+$"]),
      ("index_id", .all [.ofType .string, .pattern "^[A-Z0-9_]+$"]),
      ("coinbase_product", .all
        [.ofType .string, .pattern coinbaseProductPattern]),
      ("title", .all [.ofType .string, .minLength 1, .maxLength 200]),
      ("kalshi", kalshiSpec),
      ("proxy", proxySpec),
      ("created_at", .all [.ofType .string, .minLength 20])]

def KalshiInfo.toValue (info : KalshiInfo) : Value :=
  .object
    [("env", .string info.env.asStr), ("rest_base", .string info.restBase),
      ("ws_url", .string info.wsUrl),
      ("channels", .array (info.channels.map .string))]

def ProxyInfo.toValue (info : ProxyInfo) : Value :=
  .object
    [("ticker_ws", .string info.tickerWs),
      ("orderbook_ws", .string info.orderbookWs)]

/-- A market without a product has no key for it. -/
def Market.toValue (market : Market) : Value :=
  .object
    ([("tag", .string market.tag),
      ("series_ticker", .string market.seriesTicker),
      ("index_id", .string market.indexId)] ++
        (market.coinbaseProduct.map fun product =>
          ("coinbase_product", Value.string product)).toList ++
      [("title", .string market.title), ("kalshi", market.kalshi.toValue),
        ("proxy", market.proxy.toValue),
        ("created_at", .string market.createdAt)])

/-! ## The patterns as checks by hand -/

theorem isUpper_iff {c : Char} : c.isUpper = true ↔ 'A' ≤ c ∧ c ≤ 'Z' :=
  decide_eq_true_iff

theorem isLower_iff {c : Char} : c.isLower = true ↔ 'a' ≤ c ∧ c ≤ 'z' := by
  change (decide ('a' ≤ c) && decide (c ≤ 'z')) = true ↔ _
  rw [Bool.and_eq_true, decide_eq_true_iff, decide_eq_true_iff]

theorem isDigit_iff {c : Char} : c.isDigit = true ↔ '0' ≤ c ∧ c ≤ '9' := by
  change (decide ('0' ≤ c) && decide (c ≤ '9')) = true ↔ _
  rw [Bool.and_eq_true, decide_eq_true_iff, decide_eq_true_iff]

/-- `[A-Z0-9]`. -/
def upperOrDigit : List Char :=
  charRange 'A' 'Z' ++ (charRange '0' '9' ++ [])

theorem mem_upperOrDigit {c : Char} :
    c ∈ upperOrDigit ↔ (c.isUpper || c.isDigit) = true := by
  rw [Bool.or_eq_true, isUpper_iff, isDigit_iff]
  simp only [upperOrDigit, List.mem_append, mem_charRange, List.not_mem_nil,
    or_false]

/-- `is_ascii_uppercase` or `is_ascii_digit` of a byte. -/
def upperOrDigitByte (b : UInt8) : Bool :=
  (65 ≤ b && b ≤ 90) || (48 ≤ b && b ≤ 57)

theorem upperOrDigitByte_ofNat {n : Nat} (bound : n < 256) :
    upperOrDigitByte (UInt8.ofNat n) =
      ((65 ≤ n && n ≤ 90) || (48 ≤ n && n ≤ 57)) := by
  have same : (UInt8.ofNat n).toNat = n := UInt8.toNat_ofNat_of_lt' bound
  simp only [upperOrDigitByte, UInt8.le_iff_toNat_le, same]
  rfl

theorem not_upperOrDigitByte {n : Nat} (high : 128 ≤ n) (bound : n < 256) :
    upperOrDigitByte (UInt8.ofNat n) = false := by
  rw [upperOrDigitByte_ofNat bound, Bool.or_eq_false_iff,
    Bool.and_eq_false_iff, Bool.and_eq_false_iff]
  simp only [decide_eq_false_iff_not]
  omega

theorem isUpper_or_isDigit (c : Char) :
    (c.isUpper || c.isDigit) =
      ((65 ≤ c.toNat && c.toNat ≤ 90) || (48 ≤ c.toNat && c.toNat ≤ 57)) := by
  rw [Bool.eq_iff_iff]
  simp only [Bool.or_eq_true, Bool.and_eq_true, decide_eq_true_eq, isUpper_iff,
    isDigit_iff, char_le_iff]
  rfl

/-- A character is in the class if and only if all its bytes are. -/
theorem all_utf8EncodeChar (c : Char) :
    (String.utf8EncodeChar c).all upperOrDigitByte =
      (c.isUpper || c.isDigit) := by
  have outside : 128 ≤ c.toNat → (c.isUpper || c.isDigit) = false := by
    intro high
    rw [isUpper_or_isDigit, Bool.or_eq_false_iff, Bool.and_eq_false_iff,
      Bool.and_eq_false_iff]
    simp only [decide_eq_false_iff_not]
    omega
  unfold String.utf8EncodeChar
  change (if c.toNat ≤ 0x7f then _ else _ : List UInt8).all _ = _
  split
  next ascii =>
    rw [List.all_cons, List.all_nil, Bool.and_true, isUpper_or_isDigit]
    change upperOrDigitByte (UInt8.ofNat c.toNat) = _
    exact upperOrDigitByte_ofNat (by omega)
  next wide =>
    rw [outside (by omega)]
    change (if c.toNat ≤ 0x7ff then _ else _ : List UInt8).all _ = _
    split
    · rw [List.all_cons, not_upperOrDigitByte (by omega) (by omega),
        Bool.false_and]
    · change (if c.toNat ≤ 0xffff then _ else _ : List UInt8).all _ = _
      split <;>
        rw [List.all_cons, not_upperOrDigitByte (by omega) (by omega),
          Bool.false_and]

/-- The check of a part by its bytes, as `str::bytes` gives them. -/
theorem productPart_bytes (part : List Char) :
    productPart part =
      (!(part.flatMap String.utf8EncodeChar).isEmpty &&
        (part.flatMap String.utf8EncodeChar).all upperOrDigitByte) := by
  have same : (part.flatMap String.utf8EncodeChar).isEmpty = part.isEmpty := by
    cases part with
    | nil => rfl
    | cons c rest =>
        have nonempty := String.utf8EncodeChar_ne_nil (c := c)
        simp [nonempty]
  rw [same, List.all_flatMap]
  simp only [all_utf8EncodeChar]
  rfl

theorem productPart_iff {part : List Char} :
    productPart part = true ↔
      part ∈ (oneOrMore (oneOf upperOrDigit)).matches' := by
  rw [mem_oneOrMore_oneOf, productPart, Bool.and_eq_true, Bool.not_eq_true',
    List.isEmpty_eq_false_iff, List.all_eq_true]
  simp only [mem_upperOrDigit]

theorem read_coinbaseProductPattern :
    Pattern.ofText coinbaseProductPattern.toList =
      some ⟨true, oneOrMore (oneOf upperOrDigit) *
        (RegularExpression.char '-' * (oneOrMore (oneOf upperOrDigit) * 1)),
        true⟩ :=
  rfl

/-- The texts of the pattern: two parts with a hyphen between them. -/
theorem accepts_coinbaseProductPattern {product : String} :
    Accepts coinbaseProductPattern product ↔
      ∃ base quote, product.toList = base ++ '-' :: quote ∧
        productPart base = true ∧ productPart quote = true := by
  rw [accepts_whole read_coinbaseProductPattern, mem_comp]
  simp only [mem_char_comp, mem_comp_one, productPart_iff]
  constructor
  · rintro ⟨base, rest, whole, isBase, quote, rfl, isQuote⟩
    exact ⟨base, quote, whole, isBase, isQuote⟩
  · rintro ⟨base, quote, whole, isBase, isQuote⟩
    exact ⟨base, '-' :: quote, whole, isBase, quote, rfl, isQuote⟩

theorem hyphen_notMem_of_productPart {part : List Char}
    (isPart : productPart part = true) : '-' ∉ part := by
  rw [productPart, Bool.and_eq_true, List.all_eq_true] at isPart
  intro member
  exact absurd (isPart.2 '-' member) (by decide)

/-- The check by hand accepts the strings of the pattern. -/
theorem validCoinbaseProduct_iff (product : String) :
    validCoinbaseProduct product = true ↔
      Accepts coinbaseProductPattern product := by
  rw [accepts_coinbaseProductPattern, validCoinbaseProduct]
  constructor
  · intro valid
    split at valid
    next base quote split =>
      rw [Bool.and_eq_true] at valid
      exact ⟨base, quote, (splitOnce_some split).symm, valid⟩
    next => cases valid
  · rintro ⟨base, quote, whole, isBase, isQuote⟩
    rw [whole, splitOnce_append (hyphen_notMem_of_productPart isBase)]
    show (productPart base && productPart quote) = true
    rw [isBase, isQuote]
    rfl

/-- `[a-z0-9]`, and what else is in the class. -/
def lowerOrDigit (others : List Char) : List Char :=
  charRange 'a' 'z' ++ (charRange '0' '9' ++ others)

theorem mem_lowerOrDigit {c : Char} {others : List Char} :
    c ∈ lowerOrDigit others ↔ tagChar c = true ∨ c ∈ others := by
  rw [tagChar, Bool.or_eq_true, isLower_iff, isDigit_iff]
  simp only [lowerOrDigit, List.mem_append, mem_charRange, or_assoc]

/-- The check of a tag accepts the strings of its pattern. -/
theorem tagPattern_iff (tag : String) :
    tagPattern tag = true ↔ Accepts "^[a-z0-9][a-z0-9-]{1,63}$" tag := by
  have isRead : Pattern.ofText "^[a-z0-9][a-z0-9-]{1,63}$".toList =
      some ⟨true, oneOf (lowerOrDigit []) *
        (between 1 63 (oneOf (lowerOrDigit ['-'])) * 1), true⟩ := rfl
  rw [accepts_whole isRead, mem_oneOf_comp, tagPattern]
  simp only [mem_comp_one, mem_between_oneOf (by decide : 1 ≤ 63),
    mem_lowerOrDigit, List.not_mem_nil, or_false, List.mem_singleton]
  cases whole : tag.toList with
  | nil => simp
  | cons c rest =>
      simp only [Bool.and_eq_true, List.all_eq_true, Bool.or_eq_true,
        decide_eq_true_eq]
      constructor
      · rintro ⟨⟨isFirst, isRest⟩, bounds⟩
        exact ⟨c, rest, rfl, isFirst, bounds, isRest⟩
      · rintro ⟨first, others, same, isFirst, bounds, isRest⟩
        cases same
        exact ⟨⟨isFirst, isRest⟩, bounds⟩

/-- What the schema asks of a market. -/
@[mk_iff]
structure Conforms (market : Market) : Prop where
  tag : tagAccepted market.tag = true
  seriesTicker : Accepts "^[A-Z0-9]+$" market.seriesTicker
  indexId : Accepts "^[A-Z0-9_]+$" market.indexId
  coinbaseProduct : ∀ product ∈ market.coinbaseProduct,
    validCoinbaseProduct product = true
  title : 1 ≤ market.title.length ∧ market.title.length ≤ 200
  restBase : Accepts "^https?://" market.kalshi.restBase
  wsUrl : Accepts "^wss?://" market.kalshi.wsUrl
  channels : market.kalshi.channels ≠ []
  tickerWs : Accepts "^wss?://" market.proxy.tickerWs
  orderbookWs : Accepts "^wss?://" market.proxy.orderbookWs
  createdAt : 20 ≤ market.createdAt.length

theorem valid_proxy_iff (info : ProxyInfo) :
    proxySpec.Valid info.toValue ↔
      Accepts "^wss?://" info.tickerWs ∧
        Accepts "^wss?://" info.orderbookWs := by
  rw [proxySpec, ProxyInfo.toValue, Schema.valid_object]
  simp [Schema.Valid, JsonType.Has]

theorem asStr_eq (env : KalshiEnv) :
    env.asStr = "prod" ∨ env.asStr = "demo" := by
  cases env
  · exact Or.inl rfl
  · exact Or.inr rfl

theorem valid_kalshi_iff (info : KalshiInfo) :
    kalshiSpec.Valid info.toValue ↔
      Accepts "^https?://" info.restBase ∧
        Accepts "^wss?://" info.wsUrl ∧ info.channels ≠ [] := by
  rw [kalshiSpec, KalshiInfo.toValue, Schema.valid_object]
  simp [Schema.Valid, JsonType.Has, asStr_eq, Nat.one_le_iff_ne_zero]

/-- A market is valid under the schema if and only if it conforms to it. -/
theorem valid_market_iff (market : Market) :
    marketSpec.Valid market.toValue ↔ Conforms market := by
  rw [conforms_iff, marketSpec, Market.toValue, Schema.valid_object]
  cases market.coinbaseProduct with
  | none =>
      simp [Schema.Valid, JsonType.Has, ← tagPattern_iff, tagAccepted,
        List.forall_mem_ne, valid_proxy_iff, valid_kalshi_iff, and_assoc]
  | some product =>
      simp [Schema.Valid, JsonType.Has, ← tagPattern_iff, tagAccepted,
        ← validCoinbaseProduct_iff, List.forall_mem_ne, valid_proxy_iff,
        valid_kalshi_iff, and_assoc]

/-- The market of the source's tests, with a product. -/
def btcUsd : Market :=
  { btc15m with coinbaseProduct := some "BTC-USD" }

theorem conforms_btcUsd : Conforms btcUsd := by
  have wsUrl : Accepts "^wss?://" btcUsd.kalshi.wsUrl :=
    @accepts_of_start _ _ "wss://".toList _ _ rfl rfl (by decide +kernel)
  have tickerWs : Accepts "^wss?://" btcUsd.proxy.tickerWs :=
    @accepts_of_start _ _ "ws://".toList _ _ rfl rfl (by decide +kernel)
  have orderbookWs : Accepts "^wss?://" btcUsd.proxy.orderbookWs :=
    @accepts_of_start _ _ "ws://".toList _ _ rfl rfl (by decide +kernel)
  have restBase : Accepts "^https?://" btcUsd.kalshi.restBase :=
    @accepts_of_start _ _ "https://".toList _ _ rfl rfl (by decide +kernel)
  constructor
  · decide +kernel
  · exact accepts_of_whole rfl (by decide +kernel)
  · exact accepts_of_whole rfl (by decide +kernel)
  · decide +kernel
  · decide +kernel
  · exact restBase
  · exact wsUrl
  · decide
  · exact tickerWs
  · exact orderbookWs
  · decide +kernel

end ChudMoney.Model
