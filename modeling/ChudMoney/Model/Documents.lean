import ChudMoney.Model.MarketSpec

/-!
# Market documents

MongoDB keeps a market as the document that serde makes of it, with an `_id` of
its own.  Whatever the market is, it is read back from its document.
-/

namespace ChudMoney.Model

open ChudMoney.Lib.Json

def KalshiEnv.deserialize : Value → Option KalshiEnv
  | .string name =>
      if name = "prod" then some .prod
      else if name = "demo" then some .demo
      else none
  | _ => none

def KalshiInfo.deserialize (value : Value) : Option KalshiInfo := do
  let [env, restBase, wsUrl, channels] ←
    value.fields [["env"], ["rest_base"], ["ws_url"], ["channels"]] | none
  return {
    env := ← Value.required KalshiEnv.deserialize env
    restBase := ← Value.required Value.asString restBase
    wsUrl := ← Value.required Value.asString wsUrl
    channels := ← Value.required (Value.asVec Value.asString) channels }

def ProxyInfo.deserialize (value : Value) : Option ProxyInfo := do
  let [tickerWs, orderbookWs] ←
    value.fields [["ticker_ws"], ["orderbook_ws"]] | none
  return {
    tickerWs := ← Value.required Value.asString tickerWs
    orderbookWs := ← Value.required Value.asString orderbookWs }

/-- `from_document`; the `_id` is a key like any that no field has. -/
def Market.deserialize (value : Value) : Option Market := do
  let [tag, seriesTicker, indexId, coinbaseProduct, title, kalshi, proxy,
      createdAt] ←
    value.fields
      [["tag"], ["series_ticker"], ["index_id"], ["coinbase_product"],
        ["title"], ["kalshi"], ["proxy"], ["created_at"]] | none
  return {
    tag := ← Value.required Value.asString tag
    seriesTicker := ← Value.required Value.asString seriesTicker
    indexId := ← Value.required Value.asString indexId
    coinbaseProduct := ← Value.optional Value.asString coinbaseProduct
    title := ← Value.required Value.asString title
    kalshi := ← Value.required KalshiInfo.deserialize kalshi
    proxy := ← Value.required ProxyInfo.deserialize proxy
    createdAt := ← Value.required Value.asString createdAt }

/-- `to_document`, and the `_id` that MongoDB adds. -/
def Market.document (id : Value) (market : Market) : Value :=
  match market.toValue with
  | .object entries => .object (("_id", id) :: entries)
  | value => value

theorem mapM_asString (texts : List String) :
    (texts.map Value.string).mapM Value.asString = some texts := by
  induction texts with
  | nil => rfl
  | cons text texts ih =>
      rw [List.map_cons, List.mapM_cons, ih]
      rfl

theorem deserialize_kalshi (info : KalshiInfo) :
    KalshiInfo.deserialize info.toValue = some info := by
  rcases info with ⟨env, restBase, wsUrl, channels⟩
  have read := mapM_asString channels
  cases env <;>
    simp [KalshiInfo.deserialize, KalshiInfo.toValue, Value.fields,
      Value.required, Value.asString, Value.asVec, KalshiEnv.deserialize,
      KalshiEnv.asStr, read]

theorem deserialize_proxy (info : ProxyInfo) :
    ProxyInfo.deserialize info.toValue = some info := by
  simp [ProxyInfo.deserialize, ProxyInfo.toValue, Value.fields,
    Value.required, Value.asString]

/-- A market is read back from its document. -/
theorem deserialize_document (id : Value) (market : Market) :
    Market.deserialize (market.document id) = some market := by
  rcases market with
    ⟨tag, seriesTicker, indexId, product, title, kalshi, proxy, createdAt⟩
  have isKalshi := deserialize_kalshi kalshi
  have isProxy := deserialize_proxy proxy
  cases product <;>
    simp [Market.deserialize, Market.document, Market.toValue, Value.fields,
      Value.required, Value.optional, Value.asString, isKalshi, isProxy]

end ChudMoney.Model
