import ChudMoney.Lib.MachineInt
import ChudMoney.Lib.Text

/-!
# Markets as the Kalshi REST endpoints list them
-/

namespace ChudMoney.Kalshi.Client

open ChudMoney.Lib.MachineInt
open ChudMoney.Lib.Text

/-- One market inside a series, as the market listings return it. -/
structure OpenMarket where
  ticker : String
  title : String
  openTime : String
  closeTime : String
  strikeType : Option String
  floorStrike : Option F64
  capStrike : Option F64
  yesSubTitle : Option String
  deriving DecidableEq

/-- A market listed with nothing but its ticker. -/
def OpenMarket.named (ticker : String) : OpenMarket :=
  ⟨ticker, "", "", "", none, none, none, none⟩

/-- Which set of endpoints holds a market. -/
inductive Tier where
  | live
  | historical
  deriving DecidableEq, Repr

/-- A market of a series, reduced to what a candlestick backfill needs. -/
structure SeriesMarket where
  ticker : String
  openMs : Int64
  closeMs : Int64
  floorStrike : Option F64
  tier : Tier
  deriving DecidableEq

/-- One page of a listing; an empty cursor ends it. -/
structure MarketsPage where
  cursor : String
  markets : List OpenMarket

/--
The market listings of one series: the page that a request is answered with,
by tier, least close time and cursor.
-/
abbrev Listings : Type :=
  Tier → Option Int → Option String → MarketsPage

/-- The pages that following the cursors leads through. -/
inductive Serves (page : Option String → MarketsPage) :
    Option String → List (List OpenMarket) → Prop where
  | last {cursor : Option String} {markets : List OpenMarket} :
      page cursor = ⟨"", markets⟩ → Serves page cursor [markets]
  | more {cursor : Option String} {next : String}
      {markets : List OpenMarket} {rest : List (List OpenMarket)} :
      page cursor = ⟨next, markets⟩ → next ≠ "" →
        Serves page (some next) rest → Serves page cursor (markets :: rest)

/--
The time filter of a listing request, in seconds; only the live listing has
one.
-/
def minCloseTs (tier : Tier) (minCloseMs : Int64) : Option Int :=
  match tier with
  | .live => some (minCloseMs.toInt / 1000)
  | .historical => none

section Listing

variable (parseFromRfc3339 : String → Option Int)

/-- `DateTime::parse_from_rfc3339` and then `timestamp_millis`. -/
def parseMillis (text : String) : Option Int64 :=
  (parseFromRfc3339 text).map timestampMillis

/-- A listed market, unless one of its times does not parse. -/
def seriesMarket (tier : Tier) (market : OpenMarket) : Option SeriesMarket := do
  let openMs ← parseMillis parseFromRfc3339 market.openTime
  let closeMs ← parseMillis parseFromRfc3339 market.closeTime
  return {
    openMs := openMs
    closeMs := closeMs
    ticker := market.ticker
    floorStrike := market.floorStrike
    tier := tier }

/--
One page of a series' markets: those whose times parse, and the cursor of the
next page.
-/
def seriesMarketsPage (listings : Listings) (tier : Tier) (minCloseMs : Int64)
    (cursor : Option String) : List SeriesMarket × Option String :=
  let page := listings tier (minCloseTs tier minCloseMs) cursor
  (page.markets.filterMap (seriesMarket parseFromRfc3339 tier),
    if page.cursor.isEmpty then none else some page.cursor)

theorem seriesMarket_spec {parseFromRfc3339 : String → Option Int}
    {tier : Tier} {market : OpenMarket} {read : SeriesMarket}
    (parsed : seriesMarket parseFromRfc3339 tier market = some read) :
    read.ticker = market.ticker ∧ read.tier = tier ∧
      parseMillis parseFromRfc3339 market.openTime = some read.openMs ∧
      parseMillis parseFromRfc3339 market.closeTime = some read.closeMs := by
  simp only [seriesMarket, Option.bind_eq_bind, Option.bind_eq_some_iff,
    Option.pure_def, Option.some.injEq] at parsed
  rcases parsed with ⟨openMs, opened, closeMs, closed, rfl⟩
  exact ⟨rfl, rfl, opened, closed⟩

end Listing

end ChudMoney.Kalshi.Client
