import ChudMoney.Kalshi.Client
import ChudMoney.Lib.SortDedup
import Mathlib.Data.Prod.Lex
import Mathlib.Data.String.Basic

/-!
# Historical backfill: the markets of a range

`marketsInRange` reads Kalshi's two listings page by page.  Which listing is
read is decided by the cutoff and the ends of the range, and reading stops at
the first page whose last market closed before the range, or that holds no
market whose times parse.
-/

namespace ChudMoney.Controllers.Ingest

open ChudMoney.Kalshi.Client
open ChudMoney.Lib.MachineInt
open ChudMoney.Lib.SortDedup

/-- Whether a market was open at any point of `[startMs, endMs)`. -/
def overlaps (market : SeriesMarket) (startMs endMs : Int64) : Bool :=
  startMs < market.closeMs && market.openMs < endMs

/-- The listings that a range needs. -/
def tiers (startMs endMs cutoffMs : Int64) : List Tier :=
  (if startMs < cutoffMs then [.historical] else []) ++
    if cutoffMs < endMs then [.live] else []

/-- A page reaches past the start, or has no market. -/
def pastStart (startMs : Int64) (page : List SeriesMarket) : Bool :=
  page.getLast?.all fun market => market.closeMs ≤ startMs

section Read

variable (parseFromRfc3339 : String → Option Int)

/-- The markets of the range in one listing, from a cursor on. -/
def readTier (listings : Listings) (tier : Tier) (startMs endMs : Int64) :
    Nat → Option String → Option (List SeriesMarket)
  | 0, _ => none
  | fuel + 1, cursor =>
      let (page, next) :=
        seriesMarketsPage parseFromRfc3339 listings tier startMs cursor
      let markets := page.filter fun market => overlaps market startMs endMs
      if next.isNone || pastStart startMs page then some markets
      else
        (readTier listings tier startMs endMs fuel next).map fun rest =>
          markets ++ rest

/-- Markets are sorted by close time, then by ticker. -/
def closeKey (market : SeriesMarket) : Int ×ₗ String :=
  toLex (market.closeMs.toInt, market.ticker)

/--
Every market of the series that was open during the range, oldest first.
`cutoff` is the settlement time that parts the two listings.
-/
def marketsInRange (listings : Listings) (cutoff : Int)
    (startMs endMs : Int64) (fuel : Nat) : Option (List SeriesMarket) := do
  let listed ← (tiers startMs endMs (timestampMillis cutoff)).mapM fun tier =>
    readTier parseFromRfc3339 listings tier startMs endMs fuel none
  return sortDedup closeKey SeriesMarket.ticker listed.flatten

end Read

/-! ## What one listing yields -/

section Pages

variable {parseFromRfc3339 : String → Option Int} {listings : Listings}
variable {tier : Tier} {startMs endMs : Int64}

/-- The markets of a page whose times parse. -/
def parseable (parseFromRfc3339 : String → Option Int) (tier : Tier)
    (page : List OpenMarket) : List SeriesMarket :=
  page.filterMap (seriesMarket parseFromRfc3339 tier)

/-- The pages before the first one without a market whose times parse. -/
def readable (parseFromRfc3339 : String → Option Int) (tier : Tier)
    (pages : List (List OpenMarket)) : List (List OpenMarket) :=
  pages.takeWhile fun page => !(parseable parseFromRfc3339 tier page).isEmpty

/-- A market on one of the pages that are read. -/
def OnPages (parseFromRfc3339 : String → Option Int) (tier : Tier)
    (pages : List (List OpenMarket)) (market : SeriesMarket) : Prop :=
  ∃ page ∈ readable parseFromRfc3339 tier pages,
    market ∈ parseable parseFromRfc3339 tier page

theorem onPages_cons {page : List OpenMarket} {pages : List (List OpenMarket)}
    {market : SeriesMarket} :
    OnPages parseFromRfc3339 tier (page :: pages) market ↔
      market ∈ parseable parseFromRfc3339 tier page ∨
        parseable parseFromRfc3339 tier page ≠ [] ∧
          OnPages parseFromRfc3339 tier pages market := by
  by_cases empty : parseable parseFromRfc3339 tier page = []
  · simp [OnPages, readable, empty]
  · simp [OnPages, readable, empty]

/-- Pages newest close first. -/
def NewestFirst (parseFromRfc3339 : String → Option Int) (tier : Tier)
    (pages : List (List OpenMarket)) : Prop :=
  (pages.flatMap (parseable parseFromRfc3339 tier)).Pairwise fun first second =>
    second.closeMs ≤ first.closeMs

/-- Behind a page that reaches past the start no market is in the range. -/
theorem not_overlaps_of_past {page : List OpenMarket}
    {pages : List (List OpenMarket)} {last market : SeriesMarket}
    (ordered : NewestFirst parseFromRfc3339 tier (page :: pages))
    (isLast : (parseable parseFromRfc3339 tier page).getLast? = some last)
    (past : last.closeMs ≤ startMs)
    (later : OnPages parseFromRfc3339 tier pages market) :
    overlaps market startMs endMs = false := by
  rcases later with ⟨other, read, member⟩
  have inRest : market ∈ pages.flatMap (parseable parseFromRfc3339 tier) :=
    List.mem_flatMap.mpr
      ⟨other, (List.takeWhile_prefix _).subset read, member⟩
  rw [NewestFirst, List.flatMap_cons, List.pairwise_append] at ordered
  have older := ordered.2.2 last (List.mem_of_getLast? isLast) market inRest
  rw [overlaps, Bool.and_eq_false_iff]
  left
  exact decide_eq_false (Int64.not_lt.mpr (Int64.le_trans older past))

theorem newestFirst_tail {page : List OpenMarket}
    {pages : List (List OpenMarket)}
    (ordered : NewestFirst parseFromRfc3339 tier (page :: pages)) :
    NewestFirst parseFromRfc3339 tier pages := by
  rw [NewestFirst, List.flatMap_cons, List.pairwise_append] at ordered
  exact ordered.2.1

/-- One page that is not the last. -/
theorem readTier_more {cursor : Option String} {next : String}
    {page : List OpenMarket}
    (answered : listings tier (minCloseTs tier startMs) cursor = ⟨next, page⟩)
    (continues : next ≠ "") (fuel : Nat) :
    readTier parseFromRfc3339 listings tier startMs endMs (fuel + 1) cursor =
      if pastStart startMs (parseable parseFromRfc3339 tier page) then
        some ((parseable parseFromRfc3339 tier page).filter
          fun market => overlaps market startMs endMs)
      else
        (readTier parseFromRfc3339 listings tier startMs endMs fuel
          (some next)).map fun later =>
            (parseable parseFromRfc3339 tier page).filter
              (fun market => overlaps market startMs endMs) ++ later := by
  cases stop : pastStart startMs (parseable parseFromRfc3339 tier page) with
  | true =>
      rw [parseable] at stop
      simp [readTier, seriesMarketsPage, answered, parseable, stop]
  | false =>
      rw [parseable] at stop
      simp [readTier, seriesMarketsPage, answered, continues, parseable, stop]

/--
Reading a listing with fuel for its pages yields the markets of the range that
are on the pages read.
-/
theorem readTier_spec {cursor : Option String}
    {pages : List (List OpenMarket)}
    (served : Serves (listings tier (minCloseTs tier startMs)) cursor pages)
    (ordered : NewestFirst parseFromRfc3339 tier pages) :
    ∃ markets, (∀ fuel, pages.length ≤ fuel →
        readTier parseFromRfc3339 listings tier startMs endMs fuel cursor =
          some markets) ∧
      ∀ market, market ∈ markets ↔
        OnPages parseFromRfc3339 tier pages market ∧
          overlaps market startMs endMs = true := by
  induction served with
  | @last cursor page answered =>
      refine ⟨(parseable parseFromRfc3339 tier page).filter
        fun market => overlaps market startMs endMs, ?_, ?_⟩
      · intro fuel enough
        rcases Nat.exists_eq_add_of_le' enough with ⟨fuel, rfl⟩
        show readTier parseFromRfc3339 listings tier startMs endMs (fuel + 1)
          cursor = _
        simp [readTier, seriesMarketsPage, answered, parseable]
      · intro market
        rw [onPages_cons, List.mem_filter]
        simp [OnPages, readable]
  | @more cursor next page rest answered continues _ ih =>
      rcases ih (newestFirst_tail ordered) with ⟨markets, reads, found⟩
      cases stop : pastStart startMs (parseable parseFromRfc3339 tier page) with
      | true =>
          refine ⟨(parseable parseFromRfc3339 tier page).filter
            fun market => overlaps market startMs endMs, ?_, ?_⟩
          · intro fuel enough
            rcases Nat.exists_eq_add_of_le' enough with ⟨fuel, rfl⟩
            show readTier parseFromRfc3339 listings tier startMs endMs
              (fuel + rest.length + 1) cursor = _
            rw [readTier_more answered continues, if_pos stop]
          · intro market
            rw [onPages_cons, List.mem_filter]
            constructor
            · rintro ⟨member, overlap⟩
              exact ⟨Or.inl member, overlap⟩
            · rintro ⟨member | ⟨nonempty, later⟩, overlap⟩
              · exact ⟨member, overlap⟩
              · have isLast := List.getLast?_eq_some_getLast nonempty
                rw [pastStart, isLast] at stop
                have behind : overlaps market startMs endMs = false :=
                  not_overlaps_of_past ordered isLast (of_decide_eq_true stop)
                    later
                rw [behind] at overlap
                cases overlap
      | false =>
          refine ⟨(parseable parseFromRfc3339 tier page).filter
            (fun market => overlaps market startMs endMs) ++ markets, ?_, ?_⟩
          · intro fuel enough
            rcases Nat.exists_eq_add_of_le' enough with ⟨fuel, rfl⟩
            show readTier parseFromRfc3339 listings tier startMs endMs
              (fuel + rest.length + 1) cursor = _
            rw [readTier_more answered continues, if_neg (by simp [stop]),
              reads _ (Nat.le_add_left _ _)]
            rfl
          · intro market
            have nonempty : parseable parseFromRfc3339 tier page ≠ [] := by
              intro empty
              simp [pastStart, empty] at stop
            rw [onPages_cons, List.mem_append, List.mem_filter, found]
            constructor
            · rintro (⟨member, overlap⟩ | ⟨later, overlap⟩)
              · exact ⟨Or.inl member, overlap⟩
              · exact ⟨Or.inr ⟨nonempty, later⟩, overlap⟩
            · rintro ⟨member | ⟨-, later⟩, overlap⟩
              · exact Or.inl ⟨member, overlap⟩
              · exact Or.inr ⟨later, overlap⟩

end Pages

/-! ## The markets of a series -/

/-- The markets of a series, and when each settled, if it has. -/
structure Series where
  markets : List OpenMarket
  settled : OpenMarket → Option Int

/-- The listing that has a market. -/
def Series.tier (series : Series) (cutoff : Int) (market : OpenMarket) : Tier :=
  match series.settled market with
  | some settled => if settled < cutoff then .historical else .live
  | none => .live

/--
What is relied on of Kalshi and of the timestamp parser: `pages` are the pages
of each listing for a range that starts at `startMs`.
-/
structure Lawful (parseFromRfc3339 : String → Option Int) (series : Series)
    (listings : Listings) (cutoff : Int) (startMs : Int64)
    (pages : Tier → List (List OpenMarket)) : Prop where
  times : ∀ text instant, parseFromRfc3339 text = some instant →
    Fits (instant / 1000000)
  cutoffTime : Fits (cutoff / 1000000)
  settlement : ∀ market ∈ series.markets, ∀ close settled,
    parseFromRfc3339 market.closeTime = some close →
      series.settled market = some settled → close ≤ settled
  oneClose : ∀ first ∈ series.markets, ∀ second ∈ series.markets,
    first.ticker = second.ticker →
      parseFromRfc3339 first.closeTime = parseFromRfc3339 second.closeTime
  serves : ∀ tier,
    Serves (listings tier (minCloseTs tier startMs)) none (pages tier)
  listed : ∀ tier, ∀ page ∈ pages tier, ∀ market ∈ page,
    market ∈ series.markets ∧ series.tier cutoff market = tier
  complete : ∀ market ∈ series.markets, ∀ close,
    parseFromRfc3339 market.closeTime = some close →
      (∀ ts ∈ minCloseTs (series.tier cutoff market) startMs,
        ts * 1000000000 < close) →
      ∃ page ∈ pages (series.tier cutoff market), market ∈ page
  newestFirst : ∀ tier, NewestFirst parseFromRfc3339 tier (pages tier)

section Range

variable (parseFromRfc3339 : String → Option Int) (series : Series)
variable (cutoff : Int) (startMs endMs : Int64)

/-- A market of the series whose times parse and that overlaps the range. -/
structure InRange (market : OpenMarket) (read : SeriesMarket) : Prop where
  member : market ∈ series.markets
  parses : seriesMarket parseFromRfc3339 (series.tier cutoff market) market =
    some read
  overlap : overlaps read startMs endMs = true

/--
Exactly the markets of the range, each ticker once, sorted by close time and
ticker.
-/
structure Exact (result : List SeriesMarket) : Prop where
  listed : ∀ read ∈ result, ∃ market,
    InRange parseFromRfc3339 series cutoff startMs endMs market read
  complete : ∀ market read,
    InRange parseFromRfc3339 series cutoff startMs endMs market read →
      ∃ other ∈ result, other.ticker = read.ticker
  once : (result.map SeriesMarket.ticker).Nodup
  sorted : result.Pairwise fun first second => closeKey first ≤ closeKey second

/--
Each ticker of the range is listed on a page that no page without a parseable
market precedes, and the range ends after the cutoff if the market is live.
-/
def Reached (pages : Tier → List (List OpenMarket)) : Prop :=
  ∀ market read,
    InRange parseFromRfc3339 series cutoff startMs endMs market read →
      ∃ other otherRead,
        InRange parseFromRfc3339 series cutoff startMs endMs other otherRead ∧
        otherRead.ticker = read.ticker ∧
        (series.tier cutoff other = .live →
          timestampMillis cutoff < endMs) ∧
        ∃ page ∈ readable parseFromRfc3339 (series.tier cutoff other)
          (pages (series.tier cutoff other)), other ∈ page

end Range

section Result

variable {parseFromRfc3339 : String → Option Int} {series : Series}
variable {listings : Listings} {cutoff : Int} {startMs endMs : Int64}
variable {pages : Tier → List (List OpenMarket)}

/-- A market of the range that settled before the cutoff starts before it. -/
theorem start_lt_cutoff
    (lawful : Lawful parseFromRfc3339 series listings cutoff startMs pages)
    {market : OpenMarket} {read : SeriesMarket}
    (inRange : InRange parseFromRfc3339 series cutoff startMs endMs market read)
    (historical : series.tier cutoff market = .historical) :
    startMs < timestampMillis cutoff := by
  rcases seriesMarket_spec inRange.parses with ⟨-, -, -, closed⟩
  simp only [parseMillis, Option.map_eq_some_iff] at closed
  rcases closed with ⟨close, parsed, isClose⟩
  have overlap := inRange.overlap
  rw [overlaps, Bool.and_eq_true, decide_eq_true_eq] at overlap
  rw [Series.tier] at historical
  split at historical
  next settled isSettled =>
    split at historical
    next early =>
      have after := lawful.settlement market inRange.member close settled
        parsed isSettled
      have fits := lawful.times _ _ parsed
      have before := Int64.lt_iff_toInt_lt.mp overlap.1
      rw [← isClose, timestampMillis, toInt_ofInt_of_fits fits] at before
      rw [Int64.lt_iff_toInt_lt, timestampMillis,
        toInt_ofInt_of_fits lawful.cutoffTime]
      have ordered : close / 1000000 ≤ cutoff / 1000000 :=
        Int.ediv_le_ediv (by decide) (by omega)
      omega
    next => cases historical
  next => cases historical

/-- What the two listings yield, before sorting. -/
theorem marketsInRange_spec
    (lawful : Lawful parseFromRfc3339 series listings cutoff startMs pages)
    (endMs : Int64) :
    ∃ enough listed, (∀ fuel, enough ≤ fuel →
        marketsInRange parseFromRfc3339 listings cutoff startMs endMs fuel =
          some (sortDedup closeKey SeriesMarket.ticker listed)) ∧
      ∀ read, read ∈ listed ↔
        ∃ tier ∈ tiers startMs endMs (timestampMillis cutoff),
          OnPages parseFromRfc3339 tier (pages tier) read ∧
            overlaps read startMs endMs = true := by
  have each : ∀ tier, ∃ markets, (∀ fuel, (pages tier).length ≤ fuel →
      readTier parseFromRfc3339 listings tier startMs endMs fuel none =
        some markets) ∧
      ∀ market, market ∈ markets ↔
        OnPages parseFromRfc3339 tier (pages tier) market ∧
          overlaps market startMs endMs = true :=
    fun tier => readTier_spec (lawful.serves tier) (lawful.newestFirst tier)
  choose found reads members using each
  refine ⟨max (pages .live).length (pages .historical).length,
    (tiers startMs endMs (timestampMillis cutoff)).flatMap found, ?_, ?_⟩
  · intro fuel enough
    have read : (fun tier => readTier parseFromRfc3339 listings tier startMs
        endMs fuel none) = fun tier => pure (found tier) := by
      funext tier
      apply reads
      cases tier
      · exact le_trans (le_max_left _ _) enough
      · exact le_trans (le_max_right _ _) enough
    rw [marketsInRange, read, List.mapM_pure]
    rfl
  · intro read
    simp only [List.mem_flatMap, members]

/-- A market on the pages read is one of the series. -/
theorem onPages_iff
    (lawful : Lawful parseFromRfc3339 series listings cutoff startMs pages)
    {tier : Tier} {read : SeriesMarket} :
    OnPages parseFromRfc3339 tier (pages tier) read ∧
        overlaps read startMs endMs = true ↔
      ∃ market, InRange parseFromRfc3339 series cutoff startMs endMs market
          read ∧
        series.tier cutoff market = tier ∧
        ∃ page ∈ readable parseFromRfc3339 tier (pages tier),
          market ∈ page := by
  constructor
  · rintro ⟨⟨page, isRead, member⟩, overlap⟩
    rcases List.mem_filterMap.mp member with ⟨market, inPage, parses⟩
    rcases lawful.listed tier page ((List.takeWhile_prefix _).subset isRead)
      market inPage with ⟨ofSeries, rfl⟩
    exact ⟨market, ⟨ofSeries, parses, overlap⟩, rfl, page, isRead, inPage⟩
  · rintro ⟨market, inRange, rfl, page, isRead, inPage⟩
    exact ⟨⟨page, isRead,
      List.mem_filterMap.mpr ⟨market, inPage, inRange.parses⟩⟩, inRange.overlap⟩

theorem mem_tiers {tier : Tier} {cutoffMs : Int64} :
    tier ∈ tiers startMs endMs cutoffMs ↔
      (tier = .historical → startMs < cutoffMs) ∧
        (tier = .live → cutoffMs < endMs) := by
  rw [tiers, List.mem_append]
  cases tier <;> split <;> split <;> simp_all

/-- The markets read, as markets of the series. -/
theorem mem_listed_iff
    (lawful : Lawful parseFromRfc3339 series listings cutoff startMs pages)
    {read : SeriesMarket} :
    (∃ tier ∈ tiers startMs endMs (timestampMillis cutoff),
      OnPages parseFromRfc3339 tier (pages tier) read ∧
        overlaps read startMs endMs = true) ↔
      ∃ market, InRange parseFromRfc3339 series cutoff startMs endMs market
          read ∧
        (series.tier cutoff market = .live →
          timestampMillis cutoff < endMs) ∧
        ∃ page ∈ readable parseFromRfc3339 (series.tier cutoff market)
          (pages (series.tier cutoff market)), market ∈ page := by
  constructor
  · rintro ⟨tier, needed, read_⟩
    rcases (onPages_iff lawful).mp read_ with ⟨market, inRange, rfl, found⟩
    exact ⟨market, inRange, (mem_tiers.mp needed).2, found⟩
  · rintro ⟨market, inRange, live, found⟩
    refine ⟨series.tier cutoff market, ?_, ?_⟩
    · exact mem_tiers.mpr ⟨start_lt_cutoff lawful inRange, live⟩
    · exact (onPages_iff lawful).mpr ⟨market, inRange, rfl, found⟩

/-- A ticker has one place in the order of the result. -/
theorem ticker_eq_iff_closeKey_eq
    (lawful : Lawful parseFromRfc3339 series listings cutoff startMs pages)
    {first second : OpenMarket} {a b : SeriesMarket}
    (aInRange : InRange parseFromRfc3339 series cutoff startMs endMs first a)
    (bInRange : InRange parseFromRfc3339 series cutoff startMs endMs second b) :
    a.ticker = b.ticker ↔ closeKey a = closeKey b := by
  rcases seriesMarket_spec aInRange.parses with ⟨aTicker, -, -, aClose⟩
  rcases seriesMarket_spec bInRange.parses with ⟨bTicker, -, -, bClose⟩
  simp only [closeKey, EmbeddingLike.apply_eq_iff_eq, Prod.mk.injEq]
  constructor
  · intro same
    have close := lawful.oneClose first aInRange.member second bInRange.member
      (by rw [← aTicker, ← bTicker, same])
    rw [parseMillis, close, ← parseMillis, bClose, Option.some.injEq] at aClose
    exact ⟨congrArg Int64.toInt aClose.symm, same⟩
  · intro both
    exact both.2

/--
A range is read exactly if and only if each of its markets is listed on a
page that no page without a parseable market precedes, and no live market is
in a range that ends by the cutoff.
-/
theorem marketsInRange_exact_iff
    (lawful : Lawful parseFromRfc3339 series listings cutoff startMs pages) :
    (∃ enough result, (∀ fuel, enough ≤ fuel →
        marketsInRange parseFromRfc3339 listings cutoff startMs endMs fuel =
          some result) ∧
      Exact parseFromRfc3339 series cutoff startMs endMs result) ↔
      Reached parseFromRfc3339 series cutoff startMs endMs pages := by
  rcases marketsInRange_spec lawful endMs with
    ⟨need, listed, reads, members⟩
  have sources : ∀ read, read ∈ listed ↔ _ :=
    fun read => (members read).trans (mem_listed_iff lawful)
  constructor
  · rintro ⟨enough, result, answers, exact_⟩ market read inRange
    have same := (reads (max need enough) (le_max_left _ _)).symm.trans
      (answers (max need enough) (le_max_right _ _))
    rw [Option.some.injEq] at same
    subst same
    rcases exact_.complete market read inRange with ⟨other, kept, ticker⟩
    rcases (sources other).mp (mem_of_mem_sortDedup kept) with
      ⟨source, sourceInRange, live, found⟩
    exact ⟨source, other, sourceInRange, ticker, live, found⟩
  · intro reached
    refine ⟨need, _, reads, ?_, ?_, ?_, pairwise_sortDedup listed⟩
    · intro read kept
      rcases (sources read).mp (mem_of_mem_sortDedup kept) with
        ⟨market, inRange, -⟩
      exact ⟨market, inRange⟩
    · intro market read inRange
      rcases reached market read inRange with
        ⟨other, otherRead, otherInRange, ticker, live, found⟩
      have member := (sources otherRead).mpr ⟨other, otherInRange, live, found⟩
      rcases exists_mem_sortDedup closeKey SeriesMarket.ticker member with
        ⟨kept, inResult, same⟩
      exact ⟨kept, inResult, same.trans ticker⟩
    · apply nodup_sortDedup
      intro a aMember b bMember
      rcases (sources a).mp aMember with ⟨first, firstInRange, -⟩
      rcases (sources b).mp bMember with ⟨second, secondInRange, -⟩
      exact ticker_eq_iff_closeKey_eq lawful firstInRange secondInRange

end Result

/-- The three hours of the example ranges, and no other time. -/
def readHour (text : String) : Option Int :=
  if text = "2026-09-24T00:00:00Z" then some 1790208000000000000
  else if text = "2026-09-24T01:00:00Z" then some 1790211600000000000
  else if text = "2026-09-24T02:00:00Z" then some 1790215200000000000
  else none

theorem fits_readHour (text : String) (instant : Int)
    (read : readHour text = some instant) : Fits (instant / 1000000) := by
  simp only [readHour] at read
  split_ifs at read <;> cases read <;> decide

def listedMarket (ticker openTime closeTime : String) : OpenMarket :=
  { OpenMarket.named ticker with openTime := openTime, closeTime := closeTime }

def settledMarket : OpenMarket :=
  listedMarket "A" "2026-09-24T00:00:00Z" "2026-09-24T01:00:00Z"

def openMarket : OpenMarket :=
  listedMarket "B" "2026-09-24T01:00:00Z" "2026-09-24T02:00:00Z"

def timelessMarket : OpenMarket :=
  listedMarket "C" "" ""

/-- A settled market, one that is not, and one without times. -/
def hourlySeries : Series where
  markets := [settledMarket, openMarket, timelessMarket]
  settled market :=
    if market.ticker = "A" then some 1790211600000000000 else none

def hourlyPages : Tier → List (List OpenMarket)
  | .historical => [[settledMarket]]
  | .live => [[openMarket], [timelessMarket]]

def hourlyListings : Listings
  | .historical, _, _ => ⟨"", [settledMarket]⟩
  | .live, _, none => ⟨"1", [openMarket]⟩
  | .live, _, some _ => ⟨"", [timelessMarket]⟩

theorem lawful_hourly : Lawful readHour hourlySeries hourlyListings
    1790211600000000001 1790208000000 hourlyPages := by
  refine ⟨fits_readHour, by decide, ?_, by decide +kernel, ?_, ?_, ?_, ?_⟩
  · have late : ∀ market ∈ hourlySeries.markets,
        ∀ close ∈ readHour market.closeTime,
          ∀ settled ∈ hourlySeries.settled market, close ≤ settled := by
      decide +kernel
    intro market member close settled parsed isSettled
    exact late market member close parsed settled isSettled
  · intro tier
    cases tier
    · exact .more rfl (by decide) (.last rfl)
    · exact .last rfl
  · intro tier
    cases tier <;> decide +kernel
  · have listed : ∀ market ∈ hourlySeries.markets,
        ∃ page ∈ hourlyPages (hourlySeries.tier 1790211600000000001 market),
          market ∈ page := by
      decide +kernel
    intro market member _ _ _
    exact listed market member
  · intro tier
    show List.Pairwise _ _
    cases tier <;> decide +kernel

/-- The two hours of the series are read, whatever the third market is. -/
theorem marketsInRange_exact_hourly :
    ∃ enough result, (∀ fuel, enough ≤ fuel →
        marketsInRange readHour hourlyListings 1790211600000000001
          1790208000000 1790215200000 fuel = some result) ∧
      Exact readHour hourlySeries 1790211600000000001 1790208000000
        1790215200000 result := by
  apply (marketsInRange_exact_iff lawful_hourly).mpr
  have readable_ : ∀ market ∈ hourlySeries.markets,
      seriesMarket readHour (hourlySeries.tier 1790211600000000001 market)
          market ≠ none →
        ∃ page ∈ readable readHour
            (hourlySeries.tier 1790211600000000001 market)
            (hourlyPages (hourlySeries.tier 1790211600000000001 market)),
          market ∈ page := by
    decide +kernel
  intro market read inRange
  refine ⟨market, read, inRange, rfl, fun _ => by decide, ?_⟩
  apply readable_ market inRange.member
  rw [inRange.parses]
  exact Option.some_ne_none read

/-- One market that is open over the cutoff. -/
def straddlingMarket : OpenMarket :=
  listedMarket "D" "2026-09-24T00:00:00Z" "2026-09-24T02:00:00Z"

def straddlingSeries : Series where
  markets := [straddlingMarket]
  settled _ := none

def straddlingPages : Tier → List (List OpenMarket)
  | .historical => [[]]
  | .live => [[straddlingMarket]]

def straddlingListings : Listings
  | .historical, _, _ => ⟨"", []⟩
  | .live, _, _ => ⟨"", [straddlingMarket]⟩

/--
A range that ends at the cutoff misses a market that was open in it and is
still only listed as live.
-/
theorem marketsInRange_not_exact_straddling :
    Lawful readHour straddlingSeries straddlingListings 1790211600000000000
        1790208000000 straddlingPages ∧
      ¬ ∃ enough result, (∀ fuel, enough ≤ fuel →
          marketsInRange readHour straddlingListings 1790211600000000000
            1790208000000 1790211600000 fuel = some result) ∧
        Exact readHour straddlingSeries 1790211600000000000 1790208000000
          1790211600000 result := by
  constructor
  · refine ⟨fits_readHour, by decide, ?_, by decide +kernel, ?_, ?_, ?_, ?_⟩
    · intro market _ close settled _ isSettled
      cases isSettled
    · intro tier
      cases tier <;> exact .last rfl
    · intro tier
      cases tier <;> decide +kernel
    · have listed : ∀ market ∈ straddlingSeries.markets,
          ∃ page ∈ straddlingPages
              (straddlingSeries.tier 1790211600000000000 market),
            market ∈ page := by
        decide +kernel
      intro market member _ _ _
      exact listed market member
    · intro tier
      show List.Pairwise _ _
      cases tier <;> decide +kernel
  · rintro ⟨enough, result, answers, exact_⟩
    have answer := answers (enough + 1) (Nat.le_succ enough)
    have nothing : marketsInRange readHour straddlingListings
        1790211600000000000 1790208000000 1790211600000 (enough + 1) =
          some [] := rfl
    rw [nothing, Option.some.injEq] at answer
    subst answer
    have inRange : InRange readHour straddlingSeries 1790211600000000000
        1790208000000 1790211600000 straddlingMarket
        ⟨"D", 1790208000000, 1790215200000, none, .live⟩ :=
      ⟨List.mem_cons_self, by decide +kernel, by decide⟩
    rcases exact_.complete _ _ inRange with ⟨other, member, -⟩
    cases member

end ChudMoney.Controllers.Ingest
