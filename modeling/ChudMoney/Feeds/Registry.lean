import ChudMoney.Feeds.Shared

/-!
# Feed tasks, one per tracked market

The registry runs at most one feed for a tag.  Of a running feed it is the
market it was spawned for and its latest status that readers see.
-/

namespace ChudMoney.Feeds.Registry

open ChudMoney.Feeds.Shared
open ChudMoney.Model

/-- A running feed. -/
structure FeedHandle where
  market : Market
  status : FeedStatus

/-- The feed of a market that has just been spawned. -/
def FeedHandle.spawned (market : Market) : FeedHandle where
  market := market
  status := FeedStatus.default
    ((market.coinbaseProduct.filter validCoinbaseProduct).map
      CoinbaseFeedStatus.default)

abbrev FeedRegistry := HashMap String FeedHandle

namespace FeedRegistry

def status (feeds : FeedRegistry) (tag : String) : Option FeedStatus :=
  (feeds[tag]?).map FeedHandle.status

/-- The market whose feed is running under a tag. -/
def running (feeds : FeedRegistry) (tag : String) : Option Market :=
  (feeds[tag]?).map FeedHandle.market

/-- Start the feed; `false` if one is already running for that tag. -/
def spawn (feeds : FeedRegistry) (market : Market) : FeedRegistry × Bool :=
  if market.tag ∈ feeds then (feeds, false)
  else (feeds.insert market.tag (.spawned market), true)

/-- Abort and forget the feed; also whether one existed. -/
def stop (feeds : FeedRegistry) (tag : String) : FeedRegistry × Bool :=
  (feeds.erase tag, tag ∈ feeds)

/-- The tasks of a running feed have a new status. -/
def report (feeds : FeedRegistry) (tag : String) (status : FeedStatus) :
    FeedRegistry :=
  match feeds[tag]? with
  | some handle => feeds.insert tag { handle with status := status }
  | none => feeds

theorem mem_iff_running {feeds : FeedRegistry} {tag : String} :
    tag ∈ feeds ↔ (running feeds tag).isSome := by
  rw [running, Option.isSome_map, Std.ExtTreeMap.isSome_getElem?_iff_mem]

theorem running_insert (feeds : FeedRegistry) (handle : FeedHandle)
    (other tag : String) :
    running (feeds.insert other handle) tag =
      if other = tag then some handle.market else running feeds tag := by
  rw [running, Std.ExtTreeMap.getElem?_insert]
  by_cases same : other = tag
  · simp [same]
  · simp [same, running]

/-- A spawn starts a feed only where none is running. -/
theorem running_spawn (feeds : FeedRegistry) (market : Market)
    (tag : String) :
    running (spawn feeds market).1 tag =
      if market.tag = tag then (running feeds tag).or (some market)
      else running feeds tag := by
  rw [spawn]
  by_cases same : market.tag = tag
  · subst same
    rw [if_pos rfl]
    by_cases present : market.tag ∈ feeds
    · rw [if_pos present]
      rcases Option.isSome_iff_exists.mp (mem_iff_running.mp present) with
        ⟨other, isRunning⟩
      rw [isRunning]
      rfl
    · rw [if_neg present, running_insert, if_pos rfl]
      have nothing : running feeds market.tag = none := by
        simpa using fun some => present (mem_iff_running.mpr some)
      rw [nothing]
      rfl
  · rw [if_neg same]
    split
    · rfl
    · rw [running_insert, if_neg same]

theorem running_stop (feeds : FeedRegistry) (other tag : String) :
    running (stop feeds other).1 tag =
      if other = tag then none else running feeds tag := by
  rw [running, stop, Std.ExtTreeMap.getElem?_erase]
  by_cases same : other = tag
  · simp [same]
  · simp [same, running]

theorem running_report (feeds : FeedRegistry) (other : String)
    (status : FeedStatus) (tag : String) :
    running (report feeds other status) tag = running feeds tag := by
  rw [report]
  cases found : feeds[other]? with
  | none => rfl
  | some handle =>
      dsimp only
      rw [running_insert]
      split
      next same =>
        rw [← same, running, found]
        rfl
      next => rfl

end FeedRegistry

end ChudMoney.Feeds.Registry
