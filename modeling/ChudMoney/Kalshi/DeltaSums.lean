import ChudMoney.Kalshi.Book
import ChudMoney.Lib.LadderSums

/-!
# Deltas sum up

Levels of a book are made on demand, removed at zero and made again.  Where no
partial sum of a level is negative or leaves 64 bits, all this comes to plain
sums: the book holds at every side and price what the snapshot and the deltas
of this level sum up to.
-/

namespace ChudMoney.Kalshi.DeltaSums

open ChudMoney.Kalshi.Book
open ChudMoney.Lib.Ladder
open ChudMoney.Lib.LadderSums
open ChudMoney.Lib.MachineInt

/-- The arguments of one `apply_delta`. -/
structure Delta where
  side : Side
  price : Int64
  change : Int64
  seq : UInt64

/-- `apply_delta` for one delta after another. -/
def applyDeltas (book : OrderBook) (deltas : List Delta) : OrderBook :=
  deltas.foldl
    (fun book delta =>
      book.applyDelta delta.side delta.price delta.change delta.seq) book

@[simp]
theorem applyDeltas_concat (book : OrderBook) (deltas : List Delta)
    (delta : Delta) :
    applyDeltas book (deltas ++ [delta]) =
      (applyDeltas book deltas).applyDelta delta.side delta.price delta.change
        delta.seq := by
  simp [applyDeltas]

/-! ## Levels and their sums -/

/-- A side and a price. -/
abbrev LevelKey := Side × Int64

/-- A delta as a change of its level. -/
def onLevel (delta : Delta) : LevelKey × Int64 :=
  ((delta.side, delta.price), delta.change)

/-- Sizes as integers without a word size. -/
def unbounded (changes : List (LevelKey × Int64)) : List (LevelKey × Int) :=
  changes.map fun change => (change.1, change.2.toInt)

/-- The changes of one level, in order. -/
def changesAt (key : LevelKey) (deltas : List Delta) : List Int64 :=
  sizesAt key (deltas.map onLevel)

/-- The size of a snapshot at one level plus all deltas of the level. -/
def levelTotal (yes no : Levels) (deltas : List Delta) (key : LevelKey) : Int :=
  total (unbounded (sided yes no)) (unbounded (deltas.map onLevel)) key

/-- Every partial sum of a level is a size that an `i64` can hold. -/
def InRange (yes no : Levels) (deltas : List Delta) : Prop :=
  ∀ past, past <+: deltas → ∀ key,
    0 ≤ levelTotal yes no past key ∧ Fits (levelTotal yes no past key)

theorem InRange.before {yes no : Levels} {deltas past : List Delta}
    (inRange : InRange yes no deltas) (isPrefix : past <+: deltas) :
    InRange yes no past :=
  fun earlier before => inRange earlier (before.trans isPrefix)

theorem InRange.nonnegative {yes no : Levels} {deltas : List Delta}
    (inRange : InRange yes no deltas) :
    Nonnegative (unbounded (sided yes no))
      (unbounded (deltas.map onLevel)) := by
  intro past before key
  unfold unbounded at before
  rw [List.map_map, List.prefix_map_iff] at before
  rcases before with ⟨earlier, isPrefix, rfl⟩
  have bounds := inRange earlier isPrefix key
  unfold levelTotal unbounded at bounds
  rw [List.map_map] at bounds
  exact bounds.1

/-- The levels that a snapshot and its deltas name. -/
def namedKeys (yes no : Levels) (deltas : List Delta) : List LevelKey :=
  (sided yes no).map Prod.fst ++ deltas.map fun delta => (onLevel delta).1

theorem levelTotal_of_notMem {yes no : Levels} {deltas : List Delta}
    {key : LevelKey} (unnamed : key ∉ namedKeys yes no deltas) :
    levelTotal yes no deltas key = 0 := by
  have nothing : ∀ changes : List (LevelKey × Int64),
      key ∉ changes.map Prod.fst → sizesAt key (unbounded changes) = [] := by
    intro changes absent
    unfold sizesAt unbounded
    rw [List.map_eq_nil_iff, List.filter_eq_nil_iff]
    intro change member
    rcases List.mem_map.mp member with ⟨original, isOriginal, rfl⟩
    simpa using fun same => absent
      (List.mem_map.mpr ⟨original, isOriginal, same⟩)
  unfold namedKeys at unnamed
  rw [List.mem_append, not_or] at unnamed
  unfold levelTotal total
  rw [nothing _ unnamed.1, nothing _ (by simpa using unnamed.2)]
  rfl

/-- Only the named levels need to be looked at. -/
theorem inRange_iff {yes no : Levels} {deltas : List Delta} :
    InRange yes no deltas ↔
      ∀ past ∈ deltas.inits, ∀ key ∈ namedKeys yes no deltas,
        0 ≤ levelTotal yes no past key ∧ Fits (levelTotal yes no past key) := by
  constructor
  · exact fun inRange past member key _ =>
      inRange past ((List.mem_inits past deltas).mp member) key
  · intro named past before key
    by_cases member : key ∈ namedKeys yes no deltas
    · exact named past ((List.mem_inits past deltas).mpr before) key member
    · have unnamed : key ∉ namedKeys yes no past := by
        unfold namedKeys at member ⊢
        rw [List.mem_append, not_or] at member ⊢
        exact ⟨member.1, fun old => member.2
          ((before.map _).subset old)⟩
      rw [levelTotal_of_notMem unnamed]
      decide

instance (yes no : Levels) (deltas : List Delta) :
    Decidable (InRange yes no deltas) :=
  have : DecidablePred fun past : List Delta =>
      ∀ key ∈ namedKeys yes no deltas,
        0 ≤ levelTotal yes no past key ∧ Fits (levelTotal yes no past key) :=
    fun _ => List.decidableBAll _ (namedKeys yes no deltas)
  have : Decidable (∀ past ∈ deltas.inits, ∀ key ∈ namedKeys yes no deltas,
      0 ≤ levelTotal yes no past key ∧ Fits (levelTotal yes no past key)) :=
    List.decidableBAll _ deltas.inits
  decidable_of_iff _ inRange_iff.symm

/-! ## The book as a ladder of sums -/

/-- The sizes of a book as integers without a word size. -/
def sizes (book : OrderBook) : Depth LevelKey Int :=
  mapSize Int64.toInt book.depth

theorem sizes_snapshot (book : OrderBook) (yes no : Levels) (seq : UInt64) :
    sizes (book.snapshot yes no seq) = ofLevels (unbounded (sided yes no)) := by
  unfold sizes
  rw [OrderBook.depth_snapshot, mapSize_ofLevels toInt_pos_iff]
  rfl

theorem getD_sizes (book : OrderBook) (key : LevelKey) :
    (sizes book key).getD 0 = ((book.depth key).getD 0).toInt := by
  unfold sizes mapSize
  cases book.depth key <;> rfl

/-- A delta is a change of the sizes where the size it makes fits. -/
theorem sizes_applyDelta (book : OrderBook) (delta : Delta)
    (fits : Fits ((sizes book (delta.side, delta.price)).getD 0 +
      delta.change.toInt)) :
    sizes (book.applyDelta delta.side delta.price delta.change delta.seq) =
      bump (sizes book) (delta.side, delta.price) delta.change.toInt := by
  rw [getD_sizes] at fits
  unfold sizes
  rw [OrderBook.depth_applyDelta]
  exact mapSize_bump toInt_pos_iff rfl _ _ _ (toInt_add_of_fits fits)

theorem distinct_sided {yes no : Levels} (yesOnce : (yes.map Prod.fst).Nodup)
    (noOnce : (no.map Prod.fst).Nodup) :
    ((unbounded (sided yes no)).map Prod.fst).Nodup := by
  have keys : (unbounded (sided yes no)).map Prod.fst =
      (yes.map Prod.fst).map (fun price => (Side.yes, price)) ++
        (no.map Prod.fst).map fun price => (Side.no, price) := by
    simp [unbounded, sided, Function.comp_def]
  rw [keys, List.nodup_append]
  refine ⟨yesOnce.map fun _ _ same => (Prod.mk.inj same).2,
    noOnce.map fun _ _ same => (Prod.mk.inj same).2, ?_⟩
  intro key inYes other inNo same
  rcases List.mem_map.mp inYes with ⟨first, -, rfl⟩
  rcases List.mem_map.mp inNo with ⟨second, -, rfl⟩
  cases same

/-- The sizes of a book are its levels, changed by its deltas. -/
theorem sizes_applyDeltas (book : OrderBook) {yes no : Levels} (seq : UInt64)
    {deltas : List Delta}
    (distinct : ((unbounded (sided yes no)).map Prod.fst).Nodup)
    (inRange : InRange yes no deltas) :
    sizes (applyDeltas (book.snapshot yes no seq) deltas) =
      bumps (ofLevels (unbounded (sided yes no)))
        (unbounded (deltas.map onLevel)) := by
  induction deltas using List.reverseRecOn with
  | nil => exact sizes_snapshot book yes no seq
  | append_singleton deltas delta ih =>
      have before := inRange.before (List.prefix_append deltas [delta])
      have held := bumps_eq_total distinct before.nonnegative
        (delta.side, delta.price)
      have nonneg := (before deltas (List.prefix_refl _)
        (delta.side, delta.price)).1
      have after := (inRange _ (List.prefix_refl _)
        (delta.side, delta.price)).2
      have split : unbounded ((deltas ++ [delta]).map onLevel) =
          unbounded (deltas.map onLevel) ++
            [((delta.side, delta.price), delta.change.toInt)] := by
        simp [unbounded, onLevel]
      rw [levelTotal, split, total_concat_self] at after
      rw [applyDeltas_concat, split, bumps_concat, sizes_applyDelta, ih before]
      unfold levelTotal at nonneg
      rw [ih before, held, keep_getD nonneg]
      exact after

/-! ## Deltas sum up -/

theorem keep_of_nonneg {size : Int} (nonneg : 0 ≤ size) :
    keep size = if size = 0 then none else some size := by
  unfold keep
  by_cases zero : size = 0
  · rw [if_pos zero, if_neg (by omega)]
  · rw [if_neg zero, if_pos (by omega)]

/-- What a book holds at a level depends on the deltas of this level alone. -/
theorem depth_applyDeltas (book : OrderBook) (deltas : List Delta) :
    (applyDeltas book deltas).depth =
      bumps book.depth (deltas.map onLevel) := by
  induction deltas using List.reverseRecOn with
  | nil => rfl
  | append_singleton deltas delta ih =>
      rw [applyDeltas_concat, OrderBook.depth_applyDelta, ih, List.map_append,
        List.map_singleton, bumps_concat]
      rfl

theorem side_eq_of_depth {first second : OrderBook}
    (depth : first.depth = second.depth) (side : Side) :
    first.side side = second.side side :=
  Std.ExtTreeMap.ext_getElem? fun price => congrFun depth (side, price)

/--
A book holds at each level what the snapshot and the deltas sum up to there,
and no level at zero; interleaving the deltas of other levels changes nothing.
-/
theorem deltas_sum (book : OrderBook) {yes no : Levels} (seq : UInt64)
    {deltas : List Delta} (yesOnce : (yes.map Prod.fst).Nodup)
    (noOnce : (no.map Prod.fst).Nodup) (inRange : InRange yes no deltas) :
    (∀ side price,
      ((applyDeltas (book.snapshot yes no seq) deltas).side side)[price]?.map
          Int64.toInt =
        if levelTotal yes no deltas (side, price) = 0 then none
        else some (levelTotal yes no deltas (side, price))) ∧
    ∀ others : List Delta,
      (∀ key, changesAt key others = changesAt key deltas) → ∀ side,
        (applyDeltas (book.snapshot yes no seq) others).side side =
          (applyDeltas (book.snapshot yes no seq) deltas).side side := by
  constructor
  · intro side price
    have distinct := distinct_sided yesOnce noOnce
    have summed := sizes_applyDeltas book seq distinct inRange
    have nonneg := (inRange deltas (List.prefix_refl _) (side, price)).1
    have held := congrFun summed (side, price)
    rw [bumps_eq_total distinct inRange.nonnegative] at held
    exact held.trans (keep_of_nonneg nonneg)
  · intro others same side
    apply side_eq_of_depth
    rw [depth_applyDeltas, depth_applyDeltas]
    exact bumps_congr _ same

/-- A level is emptied, and made again after a delta of the other side. -/
def refilled : List Delta :=
  [⟨.yes, 4700, -12000, 2⟩, ⟨.no, 5500, 1000, 3⟩, ⟨.yes, 4700, 500, 4⟩]

theorem deltas_sum_refilled :
    ((applyDeltas (OrderBook.default.snapshot [(4700, 12000), (4600, 5000)]
        [(5100, 8000)] 1) refilled).side .yes)[(4700 : Int64)]?.map
          Int64.toInt =
      if levelTotal [(4700, 12000), (4600, 5000)] [(5100, 8000)] refilled
          (.yes, 4700) = 0 then none
      else some (levelTotal [(4700, 12000), (4600, 5000)] [(5100, 8000)]
        refilled (.yes, 4700)) :=
  (deltas_sum OrderBook.default 1 (by decide) (by decide)
    (by decide +kernel)).1 .yes 4700

end ChudMoney.Kalshi.DeltaSums
