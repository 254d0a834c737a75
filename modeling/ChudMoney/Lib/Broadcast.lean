import Mathlib.Algebra.GroupWithZero.Nat
import Mathlib.Data.List.Basic

/-!
# Broadcast channels that keep the last items only

A channel keeps the last `kept` of the items sent on it.  A receiver has a
place among all of them; one that falls behind what is kept is told how many
items it has missed, and goes on with the oldest item that is kept.

What a receiver is given accounts for what was sent: each item in its turn is
given or counted as missed.
-/

namespace ChudMoney.Lib.Broadcast

variable {Item : Type}

/-- What a receiver is given. -/
inductive Received (Item : Type) where
  | item (item : Item)
  | lagged (missed : Nat)
  deriving DecidableEq

/-- The place of the oldest item that is kept. -/
def oldest (kept : Nat) (sent : List Item) : Nat :=
  sent.length - kept

/-- What a receiver is given next, if anything, and its place after that. -/
def recv (kept : Nat) (sent : List Item) (place : Nat) :
    Option (Received Item × Nat) :=
  if place < oldest kept sent then
    some (.lagged (oldest kept sent - place), oldest kept sent)
  else
    sent[place]?.map fun item => (.item item, place + 1)

/-- The items sent from one place up to another. -/
def between (sent : List Item) (start stop : Nat) : List Item :=
  (sent.take stop).drop start

/-- What was given accounts for what was sent. -/
inductive Accounts : List Item → List (Received Item) → Prop where
  | nil : Accounts [] []
  | item {sent : List Item} {given : List (Received Item)} (item : Item) :
      Accounts sent given → Accounts (sent ++ [item]) (given ++ [.item item])
  | lagged {sent : List Item} {given : List (Received Item)}
      (missed : List Item) :
      missed ≠ [] → Accounts sent given →
        Accounts (sent ++ missed) (given ++ [.lagged missed.length])

/-- The items among what was given. -/
def items (given : List (Received Item)) : List Item :=
  given.filterMap fun
    | .item item => some item
    | .lagged _ => none

/-- How many items were counted as missed. -/
def missed (given : List (Received Item)) : Nat :=
  (given.map fun
    | .item _ => 0
    | .lagged missed => missed).sum

/-! ## What an account says -/

theorem items_concat (given : List (Received Item)) (last : Received Item) :
    items (given ++ [last]) = items given ++ items [last] :=
  List.filterMap_append

theorem missed_concat (given : List (Received Item)) (last : Received Item) :
    missed (given ++ [last]) = missed given + missed [last] := by
  simp [missed]

/-- Items are given in the order in which they were sent. -/
theorem Accounts.sublist {sent : List Item} {given : List (Received Item)}
    (accounts : Accounts sent given) : (items given).Sublist sent := by
  induction accounts with
  | nil => exact List.Sublist.slnil
  | item item _ ih =>
      rw [items_concat]
      exact ih.append (List.Sublist.refl [item])
  | lagged skipped _ _ ih =>
      rw [items_concat]
      exact ih.append (List.nil_sublist skipped)

/-- No item is lost without being counted. -/
theorem Accounts.length {sent : List Item} {given : List (Received Item)}
    (accounts : Accounts sent given) :
    (items given).length + missed given = sent.length := by
  induction accounts with
  | nil => rfl
  | item item _ ih =>
      rw [items_concat, missed_concat, List.length_append, List.length_append,
        ← ih]
      simp only [items, missed, List.filterMap_cons, List.filterMap_nil,
        List.map_cons, List.map_nil, List.sum_cons, List.sum_nil,
        List.length_singleton]
      omega
  | lagged skipped _ _ ih =>
      rw [items_concat, missed_concat, List.length_append, List.length_append,
        ← ih]
      simp only [items, missed, List.filterMap_cons, List.filterMap_nil,
        List.map_cons, List.map_nil, List.sum_cons, List.sum_nil,
        List.length_nil]
      omega

theorem Accounts.append {sent later : List Item}
    {given more : List (Received Item)} (accounts : Accounts sent given)
    (rest : Accounts later more) :
    Accounts (sent ++ later) (given ++ more) := by
  induction rest with
  | nil =>
      rw [List.append_nil, List.append_nil]
      exact accounts
  | item item _ ih =>
      rw [← List.append_assoc, ← List.append_assoc]
      exact .item item ih
  | lagged skipped nonempty _ ih =>
      rw [← List.append_assoc, ← List.append_assoc]
      exact .lagged skipped nonempty ih

/-- A receiver that was never told of a miss was given every item. -/
theorem Accounts.eq_of_nothing_missed {sent : List Item}
    {given : List (Received Item)} (accounts : Accounts sent given)
    (nothing : ∀ count, .lagged count ∉ given) :
    given = sent.map Received.item := by
  induction accounts with
  | nil => rfl
  | item item _ ih =>
      rw [List.map_append, ih fun count member =>
        nothing count (List.mem_append_left _ member)]
      rfl
  | lagged skipped _ _ _ =>
      exact absurd (List.mem_append_right _ List.mem_cons_self)
        (nothing skipped.length)

/-! ## Receiving -/

theorem oldest_le (kept : Nat) (sent : List Item) :
    oldest kept sent ≤ sent.length :=
  Nat.sub_le _ _

theorem between_self (sent : List Item) (place : Nat) :
    between sent place place = [] :=
  List.drop_eq_nil_of_le (List.length_take_le _ _)

/-- What was sent between two places is not changed by what is sent later. -/
theorem between_append {sent : List Item} {stop : Nat}
    (le : stop ≤ sent.length) (later : List Item) (start : Nat) :
    between (sent ++ later) start stop = between sent start stop := by
  rw [between, between, List.take_append_of_le_length le]

theorem between_trans {sent : List Item} {start middle stop : Nat}
    (first : start ≤ middle) (second : middle ≤ stop)
    (le : stop ≤ sent.length) :
    between sent start stop =
      between sent start middle ++ between sent middle stop := by
  have split := List.take_append_drop middle (sent.take stop)
  rw [List.take_take, Nat.min_eq_left second] at split
  have inside : start ≤ (sent.take middle).length := by
    rw [List.length_take]
    omega
  rw [between, ← split, List.drop_append_of_le_length inside]
  rfl

theorem length_between {sent : List Item} {start stop : Nat}
    (le : stop ≤ sent.length) :
    (between sent start stop).length = stop - start := by
  rw [between, List.length_drop, List.length_take, Nat.min_eq_left le]

/-- What a receiver is given next accounts for what it passes. -/
theorem accounts_recv {kept : Nat} {sent : List Item}
    {start place after : Nat} {given : List (Received Item)}
    {next : Received Item} (le : start ≤ place)
    (accounts : Accounts (between sent start place) given)
    (received : recv kept sent place = some (next, after)) :
    place < after ∧ after ≤ sent.length ∧
      Accounts (between sent start after) (given ++ [next]) := by
  rw [recv] at received
  split at received
  next behind =>
    cases received
    have bound := oldest_le kept sent
    refine ⟨behind, bound, ?_⟩
    rw [between_trans le (Nat.le_of_lt behind) bound, ← length_between bound]
    refine Accounts.lagged _ ?_ accounts
    intro empty
    have length : (between sent place _).length = _ := length_between bound
    rw [empty, List.length_nil] at length
    omega
  next =>
    rcases Option.map_eq_some_iff.mp received with ⟨item, isItem, same⟩
    cases same
    rcases List.getElem?_eq_some_iff.mp isItem with ⟨bound, isItem⟩
    refine ⟨Nat.lt_succ_self _, bound, ?_⟩
    have one : between sent place (place + 1) = [item] := by
      have inside : place ≤ (sent.take place).length := by
        rw [List.length_take]
        omega
      rw [between, List.take_succ_eq_append_getElem bound, isItem,
        List.drop_append_of_le_length inside]
      exact congrArg (· ++ [item]) (between_self sent place)
    rw [between_trans le (Nat.le_succ _) bound, one]
    exact Accounts.item item accounts

/-- An item that is given is the one at the place of the receiver. -/
theorem getElem?_of_recv {kept : Nat} {sent : List Item}
    {place after : Nat} {item : Item}
    (received : recv kept sent place = some (.item item, after)) :
    sent[place]? = some item ∧ after = place + 1 := by
  rw [recv] at received
  split at received
  · cases received
  · rcases Option.map_eq_some_iff.mp received with ⟨other, isItem, same⟩
    cases same
    exact ⟨isItem, rfl⟩

/-- A receiver is told of a miss only when it is too far behind. -/
theorem recv_eq_lagged_iff {kept : Nat} {sent : List Item}
    {place after count : Nat} :
    recv kept sent place = some (.lagged count, after) ↔
      place + kept < sent.length ∧ place + count + kept = sent.length ∧
        after = place + count := by
  rw [recv, oldest]
  constructor
  · intro received
    split at received
    · cases received
      omega
    · rcases Option.map_eq_some_iff.mp received with ⟨item, -, same⟩
      cases same
  · rintro ⟨behind, count, rfl⟩
    rw [if_pos (by omega)]
    congr 2
    · congr 1
      omega
    · omega

/-- A receiver that has everything waits, and no other does. -/
theorem recv_eq_none_iff {kept : Nat} {sent : List Item} {place : Nat} :
    recv kept sent place = none ↔ sent.length ≤ place := by
  rw [recv, oldest]
  split
  · simp only [reduceCtorEq, false_iff]
    omega
  · rw [Option.map_eq_none_iff, List.getElem?_eq_none_iff]

end ChudMoney.Lib.Broadcast
