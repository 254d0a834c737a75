import Mathlib.Data.List.Basic

/-!
# Permits held by the places of a list

A semaphore has a number of permits.  Each is free, or held by one of the
places of a list; a place takes one only if one is free, and gives it back
however it ends.
-/

namespace ChudMoney.Lib.Permits

variable {Place : Type} {holds : Place → Bool} {total free : Nat}
variable {places : List Place}

/-- The permits that are free and those that are held are all there are. -/
def Conserved (holds : Place → Bool) (total free : Nat)
    (places : List Place) : Prop :=
  free + places.countP holds = total

theorem conserved_nil (holds : Place → Bool) (total : Nat) :
    Conserved holds total total [] := by
  rw [Conserved, List.countP_nil, Nat.add_zero]

/-- How many permits a place holds. -/
def held (holds : Place → Bool) (place : Place) : Nat :=
  if holds place then 1 else 0

/-- A place is new, with the permits that it takes. -/
theorem Conserved.concat (conserved : Conserved holds total free places)
    {place : Place} {left : Nat} (takes : left + held holds place = free) :
    Conserved holds total left (places ++ [place]) := by
  rw [Conserved] at conserved ⊢
  rw [List.countP_append, List.countP_singleton, ← conserved, ← takes, held]
  omega

/-- A place takes or gives back permits. -/
theorem Conserved.set (conserved : Conserved holds total free places)
    {i : Nat} {before after : Place} (isPlace : places[i]? = some before)
    {left : Nat}
    (exchange : left + held holds after = free + held holds before) :
    Conserved holds total left (places.set i after) := by
  rcases List.getElem?_eq_some_iff.mp isPlace with ⟨bound, isBefore⟩
  rw [Conserved] at conserved ⊢
  rw [held, held] at exchange
  have counted : held holds before ≤ places.countP holds := by
    rw [held]
    split
    next isHeld =>
      exact List.countP_pos_iff.mpr
        ⟨before, List.mem_of_getElem? isPlace, isHeld⟩
    next => exact Nat.zero_le _
  rw [held] at counted
  rw [List.countP_set bound, isBefore]
  omega

/-- No more places hold a permit than there are permits. -/
theorem Conserved.countP_le (conserved : Conserved holds total free places) :
    places.countP holds ≤ total := by
  rw [Conserved] at conserved
  omega

/-- All permits are held exactly when none is free. -/
theorem Conserved.free_eq_zero_iff
    (conserved : Conserved holds total free places) :
    free = 0 ↔ places.countP holds = total := by
  rw [Conserved] at conserved
  omega

/-- Two places that hold permits hold two. -/
theorem two_le_countP {i j : Nat} {first second : Place}
    (isFirst : places[i]? = some first) (isSecond : places[j]? = some second)
    (holdsFirst : holds first = true) (holdsSecond : holds second = true)
    (apart : i ≠ j) : 2 ≤ places.countP holds := by
  induction places generalizing i j with
  | nil => cases isFirst
  | cons place places ih =>
      cases i with
      | zero =>
          cases j with
          | zero => exact absurd rfl apart
          | succ j =>
              cases isFirst
              have other : 0 < places.countP holds :=
                List.countP_pos_iff.mpr
                  ⟨second, List.mem_of_getElem? isSecond, holdsSecond⟩
              rw [List.countP_cons_of_pos holdsFirst]
              omega
      | succ i =>
          cases j with
          | zero =>
              cases isSecond
              have other : 0 < places.countP holds :=
                List.countP_pos_iff.mpr
                  ⟨first, List.mem_of_getElem? isFirst, holdsFirst⟩
              rw [List.countP_cons_of_pos holdsSecond]
              omega
          | succ j =>
              have rest := ih isFirst isSecond fun same =>
                apart (congrArg (· + 1) same)
              rw [List.countP_cons]
              omega

/-- A semaphore of one permit is held by one place at a time. -/
theorem Conserved.unique (conserved : Conserved holds 1 free places)
    {i j : Nat} {first second : Place}
    (isFirst : places[i]? = some first) (isSecond : places[j]? = some second)
    (holdsFirst : holds first = true) (holdsSecond : holds second = true) :
    i = j := by
  by_contra apart
  have two := two_le_countP isFirst isSecond holdsFirst holdsSecond apart
  have one := conserved.countP_le
  omega

end ChudMoney.Lib.Permits
