import Mathlib.Data.List.Basic

/-!
# Queues that shed what does not wait

Items are offered to a bounded queue one by one.  An item that waits for room
is queued; another may be shed, and what is shed is counted.
-/

namespace ChudMoney.Lib.Shedding

variable {Item : Type}

/-- What is queued of the items offered, and how many of them are shed. -/
inductive Sheds : List (Bool × Item) → List Item → Nat → Prop where
  | nil : Sheds [] [] 0
  | queue {offered : List (Bool × Item)} {queued : List Item} {shed : Nat}
      (waits : Bool) (item : Item) :
      Sheds offered queued shed →
        Sheds ((waits, item) :: offered) (item :: queued) shed
  | shed {offered : List (Bool × Item)} {queued : List Item} {shed : Nat}
      (item : Item) :
      Sheds offered queued shed →
        Sheds ((false, item) :: offered) queued (shed + 1)

theorem Sheds.append {offered later : List (Bool × Item)}
    {queued more : List Item} {shed count : Nat}
    (first : Sheds offered queued shed) (second : Sheds later more count) :
    Sheds (offered ++ later) (queued ++ more) (shed + count) := by
  induction first with
  | nil =>
      rw [Nat.zero_add]
      exact second
  | queue waits item _ ih => exact Sheds.queue waits item ih
  | shed item _ ih =>
      rw [Nat.add_right_comm]
      exact Sheds.shed item ih

/-- Nothing is queued that was not offered, nor out of order. -/
theorem Sheds.sublist {offered : List (Bool × Item)} {queued : List Item}
    {shed : Nat} (sheds : Sheds offered queued shed) :
    queued.Sublist (offered.map Prod.snd) := by
  induction sheds with
  | nil => exact List.Sublist.slnil
  | queue waits item _ ih => exact ih.cons_cons item
  | shed item _ ih => exact ih.cons item

/-- What waits is queued. -/
theorem Sheds.waiting {offered : List (Bool × Item)} {queued : List Item}
    {shed : Nat} (sheds : Sheds offered queued shed) :
    ((offered.filter Prod.fst).map Prod.snd).Sublist queued := by
  induction sheds with
  | nil => exact List.Sublist.slnil
  | queue waits item _ ih =>
      cases waits with
      | false => exact ih.cons item
      | true => exact ih.cons_cons item
  | shed item _ ih => exact ih

/-- What is offered is queued or counted. -/
theorem Sheds.length {offered : List (Bool × Item)} {queued : List Item}
    {shed : Nat} (sheds : Sheds offered queued shed) :
    queued.length + shed = offered.length := by
  induction sheds with
  | nil => rfl
  | queue waits item _ ih =>
      rw [List.length_cons, List.length_cons, ← ih]
      omega
  | shed item _ ih =>
      rw [List.length_cons, ← ih]
      omega

end ChudMoney.Lib.Shedding
