import Mathlib.Data.List.Nodup

/-!
# Values kept by a remote party under handles of its choice

A client orders values to be created, each under a tag, and later to be
changed.  The remote party fulfils the orders in the order sent: it gives every
value it creates a fresh handle, and a change reaches the values whose handles
it names.

`settled` is what the remote party will have of one tag once it has fulfilled
everything.  Fulfilling an order does not change it, so that it is enough to
know what sending an order does to it.
-/

namespace ChudMoney.Lib.Remote

variable {Tag H V : Type}

inductive Order (Tag H V : Type) where
  | create (tag : Tag) (value : V)
  | change (handles : List H) (f : V → V)

/-- A value of the remote party. -/
structure Holding (Tag H V : Type) where
  handle : H
  tag : Tag
  value : V

namespace Order

/-- The value that an order creates under a tag. -/
def created [DecidableEq Tag] (tag : Tag) : Order Tag H V → Option V
  | .create other value => if other = tag then some value else none
  | .change _ _ => none

/-- The handles that an order names. -/
def handles : Order Tag H V → List H
  | .create _ _ => []
  | .change handles _ => handles

variable [DecidableEq H]

/-- What an order makes of the value under a handle. -/
def effect (handle : H) (value : V) : Order Tag H V → V
  | .create _ _ => value
  | .change handles f => if handle ∈ handles then f value else value

theorem effect_of_notMem {handle : H} {order : Order Tag H V}
    (absent : handle ∉ order.handles) (value : V) :
    order.effect handle value = value := by
  cases order with
  | create tag created => rfl
  | change handles f => exact if_neg absent

/-- Orders that name a handle nowhere leave its value alone. -/
theorem foldl_effect_of_notMem {handle : H} {orders : List (Order Tag H V)}
    (absent : ∀ order ∈ orders, handle ∉ order.handles) (value : V) :
    orders.foldl (effect handle) value = value := by
  induction orders with
  | nil => rfl
  | cons order orders ih =>
      rw [List.foldl_cons, effect_of_notMem (absent order List.mem_cons_self)]
      exact ih fun other member => absent other (List.mem_cons_of_mem _ member)

end Order

variable [DecidableEq H]

/-- The value after a change. -/
def Holding.changed (order : Order Tag H V) (holding : Holding Tag H V) :
    Holding Tag H V :=
  { holding with value := order.effect holding.handle holding.value }

/-- The handle and the tag of each value. -/
def labels (held : List (Holding Tag H V)) : List (H × Tag) :=
  held.map fun holding => (holding.handle, holding.tag)

omit [DecidableEq H] in
@[simp]
theorem labels_append (first second : List (Holding Tag H V)) :
    labels (first ++ second) = labels first ++ labels second :=
  List.map_append

omit [DecidableEq H] in
theorem handles_labels (held : List (Holding Tag H V)) :
    (labels held).map Prod.fst = held.map Holding.handle := by
  rw [labels, List.map_map]
  rfl

omit [DecidableEq H] in
/-- Where no two values share a handle, a handle has one tag. -/
theorem tag_unique {held : List (Holding Tag H V)}
    (nodup : (held.map Holding.handle).Nodup) {handle : H} {first second : Tag}
    (isFirst : (handle, first) ∈ labels held)
    (isSecond : (handle, second) ∈ labels held) : first = second := by
  rcases List.mem_map.mp isFirst with ⟨one, memberOne, both⟩
  rcases List.mem_map.mp isSecond with ⟨other, memberOther, both'⟩
  rw [Prod.mk.injEq] at both both'
  have same : one = other :=
    List.inj_on_of_nodup_map nodup memberOne memberOther
      (both.1.trans both'.1.symm)
  rw [← both.2, ← both'.2, same]

@[simp]
theorem labels_map_changed (order : Order Tag H V)
    (held : List (Holding Tag H V)) :
    labels (held.map (Holding.changed order)) = labels held := by
  rw [labels, List.map_map]
  rfl

variable [DecidableEq Tag]

/-- The values of a tag once all of `orders` are fulfilled. -/
def settled (tag : Tag) (held : List (Holding Tag H V))
    (orders : List (Order Tag H V)) : List V :=
  ((held.filter fun holding => holding.tag = tag).map fun holding =>
      orders.foldl (Order.effect holding.handle) holding.value) ++
    orders.filterMap (Order.created tag)

@[simp]
theorem settled_nil (tag : Tag) (held : List (Holding Tag H V)) :
    settled tag held [] =
      (held.filter fun holding => holding.tag = tag).map Holding.value := by
  simp [settled]

/-- There will be something of a tag of which there is something. -/
theorem settled_ne_nil {tag : Tag} {held : List (Holding Tag H V)} {handle : H}
    (label : (handle, tag) ∈ labels held) (orders : List (Order Tag H V)) :
    settled tag held orders ≠ [] := by
  rcases List.mem_map.mp label with ⟨holding, member, both⟩
  rw [Prod.mk.injEq] at both
  have kept : holding ∈ held.filter fun other => other.tag = tag :=
    List.mem_filter.mpr ⟨member, decide_eq_true both.2⟩
  intro nothing
  rw [settled, List.append_eq_nil_iff, List.map_eq_nil_iff] at nothing
  rw [nothing.1] at kept
  cases kept

/-! ## Fulfilling an order -/

/-- A fulfilled change was already accounted for. -/
theorem settled_changed {order : Order Tag H V} {tag : Tag}
    (creates : order.created tag = none) (held : List (Holding Tag H V))
    (orders : List (Order Tag H V)) :
    settled tag (held.map (Holding.changed order)) orders =
      settled tag held (order :: orders) := by
  rw [settled, settled, List.filter_map, List.map_map,
    List.filterMap_cons_none creates]
  rfl

/-- A created value was already accounted for. -/
theorem settled_created {holding : Holding Tag H V}
    {orders : List (Order Tag H V)}
    (fresh : ∀ order ∈ orders, holding.handle ∉ order.handles) (tag : Tag)
    (held : List (Holding Tag H V)) :
    settled tag (held ++ [holding]) orders =
      settled tag held (.create holding.tag holding.value :: orders) := by
  rw [settled, settled, List.filter_append, List.map_append,
    List.append_assoc]
  congr 1
  by_cases same : holding.tag = tag
  · have created : (Order.create holding.tag holding.value :
        Order Tag H V).created tag = some holding.value := if_pos same
    rw [List.filterMap_cons_some created]
    simp [same, Order.foldl_effect_of_notMem fresh]
  · have created : (Order.create holding.tag holding.value :
        Order Tag H V).created tag = none := if_neg same
    rw [List.filterMap_cons_none created]
    simp [same]

/-! ## Sending orders -/

/-- Where there is nothing of a tag, there will be what is created. -/
theorem settled_append_of_nil {tag : Tag} {held : List (Holding Tag H V)}
    {orders : List (Order Tag H V)} (nothing : settled tag held orders = [])
    (more : List (Order Tag H V)) :
    settled tag held (orders ++ more) = more.filterMap (Order.created tag) := by
  rw [settled, List.append_eq_nil_iff, List.map_eq_nil_iff] at nothing
  rw [settled, nothing.1, List.filterMap_append, nothing.2]
  rfl

/-- The only value of a tag is changed by the orders that reach its handle. -/
theorem settled_append_of_singleton {tag : Tag}
    {held : List (Holding Tag H V)} {orders : List (Order Tag H V)} {value : V}
    (single : settled tag held orders = [value]) {handle : H}
    (label : (handle, tag) ∈ labels held) {more : List (Order Tag H V)}
    (creates : ∀ order ∈ more, order.created tag = none) :
    settled tag held (orders ++ more) =
      [more.foldl (Order.effect handle) value] := by
  rcases List.mem_map.mp label with ⟨holding, member, both⟩
  rw [Prod.mk.injEq] at both
  rcases both with ⟨rfl, rfl⟩
  have kept : holding ∈ held.filter fun other => other.tag = holding.tag :=
    List.mem_filter.mpr ⟨member, decide_eq_true rfl⟩
  have nothing : more.filterMap (Order.created holding.tag) = [] :=
    List.filterMap_eq_nil_iff.mpr creates
  rw [settled] at single ⊢
  rw [List.filterMap_append, nothing, List.append_nil]
  generalize held.filter (fun other => other.tag = holding.tag) = those
    at single kept ⊢
  cases those with
  | nil => cases kept
  | cons first rest =>
      rw [List.map_cons, List.cons_append, List.cons.injEq,
        List.append_eq_nil_iff, List.map_eq_nil_iff] at single
      rcases single with ⟨isValue, rfl, isNil⟩
      have same : holding = first := List.mem_singleton.mp kept
      subst same
      rw [isNil, List.map_singleton, List.append_nil, List.foldl_append,
        isValue]

end ChudMoney.Lib.Remote
