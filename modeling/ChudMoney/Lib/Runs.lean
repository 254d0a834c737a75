import Mathlib.Data.List.Basic
import Mathlib.Logic.Basic

/-!
# Runs of a labelled step function

A component is a state, a type of labels and a step function that either
answers the next state or refuses the label.  A run follows a finite list of
labels; an interleaving of several parties is one list of labels of all of
them.

The rules below are the only inductions over runs in the development: an
invariant is preserved by every step, or a reference fold is simulated by
every step, under a guard that each step of the run meets in the state
before it.
-/

namespace ChudMoney.Lib.Runs

variable {State Label Ref : Type}

/-- Follow `labels` from `state`; `none` when some label is refused. -/
def run (step : State → Label → Option State)
    (state : State) : List Label → Option State
  | [] => some state
  | label :: labels => (step state label).bind (run step · labels)

/-- Every step along `labels` meets `guard` in the state before it. -/
def Guarded (step : State → Label → Option State)
    (guard : State → Label → Prop) : State → List Label → Prop
  | _, [] => True
  | state, label :: labels =>
      guard state label ∧
        ∀ next, step state label = some next →
          Guarded step guard next labels

/-- Whether a run is guarded can be computed when the guard can. -/
instance decidableGuarded (step : State → Label → Option State)
    (guard : State → Label → Prop)
    [∀ state label, Decidable (guard state label)] :
    ∀ state labels, Decidable (Guarded step guard state labels)
  | _, [] => isTrue trivial
  | state, label :: labels =>
      haveI := fun next => decidableGuarded step guard next labels
      inferInstanceAs (Decidable (guard state label ∧
        ∀ next ∈ step state label, Guarded step guard next labels))

variable {step : State → Label → Option State}
variable {guard : State → Label → Prop}

@[simp]
theorem run_nil (state : State) : run step state [] = some state :=
  rfl

@[simp]
theorem run_cons (state : State) (label : Label) (labels : List Label) :
    run step state (label :: labels) =
      (step state label).bind (run step · labels) :=
  rfl

theorem run_cons_eq_some {state final : State} {label : Label}
    {labels : List Label} :
    run step state (label :: labels) = some final ↔
      ∃ next, step state label = some next ∧
        run step next labels = some final := by
  simp [Option.bind_eq_some_iff]

theorem run_append (state : State) (first second : List Label) :
    run step state (first ++ second) =
      (run step state first).bind (run step · second) := by
  induction first generalizing state with
  | nil => rfl
  | cons label first ih =>
      rw [List.cons_append, run_cons, run_cons]
      cases step state label with
      | none => rfl
      | some next => exact ih next

theorem guarded_append {state : State} {first second : List Label}
    (guarded : Guarded step guard state (first ++ second)) :
    Guarded step guard state first := by
  induction first generalizing state with
  | nil => trivial
  | cons label labels ih =>
      exact ⟨guarded.1, fun next taken => ih (guarded.2 next taken)⟩

/-- The guarded steps of a run continue to be guarded after a first part. -/
theorem Guarded.drop {state middle : State} {first second : List Label}
    (guarded : Guarded step guard state (first ++ second))
    (reached : run step state first = some middle) :
    Guarded step guard middle second := by
  induction first generalizing state with
  | nil =>
      cases reached
      exact guarded
  | cons label labels ih =>
      rcases run_cons_eq_some.mp reached with ⟨next, taken, rest⟩
      exact ih (guarded.2 next taken) rest

/-- A guard that every step meets guards every run. -/
theorem guarded_of_forall (all : ∀ state label, guard state label)
    (state : State) (labels : List Label) :
    Guarded step guard state labels := by
  induction labels generalizing state with
  | nil => trivial
  | cons label labels ih =>
      exact ⟨all state label, fun next _ => ih next⟩

/--
Forward simulation of a reference fold: a relation kept by every guarded step
relates the ends of a guarded run to the fold of its labels.
-/
theorem simulation_of_guarded (relation : State → Ref → Prop)
    (refStep : Ref → Label → Ref)
    (keeps : ∀ state ref label next, relation state ref →
      guard state label → step state label = some next →
        relation next (refStep ref label))
    {state final : State} (ref : Ref) {labels : List Label}
    (start : relation state ref)
    (guarded : Guarded step guard state labels)
    (reached : run step state labels = some final) :
    relation final (labels.foldl refStep ref) := by
  induction labels generalizing state ref with
  | nil =>
      cases reached
      exact start
  | cons label labels ih =>
      rcases run_cons_eq_some.mp reached with ⟨next, taken, rest⟩
      exact
        ih _ (keeps state ref label next start guarded.1 taken)
          (guarded.2 next taken) rest

/-- A condition on the labels alone guards every run of them. -/
theorem guarded_of_forall_mem {condition : Label → Prop}
    {state : State} {labels : List Label}
    (all : ∀ label ∈ labels, condition label) :
    Guarded step (fun _ label => condition label) state labels := by
  induction labels generalizing state with
  | nil => trivial
  | cons label labels ih =>
      exact
        ⟨all label (by simp),
          fun _ _ => ih fun next member => all next (by simp [member])⟩

theorem Guarded.and {other : State → Label → Prop}
    {state : State} {labels : List Label}
    (first : Guarded step guard state labels)
    (second : Guarded step other state labels) :
    Guarded step (fun state label => guard state label ∧ other state label)
      state labels := by
  induction labels generalizing state with
  | nil => trivial
  | cons label labels ih =>
      exact
        ⟨⟨first.1, second.1⟩,
          fun next taken => ih (first.2 next taken) (second.2 next taken)⟩

/--
A relation between a state and the labels that led there, kept by every
guarded step, holds at the end of a guarded run.
-/
theorem history_of_guarded (relation : State → List Label → Prop)
    (keeps : ∀ state past label next, relation state past →
      guard state label → step state label = some next →
        relation next (past ++ [label]))
    {state final : State} {labels : List Label}
    (start : relation state [])
    (guarded : Guarded step guard state labels)
    (reached : run step state labels = some final) :
    relation final labels := by
  have simulated :=
    simulation_of_guarded relation (fun past label => past ++ [label])
      keeps [] start guarded reached
  have fold : ∀ (past rest : List Label),
      rest.foldl (fun past label => past ++ [label]) past = past ++ rest := by
    intro past rest
    induction rest generalizing past with
    | nil => simp
    | cons label rest ih => simp [ih]
  simpa [fold] using simulated

theorem invariant_of_guarded (invariant : State → Prop)
    (keeps : ∀ state label next, invariant state →
      guard state label → step state label = some next → invariant next)
    {state final : State} {labels : List Label}
    (start : invariant state)
    (guarded : Guarded step guard state labels)
    (reached : run step state labels = some final) :
    invariant final :=
  simulation_of_guarded
    (fun state (_ : Unit) => invariant state) (fun _ _ => ())
    (fun state _ label next holds guarded taken =>
      keeps state label next holds guarded taken)
    () start guarded reached

theorem invariant_of_run (invariant : State → Prop)
    (keeps : ∀ state label next, invariant state →
      step state label = some next → invariant next)
    {state final : State} {labels : List Label}
    (start : invariant state)
    (reached : run step state labels = some final) :
    invariant final := by
  have unguarded :
      Guarded step (fun _ _ => True) state labels :=
    guarded_of_forall (fun _ _ => trivial) state labels
  exact
    invariant_of_guarded invariant
      (fun state label next holds _ taken =>
        keeps state label next holds taken)
      start unguarded reached

/-! ## What the steps of a run show -/

/-- What is seen of each step, in order. -/
def observed {Seen : Type} (step : State → Label → Option State)
    (see : State → Label → List Seen) : State → List Label → List Seen
  | _, [] => []
  | state, label :: labels =>
      see state label ++
        (step state label).elim [] (observed step see · labels)

/-- What has been seen before a run, and then in it. -/
theorem observed_append_of_guarded {Seen : Type}
    {see : State → Label → List Seen}
    (relation : State → List Seen → Prop)
    (keeps : ∀ state past label next, relation state past →
      guard state label → step state label = some next →
        relation next (past ++ see state label))
    {state final : State} {past : List Seen} {labels : List Label}
    (start : relation state past)
    (guarded : Guarded step guard state labels)
    (reached : run step state labels = some final) :
    relation final (past ++ observed step see state labels) := by
  induction labels generalizing state past with
  | nil =>
      cases reached
      rw [observed, List.append_nil]
      exact start
  | cons label labels ih =>
      rcases run_cons_eq_some.mp reached with ⟨next, taken, rest⟩
      rw [observed, taken, Option.elim_some, ← List.append_assoc]
      exact ih (keeps state past label next start guarded.1 taken)
        (guarded.2 next taken) rest

/--
A relation between a state and what has been seen so far, kept by every
guarded step, holds at the end of a guarded run.
-/
theorem observed_of_guarded {Seen : Type}
    {see : State → Label → List Seen}
    (relation : State → List Seen → Prop)
    (keeps : ∀ state past label next, relation state past →
      guard state label → step state label = some next →
        relation next (past ++ see state label))
    {state final : State} {labels : List Label}
    (start : relation state [])
    (guarded : Guarded step guard state labels)
    (reached : run step state labels = some final) :
    relation final (observed step see state labels) :=
  observed_append_of_guarded relation keeps start guarded reached

end ChudMoney.Lib.Runs
