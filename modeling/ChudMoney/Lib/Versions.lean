import ChudMoney.Lib.Programs
import Mathlib.Data.List.Basic
import Mathlib.Order.Defs.Unbundled

/-!
# What a program writes

A state holds a current value, and the versions of it that were written.  A
program grows them along a preorder when every version that it writes, and the
value that it leaves, follows all before it.
-/

namespace ChudMoney.Lib.Versions

open ChudMoney.Lib.Programs
open ChudMoney.Lib.Programs.Program

variable {σ V : Type}

/-- Where a state keeps a value and its versions. -/
structure Ledger (σ V : Type) where
  current : σ → V
  written : σ → List V

/-- From one state to another, versions are only written in order. -/
def Grows (ledger : Ledger σ V) (follows : V → V → Prop) (state next : σ) :
    Prop :=
  ∃ more, ledger.written next = ledger.written state ++ more ∧
    (ledger.current state :: (more ++ [ledger.current next])).Pairwise follows

variable {ledger : Ledger σ V} {follows weaker : V → V → Prop}
variable {state middle next : σ}

/-- Nothing is written, and the value that is left follows. -/
theorem grows_of_follows (same : ledger.written next = ledger.written state)
    (last : follows (ledger.current state) (ledger.current next)) :
    Grows ledger follows state next := by
  refine ⟨[], ?_, ?_⟩
  · rw [same, List.append_nil]
  · simpa using last

theorem Grows.refl [IsPreorder V follows] (state : σ) :
    Grows ledger follows state state :=
  grows_of_follows rfl (refl_of follows _)

/-- The current value is written. -/
theorem grows_of_written [IsPreorder V follows]
    (written : ledger.written next =
      ledger.written state ++ [ledger.current state])
    (same : ledger.current next = ledger.current state) :
    Grows ledger follows state next := by
  refine ⟨[ledger.current state], written, ?_⟩
  rw [same]
  simp [refl_of follows]

theorem Grows.last (grows : Grows ledger follows state next) :
    follows (ledger.current state) (ledger.current next) := by
  rcases grows with ⟨more, -, ordered⟩
  exact (List.pairwise_cons.mp ordered).1 _ (by simp)

theorem Grows.trans [IsPreorder V follows]
    (early : Grows ledger follows state middle)
    (late : Grows ledger follows middle next) :
    Grows ledger follows state next := by
  rcases early with ⟨first, written, before⟩
  rcases late with ⟨second, rest, after⟩
  refine ⟨first ++ second, ?_, ?_⟩
  · rw [rest, written, List.append_assoc]
  · rw [← List.cons_append, List.pairwise_append] at before
    rw [List.pairwise_cons] at after
    rw [List.append_assoc, ← List.cons_append, List.pairwise_append]
    refine ⟨before.1, after.2, ?_⟩
    intro old isOld new isNew
    exact trans_of follows (before.2.2 old isOld _ (List.mem_singleton_self _))
      (after.1 new isNew)

theorem Grows.mono (weaken : ∀ old new, follows old new → weaker old new)
    (grows : Grows ledger follows state next) :
    Grows ledger weaker state next := by
  rcases grows with ⟨more, written, ordered⟩
  exact ⟨more, written, ordered.imp fun {old new} => weaken old new⟩

section Programs

variable [IsPreorder V follows] {ε α β : Type}
variable {program : Program σ ε α} {rest : α → Program σ ε β}

/-- What the rest of a program writes follows what its first part wrote. -/
theorem grows_bind (first : Grows ledger follows state (program state).2)
    (later : ∀ value middle, program state = (.ok value, middle) →
      Grows ledger follows middle (rest value middle).2) :
    Grows ledger follows state ((program >>= rest) state).2 := by
  rw [bind_apply]
  rcases ran : program state with ⟨out, middle⟩
  rw [ran] at first
  cases out with
  | ok value => exact first.trans (later value middle ran)
  | error e => exact first
  | panic => exact first
  | pending => exact first

theorem moves_bind (first : Moves (Grows ledger follows) program)
    (later : ∀ value, Moves (Grows ledger follows) (rest value)) :
    Moves (Grows ledger follows) (program >>= rest) :=
  fun state => grows_bind (first state) fun value middle _ =>
    later value middle

end Programs

end ChudMoney.Lib.Versions
