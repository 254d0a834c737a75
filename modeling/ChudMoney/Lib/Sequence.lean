import Mathlib.Data.List.Basic
import Mathlib.Data.List.Induction
import Mathlib.Logic.Function.Basic

/-!
# Gap-checked numberings

Each of several sources numbers its messages.  A receiver keeps one slot per
source with the last number it accepted from it and accepts a message whose
number is the successor of its source's slot, or whose source has no slot yet.

`Tracks` relates the slots to the messages accepted so far: from each source
they are numbered without a gap.
-/

namespace ChudMoney.Lib.Sequence

variable {Source : Type} [DecidableEq Source]

/-- The numbers `first, first + 1, …`. -/
def Consecutive (numbers : List Nat) : Prop :=
  ∃ first, numbers = List.range' first numbers.length

theorem consecutive_nil : Consecutive [] :=
  ⟨0, rfl⟩

theorem Consecutive.append_singleton {numbers : List Nat}
    (consecutive : Consecutive numbers) {number : Nat}
    (follows : ∀ last ∈ numbers.getLast?, number = last + 1) :
    Consecutive (numbers ++ [number]) := by
  rcases consecutive with ⟨first, same⟩
  rcases List.eq_nil_or_concat' numbers with rfl | ⟨before, last, rfl⟩
  · exact ⟨number, by simp⟩
  · refine ⟨first, ?_⟩
    have next := follows last (by simp)
    have size : (before ++ [last]).length = before.length + 1 := by simp
    rw [size, List.range'_concat] at same
    have ends : last = first + before.length := by
      have tails := List.append_inj_right' same rfl
      simpa using tails
    rw [List.length_append, size, List.length_singleton, List.range'_concat,
      List.range'_concat, ← same, next, ends]
    simp [Nat.add_assoc]

/-- The numbers of one source's messages. -/
def numbers (source : Source) (messages : List (Source × Nat)) : List Nat :=
  (messages.filter fun message => message.1 = source).map Prod.snd

theorem numbers_append (source : Source)
    (first second : List (Source × Nat)) :
    numbers source (first ++ second) =
      numbers source first ++ numbers source second := by
  simp [numbers]

/-- The slots of a receiver that accepted exactly these messages. -/
structure Tracks (slots : Source → Option Nat)
    (messages : List (Source × Nat)) : Prop where
  last : ∀ source, slots source = (numbers source messages).getLast?
  consecutive : ∀ source, Consecutive (numbers source messages)

theorem tracks_nil : Tracks (fun _ : Source => none) [] :=
  ⟨fun _ => rfl, fun _ => consecutive_nil⟩

/-- The slots after one more accepted message. -/
theorem Tracks.accept {slots : Source → Option Nat}
    {messages : List (Source × Nat)} (tracks : Tracks slots messages)
    {source : Source} {number : Nat}
    (follows : ∀ last ∈ slots source, number = last + 1) :
    Tracks (Function.update slots source (some number))
      (messages ++ [(source, number)]) := by
  constructor
  · intro other
    by_cases same : other = source
    · subst other
      simp [numbers]
    · have apart : ¬ source = other := Ne.symm same
      rw [Function.update_of_ne same, tracks.last, numbers_append]
      simp [numbers, apart]
  · intro other
    rw [numbers_append]
    by_cases same : other = source
    · subst other
      have accepted := (tracks.consecutive source).append_singleton
        (tracks.last source ▸ follows)
      simpa [numbers] using accepted
    · have apart : ¬ source = other := Ne.symm same
      have unchanged := tracks.consecutive other
      simpa [numbers, apart] using unchanged

end ChudMoney.Lib.Sequence
