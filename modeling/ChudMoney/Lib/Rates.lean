import Mathlib.Data.List.Chain
import Mathlib.Data.List.Induction

/-!
# Rates

How many times of a list lie in one window, from how far apart they are; and
the ticks of an interval, which are a period apart.

Times are natural numbers of any unit.
-/

namespace ChudMoney.Lib.Rates

/-! ## Windows -/

/-- The times that lie in a window, both of its ends included. -/
def inWindow (start span : Nat) (times : List Nat) : List Nat :=
  times.filter fun time => start ≤ time ∧ time ≤ start + span

/-- So many places later in the list, more time has passed than `span`. -/
def Apart (few span : Nat) (times : List Nat) : Prop :=
  ∀ (i first later : Nat), times[i]? = some first →
    times[i + few]? = some later → first + span < later

section Windows

variable {few span gap start time : Nat} {times part : List Nat}

theorem Apart.tail (apart : Apart few span (time :: times)) :
    Apart few span times := by
  intro i first later isFirst isLater
  refine apart (i + 1) first later isFirst ?_
  rw [Nat.add_right_comm]
  exact isLater

theorem inWindow_of_sublist (isPart : part.Sublist times) :
    (inWindow start span part).length ≤ (inWindow start span times).length :=
  (isPart.filter _).length_le

/-- Nothing is in the window from the first time on that is too late. -/
theorem inWindow_eq_nil (late : ∀ time ∈ times, start + span < time) :
    inWindow start span times = [] := by
  rw [inWindow, List.filter_eq_nil_iff]
  intro time member
  have after := late time member
  simp only [decide_eq_true_eq]
  omega

/-- No more than `few` times are in one window. -/
theorem length_inWindow_le (sorted : times.Pairwise (· ≤ ·))
    (apart : Apart few span times) (start : Nat) :
    (inWindow start span times).length ≤ few := by
  induction times with
  | nil => exact Nat.zero_le _
  | cons time times ih =>
      rcases List.pairwise_cons.mp sorted with ⟨-, sorted⟩
      by_cases inside : start ≤ time ∧ time ≤ start + span
      · cases few with
        | zero =>
            have never := apart 0 time time rfl rfl
            omega
        | succ few =>
            -- what comes `few` places after it is past the window
            have late : ∀ other ∈ times.drop few, start + span < other := by
              intro other member
              rcases List.mem_iff_getElem?.mp member with ⟨i, isOther⟩
              rw [List.getElem?_drop] at isOther
              rcases List.getElem?_eq_some_iff.mp isOther with ⟨bound, same⟩
              have short : few < times.length := by omega
              have first := apart 0 time times[few] rfl (by simp [short])
              have order : times[few] ≤ times[few + i] := by
                rcases Nat.eq_zero_or_pos i with rfl | positive
                · exact Nat.le_refl _
                · exact List.pairwise_iff_getElem.mp sorted few (few + i)
                    short bound (by omega)
              omega
            have split : inWindow start span times =
                inWindow start span (times.take few) := by
              conv_lhs => rw [← List.take_append_drop few times]
              rw [inWindow, List.filter_append]
              rw [show (times.drop few).filter _ = [] from
                inWindow_eq_nil late, List.append_nil]
              rfl
            have whole : inWindow start span (time :: times) =
                time :: inWindow start span times := by
              rw [inWindow, List.filter_cons_of_pos (by simpa using inside)]
              rfl
            have bound := List.length_filter_le
              (fun time => decide (start ≤ time ∧ time ≤ start + span))
              (times.take few)
            rw [whole, split, List.length_cons]
            rw [List.length_take] at bound
            show (List.filter _ _).length + 1 ≤ few + 1
            omega
      · have whole : inWindow start span (time :: times) =
            inWindow start span times := by
          rw [inWindow, List.filter_cons_of_neg (by simpa using inside)]
          rfl
        rw [whole]
        exact ih sorted apart.tail

/-! ## Gaps -/

/-- Each time comes at least `gap` after the one before, up to `slack`. -/
def Gapped (gap slack : Nat) (times : List Nat) : Prop :=
  times.IsChain fun first later => first + gap ≤ later + slack

theorem Gapped.concat {slack later : Nat} (gapped : Gapped gap slack times)
    (after : ∀ last ∈ times.getLast?, last + gap ≤ later + slack) :
    Gapped gap slack (times ++ [later]) := by
  apply List.IsChain.append gapped (List.isChain_singleton later)
  intro last isLast first isFirst
  cases isFirst
  exact after last isLast

theorem Gapped.sorted {slack : Nat} (gapped : Gapped gap slack times)
    (wide : slack ≤ gap) : times.Pairwise (· ≤ ·) := by
  apply List.isChain_iff_pairwise.mp
  exact gapped.imp fun first later after => by omega

theorem Gapped.apart {slack : Nat} (gapped : Gapped gap slack times)
    (few : Nat) (i first later : Nat) (isFirst : times[i]? = some first)
    (isLater : times[i + few]? = some later) :
    first + few * gap ≤ later + few * slack := by
  induction few generalizing later with
  | zero =>
      rw [Nat.add_zero, isFirst] at isLater
      cases isLater
      omega
  | succ few ih =>
      rcases List.getElem?_eq_some_iff.mp isLater with ⟨bound, same⟩
      have inside : i + few < times.length := by omega
      have before := ih times[i + few] (by simp [inside])
      have step := List.isChain_iff_getElem.mp gapped (i + few) bound
      have same : times[i + few + 1] = later := same
      rw [same] at step
      rw [Nat.succ_mul, Nat.succ_mul]
      omega

end Windows

/-! ## Intervals -/

/--
An interval that delays the ticks after one that is late.  A tick is late if
it is polled more than `slack` after its deadline.
-/
structure Interval where
  period : Nat
  deadline : Nat

namespace Interval

/-- The first tick is due at once. -/
def new (period now : Nat) : Interval := ⟨period, now⟩

def tick (slack : Nat) (interval : Interval) (now : Nat) : Option Interval :=
  if interval.deadline ≤ now then
    some { interval with
      deadline :=
        (if interval.deadline + slack < now then now else interval.deadline) +
          interval.period }
  else none

theorem tick_new (slack period now : Nat) :
    (new period now).tick slack now = some ⟨period, now + period⟩ := by
  have early : ¬ now + slack < now := by omega
  rw [tick, new, if_pos (Nat.le_refl now), if_neg early]

theorem tick_eq_some {slack now : Nat} {interval next : Interval}
    (ticked : interval.tick slack now = some next) :
    interval.deadline ≤ now ∧ next.period = interval.period ∧
      now + interval.period ≤ next.deadline + slack := by
  rw [tick] at ticked
  split at ticked
  next due =>
    cases ticked
    refine ⟨due, rfl, ?_⟩
    dsimp only
    split <;> omega
  next => cases ticked

end Interval

end ChudMoney.Lib.Rates
