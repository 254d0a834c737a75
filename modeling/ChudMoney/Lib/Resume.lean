import Mathlib

/-!
# Resuming a listing from the last time seen

A listing in the order of time is delivered in several goes.  Each go lists
what is wanted from some time on and may stop anywhere; the next one starts at
the time of the last row delivered.  Rows of that one time may be delivered
twice, and no other: what was received is what was wanted and, besides, rows
of times that a go started at.
-/

namespace ChudMoney.Lib.Resume

variable {Row T : Type} [LinearOrder T] (time : Row → T)

/-- The rows from a time on; all of them if there is none to start at. -/
def onwards (rows : List Row) (place : Option T) : List Row :=
  place.elim rows fun start => rows.filter fun row => start ≤ time row

/-- Where the next go starts. -/
def resumeAt (place : Option T) (got : List Row) : Option T :=
  (got.getLast?.map time).or place

/-- One go: `got` was delivered of a listing in the order of time. -/
structure Delivered (wanted : List Row) (place : Option T)
    (got rest : List Row) : Prop where
  perm : (got ++ rest).Perm (onwards time wanted place)
  sorted : (got ++ rest).Pairwise fun first second => time first ≤ time second

/--
The rows received so far are some of those wanted, none later than the next
start, and rows of the times started at; the rest is not before that start.
-/
structure Covered (wanted : List Row) (place : Option T) (starts : List T)
    (received rest : List Row) : Prop where
  later : ∀ row ∈ rest, ∀ start ∈ place, start ≤ time row
  parts : ∃ done extra,
    wanted.Perm (done ++ rest) ∧ received.Perm (done ++ extra) ∧
      (∀ row ∈ done, ∃ start ∈ place, time row ≤ start) ∧
      ∀ row ∈ extra, row ∈ wanted ∧ time row ∈ starts

variable {time} {wanted : List Row} {place : Option T} {starts : List T}
variable {received got rest : List Row}

theorem covered_start : Covered time wanted none [] [] wanted := by
  constructor
  · simp
  · exact ⟨[], [], by simp⟩

theorem mem_onwards {row : Row} :
    row ∈ onwards time wanted place ↔
      row ∈ wanted ∧ ∀ start ∈ place, start ≤ time row := by
  cases place <;> simp [onwards]

/-- What is wanted is what lies before a time and what lies from it on. -/
theorem perm_onwards (wanted : List Row) (place : Option T) :
    wanted.Perm ((wanted.filter fun row => ∃ start ∈ place, time row < start) ++
      onwards time wanted place) := by
  cases place with
  | none => simp [onwards]
  | some start =>
      have cut := (List.filter_append_perm
        (fun row => decide (time row < start)) wanted).symm
      simpa [onwards, ← decide_not] using cut

theorem Delivered.le_last (delivered : Delivered time wanted place got rest)
    {last : Row} (isLast : got.getLast? = some last) :
    (∀ row ∈ got, time row ≤ time last) ∧
      ∀ row ∈ rest, time last ≤ time row := by
  rcases List.pairwise_append.mp delivered.sorted with ⟨inGot, -, across⟩
  have member := List.mem_of_getLast? isLast
  refine ⟨?_, fun row later => across last member row later⟩
  intro row earlier
  rw [List.getLast?_eq_some_iff] at isLast
  rcases isLast with ⟨before, rfl⟩
  rcases List.mem_append.mp earlier with inBefore | same
  · exact (List.pairwise_append.mp inGot).2.2 row inBefore last (by simp)
  · rw [List.mem_singleton.mp same]

/-- The rows before a start are not among those from it on. -/
theorem perm_before {done : List Row} (split : wanted.Perm (done ++ rest))
    (later : ∀ row ∈ rest, ∀ start ∈ place, start ≤ time row) :
    (onwards time wanted place).Perm (onwards time done place ++ rest) := by
  cases place with
  | none => exact split
  | some start =>
      have filtered := split.filter fun row => decide (start ≤ time row)
      rw [List.filter_append] at filtered
      have all : rest.filter (fun row => decide (start ≤ time row)) = rest := by
        apply List.filter_eq_self.mpr
        intro row member
        exact decide_eq_true (later row member start rfl)
      rw [all] at filtered
      exact filtered

theorem onwards_done {done : List Row}
    (earlier : ∀ row ∈ done, ∃ start ∈ place, time row ≤ start) :
    ∀ row ∈ onwards time done place, row ∈ done ∧ time row ∈ place.toList := by
  intro row member
  rcases mem_onwards.mp member with ⟨inDone, notBefore⟩
  rcases earlier row inDone with ⟨start, isStart, notAfter⟩
  have same : time row = start := le_antisymm notAfter (notBefore start isStart)
  exact ⟨inDone, same ▸ Option.mem_toList.mpr isStart⟩

theorem Delivered.le_resumeAt
    (delivered : Delivered time wanted place got rest) {row : Row}
    (member : row ∈ got) :
    ∃ start ∈ resumeAt time place got, time row ≤ start := by
  cases isLast : got.getLast? with
  | none => simp [List.getLast?_eq_none_iff.mp isLast] at member
  | some last =>
      refine ⟨time last, ?_, (delivered.le_last isLast).1 row member⟩
      simp [resumeAt, isLast]

theorem Delivered.start_le
    (delivered : Delivered time wanted place got rest) {row : Row}
    (member : row ∈ got ++ rest) : ∀ start ∈ place, start ≤ time row :=
  (mem_onwards.mp (delivered.perm.mem_iff.mp member)).2

/-- What is left is not before the next start. -/
theorem Delivered.resumeAt_le
    (delivered : Delivered time wanted place got rest) {row : Row}
    (member : row ∈ rest) :
    ∀ start ∈ resumeAt time place got, start ≤ time row := by
  intro start isStart
  cases isLast : got.getLast? with
  | none =>
      apply delivered.start_le (List.mem_append_right got member)
      simpa [resumeAt, isLast] using isStart
  | some last =>
      have same : time last = start := by simpa [resumeAt, isLast] using isStart
      exact same ▸ (delivered.le_last isLast).2 row member

/-- The next start is not before this one. -/
theorem Delivered.le_resume
    (delivered : Delivered time wanted place got rest) {start : T}
    (isStart : start ∈ place) :
    ∃ next ∈ resumeAt time place got, start ≤ next := by
  cases isLast : got.getLast? with
  | none => exact ⟨start, by simpa [resumeAt, isLast] using isStart, le_rfl⟩
  | some last =>
      have member := List.mem_of_getLast? isLast
      refine ⟨time last, by simp [resumeAt, isLast], ?_⟩
      exact delivered.start_le (List.mem_append_left rest member) start isStart

/-- One go keeps what is covered, whatever it delivers. -/
theorem Covered.next {before : List Row}
    (covered : Covered time wanted place starts received before)
    (delivered : Delivered time wanted place got rest) :
    Covered time wanted (resumeAt time place got) (starts ++ place.toList)
      (received ++ got) rest := by
  rcases covered.parts with ⟨done, extra, split, parts, earlier, again⟩
  have cut := @perm_onwards _ _ _ time done place
  have listed := delivered.perm.trans (perm_before split covered.later)
  refine ⟨fun row member => delivered.resumeAt_le member,
    done.filter (fun row => ∃ start ∈ place, time row < start) ++ got,
    onwards time done place ++ extra, ?_, ?_, ?_, ?_⟩
  · apply split.trans
    apply (cut.append_right before).trans
    rw [List.append_assoc, List.append_assoc]
    exact listed.symm.append_left _
  · apply (parts.append_right got).trans
    apply ((cut.append_right extra).append_right got).trans
    simp only [List.append_assoc]
    apply List.Perm.append_left
    rw [← List.append_assoc]
    exact List.perm_append_comm
  · intro row member
    rcases List.mem_append.mp member with old | new
    · have inDone := List.mem_of_mem_filter old
      rcases earlier row inDone with ⟨start, isStart, notAfter⟩
      rcases delivered.le_resume isStart with ⟨next, isNext, le⟩
      exact ⟨next, isNext, notAfter.trans le⟩
    · exact delivered.le_resumeAt new
  · intro row member
    rcases List.mem_append.mp member with new | old
    · rcases onwards_done earlier row new with ⟨inDone, atStart⟩
      refine ⟨split.mem_iff.mpr (List.mem_append_left _ inDone), ?_⟩
      exact List.mem_append_right _ atStart
    · exact (again row old).imp_right (List.mem_append_left _)

/-- A go that delivers nothing may start anywhere. -/
theorem Covered.refused
    (covered : Covered time wanted place starts received rest)
    (more : List T) :
    Covered time wanted place (starts ++ more) received rest := by
  rcases covered.parts with ⟨done, extra, split, parts, earlier, again⟩
  refine ⟨covered.later, done, extra, split, parts, earlier, ?_⟩
  intro row member
  exact (again row member).imp_right (List.mem_append_left more)

/-- When nothing is left, all that was wanted was received. -/
theorem Covered.finished
    (covered : Covered time wanted place starts received []) :
    ∃ extra, received.Perm (wanted ++ extra) ∧
      ∀ row ∈ extra, row ∈ wanted ∧ time row ∈ starts := by
  rcases covered.parts with ⟨done, extra, split, parts, -, again⟩
  rw [List.append_nil] at split
  exact ⟨extra, parts.trans (split.symm.append_right extra), again⟩

end ChudMoney.Lib.Resume
