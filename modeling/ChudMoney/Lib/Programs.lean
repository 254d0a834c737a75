import Mathlib.Logic.Basic

/-!
# Programs that fail, panic or run out of fuel

A program takes a state to an outcome and a state; whatever the outcome is, the
state reached is kept.  `wp` is the weakest precondition of a postcondition on
all outcomes, and is computed along the program by its rules.
-/

namespace ChudMoney.Lib.Programs

/-- How a program ends; `pending` is a program that its fuel does not finish. -/
inductive Outcome (ε α : Type) where
  | ok (value : α)
  | error (e : ε)
  | panic
  | pending
  deriving DecidableEq, Repr

/-- A program over a state. -/
def Program (σ ε α : Type) : Type :=
  σ → Outcome ε α × σ

variable {σ ε α β : Type}

/-- Continue with the value of a program that ended well. -/
def Outcome.andThen (out : Outcome ε α × σ)
    (next : α → Program σ ε β) : Outcome ε β × σ :=
  match out with
  | (.ok value, state) => next value state
  | (.error e, state) => (.error e, state)
  | (.panic, state) => (.panic, state)
  | (.pending, state) => (.pending, state)

namespace Program

instance : Monad (Program σ ε) where
  pure value := fun state => (.ok value, state)
  bind program next := fun state => Outcome.andThen (program state) next

/-- What the state says. -/
def read (f : σ → α) : Program σ ε α :=
  fun state => (.ok (f state), state)

def modify (f : σ → σ) : Program σ ε Unit :=
  fun state => (.ok (), f state)

def throw (e : ε) : Program σ ε α :=
  fun state => (.error e, state)

def panic : Program σ ε α :=
  fun state => (.panic, state)

/-- The fuel ran out. -/
def pending : Program σ ε α :=
  fun state => (.pending, state)

/-- The program with its error as a value. -/
def attempt (program : Program σ ε α) : Program σ ε (Except ε α) :=
  fun state =>
    match program state with
    | (.ok value, state) => (.ok (.ok value), state)
    | (.error e, state) => (.ok (.error e), state)
    | (.panic, state) => (.panic, state)
    | (.pending, state) => (.pending, state)

/-! ## Running a program -/

section Run

variable (program : Program σ ε α) (next : α → Program σ ε β) (state : σ)

@[simp]
theorem andThen_ok (value : α) :
    Outcome.andThen (.ok value, state) next = next value state :=
  rfl

@[simp]
theorem andThen_error (e : ε) :
    Outcome.andThen (.error e, state) next = (.error e, state) :=
  rfl

@[simp]
theorem andThen_panic :
    Outcome.andThen (.panic, state) next = (.panic, state) :=
  rfl

@[simp]
theorem andThen_pending :
    Outcome.andThen (.pending, state) next = (.pending, state) :=
  rfl

@[simp]
theorem bind_apply :
    (program >>= next) state = Outcome.andThen (program state) next :=
  rfl

@[simp]
theorem pure_apply (value : α) :
    (pure value : Program σ ε α) state = (.ok value, state) :=
  rfl

@[simp]
theorem read_apply (f : σ → α) :
    (read f : Program σ ε α) state = (.ok (f state), state) :=
  rfl

@[simp]
theorem modify_apply (f : σ → σ) :
    (modify f : Program σ ε Unit) state = (.ok (), f state) :=
  rfl

@[simp]
theorem throw_apply (e : ε) :
    (throw e : Program σ ε α) state = (.error e, state) :=
  rfl

end Run

instance : LawfulMonad (Program σ ε) :=
  LawfulMonad.mk' _
    (by
      intro α program
      funext state
      show Outcome.andThen (program state) pure = program state
      rcases program state with ⟨out, after⟩
      cases out <;> rfl)
    (fun _ _ => rfl)
    (by
      intro α β γ program first last
      funext state
      show Outcome.andThen (Outcome.andThen (program state) first) last =
        Outcome.andThen (program state) _
      rcases program state with ⟨out, after⟩
      cases out <;> rfl)

/-! ## Weakest preconditions -/

/-- From this state the program ends in what `post` says. -/
def wp (program : Program σ ε α) (post : Outcome ε α → σ → Prop)
    (state : σ) : Prop :=
  post (program state).1 (program state).2

variable {program : Program σ ε α} {next : α → Program σ ε β}
variable {post weaker : Outcome ε α → σ → Prop}
variable {last : Outcome ε β → σ → Prop} {state : σ}

theorem wp_mono (holds : wp program post state)
    (weaken : ∀ out state, post out state → weaker out state) :
    wp program weaker state :=
  weaken _ _ holds

/-- What is required of the first part of a program. -/
def Continues (next : α → Program σ ε β) (last : Outcome ε β → σ → Prop) :
    Outcome ε α → σ → Prop
  | .ok value, state => wp (next value) last state
  | .error e, state => last (.error e) state
  | .panic, state => last .panic state
  | .pending, state => last .pending state

@[simp]
theorem wp_bind :
    wp (program >>= next) last state ↔
      wp program (Continues next last) state := by
  show last (Outcome.andThen (program state) next).1
    (Outcome.andThen (program state) next).2 ↔ _
  unfold wp
  rcases program state with ⟨out, state⟩
  cases out <;> rfl

@[simp]
theorem continues_ok (value : α) :
    Continues next last (.ok value) state ↔ wp (next value) last state :=
  Iff.rfl

@[simp]
theorem wp_pure (value : α) :
    wp (pure value : Program σ ε α) post state ↔ post (.ok value) state :=
  Iff.rfl

@[simp]
theorem wp_read (f : σ → α) :
    wp (read f : Program σ ε α) post state ↔ post (.ok (f state)) state :=
  Iff.rfl

@[simp]
theorem wp_modify (f : σ → σ) {post : Outcome ε Unit → σ → Prop} :
    wp (modify f) post state ↔ post (.ok ()) (f state) :=
  Iff.rfl

@[simp]
theorem wp_throw (e : ε) :
    wp (throw e : Program σ ε α) post state ↔ post (.error e) state :=
  Iff.rfl

@[simp]
theorem wp_panic : wp (panic : Program σ ε α) post state ↔ post .panic state :=
  Iff.rfl

@[simp]
theorem wp_pending :
    wp (pending : Program σ ε α) post state ↔ post .pending state :=
  Iff.rfl

/-- What is required of a program whose error becomes a value. -/
def Attempted (post : Outcome ε (Except ε α) → σ → Prop) :
    Outcome ε α → σ → Prop
  | .ok value, state => post (.ok (.ok value)) state
  | .error e, state => post (.ok (.error e)) state
  | .panic, state => post .panic state
  | .pending, state => post .pending state

@[simp]
theorem wp_attempt {post : Outcome ε (Except ε α) → σ → Prop} :
    wp program.attempt post state ↔ wp program (Attempted post) state := by
  unfold wp attempt
  rcases program state with ⟨out, state⟩
  cases out <;> rfl

/--
The program panics or runs out of fuel only if it may, and returns what `post`
says.
-/
def Ended (panics pends : Prop) (post : α → σ → Prop) :
    Outcome ε α → σ → Prop
  | .ok value, state => post value state
  | .error _, _ => True
  | .panic, _ => panics
  | .pending, _ => pends

/-- Nothing is said of a program that may end anyhow. -/
theorem ended_any (program : Program σ ε α) (state : σ) :
    wp program (Ended True True fun _ _ => True) state := by
  unfold wp
  cases (program state).1 <;> exact trivial

/-- A program ends when its first part does, and the rest from there. -/
theorem ended_bind {panics pends : Prop} {middle : α → σ → Prop}
    {post : β → σ → Prop}
    (first : wp program (Ended panics pends middle) state)
    (rest : ∀ value state, middle value state →
      wp (next value) (Ended panics pends post) state) :
    wp (program >>= next) (Ended panics pends post) state := by
  rw [wp_bind]
  apply wp_mono first
  intro out state ended
  cases out with
  | ok value => exact rest value state ended
  | error e => exact trivial
  | panic => exact ended
  | pending => exact ended

/-! ## What every part of a program keeps -/

/-- The program moves the state along a relation, whatever its outcome is. -/
def Moves (step : σ → σ → Prop) (program : Program σ ε α) : Prop :=
  ∀ state, step state (program state).2

variable {step : σ → σ → Prop}

theorem Moves.bind (transitive : ∀ a b c, step a b → step b c → step a c)
    (first : Moves step program) (rest : ∀ value, Moves step (next value)) :
    Moves step (program >>= next) := by
  intro state
  show step state (Outcome.andThen (program state) next).2
  have moved := first state
  revert moved
  rcases program state with ⟨out, middle⟩
  intro moved
  cases out with
  | ok value => exact transitive _ _ _ moved (rest value middle)
  | error e => exact moved
  | panic => exact moved
  | pending => exact moved

theorem Moves.attempt (moves : Moves step program) :
    Moves step program.attempt := by
  intro state
  have moved := moves state
  unfold Program.attempt
  revert moved
  rcases program state with ⟨out, middle⟩
  cases out <;> exact id

theorem Moves.stay (reflexive : ∀ state, step state state)
    {program : Program σ ε α} (stays : ∀ state, (program state).2 = state) :
    Moves step program := by
  intro state
  rw [stays]
  exact reflexive state

end Program

end ChudMoney.Lib.Programs
