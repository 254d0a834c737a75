import ChudMoney.Controllers.Data
import ChudMoney.Lib.Permits
import ChudMoney.Lib.Runs

/-!
# How many exports run at once

An export takes one of the permits when its request is admitted, and keeps it
until its last event is sent, an error ends it or its client is gone.  A
request that is refused takes none.
-/

namespace ChudMoney.Controllers.Exports

open ChudMoney.Controllers.Data
open ChudMoney.Db.Export
open ChudMoney.Lib.Json
open ChudMoney.Lib.MachineInt
open ChudMoney.Lib.Permits
open ChudMoney.Lib.Runs
open ChudMoney.Model

variable {Text : Type}

/-- Where an admitted export is: what it waits for, or what it sends. -/
inductive Phase where
  | bounding
  | opening (range : Int64 × Int64)
  | streaming (range : Int64 × Int64)
  | ended
  deriving DecidableEq

structure Export where
  admitted : Admitted
  phase : Phase

/-- An export that has not ended holds its permit. -/
def Export.holds (running : Export) : Bool := running.phase ≠ .ended

/-- The free permits, and the exports admitted so far. -/
structure World where
  free : Nat
  exports : List Export

def World.start : World := ⟨dataStreams, []⟩

/-- An export is given another phase, and its permit back once it has ended. -/
def World.move (world : World) (i : Nat) (f : Phase → Option Phase) :
    Option World :=
  (world.exports[i]?).bind fun running =>
    if running.holds then
      (f running.phase).map fun phase =>
        ⟨world.free + (if phase = .ended then 1 else 0),
          world.exports.set i { running with phase := phase }⟩
    else none

/--
`stop` is the end of an export for any other reason than a failed query: its
last event is sent, or its client is gone.
-/
inductive Action where
  | request (find : Find) (request : Request)
  | bounds (i : Nat) (bounds : Except String (Option (Int64 × Int64)))
  | opened (i : Nat) (result : Except String Unit)
  | stop (i : Nat)

/-- One step of `stream` or of the events of some export. -/
def step (readers : Readers Text) (world : World) : Action → Option World
  | .request find request =>
      match accept readers find world.free request with
      | .error _ => some world
      | .ok admitted =>
          some ⟨world.free - 1, world.exports ++ [⟨admitted, .bounding⟩]⟩
  | .bounds i bounds =>
      (world.exports[i]?).bind fun running =>
        world.move i fun phase =>
          if phase = .bounding then
            match bounds with
            | .error _ => some .ended
            | .ok bounds =>
                match clip bounds running.admitted.start
                    running.admitted.end with
                | none => some .ended
                | some range => some (.opening range)
          else none
  | .opened i result =>
      world.move i fun phase =>
        match phase, result with
        | .opening _, .error _ => some .ended
        | .opening range, .ok () => some (.streaming range)
        | _, _ => none
  | .stop i => world.move i fun _ => some .ended

/-! ## Admission -/

variable {readers : Readers Text}

/-- What a request with no permit left for it is refused with. -/
def busy : AppError :=
  .tooManyRequests
    ("at most " ++ toString dataStreams ++ " data streams may run at once")

/-- Permits are looked at once all else has been checked. -/
theorem accept_eq (find : Find) (permits : Nat)
    (request : Request) :
    accept readers find permits request =
      (accept readers find 1 request).bind fun admitted =>
        if permits = 0 then .error busy else .ok admitted := by
  unfold accept
  cases findMarket find request.tag with
  | error e => rfl
  | ok market =>
      cases DataTable.parse request.table with
      | none => rfl
      | some table =>
          dsimp only [bind, Except.bind]
          cases tableKey request.tag market table with
          | error e => rfl
          | ok key =>
              cases parseRange readers request.range.start
                  request.range.end with
              | error e => rfl
              | ok bounds =>
                  by_cases none : permits = 0
                  · subst none
                    rfl
                  · simp only [none]
                    rfl

theorem parseBound_error {name : String} {text : Option String} {e : AppError}
    (failed : parseBound readers name text = .error e) :
    ∃ message, e = .badRequest message := by
  cases text with
  | none => cases failed
  | some text =>
      rw [parseBound] at failed
      split at failed
      · cases failed
      · cases failed
        exact ⟨_, rfl⟩

theorem parseRange_error {start «end» : Option String} {e : AppError}
    (failed : parseRange readers start «end» = .error e) :
    ∃ message, e = .badRequest message := by
  unfold parseRange at failed
  cases lower : parseBound readers "start" start with
  | error e =>
      rw [lower] at failed
      cases failed
      exact parseBound_error lower
  | ok lower' =>
      rw [lower] at failed
      cases upper : parseBound readers "end" «end» with
      | error e =>
          rw [upper] at failed
          cases failed
          exact parseBound_error upper
      | ok upper' =>
          rw [upper] at failed
          cases lower' with
          | none => cases failed
          | some s =>
              cases upper' with
              | none => cases failed
              | some e =>
                  by_cases inverted : e ≤ s
                  · simp only [bind, Except.bind, if_pos inverted] at failed
                    cases failed
                    exact ⟨_, rfl⟩
                  · simp only [bind, Except.bind, if_neg inverted] at failed
                    cases failed

theorem tableKey_error {tag : String} {market : Market} {table : DataTable}
    {e : AppError} (failed : tableKey tag market table = .error e) :
    ∃ message, e = .badRequest message := by
  rw [tableKey] at failed
  split at failed
  · cases failed
  · cases failed
  · split at failed
    · cases failed
    · cases failed
      exact ⟨_, rfl⟩

/-- With a permit to spare no request is refused for want of one. -/
theorem accept_ne_busy (find : Find) (request : Request) :
    accept readers find 1 request ≠ .error busy := by
  unfold accept
  cases found : findMarket find request.tag with
  | error e =>
      rcases findMarket_error found with ⟨message, rfl⟩ | ⟨cause, rfl⟩ <;>
        exact nofun
  | ok market =>
      cases DataTable.parse request.table with
      | none => exact nofun
      | some table =>
          dsimp only [bind, Except.bind]
          cases keyed : tableKey request.tag market table with
          | error e =>
              rcases tableKey_error keyed with ⟨message, rfl⟩
              exact nofun
          | ok key =>
              cases ranged : parseRange readers request.range.start
                  request.range.end with
              | error e =>
                  rcases parseRange_error ranged with ⟨message, rfl⟩
                  exact nofun
              | ok bounds => exact nofun

/-- A request is refused for want of a permit if it passes and none is free. -/
theorem accept_eq_busy_iff {find : Find} {permits : Nat}
    {request : Request} :
    accept readers find permits request = .error busy ↔
      (∃ admitted, accept readers find 1 request = .ok admitted) ∧
        permits = 0 := by
  rw [accept_eq]
  cases accepted : accept readers find 1 request with
  | error e =>
      have other : e ≠ busy := by
        rintro rfl
        exact accept_ne_busy find request accepted
      simp [Except.bind, other]
  | ok admitted =>
      by_cases none : permits = 0
      · simp [Except.bind, none]
      · simp [Except.bind, none]

/-! ## Permits -/

/-- A step of one export: where it was, where it is, and the permits left. -/
theorem move_eq_some {world next : World} {i : Nat} {f : Phase → Option Phase}
    (moved : world.move i f = some next) :
    ∃ before phase, world.exports[i]? = some before ∧ before.holds = true ∧
      next = ⟨world.free + (if phase = .ended then 1 else 0),
        world.exports.set i { before with phase := phase }⟩ := by
  rcases Option.bind_eq_some_iff.mp moved with ⟨before, isExport, moved⟩
  split at moved
  case isFalse => cases moved
  next holds =>
    rcases Option.map_eq_some_iff.mp moved with ⟨phase, -, rfl⟩
    exact ⟨before, phase, isExport, holds, rfl⟩

theorem conserved_move {world next : World} {i : Nat}
    {f : Phase → Option Phase}
    (conserved : Conserved Export.holds dataStreams world.free world.exports)
    (moved : world.move i f = some next) :
    Conserved Export.holds dataStreams next.free next.exports := by
  rcases move_eq_some moved with ⟨before, phase, isExport, holds, rfl⟩
  apply conserved.set isExport
  rw [held, held, holds, if_pos rfl, Export.holds]
  by_cases ended : phase = .ended
  · simp [ended]
  · simp [ended]

theorem conserved_step {world next : World} {action : Action}
    (conserved : Conserved Export.holds dataStreams world.free world.exports)
    (taken : step readers world action = some next) :
    Conserved Export.holds dataStreams next.free next.exports := by
  cases action with
  | request find request =>
      simp only [step] at taken
      split at taken
      · cases taken
        exact conserved
      next admitted accepted =>
        cases taken
        rcases accept_ok accepted with ⟨_, _, -, -, -, -, -, isFree⟩
        apply conserved.concat
        simp only [held, Export.holds]
        simp
        omega
  | bounds i bounds =>
      rcases Option.bind_eq_some_iff.mp taken with ⟨running, -, moved⟩
      exact conserved_move conserved moved
  | opened i result =>
      rw [step] at taken
      exact conserved_move conserved taken
  | stop i =>
      rw [step] at taken
      exact conserved_move conserved taken

/--
Over any interleaving of exports, at most two run at once, each permit is free
or held by an export that has not ended, and a request that passes every check
is refused with 429 exactly when two exports are running.
-/
theorem exports_limited (readers : Readers Text) (actions : List Action)
    (final : World)
    (reached : run (step readers) .start actions = some final) :
    final.free + final.exports.countP Export.holds = dataStreams ∧
      final.exports.countP Export.holds ≤ dataStreams ∧
      ∀ (find : Find) (request : Request),
        accept readers find final.free request = .error busy ↔
          (∃ admitted, accept readers find dataStreams request =
              .ok admitted) ∧
            final.exports.countP Export.holds = dataStreams := by
  have conserved :
      Conserved Export.holds dataStreams final.free final.exports :=
    invariant_of_run
      (fun world =>
        Conserved Export.holds dataStreams world.free world.exports)
      (fun _ _ _ conserved taken => conserved_step conserved taken)
      (conserved_nil Export.holds dataStreams) reached
  refine ⟨conserved, conserved.countP_le, ?_⟩
  intro find request
  have both : (∃ admitted, accept readers find dataStreams request =
      .ok admitted) ↔
        ∃ admitted, accept readers find 1 request = .ok admitted := by
    rw [accept_eq find dataStreams]
    cases accept readers find 1 request <;>
      simp [Except.bind, dataStreams]
  rw [accept_eq_busy_iff, both, conserved.free_eq_zero_iff]

/-- Two exports of a market, one of which is streaming. -/
def twoExports : List Action :=
  [.request (fun _ => .ok (some btc15m)) bookRequest,
    .bounds 0 (.ok (some (0, 60000000))),
    .request (fun _ => .ok (some btc15m)) bookRequest,
    .opened 0 (.ok ())]

theorem exports_limited_twoExports :
    ∃ final, run (step (.parsed : Readers Value)) .start twoExports =
        some final ∧
      accept (.parsed : Readers Value) (fun _ => .ok (some btc15m)) final.free
        bookRequest = .error busy := by
  have runs :
      (run (step (.parsed : Readers Value)) .start twoExports).map (fun final =>
        final.exports.countP Export.holds) = some dataStreams := by
    decide +kernel
  rcases Option.map_eq_some_iff.mp runs with ⟨final, reached, running⟩
  rcases exports_limited .parsed twoExports final reached with
    ⟨-, -, refused⟩
  exact ⟨final, reached, (refused _ bookRequest).mpr
    ⟨⟨bookAdmitted, rfl⟩, running⟩⟩

end ChudMoney.Controllers.Exports
