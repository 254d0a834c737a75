import ChudMoney.Model.Collection

/-!
# The application error type

The variants that the modelled handlers answer with.
-/

namespace ChudMoney

open ChudMoney.Model

inductive AppError where
  | badRequest (message : String)
  | notFound (message : String)
  | conflict (message : String)
  | tooManyRequests (message : String)
  | model (error : ModelError)
  deriving DecidableEq, Repr

/-- The HTTP status of the response. -/
def AppError.status : AppError → Nat
  | badRequest _ => 400
  | notFound _ => 404
  | conflict _ => 409
  | tooManyRequests _ => 429
  | model (.validation _) => 400
  | model (.mongo _) => 500

/-- A document that a handler cannot do without. -/
def findMarket (find : Find) (tag : String) : Except AppError Market :=
  match find tag with
  | .error e => .error (.model e)
  | .ok none => .error (.notFound ("market '" ++ tag ++ "'"))
  | .ok (some market) => .ok market

theorem find_of_findMarket {find : Find} {tag : String} {market : Market}
    (found : findMarket find tag = .ok market) :
    find tag = .ok (some market) := by
  rw [findMarket] at found
  split at found
  · cases found
  · cases found
  next document answer =>
    cases found
    exact answer

theorem findMarket_error {find : Find} {tag : String} {e : AppError}
    (failed : findMarket find tag = .error e) :
    (∃ message, e = .notFound message) ∨ ∃ cause, e = .model cause := by
  rw [findMarket] at failed
  split at failed
  · cases failed
    exact .inr ⟨_, rfl⟩
  · cases failed
    exact .inl ⟨_, rfl⟩
  · cases failed

end ChudMoney
