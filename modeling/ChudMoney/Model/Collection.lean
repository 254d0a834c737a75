import ChudMoney.Model.Market
import Std.Data.ExtTreeMap

/-!
# The collection of market documents

Documents are identified by their tag, and the collection has a unique index
over it.  What the JSON schema finds wrong with a market is a parameter.

The operations on the collection are those that succeed.  Where requests change
documents, a call that fails is a step of its own.
-/

namespace ChudMoney.Model

/-- A document with a tag is written as it is and read back, so these remain. -/
inductive ModelError where
  | validation (errors : List String)
  | mongo (message : String)
  deriving DecidableEq, Repr

/-- What `Model::find` answers for a tag; the call may fail. -/
abbrev Find : Type := String → Except ModelError (Option Market)

/-- The stored documents, each under its own tag. -/
structure Collection where
  documents : Std.ExtTreeMap String Market
  keyed : ∀ (tag : String) (market : Market),
    documents[tag]? = some market → market.tag = tag

namespace Collection

def empty : Collection := ⟨∅, fun tag market stored => by simp at stored⟩

/-- `Model::all`. -/
def all (markets : Collection) : List Market :=
  markets.documents.toList.map Prod.snd

/-- `Model::find`, by tag. -/
def find (markets : Collection) (tag : String) : Option Market :=
  markets.documents[tag]?

/-- `replace_one` with `upsert: true`. -/
def replaceOne (markets : Collection) (market : Market) : Collection where
  documents := markets.documents.insert market.tag market
  keyed := by
    intro tag other stored
    rw [Std.ExtTreeMap.getElem?_insert] at stored
    split at stored
    next same =>
      cases stored
      simpa using same
    next => exact markets.keyed tag other stored

/-- `Model::upsert`; `validate` answers the errors of the schema. -/
def upsert (validate : Market → List String) (markets : Collection)
    (market : Market) : Except ModelError Collection :=
  match validate market with
  | [] => .ok (markets.replaceOne market)
  | errors => .error (.validation errors)

/-- `Model::delete`, by tag; also whether a document was removed. -/
def delete (markets : Collection) (tag : String) : Collection × Bool :=
  ({ documents := markets.documents.erase tag
     keyed := by
      intro other market stored
      rw [Std.ExtTreeMap.getElem?_erase] at stored
      split at stored
      · cases stored
      · exact markets.keyed other market stored },
    tag ∈ markets.documents)

theorem find_replaceOne (markets : Collection) (market : Market)
    (tag : String) :
    (markets.replaceOne market).find tag =
      if market.tag = tag then some market else markets.find tag := by
  rw [find, replaceOne, Std.ExtTreeMap.getElem?_insert]
  by_cases same : market.tag = tag
  · simp [same]
  · simp [same, find]

theorem find_delete (markets : Collection) (other tag : String) :
    (markets.delete other).1.find tag =
      if other = tag then none else markets.find tag := by
  rw [find, delete, Std.ExtTreeMap.getElem?_erase]
  by_cases same : other = tag
  · simp [same]
  · simp [same, find]

theorem tag_of_find {markets : Collection} {tag : String} {market : Market}
    (stored : markets.find tag = some market) : market.tag = tag :=
  markets.keyed tag market stored

end Collection

end ChudMoney.Model
