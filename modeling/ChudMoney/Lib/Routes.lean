import Mathlib.Data.List.Basic

/-!
# Dispatching a path

A route is a list of segments, each a fixed text or a capture.  A path is
matched segment by segment, a fixed text before a capture, and what a capture
took is handed on under its name.  Every route has a table of its methods.
-/

namespace ChudMoney.Lib.Routes

variable {Method Handler H : Type}

/-! ## Paths -/

/-- The parts between the slashes. -/
def splitPath : List Char → List (List Char)
  | [] => [[]]
  | c :: rest =>
      if c = '/' then [] :: splitPath rest
      else (splitPath rest).modifyHead (c :: ·)

/-- The segments of a path; a path starts with a slash. -/
def segments (path : String) : List String :=
  (splitPath path.toList).tail.map String.ofList

/-- A path of these segments. -/
def joined (parts : List String) : String :=
  String.ofList (parts.flatMap fun part => '/' :: part.toList)

/-- No empty part, and no slash in one. -/
def IsSegment (part : String) : Prop :=
  part ≠ "" ∧ '/' ∉ part.toList

theorem splitPath_append {part : List Char} (whole : '/' ∉ part)
    (rest : List Char) :
    splitPath (part ++ '/' :: rest) = part :: splitPath rest := by
  induction part with
  | nil => rfl
  | cons c part ih =>
      simp only [List.mem_cons, not_or] at whole
      rw [List.cons_append, splitPath, if_neg (Ne.symm whole.1), ih whole.2]
      rfl

theorem splitPath_eq_singleton {part : List Char} (whole : '/' ∉ part) :
    splitPath part = [part] := by
  induction part with
  | nil => rfl
  | cons c part ih =>
      simp only [List.mem_cons, not_or] at whole
      rw [splitPath, if_neg (Ne.symm whole.1), ih whole.2]
      rfl

/-- A path has the segments that it was joined from. -/
theorem segments_joined {parts : List String} (nonempty : parts ≠ [])
    (whole : ∀ part ∈ parts, IsSegment part) :
    segments (joined parts) = parts := by
  have split : ∀ parts : List String, parts ≠ [] →
      (∀ part ∈ parts, IsSegment part) →
      (splitPath (parts.flatMap fun part => '/' :: part.toList)).tail =
        parts.map String.toList := by
    intro parts nonempty whole
    induction parts with
    | nil => exact absurd rfl nonempty
    | cons first rest ih =>
        have slashless := (whole first (by simp)).2
        cases rest with
        | nil => simp [splitPath, splitPath_eq_singleton slashless]
        | cons second rest =>
            have more := ih (by simp)
              (fun part member => whole part (List.mem_cons_of_mem _ member))
            simp only [List.flatMap_cons, List.cons_append, splitPath,
              if_true, List.tail_cons] at more ⊢
            rw [splitPath_append slashless, more]
            rfl
  rw [segments, joined, String.toList_ofList, split parts nonempty whole,
    List.map_map]
  simp [Function.comp_def]

/-! ## Routes -/

inductive Segment where
  | fixed (text : String)
  | capture (name : String)
  deriving DecidableEq, Repr

/-- `{name}` is a capture, anything else a fixed text. -/
def Segment.parse (text : String) : Segment :=
  match text.toList with
  | '{' :: rest =>
      if rest.getLast? = some '}' then .capture (String.ofList rest.dropLast)
      else .fixed text
  | _ => .fixed text

/-- What is left to match of a route, and what it has captured. -/
structure Route (H : Type) where
  pattern : List Segment
  captures : List (String × String)
  handler : H

namespace Route

/-- Match a segment against a fixed text. -/
def fixed (segment : String) (route : Route H) : Option (Route H) :=
  match route.pattern with
  | .fixed text :: pattern =>
      if text = segment then some { route with pattern := pattern } else none
  | _ => none

/-- Match a segment against a capture, which takes it unless it is empty. -/
def captured (segment : String) (route : Route H) : Option (Route H) :=
  match route.pattern with
  | .capture name :: pattern =>
      if segment = "" then none
      else some {
        route with
        pattern := pattern
        captures := route.captures ++ [(name, segment)] }
  | _ => none

end Route

/-- The route that a path takes. -/
def find : List String → List (Route H) → Option (Route H)
  | [], routes => routes.find? fun route => route.pattern.isEmpty
  | segment :: path, routes =>
      (find path (routes.filterMap (Route.fixed segment))).or
        (find path (routes.filterMap (Route.captured segment)))

/-! ## Routers -/

/-- The method tables of the routes, in the order they were added. -/
abbrev Router (Method Handler : Type) : Type :=
  List (List Segment × List (Method × Handler))

/-- What becomes of a request. -/
inductive Dispatched (Handler : Type) where
  | handled (handler : Handler) (captures : List (String × String))
  | methodNotAllowed
  | notFound
  deriving DecidableEq, Repr

namespace Router

/-- `Router::new`. -/
def new : Router Method Handler :=
  []

/-- Add methods to the table of a path. -/
def add (pattern : List Segment) (table : List (Method × Handler)) :
    Router Method Handler → Router Method Handler
  | [] => [(pattern, table)]
  | entry :: router =>
      if entry.1 = pattern then (pattern, entry.2 ++ table) :: router
      else entry :: add pattern table router

/-- `Router::route`, with the methods that the path gets. -/
def route (router : Router Method Handler) (path : String)
    (table : List (Method × Handler)) : Router Method Handler :=
  router.add ((segments path).map Segment.parse) table

/-- `Router::merge`. -/
def merge (router other : Router Method Handler) : Router Method Handler :=
  other.foldl (fun router entry => router.add entry.1 entry.2) router

/-- The routes before any segment of a path is matched. -/
def routes (router : Router Method Handler) :
    List (Route (List (Method × Handler))) :=
  router.map fun entry => ⟨entry.1, [], entry.2⟩

/-- The method table of the route that a path takes decides. -/
def dispatch [BEq Method] (router : Router Method Handler) (method : Method)
    (path : String) : Dispatched Handler :=
  match find (segments path) router.routes with
  | none => .notFound
  | some found =>
      match found.handler.lookup method with
      | some handler => .handled handler found.captures
      | none => .methodNotAllowed

end Router

end ChudMoney.Lib.Routes
