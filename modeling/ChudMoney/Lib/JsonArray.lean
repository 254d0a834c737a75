import Mathlib.Data.List.Basic
import Mathlib.Logic.Basic

/-!
# The text of a JSON array and its elements

A scanner follows a JSON text character by character and knows how many
brackets are open and whether it is inside a string.  A text is an element at
some depth when the scanner comes back to that depth only at its end and meets
no separator there, so that an array written from such elements can be cut
into them again.  The array is itself an element one level up.
-/

namespace ChudMoney.Lib.JsonArray

/-- Where in a text the scanner is, and how many brackets are open there. -/
inductive Place where
  | plain (depth : Nat)
  | quoted (depth : Nat)
  | escaped (depth : Nat)
  deriving DecidableEq

namespace Place

def depth : Place → Nat
  | plain depth => depth
  | quoted depth => depth
  | escaped depth => depth

def next : Place → Char → Place
  | plain depth, c =>
      if c = '"' then quoted depth
      else if c = '[' ∨ c = '{' then plain (depth + 1)
      else if c = ']' ∨ c = '}' then plain (depth - 1)
      else plain depth
  | quoted depth, c =>
      if c = '\\' then escaped depth
      else if c = '"' then plain depth
      else quoted depth
  | escaped depth, _ => quoted depth

end Place

/-- A character that ends an element, at the depth of the element. -/
def Ends (c : Char) : Prop :=
  c = ',' ∨ c = ']' ∨ c = '}'

instance (c : Char) : Decidable (Ends c) :=
  inferInstanceAs (Decidable (_ ∨ _))

/--
From a place on, a text meets no end of an element at `depth` before its own
end, and leaves the scanner there.
-/
def Element (depth : Nat) : Place → List Char → Prop
  | place, [] => place = .plain depth
  | place, c :: rest =>
      ¬ (place = .plain depth ∧ Ends c) ∧ Element depth (place.next c) rest

instance decidableElement (depth : Nat) :
    ∀ place text, Decidable (Element depth place text)
  | _, [] => inferInstanceAs (Decidable (_ = _))
  | place, c :: rest =>
      haveI := decidableElement depth (place.next c) rest
      inferInstanceAs (Decidable (¬ (_ ∧ _) ∧ _))

/-- The text of one element of an array that is open `depth` brackets deep. -/
structure IsElement (depth : Nat) (text : String) : Prop where
  nonempty : text ≠ ""
  element : Element depth (.plain depth) text.toList

instance (depth : Nat) (text : String) : Decidable (IsElement depth text) :=
  decidable_of_iff
    (text ≠ "" ∧ Element depth (.plain depth) text.toList)
    ⟨fun both => ⟨both.1, both.2⟩,
      fun element => ⟨element.nonempty, element.element⟩⟩

/-- An array text that is not closed yet. -/
def openText (items : List String) : String :=
  "[" ++ ",".intercalate items

/-- The text of an array with these elements. -/
def arrayText (items : List String) : String :=
  openText items ++ "]"

/-- Cut the text behind an opening bracket into the elements it holds. -/
def splitItems : Place → List Char → List Char → Option (List (List Char))
  | _, _, [] => none
  | place, item, c :: rest =>
      if place = .plain 0 ∧ c = ',' then
        (splitItems (.plain 0) [] rest).map fun items => item :: items
      else if place = .plain 0 ∧ c = ']' then
        if rest = [] then some [item] else none
      else splitItems (place.next c) (item ++ [c]) rest

/-- The elements of an array text. -/
def readArray (text : String) : Option (List String) :=
  match text.toList with
  | '[' :: rest =>
      if rest = [']'] then some []
      else (splitItems (.plain 0) [] rest).map fun items =>
        items.map String.ofList
  | _ => none

/-! ## Building an array -/

@[simp]
theorem openText_nil : openText [] = "[" :=
  rfl

theorem openText_singleton (item : String) : openText [item] = "[" ++ item := by
  rw [openText, String.intercalate_singleton]

theorem openText_concat {items : List String} (nonempty : items ≠ [])
    (item : String) :
    openText (items ++ [item]) = openText items ++ "," ++ item := by
  rw [openText, openText,
    String.intercalate_append_of_ne_nil nonempty (List.cons_ne_nil _ _),
    String.intercalate_singleton]
  simp [String.append_assoc]

theorem intercalate_ne_empty {items : List String} (nonempty : items ≠ [])
    (elements : ∀ item ∈ items, item ≠ "") : ",".intercalate items ≠ "" := by
  cases items with
  | nil => exact absurd rfl nonempty
  | cons item later =>
      have some_ := elements item (by simp)
      cases later with
      | nil => simpa using some_
      | cons next later => simp [some_]

/-! ## Reading it back -/

/-- What an element adds is held until the scanner is back at the start. -/
theorem splitItems_append {place : Place} {text : List Char}
    (element : Element 0 place text) (item rest : List Char) :
    splitItems place item (text ++ rest) =
      splitItems (.plain 0) (item ++ text) rest := by
  induction text generalizing place item with
  | nil =>
      cases element
      simp
  | cons c text ih =>
      have inside : ∀ stop, Ends stop → ¬ (place = .plain 0 ∧ c = stop) := by
        rintro stop ends ⟨atZero, rfl⟩
        exact element.1 ⟨atZero, ends⟩
      rw [List.cons_append, splitItems, if_neg (inside ',' (by decide)),
        if_neg (inside ']' (by decide)), ih element.2]
      simp

/-- Elements written one after the other are cut apart again. -/
theorem splitItems_intercalate {items : List String} (nonempty : items ≠ [])
    (elements : ∀ item ∈ items, IsElement 0 item) :
    splitItems (.plain 0) [] ((",".intercalate items).toList ++ [']']) =
      some (items.map String.toList) := by
  induction items with
  | nil => exact absurd rfl nonempty
  | cons item items ih =>
      have first := (elements item (by simp)).element
      cases items with
      | nil =>
          rw [String.intercalate_singleton, splitItems_append first]
          simp [splitItems]
      | cons next later =>
          have rest := ih (List.cons_ne_nil _ _)
            (fun other member => elements other (List.mem_cons_of_mem _ member))
          rw [String.intercalate_cons_cons]
          simp only [String.toList_append, List.append_assoc]
          rw [splitItems_append first]
          show splitItems (.plain 0) item.toList
            (',' :: ((",".intercalate (next :: later)).toList ++ [']'])) = _
          rw [splitItems, if_pos ⟨rfl, rfl⟩, rest]
          rfl

/-- An array written from elements holds just these elements. -/
theorem readArray_arrayText {items : List String}
    (elements : ∀ item ∈ items, IsElement 0 item) :
    readArray (arrayText items) = some items := by
  have text : (arrayText items).toList =
      '[' :: ((",".intercalate items).toList ++ [']']) := by
    simp [arrayText, openText]
  rw [readArray, text]
  by_cases nonempty : items = []
  · subst nonempty
    rfl
  · have filled : (",".intercalate items).toList ++ [']'] ≠ [']'] := by
      intro bare
      have blank : (",".intercalate items).toList = [] := by simpa using bare
      exact intercalate_ne_empty nonempty
        (fun item member => (elements item member).nonempty)
        (String.toList_eq_nil_iff.mp blank)
    simp only [if_neg filled]
    rw [splitItems_intercalate nonempty elements]
    simp

/-! ## Arrays in arrays -/

/-- An element one level down is passed without coming up to this level. -/
theorem element_deeper {depth : Nat} {place : Place} {text : List Char}
    (element : Element (depth + 1) place text)
    (deep : depth + 1 ≤ place.depth) (rest : List Char) :
    Element depth place (text ++ rest) ↔
      Element depth (.plain (depth + 1)) rest := by
  induction text generalizing place with
  | nil =>
      cases element
      rfl
  | cons c text ih =>
      have above : ¬ (place = .plain depth ∧ Ends c) := by
        rintro ⟨rfl, -⟩
        exact absurd deep (by simp [Place.depth])
      have stays : depth + 1 ≤ (place.next c).depth := by
        cases place with
        | quoted level =>
            simp only [Place.next]
            split
            · exact deep
            · split <;> exact deep
        | escaped level => exact deep
        | plain level =>
            simp only [Place.next]
            split
            · exact deep
            · split
              · exact Nat.le_succ_of_le deep
              · split
                next closes =>
                  have higher : level ≠ depth + 1 := by
                    rintro rfl
                    exact element.1 ⟨rfl, Or.inr closes⟩
                  simp only [Place.depth] at deep ⊢
                  omega
                next => exact deep
      rw [List.cons_append, Element, ih element.2 stays]
      exact and_iff_right above

/-- The items of an array are passed without coming up to its level. -/
theorem element_items {depth : Nat} {items : List String}
    (elements : ∀ item ∈ items, IsElement (depth + 1) item)
    (rest : List Char) :
    Element depth (.plain (depth + 1))
        ((",".intercalate items).toList ++ rest) ↔
      Element depth (.plain (depth + 1)) rest := by
  induction items with
  | nil => simp
  | cons item items ih =>
      have first := (elements item (by simp)).element
      have later := ih fun other member =>
        elements other (List.mem_cons_of_mem _ member)
      cases items with
      | nil =>
          rw [String.intercalate_singleton]
          exact element_deeper first (Nat.le_refl _) rest
      | cons next others =>
          rw [String.intercalate_cons_cons]
          simp only [String.toList_append, List.append_assoc]
          rw [element_deeper first (Nat.le_refl _)]
          show ¬ (_ ∧ Ends ',') ∧ Element depth (.plain (depth + 1))
            ((",".intercalate (next :: others)).toList ++ rest) ↔ _
          rw [later]
          simp

/-- An array of elements is an element of the array around it. -/
theorem isElement_arrayText {depth : Nat} {items : List String}
    (elements : ∀ item ∈ items, IsElement (depth + 1) item) :
    IsElement depth (arrayText items) := by
  constructor
  · simp [arrayText, openText]
  · have text : (arrayText items).toList =
        '[' :: ((",".intercalate items).toList ++ [']']) := by
      simp [arrayText, openText]
    rw [text]
    refine ⟨by simp [Ends], ?_⟩
    show Element depth (.plain (depth + 1)) _
    rw [element_items elements]
    exact ⟨by simp, rfl⟩

end ChudMoney.Lib.JsonArray
