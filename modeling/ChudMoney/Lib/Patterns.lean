import ChudMoney.Lib.Text
import Mathlib.Computability.RegularExpressions

/-!
# Patterns of texts

A pattern is written as characters and classes of characters, each of which may
be repeated, between an optional `^` and an optional `$`.  It is searched for
in a text: `^` matches only at the start of the text and `$` only at its end.
What stands between them denotes a regular expression.
-/

namespace ChudMoney.Lib.Patterns

open ChudMoney.Lib.Text
open RegularExpression

/-! ## Repeated classes -/

section Classes

variable {α : Type}

/-- One of some characters. -/
def oneOf (members : List α) : RegularExpression α :=
  members.foldr (fun c others => char c + others) 0

def oneOrMore (item : RegularExpression α) : RegularExpression α :=
  item * star item

def optional (item : RegularExpression α) : RegularExpression α :=
  1 + item

/-- From `least` to `most` times. -/
def between (least most : Nat) (item : RegularExpression α) :
    RegularExpression α :=
  item ^ least * optional item ^ (most - least)

variable {members : List α} {text : List α}

theorem mem_oneOf :
    text ∈ (oneOf members).matches' ↔ ∃ c ∈ members, text = [c] := by
  induction members with
  | nil => simp [oneOf]
  | cons c members ih =>
      rw [oneOf, List.foldr_cons, matches'_add, Language.mem_add]
      change text ∈ (char c).matches' ∨ text ∈ (oneOf members).matches' ↔ _
      rw [ih, List.exists_mem_cons_iff]
      rfl

theorem mem_pow_oneOf {count : Nat} :
    text ∈ (oneOf members ^ count).matches' ↔
      text.length = count ∧ ∀ c ∈ text, c ∈ members := by
  rw [matches'_pow]
  induction count generalizing text with
  | zero =>
      rw [pow_zero, Language.mem_one, List.length_eq_zero_iff]
      constructor
      · rintro rfl
        exact ⟨rfl, fun c member => absurd member List.not_mem_nil⟩
      · exact And.left
  | succ count ih =>
      rw [pow_succ', Language.mem_mul]
      constructor
      · rintro ⟨first, isFirst, rest, isRest, rfl⟩
        rcases mem_oneOf.mp isFirst with ⟨c, member, rfl⟩
        rcases ih.mp isRest with ⟨length, inside⟩
        refine ⟨congrArg Nat.succ length, ?_⟩
        exact List.forall_mem_cons.mpr ⟨member, inside⟩
      · rintro ⟨length, inside⟩
        cases text with
        | nil => cases length
        | cons c rest =>
            rcases List.forall_mem_cons.mp inside with ⟨member, inside⟩
            refine ⟨[c], mem_oneOf.mpr ⟨c, member, rfl⟩, rest, ?_, rfl⟩
            exact ih.mpr ⟨Nat.succ.inj length, inside⟩

theorem mem_star_oneOf :
    text ∈ (star (oneOf members)).matches' ↔ ∀ c ∈ text, c ∈ members := by
  rw [matches'_star, Language.kstar_eq_iSup_pow, Language.mem_iSup]
  constructor
  · rintro ⟨count, matched⟩
    rw [← matches'_pow] at matched
    exact (mem_pow_oneOf.mp matched).2
  · intro inside
    refine ⟨text.length, ?_⟩
    rw [← matches'_pow]
    exact mem_pow_oneOf.mpr ⟨rfl, inside⟩

theorem mem_oneOrMore_oneOf :
    text ∈ (oneOrMore (oneOf members)).matches' ↔
      text ≠ [] ∧ ∀ c ∈ text, c ∈ members := by
  rw [oneOrMore, matches'_mul, Language.mem_mul]
  constructor
  · rintro ⟨first, isFirst, rest, isRest, rfl⟩
    rcases mem_oneOf.mp isFirst with ⟨c, member, rfl⟩
    refine ⟨List.cons_ne_nil _ _, ?_⟩
    exact List.forall_mem_cons.mpr ⟨member, mem_star_oneOf.mp isRest⟩
  · rintro ⟨nonempty, inside⟩
    cases text with
    | nil => exact absurd rfl nonempty
    | cons c rest =>
        rcases List.forall_mem_cons.mp inside with ⟨member, inside⟩
        exact ⟨[c], mem_oneOf.mpr ⟨c, member, rfl⟩, rest,
          mem_star_oneOf.mpr inside, rfl⟩

theorem mem_pow_optional {count : Nat} :
    text ∈ (optional (oneOf members) ^ count).matches' ↔
      text.length ≤ count ∧ ∀ c ∈ text, c ∈ members := by
  rw [matches'_pow]
  induction count generalizing text with
  | zero =>
      rw [pow_zero, Language.mem_one, Nat.le_zero, List.length_eq_zero_iff]
      constructor
      · rintro rfl
        exact ⟨rfl, fun c member => absurd member List.not_mem_nil⟩
      · exact And.left
  | succ count ih =>
      rw [pow_succ', Language.mem_mul]
      constructor
      · rintro ⟨first, isFirst, rest, isRest, rfl⟩
        rcases ih.mp isRest with ⟨length, inside⟩
        rcases isFirst with isEmpty | isOne
        · cases isEmpty
          exact ⟨Nat.le_succ_of_le length, inside⟩
        · rcases mem_oneOf.mp isOne with ⟨c, member, rfl⟩
          refine ⟨Nat.succ_le_succ length, ?_⟩
          exact List.forall_mem_cons.mpr ⟨member, inside⟩
      · rintro ⟨length, inside⟩
        cases text with
        | nil =>
            refine ⟨[], Or.inl rfl, [], ?_, rfl⟩
            exact ih.mpr ⟨Nat.zero_le _, inside⟩
        | cons c rest =>
            rcases List.forall_mem_cons.mp inside with ⟨member, inside⟩
            refine ⟨[c], Or.inr (mem_oneOf.mpr ⟨c, member, rfl⟩), rest, ?_, rfl⟩
            exact ih.mpr ⟨Nat.le_of_succ_le_succ length, inside⟩

theorem mem_between_oneOf {least most : Nat} (le : least ≤ most) :
    text ∈ (between least most (oneOf members)).matches' ↔
      (least ≤ text.length ∧ text.length ≤ most) ∧
        ∀ c ∈ text, c ∈ members := by
  rw [between, matches'_mul, Language.mem_mul]
  constructor
  · rintro ⟨first, isFirst, rest, isRest, rfl⟩
    rcases mem_pow_oneOf.mp isFirst with ⟨length, inside⟩
    rcases mem_pow_optional.mp isRest with ⟨bound, insideRest⟩
    rw [List.length_append, length]
    refine ⟨⟨by omega, by omega⟩, ?_⟩
    exact List.forall_mem_append.mpr ⟨inside, insideRest⟩
  · rintro ⟨⟨enough, bound⟩, inside⟩
    refine ⟨text.take least, ?_, text.drop least, ?_,
      List.take_append_drop _ _⟩
    · apply mem_pow_oneOf.mpr
      refine ⟨List.length_take_of_le enough, ?_⟩
      exact fun c member => inside c (List.mem_of_mem_take member)
    · apply mem_pow_optional.mpr
      refine ⟨?_, fun c member => inside c (List.mem_of_mem_drop member)⟩
      rw [List.length_drop]
      omega

/-! ### One item and the items after it -/

variable {item items : RegularExpression α}

theorem mem_comp_one : text ∈ (item * 1).matches' ↔ text ∈ item.matches' := by
  rw [matches'_mul, matches'_epsilon, mul_one]

theorem mem_comp :
    text ∈ (item * items).matches' ↔
      ∃ first rest, text = first ++ rest ∧ first ∈ item.matches' ∧
        rest ∈ items.matches' := by
  rw [matches'_mul, Language.mem_mul]
  constructor
  · rintro ⟨first, isFirst, rest, isRest, rfl⟩
    exact ⟨first, rest, rfl, isFirst, isRest⟩
  · rintro ⟨first, rest, rfl, isFirst, isRest⟩
    exact ⟨first, isFirst, rest, isRest, rfl⟩

theorem mem_char_comp {c : α} :
    text ∈ (char c * items).matches' ↔
      ∃ rest, text = c :: rest ∧ rest ∈ items.matches' := by
  rw [mem_comp]
  constructor
  · rintro ⟨first, rest, rfl, rfl, isRest⟩
    exact ⟨rest, rfl, isRest⟩
  · rintro ⟨rest, rfl, isRest⟩
    exact ⟨[c], rest, rfl, rfl, isRest⟩

theorem mem_optional_comp :
    text ∈ (optional item * items).matches' ↔
      text ∈ items.matches' ∨ text ∈ (item * items).matches' := by
  rw [optional, mem_comp, mem_comp, matches'_add, matches'_epsilon]
  constructor
  · rintro ⟨first, rest, rfl, isFirst | isFirst, isRest⟩
    · cases isFirst
      exact Or.inl isRest
    · exact Or.inr ⟨first, rest, rfl, isFirst, isRest⟩
  · rintro (isRest | ⟨first, rest, rfl, isFirst, isRest⟩)
    · exact ⟨[], text, rfl, Or.inl rfl, isRest⟩
    · exact ⟨first, rest, rfl, Or.inr isFirst, isRest⟩

theorem mem_oneOf_comp :
    text ∈ (oneOf members * items).matches' ↔
      ∃ c rest, text = c :: rest ∧ c ∈ members ∧ rest ∈ items.matches' := by
  rw [mem_comp]
  constructor
  · rintro ⟨first, rest, rfl, isFirst, isRest⟩
    rcases mem_oneOf.mp isFirst with ⟨c, member, rfl⟩
    exact ⟨c, rest, rfl, member, isRest⟩
  · rintro ⟨c, rest, rfl, member, isRest⟩
    exact ⟨[c], rest, rfl, mem_oneOf.mpr ⟨c, member, rfl⟩, isRest⟩

end Classes

/-! ## Reading a pattern -/

/-- The characters from `low` to `high`. -/
def charRange (low high : Char) : List Char :=
  ((List.range' low.toNat (high.toNat + 1 - low.toNat)).filter
    fun n => decide n.isValidChar).map Char.ofNat

theorem char_le_iff {one two : Char} : one ≤ two ↔ one.toNat ≤ two.toNat := by
  rw [Char.le_def, UInt32.le_iff_toNat_le]
  rfl

theorem toNat_ofNat_of_valid {n : Nat} (valid : n.isValidChar) :
    (Char.ofNat n).toNat = n := by
  rw [Char.ofNat, dif_pos valid]
  rfl

theorem mem_charRange {low high c : Char} :
    c ∈ charRange low high ↔ low ≤ c ∧ c ≤ high := by
  rw [charRange, List.mem_map, char_le_iff, char_le_iff]
  constructor
  · rintro ⟨n, member, rfl⟩
    rw [List.mem_filter, List.mem_range'_1, decide_eq_true_eq] at member
    rcases member with ⟨bounds, valid⟩
    rw [toNat_ofNat_of_valid valid]
    omega
  · rintro ⟨lower, upper⟩
    refine ⟨c.toNat, ?_, Char.ofNat_toNat c⟩
    rw [List.mem_filter, List.mem_range'_1, decide_eq_true_eq]
    exact ⟨by omega, c.valid⟩

/-- The members of a class, up to its bracket. -/
def readClass : List Char → Option (List Char × List Char)
  | [] => none
  | ']' :: rest => some ([], rest)
  | '\\' :: _ => none
  | low :: '-' :: high :: rest =>
      if high = ']' then some ([low, '-'], rest)
      else
        (readClass rest).map fun (members, rest) =>
          (charRange low high ++ members, rest)
  | c :: rest =>
      (readClass rest).map fun (members, rest) => (c :: members, rest)

/-- Characters that do not stand for themselves. -/
def special : List Char :=
  ['^', '$', '\\', '.', '*', '+', '?', '(', ')', '[', ']', '{', '}', '|']

def readAtom : List Char → Option (RegularExpression Char × List Char)
  | '[' :: '^' :: _ => none
  | '[' :: rest =>
      (readClass rest).map fun (members, rest) => (oneOf members, rest)
  | c :: rest => if c ∈ special then none else some (char c, rest)
  | [] => none

def readNumber (digits : List Char) : Option Nat :=
  if digits.isEmpty || !digits.all Char.isDigit then none
  else some (digitsValue digits)

/-- How often the item before is repeated. -/
def readBounds (item : RegularExpression Char) :
    List Char → Option (RegularExpression Char × List Char)
  | '*' :: rest => some (star item, rest)
  | '+' :: rest => some (oneOrMore item, rest)
  | '?' :: rest => some (optional item, rest)
  | '{' :: rest => do
      let (bounds, rest) ← splitOnce '}' rest
      let (least, most) ← splitOnce ',' bounds
      return (between (← readNumber least) (← readNumber most) item, rest)
  | rest => some (item, rest)

/-- The items up to the end of the pattern, and whether it ends in `$`. -/
def readItems : Nat → List Char → Option (RegularExpression Char × Bool)
  | _, [] => some (1, false)
  | _, ['$'] => some (1, true)
  | 0, _ => none
  | fuel + 1, text => do
      let (atom, rest) ← readAtom text
      let (item, rest) ← readBounds atom rest
      let (items, toEnd) ← readItems fuel rest
      return (item * items, toEnd)

structure Pattern where
  fromStart : Bool
  body : RegularExpression Char
  toEnd : Bool

namespace Pattern

def ofText : List Char → Option Pattern
  | '^' :: rest =>
      (readItems rest.length rest).map fun (body, toEnd) => ⟨true, body, toEnd⟩
  | text =>
      (readItems text.length text).map fun (body, toEnd) => ⟨false, body, toEnd⟩

/-- A part of the text matches. -/
def Found (pattern : Pattern) (text : List Char) : Prop :=
  ∃ before part after, text = before ++ part ++ after ∧
    part ∈ pattern.body.matches' ∧
      (pattern.fromStart = true → before = []) ∧
        (pattern.toEnd = true → after = [])

/-- With both marks it is the whole text that matches. -/
theorem found_whole {body : RegularExpression Char} {text : List Char} :
    Found ⟨true, body, true⟩ text ↔ text ∈ body.matches' := by
  constructor
  · rintro ⟨before, part, after, rfl, matched, start, finish⟩
    rw [start rfl, finish rfl]
    simpa using matched
  · intro matched
    exact ⟨[], text, [], by simp, matched, fun _ => rfl, fun _ => rfl⟩

end Pattern

/-- The pattern is found in the text. -/
def Accepts (pattern text : String) : Prop :=
  ∃ read, Pattern.ofText pattern.toList = some read ∧ read.Found text.toList

/-- A pattern of the whole text is that text's regular expression. -/
theorem accepts_whole {pattern text : String} {body : RegularExpression Char}
    (isRead : Pattern.ofText pattern.toList = some ⟨true, body, true⟩) :
    Accepts pattern text ↔ text.toList ∈ body.matches' := by
  rw [← Pattern.found_whole]
  constructor
  · rintro ⟨read, isOther, found⟩
    rw [isRead] at isOther
    cases isOther
    exact found
  · intro found
    exact ⟨_, isRead, found⟩

theorem accepts_of_whole {pattern text : String}
    {body : RegularExpression Char}
    (isRead : Pattern.ofText pattern.toList = some ⟨true, body, true⟩)
    (matched : body.rmatch text.toList = true) : Accepts pattern text :=
  (accepts_whole isRead).mpr ((rmatch_iff_matches' body _).mp matched)

/-- A pattern of the start of a text, with the start that matches. -/
theorem accepts_of_start {pattern text : String} {start rest : List Char}
    {body : RegularExpression Char}
    (isRead : Pattern.ofText pattern.toList = some ⟨true, body, false⟩)
    (split : text.toList = start ++ rest) (matched : body.rmatch start = true) :
    Accepts pattern text := by
  refine ⟨_, isRead, [], start, rest, ?_, ?_, fun _ => rfl, ?_⟩
  · rw [split]
    rfl
  · exact (rmatch_iff_matches' body start).mp matched
  · intro finish
    cases finish

theorem accepts_start {pattern text : String} {body : RegularExpression Char}
    (isRead : Pattern.ofText pattern.toList = some ⟨true, body, false⟩) :
    Accepts pattern text ↔
      ∃ start, start <+: text.toList ∧ start ∈ body.matches' := by
  constructor
  · rintro ⟨read, isOther, before, part, after, split, matched, atStart, -⟩
    rw [isRead] at isOther
    cases isOther
    rw [atStart rfl] at split
    exact ⟨part, ⟨after, split.symm⟩, matched⟩
  · rintro ⟨start, ⟨after, split⟩, matched⟩
    exact accepts_of_start isRead split.symm
      ((rmatch_iff_matches' body start).mpr matched)

/-! ## Searching for a pattern -/

/-- Where a search looks: from each place on, for each part. -/
theorem Pattern.found_iff {pattern : Pattern} {text : List Char} :
    pattern.Found text ↔
      ∃ rest ∈ text.tails, (pattern.fromStart = true → rest = text) ∧
        ∃ part ∈ rest.inits, pattern.body.rmatch part = true ∧
          (pattern.toEnd = true → part = rest) := by
  constructor
  · rintro ⟨before, part, after, rfl, matched, start, finish⟩
    refine ⟨part ++ after, ?_, ?_, part, ?_, ?_, ?_⟩
    · rw [List.mem_tails, List.append_assoc]
      exact List.suffix_append before (part ++ after)
    · intro fromStart
      rw [start fromStart, List.nil_append]
    · exact (List.mem_inits _ _).mpr (List.prefix_append part after)
    · exact (rmatch_iff_matches' _ _).mpr matched
    · intro toEnd
      rw [finish toEnd, List.append_nil]
  · rintro ⟨rest, isRest, start, part, isPart, matched, finish⟩
    rcases (List.mem_tails _ _).mp isRest with ⟨before, rfl⟩
    rcases (List.mem_inits _ _).mp isPart with ⟨after, rfl⟩
    refine ⟨before, part, after, (List.append_assoc _ _ _).symm,
      (rmatch_iff_matches' _ _).mp matched, ?_, ?_⟩
    · intro fromStart
      exact List.self_eq_append_left.mp (start fromStart)
    · intro toEnd
      exact List.self_eq_append_right.mp (finish toEnd)

instance (pattern : Pattern) (text : List Char) :
    Decidable (pattern.Found text) :=
  decidable_of_iff _ Pattern.found_iff.symm

instance (pattern text : String) : Decidable (Accepts pattern text) :=
  decidable_of_iff
    (∃ read ∈ Pattern.ofText pattern.toList, read.Found text.toList) Iff.rfl

end ChudMoney.Lib.Patterns
