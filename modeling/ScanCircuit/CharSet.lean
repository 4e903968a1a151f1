import ScanCircuit.Text.Quoted

/-!
# Character sets

A finite set of characters, kept as a list that is strictly ascending by code
point. Every walk over a set therefore visits its characters in one order, and
two sets with the same members are the same list.
-/

namespace ScanCircuit

/-- A finite set of characters in strictly ascending order. -/
structure CharSet where
  /-- The characters of the set, ascending. -/
  toList : List Char
  ascending : toList.Pairwise (· < ·) := by decide
  deriving DecidableEq, Repr

namespace CharSet

/-- A set is determined by its list of characters. -/
@[ext] theorem ext {left right : CharSet} (equal : left.toList = right.toList) : left = right := by
  cases left; cases right; cases equal; rfl

/-- The set without characters. -/
def empty : CharSet := { toList := [] }

/-- Put a character in its place in an ascending list, unless it is there. -/
def place (char : Char) : List Char → List Char
  | [] => [char]
  | first :: rest =>
      if char < first then char :: first :: rest
      else if char = first then first :: rest
      else first :: place char rest

theorem mem_place {char member : Char} {chars : List Char} :
    member ∈ place char chars ↔ member = char ∨ member ∈ chars := by
  induction chars with
  | nil => simp [place]
  | cons first rest ih =>
      simp only [place]
      split
      · simp
      · split
        · next equal => subst equal; simp
        · simp only [List.mem_cons, ih]
          constructor
          · rintro (h | h | h) <;> simp [h]
          · rintro (h | h | h) <;> simp [h]

theorem ascending_place (char : Char) {chars : List Char}
    (ascending : chars.Pairwise (· < ·)) : (place char chars).Pairwise (· < ·) := by
  induction chars with
  | nil => simp [place]
  | cons first rest ih =>
      have above := (List.pairwise_cons.1 ascending).1
      have tail := (List.pairwise_cons.1 ascending).2
      simp only [place]
      split
      · next before =>
          refine List.pairwise_cons.2 ⟨?_, ascending⟩
          intro member found
          rcases List.mem_cons.1 found with equal | found
          · exact equal ▸ before
          · exact Char.lt_trans before (above member found)
      · next notBefore =>
          split
          · exact ascending
          · next different =>
              refine List.pairwise_cons.2 ⟨?_, ih tail⟩
              intro member found
              rcases mem_place.1 found with equal | found
              · subst equal
                exact Char.not_le.1 fun le =>
                  different (Char.le_antisymm le (Char.not_lt.1 notBefore))
              · exact above member found

/-- The set with one character added. -/
def insert (set : CharSet) (char : Char) : CharSet where
  toList := place char set.toList
  ascending := ascending_place char set.ascending

/-- The set of the characters of a list, in any order and with any repetition. -/
def ofList (chars : List Char) : CharSet :=
  chars.foldl insert empty

/-- The set of the characters of a text. -/
def ofString (text : String) : CharSet :=
  ofList text.toList

instance : Membership Char CharSet where
  mem set char := char ∈ set.toList

theorem mem_iff {set : CharSet} {char : Char} : char ∈ set ↔ char ∈ set.toList := Iff.rfl

instance (char : Char) (set : CharSet) : Decidable (char ∈ set) :=
  inferInstanceAs (Decidable (char ∈ set.toList))

/-- Whether a character is in the set. -/
def contains (set : CharSet) (char : Char) : Bool :=
  set.toList.contains char

/-- The number of characters. -/
def size (set : CharSet) : Nat :=
  set.toList.length

/-- Whether the set has no characters. -/
def isEmpty (set : CharSet) : Bool :=
  set.toList.isEmpty

/-- Add a character, and tell whether it is new. -/
def insertNew (set : CharSet) (char : Char) : Bool × CharSet :=
  (!set.contains char, set.insert char)

/-- Whether every character of the second set is in the first. -/
def containsAll (set other : CharSet) : Bool :=
  other.toList.all set.contains

/-- The characters of the first set that are not in the second. -/
def removeAll (set other : CharSet) : CharSet where
  toList := set.toList.filter fun char => !other.contains char
  ascending := set.ascending.sublist List.filter_sublist

/-- The set between square brackets, each character quoted. -/
def display (set : CharSet) : String :=
  Text.bracketed (set.toList.map Text.quoteChar)

@[simp] theorem not_mem_empty (char : Char) : char ∉ empty := by
  simp [mem_iff, empty]

@[simp] theorem mem_insert {set : CharSet} {char member : Char} :
    member ∈ set.insert char ↔ member = char ∨ member ∈ set :=
  mem_place

theorem mem_foldl_insert (chars : List Char) (set : CharSet) {char : Char} :
    char ∈ chars.foldl insert set ↔ char ∈ chars ∨ char ∈ set := by
  induction chars generalizing set with
  | nil => simp
  | cons first rest ih =>
      rw [List.foldl_cons, ih, mem_insert, List.mem_cons, or_left_comm, or_assoc]

theorem mem_ofList {chars : List Char} {char : Char} :
    char ∈ ofList chars ↔ char ∈ chars := by
  simp [ofList, mem_foldl_insert]

@[simp] theorem contains_eq_true {set : CharSet} {char : Char} :
    set.contains char = true ↔ char ∈ set := by
  simp [contains, mem_iff]

@[simp] theorem mem_removeAll {set other : CharSet} {member : Char} :
    member ∈ set.removeAll other ↔ member ∈ set ∧ member ∉ other := by
  simp [mem_iff, removeAll, contains]

@[simp] theorem containsAll_eq_true {set other : CharSet} :
    set.containsAll other = true ↔ ∀ char ∈ other, char ∈ set := by
  simp [containsAll, mem_iff, contains]

end CharSet

end ScanCircuit
