import Mathlib.Data.Char
import Mathlib.Data.Finset.Sort
import ScanCircuit.Proofs.Planning

/-!
# Character sets as finite sets

Sets that are built from texts and then changed, asked and compared in any order behave
as the finite sets of their characters.

A run over numbered sets is defined once for all kinds of sets.  A view of one kind as
another that commutes with every operation carries whole runs over, replies included.
`CharSet.toFinset` is such a view: it forgets the order of a set, and nothing else,
because the ascending list of a set is found again by sorting its members.
-/

namespace ScanCircuit

/-! ## The members of a set -/

namespace CharSet

variable {set other : CharSet} {char : Char}

/-- The characters of a set, without their order. -/
def toFinset (set : CharSet) : Finset Char :=
  set.toList.toFinset

@[simp] theorem mem_toFinset : char ∈ set.toFinset ↔ char ∈ set :=
  List.mem_toFinset

/-- A set is determined by its members. -/
theorem toFinset_inj : set.toFinset = other.toFinset ↔ set = other := by
  constructor
  · intro equal
    apply ext_mem
    intro char
    rw [← mem_toFinset, equal, mem_toFinset]
  · intro equal
    rw [equal]

theorem nodup_toList (set : CharSet) : set.toList.Nodup :=
  set.ascending.imp ne_of_lt

theorem card_toFinset (set : CharSet) : set.toFinset.card = set.size :=
  List.toFinset_card_of_nodup set.nodup_toList

/-- The list of a set is the one ascending list of its members. -/
theorem sort_toFinset (set : CharSet) : set.toFinset.sort (· ≤ ·) = set.toList :=
  (List.toFinset_sort (· ≤ ·) set.nodup_toList).2 (set.ascending.imp le_of_lt)

/-- Ascending characters have ascending codes. -/
theorem ascending_toNat (set : CharSet) : (set.toList.map Char.toNat).Pairwise (· < ·) := by
  rw [List.pairwise_map]
  exact set.ascending

theorem toFinset_ofString (text : String) : (ofString text).toFinset = text.toList.toFinset := by
  ext char
  rw [mem_toFinset, ofString, mem_ofList, List.mem_toFinset]

theorem toFinset_insert : (set.insert char).toFinset = Insert.insert char set.toFinset := by
  ext member
  rw [mem_toFinset, mem_insert, Finset.mem_insert, mem_toFinset]

theorem toFinset_removeAll : (set.removeAll other).toFinset = set.toFinset \ other.toFinset := by
  ext member
  rw [mem_toFinset, mem_removeAll, Finset.mem_sdiff, mem_toFinset, mem_toFinset]

theorem contains_eq_decide : set.contains char = decide (char ∈ set.toFinset) := by
  rw [Bool.eq_iff_iff, contains_eq_true, decide_eq_true_iff, mem_toFinset]

theorem containsAll_eq_decide :
    set.containsAll other = decide (other.toFinset ⊆ set.toFinset) := by
  rw [Bool.eq_iff_iff, containsAll_eq_true, decide_eq_true_iff]
  simp only [Finset.subset_iff, mem_toFinset]

theorem beq_eq_decide : (set == other) = decide (set.toFinset = other.toFinset) := by
  rw [Bool.eq_iff_iff, beq_iff_eq, decide_eq_true_iff, toFinset_inj]

/-- A set grows by one character or not at all. -/
theorem size_insert :
    (set.insert char).size = set.size + if char ∈ set.toFinset then 0 else 1 := by
  rw [← card_toFinset, toFinset_insert, Finset.card_insert_eq_ite, card_toFinset]
  split
  next => rfl
  next => rfl

end CharSet

/-! ## Runs over numbered sets -/

/-- What can be asked of numbered sets. -/
inductive SetRequest where
  | insert (id : Nat) (char : Char)
  | removeAll (id other : Nat)
  | contains (id : Nat) (char : Char)
  | containsAll (id other : Nat)
  | equal (id other : Nat)

/-- A kind of set: how its sets are changed and asked.  An insertion tells whether the
character is new. -/
structure SetKind (α : Type) where
  insert : α → Char → Bool × α
  removeAll : α → α → α
  contains : α → Char → Bool
  containsAll : α → α → Bool
  equal : α → α → Bool

namespace SetKind

variable {α β : Type}

/-- Sets kept as ascending lists. -/
def charSet : SetKind CharSet where
  insert := CharSet.insertNew
  removeAll := CharSet.removeAll
  contains := CharSet.contains
  containsAll := CharSet.containsAll
  equal set other := set == other

/-- Sets in the sense of mathematics, without a representation. -/
def finset : SetKind (Finset Char) where
  insert members char := (decide (char ∉ members), Insert.insert char members)
  removeAll members others := members \ others
  contains members char := decide (char ∈ members)
  containsAll members others := decide (others ⊆ members)
  equal members others := decide (members = others)

/-- Answer a request.  Only the removal of characters has nothing to report. -/
def step (kind : SetKind α) (sets : Nat → α) : SetRequest → Option Bool × (Nat → α)
  | .insert id char =>
      let (isNew, set) := kind.insert (sets id) char
      (some isNew, Function.update sets id set)
  | .removeAll id other =>
      (none, Function.update sets id (kind.removeAll (sets id) (sets other)))
  | .contains id char => (some (kind.contains (sets id) char), sets)
  | .containsAll id other => (some (kind.containsAll (sets id) (sets other)), sets)
  | .equal id other => (some (kind.equal (sets id) (sets other)), sets)

/-- Answer requests in turn: the replies, and the sets at the end. -/
def run (kind : SetKind α) (sets : Nat → α) :
    List SetRequest → List (Option Bool) × (Nat → α)
  | [] => ([], sets)
  | request :: rest =>
      let (reply, next) := kind.step sets request
      let (replies, last) := kind.run next rest
      (reply :: replies, last)

/-- A view of the sets of one kind as sets of another that every operation respects. -/
structure Respects (kind : SetKind α) (other : SetKind β) (view : α → β) : Prop where
  insert : ∀ set char, other.insert (view set) char =
    ((kind.insert set char).1, view (kind.insert set char).2)
  removeAll : ∀ set removed, other.removeAll (view set) (view removed) =
    view (kind.removeAll set removed)
  contains : ∀ set char, other.contains (view set) char = kind.contains set char
  containsAll : ∀ set inner, other.containsAll (view set) (view inner) =
    kind.containsAll set inner
  equal : ∀ left right, other.equal (view left) (view right) = kind.equal left right

namespace Respects

variable {kind : SetKind α} {other : SetKind β} {view : α → β}

/-- A request is answered alike, and the views of the sets stay views of the sets. -/
theorem step (respects : Respects kind other view) (sets : Nat → α) (request : SetRequest) :
    other.step (view ∘ sets) request =
      ((kind.step sets request).1, view ∘ (kind.step sets request).2) := by
  cases request with
  | insert id char =>
      simp only [SetKind.step, Function.comp_apply, respects.insert, Function.comp_update]
  | removeAll id removed =>
      simp only [SetKind.step, Function.comp_apply, respects.removeAll, Function.comp_update]
  | contains id char => simp only [SetKind.step, Function.comp_apply, respects.contains]
  | containsAll id inner => simp only [SetKind.step, Function.comp_apply, respects.containsAll]
  | equal left right => simp only [SetKind.step, Function.comp_apply, respects.equal]

/-- Requests are answered alike, however many there are. -/
theorem run (respects : Respects kind other view) (sets : Nat → α)
    (requests : List SetRequest) :
    other.run (view ∘ sets) requests =
      ((kind.run sets requests).1, view ∘ (kind.run sets requests).2) := by
  induction requests generalizing sets with
  | nil => rfl
  | cons request rest ih => simp only [SetKind.run, respects.step, ih]

end Respects

/-- Each operation on ascending lists does to the members what its name says. -/
theorem respects_toFinset : Respects charSet finset CharSet.toFinset where
  insert set char := by
    simp only [charSet, finset, CharSet.insertNew, CharSet.contains_eq_decide, decide_not,
      CharSet.toFinset_insert]
  removeAll set removed := CharSet.toFinset_removeAll.symm
  contains set char := CharSet.contains_eq_decide.symm
  containsAll set inner := CharSet.containsAll_eq_decide.symm
  equal left right := CharSet.beq_eq_decide.symm

/-- Sets that are built from any texts answer every sequence of requests as the finite sets
of their characters do.  After it each set lists its members by ascending codes and nothing
else, its operations are those of finite sets, and sets are equal where their members are. -/
theorem charSets_behave_as_finsets (texts : Nat → String) (requests : List SetRequest) :
    let start := fun id => CharSet.ofString (texts id)
    let sets := (charSet.run start requests).2
    let reference := finset.run (fun id => (texts id).toList.toFinset) requests
    let members := reference.2
    (charSet.run start requests).1 = reference.1 ∧
    (∀ id,
      (sets id).toList = (members id).sort (· ≤ ·) ∧
      ((sets id).toList.map Char.toNat).Pairwise (· < ·) ∧
      (sets id).size = (members id).card ∧
      ∀ char,
        (char ∈ (sets id).toList ↔ char ∈ members id) ∧
        ((sets id).contains char = true ↔ char ∈ members id) ∧
        (((sets id).insertNew char).1 = true ↔ char ∉ members id) ∧
        ((sets id).insertNew char).2.size =
          (sets id).size + if char ∈ members id then 0 else 1) ∧
    ∀ id other,
      (∀ char, char ∈ ((sets id).removeAll (sets other)).toList ↔
        char ∈ members id ∧ char ∉ members other) ∧
      ((sets id).containsAll (sets other) = true ↔ members other ⊆ members id) ∧
      ((sets id == sets other) = true ↔ members id = members other) := by
  intro start sets reference members
  have starts : (fun id => (texts id).toList.toFinset) = CharSet.toFinset ∘ start := by
    funext id
    exact (CharSet.toFinset_ofString (texts id)).symm
  have carried : reference = ((charSet.run start requests).1, CharSet.toFinset ∘ sets) := by
    rw [← respects_toFinset.run start requests, ← starts]
  -- What the finite sets have become is read off the sets, so the rest is about single sets.
  have viewed : members = CharSet.toFinset ∘ sets := congrArg Prod.snd carried
  rw [viewed]
  refine ⟨(congrArg Prod.fst carried).symm, ?_, ?_⟩
  · intro id
    refine ⟨(CharSet.sort_toFinset _).symm, CharSet.ascending_toNat _,
      (CharSet.card_toFinset _).symm, ?_⟩
    intro char
    refine ⟨CharSet.mem_toFinset.symm, ?_, ?_, CharSet.size_insert⟩
    · rw [CharSet.contains_eq_decide, decide_eq_true_iff, Function.comp_apply]
    · rw [CharSet.insertNew, CharSet.contains_eq_decide, ← decide_not, decide_eq_true_iff,
        Function.comp_apply]
  · intro id other
    refine ⟨?_, ?_, ?_⟩
    · intro char
      rw [Function.comp_apply, Function.comp_apply, CharSet.mem_toFinset, CharSet.mem_toFinset,
        ← CharSet.mem_removeAll, CharSet.mem_iff]
    · rw [CharSet.containsAll_eq_decide, decide_eq_true_iff]
      rfl
    · rw [CharSet.beq_eq_decide, decide_eq_true_iff]
      rfl

example :
    (charSet.run (fun id => .ofString (if id = 0 then "zaZ0a" else "0Za"))
      [.equal 0 1, .containsAll 0 1, .insert 1 'a', .insert 1 'z', .equal 0 1, .removeAll 0 1,
        .contains 0 'Z']).1 =
      [some false, some true, some false, some true, some true, none, some false] := by
  decide

end SetKind

end ScanCircuit
