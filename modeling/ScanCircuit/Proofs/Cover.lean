import ScanCircuit.Proofs.Planning

/-!
# How checks divide a label

The checks of a label divide its characters among them.  A class that lies whole in the label
takes its own characters, and every other character is taken by a check of its own.  Classes
have no characters in common, so whether one of them lies whole in a label does not change as
others are extracted.

`checks_partition_label` concludes that every byte of the label satisfies exactly one check.
-/

namespace ScanCircuit

/-! ## Whole classes and loose characters -/

theorem CharClass.bounds_apart {left right : CharClass} (different : left ≠ right) :
    left.upper ≤ right.lower ∨ right.upper ≤ left.lower := by
  revert different
  cases left <;> cases right <;> decide

/-- No character is in two classes. -/
theorem CharClass.eq_of_mem_members {left right : CharClass} {char : Char}
    (inLeft : char ∈ left.members) (inRight : char ∈ right.members) : left = right := by
  by_contra different
  have leftCode : char.toNat ∈ left.chars.map Char.toNat := List.mem_map_of_mem inLeft
  have rightCode : char.toNat ∈ right.chars.map Char.toNat := List.mem_map_of_mem inRight
  rw [CharClass.codes_chars, List.mem_range'_1] at leftCode rightCode
  have apart := CharClass.bounds_apart different
  omega

namespace CharSet

/-- The classes that lie whole in a label, in the order of all classes. -/
def wholeClasses (label : CharSet) : List CharClass :=
  CharClass.all.filter fun charClass => label.containsAll charClass.members

/-- The characters of a label that are in none of the classes that lie whole in it. -/
def loose (label : CharSet) : List Char :=
  label.toList.filter fun char => ∀ charClass ∈ label.wholeClasses, char ∉ charClass.members

theorem mem_wholeClasses {label : CharSet} {charClass : CharClass} :
    charClass ∈ label.wholeClasses ↔ ∀ char ∈ charClass.members, char ∈ label := by
  have listed : charClass ∈ CharClass.all := by cases charClass <;> decide
  rw [wholeClasses, List.mem_filter, containsAll_eq_true]
  exact and_iff_right listed

theorem nodup_wholeClasses (label : CharSet) : label.wholeClasses.Nodup := by
  have nodup : CharClass.all.Nodup := by decide
  exact nodup.filter _

/-- A class lies whole in a label or not, whether another class has been removed or not. -/
theorem containsAll_removeAll {label : CharSet} {charClass other : CharClass}
    (different : charClass ≠ other) :
    (label.removeAll charClass.members).containsAll other.members =
      label.containsAll other.members := by
  rw [Bool.eq_iff_iff, containsAll_eq_true, containsAll_eq_true]
  constructor
  · intro whole char member
    exact (mem_removeAll.1 (whole char member)).1
  · intro whole char member
    apply mem_removeAll.2
    refine ⟨whole char member, ?_⟩
    intro inside
    exact different (CharClass.eq_of_mem_members inside member)

end CharSet

/-- Extraction finds the classes that lie whole in the label. -/
theorem extractClasses_fst {classes : List CharClass} (nodup : classes.Nodup) (label : CharSet) :
    (extractClasses classes label).1 =
      classes.filter fun charClass => label.containsAll charClass.members := by
  induction classes generalizing label with
  | nil => rfl
  | cons charClass rest ih =>
      obtain ⟨new, nodup⟩ := List.nodup_cons.1 nodup
      simp only [extractClasses]
      split
      next whole =>
        rw [List.filter_cons, if_pos whole, ih nodup]
        apply congrArg (List.cons charClass)
        apply List.filter_congr
        intro other member
        apply CharSet.containsAll_removeAll
        rintro rfl
        exact new member
      next partly =>
        rw [List.filter_cons, if_neg partly, ih nodup]

/-- Extraction leaves the characters that are in none of the classes that it finds. -/
theorem mem_extractClasses_snd (classes : List CharClass) (label : CharSet) {char : Char} :
    char ∈ (extractClasses classes label).2 ↔
      char ∈ label ∧ ∀ charClass ∈ (extractClasses classes label).1,
        char ∉ charClass.members := by
  induction classes generalizing label with
  | nil => simp [extractClasses]
  | cons charClass rest ih =>
      simp only [extractClasses]
      split
      next => rw [ih, CharSet.mem_removeAll, List.forall_mem_cons, and_assoc]
      next => exact ih label

theorem extractClasses_eq (label : CharSet) :
    (extractClasses CharClass.all label).1 = label.wholeClasses ∧
      (extractClasses CharClass.all label).2.toList = label.loose := by
  have found : (extractClasses CharClass.all label).1 = label.wholeClasses :=
    extractClasses_fst (by decide) label
  refine ⟨found, ?_⟩
  have ascending : label.loose.Pairwise (· < ·) := label.ascending.sublist List.filter_sublist
  apply (extractClasses CharClass.all label).2.ascending.eq_of_mem_iff ascending
  intro char
  rw [← CharSet.mem_iff, mem_extractClasses_snd, found, CharSet.loose, List.mem_filter,
    decide_eq_true_eq, CharSet.mem_iff]

/-- A plan has a range check for each whole class and an equality check for each loose
character, both in order. -/
theorem checks_of_plan {label : CharSet} {source dest : Nat} {checks : List Check}
    (planned : plan label source dest = .ok checks) :
    ∃ codes : List UInt8, codes.map Char.ofUInt8 = label.loose ∧
      checks = label.wholeClasses.map .range ++ codes.map .equal := by
  obtain ⟨codes, listed, rfl⟩ := plan_eq_ok.1 planned
  rw [(extractClasses_eq label).1]
  exact ⟨codes, listed.trans (extractClasses_eq label).2, rfl⟩

/-- The codes of characters in ascending order are in ascending order. -/
theorem ascending_codes {codes : List UInt8} {label : CharSet}
    (listed : codes.map Char.ofUInt8 = label.loose) : codes.Pairwise (· < ·) := by
  have ascending : label.loose.Pairwise (· < ·) := label.ascending.sublist List.filter_sublist
  rw [← listed, List.pairwise_map] at ascending
  apply ascending.imp
  intro first second below
  rw [UInt8.lt_iff_toNat_lt, ← toNat_ofUInt8, ← toNat_ofUInt8]
  exact below

/-! ## Checks without a common byte -/

instance (byte : UInt8) (check : Check) : Decidable (check.Holds byte) :=
  match check with
  | .range charClass =>
      inferInstanceAs (Decidable (charClass.lower < byte.toNat ∧ byte.toNat < charClass.upper))
  | .equal code => inferInstanceAs (Decidable (byte = code))

/-- No byte satisfies both checks. -/
def Check.Disjoint (left right : Check) : Prop :=
  ∀ byte, left.Holds byte → ¬ right.Holds byte

theorem Check.disjoint_range {left right : CharClass} (different : left ≠ right) :
    (Check.range left).Disjoint (.range right) := by
  intro byte inLeft inRight
  apply different
  exact CharClass.eq_of_mem_members (CharClass.ofUInt8_mem_members.2 inLeft)
    (CharClass.ofUInt8_mem_members.2 inRight)

theorem disjoint_of_plan {label : CharSet} {source dest : Nat} {checks : List Check}
    (planned : plan label source dest = .ok checks) : checks.Pairwise Check.Disjoint := by
  obtain ⟨codes, listed, rfl⟩ := checks_of_plan planned
  apply List.pairwise_append.2
  refine ⟨?_, ?_, ?_⟩
  · apply List.pairwise_map.2
    exact label.nodup_wholeClasses.imp Check.disjoint_range
  · apply List.pairwise_map.2
    apply (ascending_codes listed).imp
    intro first second below byte isFirst isSecond
    exact UInt8.ne_of_lt below (isFirst.symm.trans isSecond)
  · intro range isRange equal isEqual
    obtain ⟨charClass, whole, rfl⟩ := List.mem_map.1 isRange
    obtain ⟨code, member, rfl⟩ := List.mem_map.1 isEqual
    intro byte inside isCode
    have isLoose : Char.ofUInt8 code ∈ label.loose := listed ▸ List.mem_map_of_mem member
    rw [CharSet.loose, List.mem_filter, decide_eq_true_eq] at isLoose
    apply isLoose.2 charClass whole
    rw [← (isCode : byte = code)]
    exact CharClass.ofUInt8_mem_members.2 inside

theorem Check.exists_holds (check : Check) : ∃ byte, check.Holds byte := by
  cases check with
  | range charClass =>
      refine ⟨UInt8.ofNat (charClass.lower + 1), ?_⟩
      cases charClass <;> decide
  | equal code => exact ⟨code, rfl⟩

/-- Disjoint checks are different, because every check holds of some byte. -/
theorem nodup_of_disjoint {checks : List Check} (disjoint : checks.Pairwise Check.Disjoint) :
    checks.Nodup := by
  apply disjoint.imp
  rintro check other apart rfl
  obtain ⟨byte, holds⟩ := check.exists_holds
  exact apart byte holds holds

/-- At most one of disjoint checks holds. -/
theorem countP_holds_le_one {checks : List Check} (disjoint : checks.Pairwise Check.Disjoint)
    (byte : UInt8) : checks.countP (fun check => check.Holds byte) ≤ 1 := by
  induction checks with
  | nil => exact Nat.zero_le 1
  | cons check rest ih =>
      obtain ⟨apart, disjoint⟩ := List.pairwise_cons.1 disjoint
      by_cases holds : check.Holds byte
      · have none : rest.countP (fun check => check.Holds byte) = 0 := by
          rw [List.countP_eq_zero]
          intro other member
          simpa using apart other member byte holds
        rw [List.countP_cons, none]
        split <;> decide
      · rw [List.countP_cons_of_neg (by simpa using holds)]
        exact ih disjoint

/-! ## The partition -/

theorem plan_eq_nil_iff {label : CharSet} {source dest : Nat} {checks : List Check}
    (planned : plan label source dest = .ok checks) : checks = [] ↔ label = .empty := by
  constructor
  · intro none
    apply CharSet.ext
    by_contra labelled
    exact ne_nil_of_plan planned labelled none
  · rintro rfl
    have nothing : plan .empty source dest = .ok [] := by rfl
    exact (Except.ok.inj (nothing.symm.trans planned)).symm

/-- A byte of a label satisfies exactly one of its checks, and any other byte satisfies none.
The checks are one range check for each class that lies whole in the label, in the order of the
classes, and then equality checks in ascending order.  Only the empty label has no checks. -/
theorem checks_partition_label {label : CharSet} {source dest : Nat} {checks : List Check}
    (planned : plan label source dest = .ok checks) :
    (∀ byte : UInt8, checks.countP (fun check => check.Holds byte) =
      if Char.ofUInt8 byte ∈ label then 1 else 0) ∧
    (∀ charClass : CharClass,
      (.range charClass ∈ checks ↔ ∀ char ∈ charClass.members, char ∈ label) ∧
        checks.count (.range charClass) ≤ 1) ∧
    (∃ (classes : List CharClass) (codes : List UInt8),
      checks = classes.map .range ++ codes.map .equal ∧
        classes.Sublist [.uppercase, .lowercase, .digits] ∧ codes.Pairwise (· < ·)) ∧
    (checks = [] ↔ label = .empty) := by
  obtain ⟨codes, listed, equal⟩ := checks_of_plan planned
  refine ⟨?_, ?_, ⟨label.wholeClasses, codes, equal, List.filter_sublist, ascending_codes listed⟩,
    plan_eq_nil_iff planned⟩
  · intro byte
    have atMostOne := countP_holds_le_one (disjoint_of_plan planned) byte
    have atLeastOne := exists_holds_of_plan planned byte
    split
    next member =>
      have positive : 0 < checks.countP fun check => check.Holds byte := by
        rw [List.countP_pos_iff]
        simpa using atLeastOne.2 member
      omega
    next outside =>
      rw [List.countP_eq_zero]
      intro check member
      simpa using fun holds => outside (atLeastOne.1 ⟨check, member, holds⟩)
  · intro charClass
    have nodup := nodup_of_disjoint (disjoint_of_plan planned)
    refine ⟨?_, List.nodup_iff_count_le_one.1 nodup _⟩
    rw [equal, ← CharSet.mem_wholeClasses]
    simp

theorem checks_partition_label_numeral :
    let label := CharClass.digits.members.insert '_'
    let checks : List Check := [.range .digits, .equal 95]
    plan label 0 1 = .ok checks ∧
      checks.countP (fun check => check.Holds 57) = 1 ∧
      checks.countP (fun check => check.Holds 58) = 0 := by
  intro label checks
  have planned : plan label 0 1 = .ok checks := by rfl
  obtain ⟨exact, -⟩ := checks_partition_label planned
  refine ⟨planned, (exact 57).trans ?_, (exact 58).trans ?_⟩
  · decide
  · decide

end ScanCircuit
