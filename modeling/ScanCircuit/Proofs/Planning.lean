import Mathlib.Data.List.Sort
import ScanCircuit.CharClass

/-!
# Planning a label

The checks planned for a label hold of exactly the bytes whose characters are in the
label.  Extracting a class from a label removes the members of the class and nothing
else, and the characters that are left are listed by their codes.
-/

namespace ScanCircuit

/-- A computation of two steps succeeds when both of them do. -/
theorem bind_eq_ok {ε α β : Type} {first : Except ε α} {next : α → Except ε β} {result : β} :
    (first >>= next) = .ok result ↔ ∃ value, first = .ok value ∧ next value = .ok result := by
  cases first <;> simp [bind, Except.bind]

/-- Sets with the same characters are equal. -/
theorem CharSet.ext_mem {left right : CharSet} (same : ∀ char, char ∈ left ↔ char ∈ right) :
    left = right := by
  apply CharSet.ext
  exact left.ascending.eq_of_mem_iff right.ascending same

/-! ## Codes of characters -/

theorem toNat_ofUInt8 (byte : UInt8) : (Char.ofUInt8 byte).toNat = byte.toNat :=
  byte.toNat_toUInt32

theorem ofUInt8_injective : Function.Injective Char.ofUInt8 := by
  intro left right equal
  apply UInt8.toNat_inj.1
  rw [← toNat_ofUInt8 left, ← toNat_ofUInt8 right, equal]

/-- A character has a code exactly when it is the character of a byte. -/
theorem byteCode_eq_ok {source dest : Nat} {char : Char} {code : UInt8} :
    byteCode source dest char = .ok code ↔ Char.ofUInt8 code = char := by
  unfold byteCode
  constructor
  · intro coded
    split at coded
    next fits =>
      cases coded
      apply Char.toNat_inj.1
      rw [toNat_ofUInt8, UInt8.toNat_ofNat', Nat.mod_eq_of_lt fits]
    next => cases coded
  · rintro rfl
    rw [toNat_ofUInt8, if_pos code.toNat_lt, UInt8.ofNat_toNat]

/-- Characters have codes exactly when they are the characters of bytes. -/
theorem byteCodes_eq_ok {source dest : Nat} {chars : List Char} {codes : List UInt8} :
    byteCodes source dest chars = .ok codes ↔ codes.map Char.ofUInt8 = chars := by
  induction chars generalizing codes with
  | nil => simp [byteCodes, eq_comm]
  | cons char rest ih =>
      simp only [byteCodes, bind_eq_ok, byteCode_eq_ok, ih, pure, Except.pure, Except.ok.injEq]
      constructor
      · rintro ⟨code, rfl, others, rfl, rfl⟩
        rfl
      · intro equal
        cases codes with
        | nil => cases equal
        | cons code others =>
            obtain ⟨rfl, rfl⟩ := List.cons.inj equal
            exact ⟨code, rfl, others, rfl, rfl⟩

/-! ## Classes and checks -/

/-- Whether a byte satisfies a check. -/
def Check.Holds (byte : UInt8) : Check → Prop
  | .range charClass => charClass.lower < byte.toNat ∧ byte.toNat < charClass.upper
  | .equal code => byte = code

/-- The codes of a class are those between its bounds. -/
theorem CharClass.codes_chars (charClass : CharClass) :
    charClass.chars.map Char.toNat =
      List.range' (charClass.lower + 1) (charClass.upper - charClass.lower - 1) := by
  cases charClass <;> rfl

theorem CharClass.bounds_lt (charClass : CharClass) :
    charClass.lower < 256 ∧ charClass.upper < 256 := by
  cases charClass <;> decide

/-- A class is determined by its lower bound. -/
theorem CharClass.lower_injective {left right : CharClass} (same : left.lower = right.lower) :
    left = right := by
  revert same
  cases left <;> cases right <;> decide

/-- A byte is in a class when it lies between the bounds of the class. -/
theorem CharClass.ofUInt8_mem_members {charClass : CharClass} {byte : UInt8} :
    Char.ofUInt8 byte ∈ charClass.members ↔ (Check.range charClass).Holds byte := by
  have codes : Char.ofUInt8 byte ∈ charClass.chars ↔
      byte.toNat ∈ charClass.chars.map Char.toNat := by
    rw [← toNat_ofUInt8]
    exact (List.mem_map_of_injective fun _ _ => Char.toNat_inj.1).symm
  rw [CharSet.mem_iff, CharClass.members, codes, charClass.codes_chars, List.mem_range'_1,
    Check.Holds]
  omega

/-- Extraction loses no character and adds none. -/
theorem mem_extractClasses (classes : List CharClass) (label : CharSet) {char : Char} :
    char ∈ label ↔
      (∃ charClass ∈ (extractClasses classes label).1, char ∈ charClass.members) ∨
        char ∈ (extractClasses classes label).2 := by
  induction classes generalizing label with
  | nil => simp [extractClasses]
  | cons charClass rest ih =>
      simp only [extractClasses]
      split
      next whole =>
        have members := CharSet.containsAll_eq_true.1 whole
        have others := ih (label.removeAll charClass.members)
        rw [CharSet.mem_removeAll] at others
        simp only [List.exists_mem_cons_iff, or_assoc, ← others]
        constructor
        · intro member
          by_cases inside : char ∈ charClass.members
          · exact .inl inside
          · exact .inr ⟨member, inside⟩
        · rintro (inside | ⟨member, -⟩)
          · exact members char inside
          · exact member
      next => exact ih label

/-- A plan is the range checks of the extracted classes and the equality checks of the
codes of what is left. -/
theorem plan_eq_ok {label : CharSet} {source dest : Nat} {checks : List Check} :
    plan label source dest = .ok checks ↔
      ∃ codes : List UInt8,
        codes.map Char.ofUInt8 = (extractClasses CharClass.all label).2.toList ∧
        (extractClasses CharClass.all label).1.map .range ++ codes.map .equal = checks := by
  simp only [plan, bind_eq_ok, byteCodes_eq_ok, pure, Except.pure, Except.ok.injEq]

/-- A byte satisfies one of the checks of a label exactly when its character is in the
label. -/
theorem exists_holds_of_plan {label : CharSet} {source dest : Nat} {checks : List Check}
    (planned : plan label source dest = .ok checks) (byte : UInt8) :
    (∃ check ∈ checks, check.Holds byte) ↔ Char.ofUInt8 byte ∈ label := by
  obtain ⟨codes, listed, rfl⟩ := plan_eq_ok.1 planned
  have left : Char.ofUInt8 byte ∈ (extractClasses CharClass.all label).2 ↔ byte ∈ codes := by
    rw [CharSet.mem_iff, ← listed]
    exact List.mem_map_of_injective ofUInt8_injective
  rw [mem_extractClasses CharClass.all, left]
  simp only [CharClass.ofUInt8_mem_members, List.mem_append, List.mem_map, or_and_right,
    exists_or, exists_exists_and_eq_and, Check.Holds, exists_eq_right']

/-- Whether a check accounts for a character of a label. -/
def Check.Covers (char : Char) : Check → Prop
  | .range charClass => char ∈ charClass.members
  | .equal code => Char.ofUInt8 code = char

/-- The characters of a label are those that its checks account for. -/
theorem mem_iff_covers {label : CharSet} {source dest : Nat} {checks : List Check}
    (planned : plan label source dest = .ok checks) (char : Char) :
    char ∈ label ↔ ∃ check ∈ checks, check.Covers char := by
  obtain ⟨codes, listed, rfl⟩ := plan_eq_ok.1 planned
  have left : char ∈ (extractClasses CharClass.all label).2 ↔
      ∃ code ∈ codes, Char.ofUInt8 code = char := by
    rw [CharSet.mem_iff, ← listed, List.mem_map]
  rw [mem_extractClasses CharClass.all, left]
  simp only [List.mem_append, List.mem_map, or_and_right, exists_or, exists_exists_and_eq_and,
    Check.Covers]

/-- A label is determined by its checks. -/
theorem label_eq_of_plan {left right : CharSet} {source dest other target : Nat}
    {checks : List Check} (leftPlanned : plan left source dest = .ok checks)
    (rightPlanned : plan right other target = .ok checks) : left = right := by
  apply CharSet.ext_mem
  intro char
  rw [mem_iff_covers leftPlanned, mem_iff_covers rightPlanned]

/-- The plan of a label with a character has a check. -/
theorem ne_nil_of_plan {label : CharSet} {source dest : Nat} {checks : List Check}
    (planned : plan label source dest = .ok checks) (labelled : label.toList ≠ []) :
    checks ≠ [] := by
  obtain ⟨codes, listed, rfl⟩ := plan_eq_ok.1 planned
  obtain ⟨char, member⟩ := List.exists_mem_of_ne_nil _ labelled
  intro empty
  rw [List.append_eq_nil_iff, List.map_eq_nil_iff, List.map_eq_nil_iff] at empty
  rw [empty.2] at listed
  rcases (mem_extractClasses CharClass.all label).1 member with ⟨_, found, -⟩ | left
  · simp [empty.1] at found
  · simp [CharSet.mem_iff, ← listed] at left

end ScanCircuit
