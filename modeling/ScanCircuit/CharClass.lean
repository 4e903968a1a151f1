import ScanCircuit.CharSet

/-!
# Character classes and checks

An edge is taken when the input byte satisfies one of a few checks. A label that
holds a whole class of letters or digits spends one range check on it; each
character left over gets an equality check on its code, which has to fit in a
byte.
-/

namespace ScanCircuit

/-- The classes that are tested by a range check. -/
inductive CharClass where
  | uppercase
  | lowercase
  | digits
  deriving DecidableEq, Repr

namespace CharClass

/-- All classes, in the order in which a label is searched for them. -/
def all : List CharClass := [uppercase, lowercase, digits]

/-- The name of the class. -/
def label : CharClass → String
  | uppercase => "UPPERCASE"
  | lowercase => "lowercase"
  | digits => "digits"

/-- The first and the last character of the class. -/
def span : CharClass → Char × Char
  | uppercase => ('A', 'Z')
  | lowercase => ('a', 'z')
  | digits => ('0', '9')

/-- The code right below the class. -/
def lower (charClass : CharClass) : Nat :=
  charClass.span.1.toNat - 1

/-- The code right above the class. -/
def upper (charClass : CharClass) : Nat :=
  charClass.span.2.toNat + 1

/-- The characters of the class in ascending order. -/
def chars (charClass : CharClass) : List Char :=
  let first := charClass.span.1.toNat
  let last := charClass.span.2.toNat
  (List.range' first (last + 1 - first)).map Char.ofNat

theorem lower_eq (charClass : CharClass) :
    charClass.lower = match charClass with
      | uppercase => 64
      | lowercase => 96
      | digits => 47 := by
  cases charClass <;> rfl

theorem upper_eq (charClass : CharClass) :
    charClass.upper = match charClass with
      | uppercase => 91
      | lowercase => 123
      | digits => 58 := by
  cases charClass <;> rfl

theorem chars_eq (charClass : CharClass) :
    charClass.chars = match charClass with
      | uppercase => "ABCDEFGHIJKLMNOPQRSTUVWXYZ".toList
      | lowercase => "abcdefghijklmnopqrstuvwxyz".toList
      | digits => "0123456789".toList := by
  cases charClass <;> rfl

/-- The set of the characters of the class. -/
def members (charClass : CharClass) : CharSet where
  toList := charClass.chars
  ascending := by cases charClass <;> decide

end CharClass

/-- A test of one input byte. -/
inductive Check where
  /-- The byte lies in a class. -/
  | range (charClass : CharClass)
  /-- The byte equals a code. -/
  | equal (code : UInt8)
  deriving DecidableEq, Repr

/-- A character on an edge whose code does not fit in a byte. -/
structure Unencodable where
  char : Char
  source : Nat
  dest : Nat
  deriving DecidableEq, Repr

/-- The sentence that names the character and its edge. -/
def Unencodable.message (failure : Unencodable) : String :=
  "character " ++ Text.quoteChar failure.char ++
    s!" on edge {failure.source} -> {failure.dest} does not fit in a single byte"

/-- The code of a character on an edge, if it fits in a byte. -/
def byteCode (source dest : Nat) (char : Char) : Except Unencodable UInt8 :=
  if char.toNat < 256 then .ok (UInt8.ofNat char.toNat) else .error ⟨char, source, dest⟩

/-- The codes of several characters on an edge, up to the first that does not fit. -/
def byteCodes (source dest : Nat) : List Char → Except Unencodable (List UInt8)
  | [] => .ok []
  | char :: rest => do
      let code ← byteCode source dest char
      let codes ← byteCodes source dest rest
      return code :: codes

/-- The classes that lie whole in a label, and what is left without them. -/
def extractClasses : List CharClass → CharSet → List CharClass × CharSet
  | [], rest => ([], rest)
  | charClass :: more, rest =>
      if rest.containsAll charClass.members then
        let (found, left) := extractClasses more (rest.removeAll charClass.members)
        (charClass :: found, left)
      else extractClasses more rest

/-- The checks for a label: a range check for each class that lies whole in it, then
an equality check for each remaining character in ascending order. -/
def plan (label : CharSet) (source dest : Nat) : Except Unencodable (List Check) := do
  let (classes, rest) := extractClasses CharClass.all label
  let codes ← byteCodes source dest rest.toList
  return classes.map .range ++ codes.map .equal

end ScanCircuit
