import ScanCircuit.Json.Reader

/-!
# The grammar of JSON text

How a value is written down as a text.  The same value has many texts: blanks may stand
between its parts, and a character of a string may be written as itself or by an escape.

`Written` relates a value to its texts.  It says nothing about how a text is read, and
leaves out the numbers that are not naturals.
-/

namespace ScanCircuit.Json

/-- Text that may stand between the parts of a value. -/
def Blank (text : List Char) : Prop :=
  ∀ char ∈ text, char = ' ' ∨ char = '\t' ∨ char = '\n' ∨ char = '\r'

/-! ## Strings -/

/-- A hexadecimal digit in either case. -/
inductive HexDigit (value : Nat) : Char → Prop where
  | lower : value < 16 → HexDigit value (Nat.digitChar value)
  | upper : value < 16 → HexDigit value (Nat.digitChar value).toUpper

/-- Four hexadecimal digits that write down a code. -/
inductive HexCode : Nat → List Char → Prop where
  | digits {first second third fourth : Nat} {char₁ char₂ char₃ char₄ : Char} :
      HexDigit first char₁ → HexDigit second char₂ → HexDigit third char₃ →
      HexDigit fourth char₄ →
      HexCode (((first * 16 + second) * 16 + third) * 16 + fourth) [char₁, char₂, char₃, char₄]

/-- The letters that stand for a character after a backslash. -/
def shortEscapes : List (Char × Char) :=
  [('"', '"'), ('\\', '\\'), ('/', '/'), ('b', '\x08'), ('f', '\x0c'), ('n', '\n'), ('r', '\r'),
   ('t', '\t')]

/-- How a character is written in a string. -/
inductive SpellsChar : Char → List Char → Prop where
  | plain {char : Char} :
      char ≠ '"' → char ≠ '\\' → 0x20 ≤ char.toNat → SpellsChar char [char]
  | short {letter char : Char} :
      (letter, char) ∈ shortEscapes → SpellsChar char ['\\', letter]
  | code {char : Char} {digits : List Char} :
      HexCode char.toNat digits → SpellsChar char ('\\' :: 'u' :: digits)
  /-- A character above the codes of four digits, by a surrogate pair. -/
  | pair {char : Char} {leading trailing : Nat} {first second : List Char} :
      leading < 0x400 → trailing < 0x400 →
      char.toNat = 0x10000 + leading * 0x400 + trailing →
      HexCode (0xD800 + leading) first → HexCode (0xDC00 + trailing) second →
      SpellsChar char ('\\' :: 'u' :: first ++ '\\' :: 'u' :: second)

/-- How characters are written in a string, one after another. -/
inductive SpellsChars : List Char → List Char → Prop where
  | nil : SpellsChars [] []
  | cons {char : Char} {chars spelled rest : List Char} :
      SpellsChar char spelled → SpellsChars chars rest →
      SpellsChars (char :: chars) (spelled ++ rest)

/-- A string between its quotes. -/
inductive SpellsText (text : String) : List Char → Prop where
  | quoted {body : List Char} :
      SpellsChars text.toList body → SpellsText text ('"' :: body ++ ['"'])

/-! ## Naturals -/

/-- Decimal digits that denote a number. -/
structure Decimal (value : Nat) (digits : List Char) : Prop where
  nonempty : digits ≠ []
  isDigit : ∀ char ∈ digits, char.isDigit
  denotes : Nat.ofDigitChars 10 digits 0 = value

/-- A natural is written in decimal, without leading zeros. -/
structure SpellsNatural (value : Nat) (digits : List Char) : Prop extends Decimal value digits where
  noLeadingZero : digits.head? = some '0' → digits = ['0']

/-! ## Values -/

/-- An element of an array with the blanks around it. -/
structure Element where
  before : List Char := []
  value : Value
  core : List Char
  after : List Char := []

namespace Element

/-- The text of an element up to the next comma or bracket. -/
def text (element : Element) : List Char :=
  element.before ++ element.core ++ element.after

/-- There are only blanks around the value. -/
structure Spaced (element : Element) : Prop where
  before : Blank element.before
  after : Blank element.after

end Element

/-- A member of an object with the blanks around its parts. -/
structure Member where
  before : List Char := []
  key : String
  name : List Char
  after : List Char := []
  element : Element

namespace Member

/-- The text of a member up to the next comma or bracket. -/
def text (member : Member) : List Char :=
  member.before ++ member.name ++ member.after ++ ':' :: member.element.text

/-- The key and value of a member. -/
def entry (member : Member) : String × Value :=
  (member.key, member.element.value)

/-- There are only blanks around the key and the value, and the key is written as a string. -/
structure Spaced (member : Member) : Prop where
  before : Blank member.before
  named : SpellsText member.key member.name
  after : Blank member.after
  element : member.element.Spaced

end Member

/-- Texts with commas between them. -/
def commas (texts : List (List Char)) : List Char :=
  List.intercalate [','] texts

/-- How a value is written with at most so many arrays and objects inside one another. -/
inductive Written : Nat → Value → List Char → Prop where
  | null {depth : Nat} : Written depth .null ['n', 'u', 'l', 'l']
  | isTrue {depth : Nat} : Written depth (.bool true) ['t', 'r', 'u', 'e']
  | isFalse {depth : Nat} : Written depth (.bool false) ['f', 'a', 'l', 's', 'e']
  | natural {depth value : Nat} {digits : List Char} :
      value < naturalBound → SpellsNatural value digits → Written depth (.natural value) digits
  | string {depth : Nat} {text : String} {spelled : List Char} :
      SpellsText text spelled → Written depth (.string text) spelled
  | array {depth : Nat} {blank : List Char} {elements : List Element} :
      Blank blank → (∀ element ∈ elements, element.Spaced) →
      (∀ element ∈ elements, Written depth element.value element.core) →
      Written (depth + 1) (.array (elements.map Element.value))
        ('[' :: blank ++ commas (elements.map Element.text) ++ [']'])
  | object {depth : Nat} {blank : List Char} {members : List Member} :
      Blank blank → (∀ member ∈ members, member.Spaced) →
      (∀ member ∈ members, Written depth member.element.value member.element.core) →
      Written (depth + 1) (.object (members.map Member.entry))
        ('\x7b' :: blank ++ commas (members.map Member.text) ++ ['\x7d'])

/-- A text that holds one value and blanks around it. -/
inductive Document (value : Value) : List Char → Prop where
  | spaced {before core after : List Char} :
      Blank before → Written maxDepth value core → Blank after →
      Document value (before ++ core ++ after)

end ScanCircuit.Json
