import ScanCircuit.Text.Utf8

/-!
# Byte strings

Scripts, their data and the output of programs are byte strings. They are held as
characters below U+0100, one for each byte, so that they can be written down and
compared as text.

This is a part of the shell that a generator may run in. It serves to run generators from
the command line only; no theorem depends on it.
-/

namespace ScanCircuit.Shell

/-- A byte string as characters below U+0100. -/
abbrev Bytes := List Char

namespace Bytes

/-- Bytes as a byte string. -/
def ofRaw (bytes : List UInt8) : Bytes :=
  bytes.map fun byte => Char.ofNat byte.toNat

/-- A byte string as bytes. -/
def toRaw (bytes : Bytes) : List UInt8 :=
  bytes.map fun char => UInt8.ofNat char.toNat

/-- The bytes of a text in UTF-8. -/
def ofText (text : String) : Bytes :=
  ofRaw (Text.Utf8.encode text)

/-- The text of a byte string in UTF-8. -/
def toText (bytes : Bytes) : String :=
  Text.Utf8.decodeLossy (toRaw bytes)

/-- A byte string as a key: one character for each byte. -/
def key (bytes : Bytes) : String :=
  String.ofList bytes

/-- The digits of a number. -/
def ofNat (number : Nat) : Bytes :=
  number.repr.toList

/-- The digits of a number, with its sign if it is negative. -/
def ofInt : Int → Bytes
  | .ofNat number => ofNat number
  | .negSucc number => '-' :: ofNat (number + 1)

/-- Byte strings with a separator between them. -/
def join (separator : Bytes) : List Bytes → Bytes
  | [] => []
  | [only] => only
  | first :: rest => first ++ separator ++ join separator rest

/-- The pieces between the places where a mark stands. -/
def splitAt (mark : Char) (collected : Bytes) : Bytes → List Bytes
  | [] => [collected.reverse]
  | char :: rest =>
      if char = mark then collected.reverse :: splitAt mark [] rest
      else splitAt mark (char :: collected) rest

/-- Whether one byte string comes before another. -/
def precedes : Bytes → Bytes → Bool
  | _, [] => false
  | [], _ :: _ => true
  | first :: rest, second :: others =>
      if first = second then precedes rest others else first.toNat < second.toNat

/-- The value of a digit in a base of at most sixteen. -/
def digit? (base : Nat) (char : Char) : Option Nat :=
  let value :=
    if '0' ≤ char ∧ char ≤ '9' then char.toNat - '0'.toNat
    else if 'a' ≤ char ∧ char ≤ 'f' then char.toNat - 'a'.toNat + 10
    else if 'A' ≤ char ∧ char ≤ 'F' then char.toNat - 'A'.toNat + 10
    else 16
  if value < base then some value else none

/-- The value of the digits at the front, at most `limit` of them, and the rest. -/
def digits (base limit value : Nat) : Bytes → Nat × Bytes
  | [] => (value, [])
  | char :: rest =>
      match limit, digit? base char with
      | limit + 1, some digit => digits base limit (value * base + digit) rest
      | _, _ => (value, char :: rest)

/-- The number that the digits of a byte string spell. -/
def toNat (bytes : Bytes) : Nat :=
  (digits 10 bytes.length 0 bytes).1

/-- Whether a byte is blank between numbers: a space or a control character that moves. -/
def isSpace (char : Char) : Bool :=
  char = ' ' || (9 ≤ char.toNat && char.toNat ≤ 13)

/-- One byte of a value. -/
def byte (value : Nat) : Char := Char.ofNat (value % 256)

/-- Whether a byte may start the name of a variable. -/
def startsName (char : Char) : Bool :=
  char.isAlpha || char = '_'

/-- Whether a byte may stand in the name of a variable. -/
def continuesName (char : Char) : Bool :=
  char.isAlphanum || char = '_'

/-- Whether a byte string is the name of a variable. -/
def isName : Bytes → Bool
  | [] => false
  | first :: rest => startsName first && rest.all continuesName

end Bytes

/-- A numeral as it is read from the front of a byte string: the value without its sign, and
what is left. -/
structure Numeral where
  negative : Bool
  magnitude : Nat
  rest : Bytes
  deriving DecidableEq, Repr

/-- Read a numeral: blanks, a sign, and digits. With `bases` a leading `0x` asks for base
sixteen and a leading zero for base eight. There is none without a digit. -/
def Numeral.read? (bases : Bool) (bytes : Bytes) : Option Numeral :=
  let text := bytes.dropWhile Bytes.isSpace
  let negative := text.head? = some '-'
  let text := if negative ∨ text.head? = some '+' then text.drop 1 else text
  match text with
  | '0' :: 'x' :: char :: rest | '0' :: 'X' :: char :: rest =>
      if bases ∧ (Bytes.digit? 16 char).isSome then some (take 16 negative (char :: rest))
      else some (take (if bases then 8 else 10) negative text)
  | '0' :: _ => some (take (if bases then 8 else 10) negative text)
  | char :: _ =>
      if (Bytes.digit? 10 char).isSome then some (take 10 negative text) else none
  | [] => none
where
  /-- The digits in a base. -/
  take (base : Nat) (negative : Bool) (text : Bytes) : Numeral :=
    let (magnitude, rest) := Bytes.digits base text.length 0 text
    { negative, magnitude, rest }

/-- The greatest number of a signed word. -/
def maxSigned : Nat := 9223372036854775807

/-- The greatest number of an unsigned word. -/
def maxUnsigned : Nat := 18446744073709551615

/-- Whether a numeral fits into a signed word. -/
def Numeral.fits (numeral : Numeral) : Bool :=
  numeral.magnitude ≤ maxSigned || (numeral.negative && numeral.magnitude = maxSigned + 1)

/-- The value of a numeral, kept within a signed word. -/
def Numeral.signed (numeral : Numeral) : Int :=
  if numeral.negative then -(min numeral.magnitude (maxSigned + 1) : Nat)
  else (min numeral.magnitude maxSigned : Nat)

/-- The number that a text spells, if it is one that counts things and is not too great. -/
def Numeral.count? (text : Bytes) : Option Nat := do
  let numeral ← Numeral.read? false text
  guard (numeral.rest.all Bytes.isSpace ∧ numeral.magnitude ≤ 2147483647 ∧
    (¬numeral.negative ∨ numeral.magnitude = 0))
  return numeral.magnitude

/-- A number as a signed word. -/
def wrapSigned (value : Int) : Int :=
  Int.bmod value 18446744073709551616

/-- The bits of a signed word as a number. -/
def wordBits (value : Int) : Nat :=
  (value % 18446744073709551616).toNat

end ScanCircuit.Shell
