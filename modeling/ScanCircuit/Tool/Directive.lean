import ScanCircuit.Shell.Bytes

/-!
# Directives

How a text or a number is laid out by a directive such as `%-5.3d`: flags, a least width,
a precision, and a letter for the kind of conversion.

This is a part of the tools that a generator may call. They serve to run generators from
the command line only; no theorem depends on them.
-/

namespace ScanCircuit.Tool

open Shell

/-- A directive. -/
structure Directive where
  flags : Bytes := []
  width : Nat := 0
  precision : Option Nat := none
  conversion : Char := 's'
  deriving DecidableEq, Repr

namespace Directive

/-- Whether a flag is set. -/
def has (directive : Directive) (flag : Char) : Bool :=
  directive.flags.contains flag

/-- The directive with a width that may be negative, which asks for the left side. -/
def withWidth (directive : Directive) (width : Int) : Directive :=
  if width < 0 then { directive with width := width.natAbs, flags := '-' :: directive.flags }
  else { directive with width := width.toNat }

/-- Fill with blanks to the width. -/
def pad (directive : Directive) (text : Bytes) : Bytes :=
  let filling := List.replicate (directive.width - text.length) ' '
  if directive.has '-' then text ++ filling else filling ++ text

/-- A text, cut at the precision. -/
def showText (directive : Directive) (text : Bytes) : Bytes :=
  directive.pad <|
    match directive.precision with
    | some precision => text.take precision
    | none => text

/-- A sign in front of digits, with zeros between them to the width if that is asked for. -/
def withSign (directive : Directive) (zeros : Bool) (sign digits : Bytes) : Bytes :=
  if zeros ∧ ¬directive.has '-' then
    let filling := List.replicate (directive.width - sign.length - digits.length) '0'
    sign ++ filling ++ digits
  else directive.pad (sign ++ digits)

/-- The sign of a signed number. -/
def signOf (directive : Directive) (negative : Bool) : Bytes :=
  if negative then ['-']
  else if directive.has '+' then ['+']
  else if directive.has ' ' then [' ']
  else []

/-- Digits with zeros in front up to the precision. A precision of zero shows no zero. -/
def withPrecision (directive : Directive) (value : Nat) (digits : Bytes) : Bytes :=
  match directive.precision with
  | none => digits
  | some precision =>
      if value = 0 ∧ precision = 0 then []
      else List.replicate (precision - digits.length) '0' ++ digits

/-- A signed number. -/
def showSigned (directive : Directive) (value : Int) : Bytes :=
  let digits := directive.withPrecision value.natAbs (Bytes.ofNat value.natAbs)
  directive.withSign (directive.has '0' && directive.precision.isNone)
    (directive.signOf (value < 0)) digits

/-- A number without a sign, in the base that the conversion asks for. -/
def showUnsigned (directive : Directive) (value : Nat) : Bytes :=
  let base :=
    if directive.conversion = 'u' then 10 else if directive.conversion = 'o' then 8 else 16
  let digits := Nat.toDigits base value
  let digits := if directive.conversion = 'X' then digits.map Char.toUpper else digits
  let digits := directive.withPrecision value digits
  let marked := directive.has '#'
  let digits :=
    if marked ∧ base = 8 ∧ digits.head? ≠ some '0' then '0' :: digits else digits
  let sign : Bytes :=
    if marked ∧ base = 16 ∧ value ≠ 0 then ['0', directive.conversion] else []
  directive.withSign (directive.has '0' && directive.precision.isNone) sign digits

end Directive

/-- The letters of signed numbers. -/
def signedLetters : List Char := ['d', 'i']

/-- The letters of unsigned numbers. -/
def unsignedLetters : List Char := ['o', 'u', 'x', 'X']

/-- The letters of numbers with a fraction. -/
def fractionLetters : List Char := ['a', 'A', 'e', 'E', 'f', 'F', 'g', 'G']

end ScanCircuit.Tool
