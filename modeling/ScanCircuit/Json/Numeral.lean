import ScanCircuit.Json.Value
import ScanCircuit.Json.Fault

/-!
# Numerals in JSON text

A numeral is read one character at a time. Its digits are kept as a significand
below `2 ^ 64` and a power of ten; digits that no longer fit only move the power.
A numeral has to denote a finite double, so at its end the value is tested against
the largest one, with the rounding that double arithmetic performs.
-/

namespace ScanCircuit.Json

/-- Which part of a numeral was read last. -/
inductive Numeral.Phase where
  /-- The minus sign. -/
  | sign
  /-- A leading zero. -/
  | zero
  /-- Digits before the point, all kept in the significand. -/
  | whole
  /-- Digits before the point, of which the significand has only the first. -/
  | longWhole
  /-- The point. -/
  | point
  /-- Digits after the point. -/
  | fraction
  /-- Digits after the point that are too small to keep. -/
  | longFraction
  /-- The letter of the exponent. -/
  | mark
  /-- The sign of the exponent. -/
  | markSign
  /-- Digits of the exponent. -/
  | exponent
  /-- Digits of an exponent so small that the value is zero. -/
  | vanished
  deriving DecidableEq, Repr

/-- A numeral in the middle of being read. -/
structure Numeral where
  phase : Numeral.Phase
  negative : Bool := false
  significand : Nat := 0
  /-- The power of ten that the digits imply, apart from a written exponent. -/
  scale : Int := 0
  exponentNegative : Bool := false
  exponent : Nat := 0
  deriving DecidableEq, Repr

namespace Numeral

/-- The value of a decimal digit. -/
def digit? (char : Char) : Option Nat :=
  if char.isDigit then some (char.toNat - '0'.toNat) else none

/-- The nearest number with at most 53 significant bits, ties going to the even one. -/
def roundToDouble (number : Nat) : Nat :=
  let bits := number.log2 + 1
  if bits ≤ 53 then number
  else
    let unit := Nat.pow 2 (bits - 53)
    let quotient := number / unit
    let rest := number % unit
    if 2 * rest < unit then quotient * unit
    else if unit < 2 * rest then (quotient + 1) * unit
    else if quotient % 2 = 0 then quotient * unit
    else (quotient + 1) * unit

/-- Numbers from here on round to no finite double. -/
def overflowBound : Nat := Nat.pow 2 1024 - Nat.pow 2 970

/-- Whether a significand times a power of ten is no finite double. The significand and
the power are rounded before they are multiplied. -/
def overflows (significand : Nat) (power : Int) : Bool :=
  significand ≠ 0 && 0 ≤ power &&
    (308 < power ||
      overflowBound ≤ roundToDouble significand * roundToDouble (Nat.pow 10 power.toNat))

/-- What a character does to a numeral. -/
inductive Step where
  | more (numeral : Numeral)
  | ended
  | failed (cause : Cause)
  deriving DecidableEq, Repr

/-- The numeral that begins with a digit. -/
def start (negative : Bool) (digit : Nat) : Numeral :=
  { phase := if digit = 0 then .zero else .whole, negative, significand := digit }

/-- Whether one more digit fits in the significand. -/
def fits (numeral : Numeral) (digit : Nat) : Bool :=
  numeral.significand * 10 + digit < naturalBound

/-- The numeral with one more digit in its significand. -/
def push (numeral : Numeral) (digit : Nat) : Numeral :=
  { numeral with significand := numeral.significand * 10 + digit }

/-- A character that may follow the digits before the point. -/
def afterWhole (numeral : Numeral) (char : Char) : Step :=
  if char = '.' then .more { numeral with phase := .point }
  else if char = 'e' ∨ char = 'E' then .more { numeral with phase := .mark }
  else .ended

/-- A character that may follow the digits after the point. -/
def afterFraction (numeral : Numeral) (char : Char) : Step :=
  if char = 'e' ∨ char = 'E' then .more { numeral with phase := .mark } else .ended

/-- A digit after the point. -/
def fractionDigit (numeral : Numeral) (digit : Nat) : Step :=
  if numeral.fits digit then
    .more { numeral.push digit with phase := .fraction, scale := numeral.scale - 1 }
  else .more { numeral with phase := .longFraction }

/-- The first digit of the exponent. -/
def exponentStart (numeral : Numeral) (digit : Nat) : Step :=
  .more { numeral with phase := .exponent, exponent := digit }

/-- A further digit of the exponent, which has to stay below `2 ^ 31`. -/
def exponentDigit (numeral : Numeral) (digit : Nat) : Step :=
  let exponent := numeral.exponent * 10 + digit
  if exponent < 0x80000000 then .more { numeral with exponent }
  else if numeral.significand ≠ 0 ∧ !numeral.exponentNegative then .failed .numberOutOfRange
  else .more { numeral with phase := .vanished }

/-- Read one character. -/
def step (numeral : Numeral) (char : Char) : Step :=
  match numeral.phase, digit? char with
  | .sign, some digit => .more (start numeral.negative digit)
  | .sign, none => .failed .invalidNumber
  | .zero, some _ => .failed .invalidNumber
  | .zero, none => numeral.afterWhole char
  | .whole, some digit =>
      if numeral.fits digit then .more (numeral.push digit)
      else .more { numeral with phase := .longWhole, scale := 1 }
  | .whole, none => numeral.afterWhole char
  | .longWhole, some _ => .more { numeral with scale := numeral.scale + 1 }
  | .longWhole, none => numeral.afterWhole char
  | .point, some digit => numeral.fractionDigit digit
  | .point, none => .failed .invalidNumber
  | .fraction, some digit => numeral.fractionDigit digit
  | .fraction, none => numeral.afterFraction char
  | .longFraction, some _ => .more numeral
  | .longFraction, none => numeral.afterFraction char
  | .mark, some digit => numeral.exponentStart digit
  | .mark, none =>
      if char = '+' then .more { numeral with phase := .markSign }
      else if char = '-' then .more { numeral with phase := .markSign, exponentNegative := true }
      else .failed .invalidNumber
  | .markSign, some digit => numeral.exponentStart digit
  | .markSign, none => .failed .invalidNumber
  | .exponent, some digit => numeral.exponentDigit digit
  | .exponent, none => .ended
  | .vanished, some _ => .more numeral
  | .vanished, none => .ended

/-- The power of ten of the significand. -/
def power (numeral : Numeral) : Int :=
  if numeral.exponentNegative then numeral.scale - numeral.exponent
  else numeral.scale + numeral.exponent

/-- The value of a numeral that ends here. -/
def value (numeral : Numeral) : Except Cause Value :=
  match numeral.phase with
  | .sign | .point | .mark | .markSign => .error .eofValue
  | .zero | .whole =>
      .ok (if numeral.negative then .number else .natural numeral.significand)
  | .vanished => .ok .number
  | .longWhole | .fraction | .longFraction | .exponent =>
      if overflows numeral.significand numeral.power then .error .numberOutOfRange
      else .ok .number

end Numeral

end ScanCircuit.Json
