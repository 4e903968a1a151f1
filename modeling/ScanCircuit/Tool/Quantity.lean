import ScanCircuit.Tool.Directive

/-!
# Numbers with a fraction

A decimal text is rounded to a binary number with so many bits, and that number is laid
out in decimal again, rounded to the nearest with ties to even digits.

This is a part of the tools that a generator may call. They serve to run generators from
the command line only; no theorem depends on them.
-/

namespace ScanCircuit.Tool

open Shell

/-- A number as a fraction, or one of the values that are none. -/
inductive Quantity where
  | finite (negative : Bool) (num den : Nat)
  | infinite (negative : Bool)
  | notANumber (negative : Bool)
  deriving DecidableEq, Repr

namespace Quantity

/-- The nearest whole number to a fraction, the even one of two. -/
def roundDiv (num den : Nat) : Nat :=
  let quotient := num / den
  let twice := 2 * (num % den)
  if twice > den ∨ (twice = den ∧ quotient % 2 = 1) then quotient + 1 else quotient

/-- How binary numbers are kept: the bits of a number, the least power of two that one is a
multiple of, and the power of two that all of them stay below. -/
structure Precision where
  bits : Nat
  least : Int
  limit : Nat
  deriving DecidableEq, Repr

/-- A number times a power of two, as a fraction. -/
def scaled (shift : Int) (num den : Nat) : Nat × Nat :=
  if shift ≥ 0 then (num * Nat.pow 2 shift.toNat, den) else (num, den * Nat.pow 2 shift.natAbs)

/-- The whole number and the power of two that a fraction other than zero is rounded to. -/
def binary (precision : Precision) (num den : Nat) : Nat × Int :=
  let top : Int := (Nat.log2 num : Int) - (Nat.log2 den : Int)
  let shift : Int := (precision.bits : Int) - top
  -- One bit more than is needed is dropped if the quotient turns out too long.
  let (high, low) := scaled shift num den
  let shift := if high / low ≥ Nat.pow 2 precision.bits then shift - 1 else shift
  let shift := min shift (-precision.least)
  let (high, low) := scaled shift num den
  (roundDiv high low, -shift)

/-- A number as it is kept, and whether it is out of range. -/
def kept (precision : Precision) (negative : Bool) (num den : Nat) : Quantity × Bool :=
  if num = 0 then (.finite negative 0 1, false)
  else
    let (mantissa, power) := binary precision num den
    let (high, low) := scaled power mantissa 1
    if high ≥ low * Nat.pow 2 precision.limit then (.infinite negative, true)
    else
      -- A number with fewer bits than usual is out of range unless it is exact.
      let (units, unit) := scaled (-precision.least) high low
      let tiny := units < unit * Nat.pow 2 (precision.bits - 1)
      (.finite negative high low, tiny && high * den != num * low)

/-- Digits, a point and digits in a base: the value without the point, how many digits follow
it, and what is left. -/
def readDigits (base : Nat) (text : Bytes) : Option (Nat × Nat × Bytes) :=
  let isDigit (char : Char) : Bool := (Bytes.digit? base char).isSome
  let whole := text.takeWhile isDigit
  let rest := text.dropWhile isDigit
  let (fraction, rest) :=
    match rest with
    | '.' :: after => (after.takeWhile isDigit, after.dropWhile isDigit)
    | _ => ([], rest)
  if whole = [] ∧ fraction = [] then none
  else
    let digits := whole ++ fraction
    some ((Bytes.digits base digits.length 0 digits).1, fraction.length, rest)

/-- The exponent after a letter at the front, and what is left. -/
def readExponent (letter : Char) (text : Bytes) : Int × Bytes :=
  match text with
  | first :: rest =>
      if first.toLower = letter then
        let negative := rest.head? = some '-'
        let digits := if negative ∨ rest.head? = some '+' then rest.drop 1 else rest
        let taken := digits.takeWhile Char.isDigit
        if taken = [] then (0, text)
        else
          let value : Int := min (Bytes.toNat taken) 20000
          (if negative then -value else value, digits.drop taken.length)
      else (0, text)
  | [] => (0, text)

/-- A number that has been read. -/
structure Found where
  quantity : Quantity
  /-- Whether the number cannot be kept as it is. -/
  outOfRange : Bool := false
  rest : Bytes

/-- Read a number, and what is left. -/
def read? (precision : Precision) (text : Bytes) : Option Found :=
  let text := text.dropWhile Bytes.isSpace
  let negative := text.head? = some '-'
  let text := if negative ∨ text.head? = some '+' then text.drop 1 else text
  let lower := text.map Char.toLower
  let keep (num den : Nat) (rest : Bytes) : Found :=
    let (quantity, outOfRange) := kept precision negative num den
    { quantity, outOfRange, rest }
  if "infinity".toList.isPrefixOf lower then
    some { quantity := .infinite negative, rest := text.drop 8 }
  else if "inf".toList.isPrefixOf lower then
    some { quantity := .infinite negative, rest := text.drop 3 }
  else if "nan".toList.isPrefixOf lower then
    some { quantity := .notANumber negative, rest := text.drop 3 }
  else
    match "0x".toList.isPrefixOf lower, readDigits 16 (text.drop 2) with
    | true, some (value, places, rest) =>
        let (exponent, rest) := readExponent 'p' rest
        let (num, den) := scaled (exponent - 4 * places) value 1
        some (keep num den rest)
    | _, _ => do
        let (value, places, rest) ← readDigits 10 text
        let (exponent, rest) := readExponent 'e' rest
        let power := exponent - places
        let (num, den) :=
          if power ≥ 0 then (value * Nat.pow 10 power.toNat, 1)
          else (value, Nat.pow 10 power.natAbs)
        some (keep num den rest)

/-- A value with so many digits after the point. -/
def fixed (places num den : Nat) : Bytes :=
  let digits := Bytes.ofNat (roundDiv (num * Nat.pow 10 places) den)
  let digits := List.replicate (places + 1 - digits.length) '0' ++ digits
  let whole := digits.take (digits.length - places)
  if places = 0 then whole else whole ++ '.' :: digits.drop (digits.length - places)

/-- The power of ten of the first digit of a fraction, by trial from above. -/
def firstPower (num den : Nat) : Nat → Int → Int
  | 0, power => power
  | fuel + 1, power =>
      let reached :=
        if power ≥ 0 then num ≥ den * Nat.pow 10 power.toNat
        else num * Nat.pow 10 power.natAbs ≥ den
      if reached then power else firstPower num den fuel (power - 1)

/-- The digits of a value with one of them before the point, and its power of ten. -/
def scientific (places num den : Nat) : Bytes × Int :=
  if num = 0 then (List.replicate (places + 1) '0', 0)
  else
    let size : Int := (Nat.log2 num : Int) - (Nat.log2 den : Int)
    let start := (if size < 0 then size / 4 else size / 3) + 2
    let power := firstPower num den 20000 start
    let digitsAt (power : Int) : Nat :=
      let shift : Int := places - power
      if shift ≥ 0 then roundDiv (num * Nat.pow 10 shift.toNat) den
      else roundDiv num (den * Nat.pow 10 shift.natAbs)
    let digits := digitsAt power
    if digits ≥ Nat.pow 10 (places + 1) then (Bytes.ofNat (digits / 10), power + 1)
    else (Bytes.ofNat digits, power)

/-- The digits with a point after the first one. -/
def pointed (digits : Bytes) : Bytes :=
  match digits with
  | [] => []
  | [only] => [only]
  | first :: rest => first :: '.' :: rest

/-- An exponent with at least two digits. -/
def exponentText (letter : Char) (power : Int) : Bytes :=
  let digits := Bytes.ofNat power.natAbs
  let digits := if digits.length < 2 then '0' :: digits else digits
  letter :: (if power < 0 then '-' else '+') :: digits

/-- Leave out zeros at the end of a fraction, and its point if nothing is left after it. -/
def dropZeros (text : Bytes) : Bytes :=
  if text.contains '.' then
    let kept := (text.reverse.dropWhile (· = '0')).reverse
    if kept.getLast? = some '.' then kept.dropLast else kept
  else text

/-- The hexadecimal digits of a value with one of them before the point, and its power of two.
The first digit holds the bits that do not fill a digit, or four of them. -/
def hexadecimal (bits : Nat) (places : Option Nat) (num den : Nat) : Bytes × Int :=
  if num = 0 then (List.replicate (places.getD 0 + 1) '0', 0)
  else
    let count := (bits - 1) / 4
    let (mantissa, power) := binary { bits, least := -20000, limit := 20000 } num den
    let shown := min (places.getD count) count
    let unit := Nat.pow 16 (count - shown)
    let rounded := roundDiv mantissa unit
    let digits := Nat.toDigits 16 rounded
    let power := power + 4 * count
    -- A carry out of the first digit makes the number one digit longer.
    let (digits, power) :=
      if digits.length > shown + 1 then (digits.dropLast, power + 4) else (digits, power)
    match places with
    | some places => (digits ++ List.replicate (places - shown) '0', power)
    | none =>
        let kept := ((digits.drop 1).reverse.dropWhile (· = '0')).reverse
        (digits.take 1 ++ kept, power)

/-- An exponent with as many digits as it needs. -/
def shortExponent (power : Int) : Bytes :=
  'p' :: (if power < 0 then '-' else '+') :: Bytes.ofNat power.natAbs

/-- Digits with a point after them if they have none and it is asked for. -/
def withPoint (directive : Directive) (text : Bytes) : Bytes :=
  if directive.has '#' ∧ ¬text.contains '.' then text ++ ['.'] else text

/-- A finite value without its sign. -/
def showFinite (bits : Nat) (directive : Directive) (num den : Nat) : Bytes :=
  let places := directive.precision.getD 6
  match directive.conversion.toLower with
  | 'f' => withPoint directive (fixed places num den)
  | 'e' =>
      let (digits, power) := scientific places num den
      withPoint directive (pointed digits) ++ exponentText directive.conversion power
  | 'a' =>
      let (digits, power) := hexadecimal bits directive.precision num den
      withPoint directive (pointed digits) ++ shortExponent power
  | _ =>
      let count := if places = 0 then 1 else places
      let (digits, power) := scientific (count - 1) num den
      let letter := if directive.conversion = 'G' then 'E' else 'e'
      let text :=
        if power < -4 ∨ power ≥ count then pointed digits
        else fixed (count - 1 - power).toNat num den
      let text := if directive.has '#' then withPoint directive text else dropZeros text
      if power < -4 ∨ power ≥ count then text ++ exponentText letter power else text

/-- A number laid out by a directive. `bits` says how many bits it is kept with. -/
def format (bits : Nat) (directive : Directive) : Quantity → Bytes
  | finite negative num den =>
      let mark : Bytes := if directive.conversion.toLower = 'a' then cased "0x".toList else []
      directive.withSign (directive.has '0') (directive.signOf negative ++ mark)
        (cased (showFinite bits directive num den))
  | infinite negative =>
      directive.withSign false (directive.signOf negative) (cased "inf".toList)
  | notANumber negative =>
      directive.withSign false (directive.signOf negative) (cased "nan".toList)
where
  /-- In capitals if the conversion is a capital. -/
  cased (text : Bytes) : Bytes :=
    if directive.conversion.isUpper then text.map Char.toUpper else text

end Quantity

end ScanCircuit.Tool
