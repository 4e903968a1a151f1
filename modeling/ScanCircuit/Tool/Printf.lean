import ScanCircuit.Tool.Escape
import ScanCircuit.Tool.Quantity

/-!
# `printf`

Print arguments by a format, which is used again until all arguments are used. Missing
arguments count as empty or zero. The program and the command inside a script differ in
their escapes, in their messages, and in when output appears among the messages.

This is a part of the tools that a generator may call. They serve to run generators from
the command line only; no theorem depends on them.
-/

namespace ScanCircuit.Tool

open Shell

/-- How a number that cannot be read is complained about. -/
inductive NumberFault where
  | notNumeric
  | incomplete
  | outOfRange
  deriving DecidableEq, Repr

/-- The ways in which the two kinds of `printf` differ. -/
structure PrintfKind where
  /-- The escapes of a format. -/
  format : Dialect
  /-- The escapes of an argument of `%b`. -/
  argument : Dialect
  /-- How numbers with a fraction are kept. -/
  precision : Quantity.Precision
  flags : Bytes
  /-- Letters that may stand in front of a conversion. -/
  sizes : Bytes
  complain : Bytes → NumberFault → Bytes
  badDirective : Bytes → Bytes
  badEscape : Bytes → Bytes
  /-- What is said about a format that ends inside a directive. -/
  endedDirective : Bytes → Bytes
  /-- Whether a quote needs a byte after it to stand for a number. -/
  strictQuote : Bool
  /-- Whether `%q` writes an argument as a shell would read it. -/
  shellQuotes : Bool
  /-- Whether an escape that ends the output also makes the run a success. -/
  stopSucceeds : Bool
  /-- What is said about bytes after the one that a quote stands for. -/
  extraBytes : Bytes → Option Bytes
  /-- Whether a number out of range counts before bytes after it. -/
  rangeFirst : Bool
  /-- Which conversions may have which flags, and whether they may have a precision. -/
  allows : Char → Bytes → Bool → Bool
  /-- What is said about a width or a precision from an argument that is too large; without it
  such a number is cut to thirty-two bits. -/
  badSize : Option (Bool → Bytes → Bytes)
  /-- The status after a message that ends the run. -/
  status : Nat

/-- What has been done so far, last piece first. -/
structure Printing where
  args : List Bytes
  writes : List Write := []
  status : Nat := 0
  /-- Whether an argument has been used. -/
  used : Bool := false
  /-- Whether the output has ended. -/
  stopped : Bool := false

namespace Printing

/-- Print bytes. -/
def put (state : Printing) (bytes : Bytes) : Printing :=
  { state with writes := .out bytes :: state.writes }

/-- Complain and go on. -/
def complain (state : Printing) (message : Bytes) : Printing :=
  { state with writes := .err message :: state.writes, status := 1 }

/-- Say something that is no complaint. -/
def mention (state : Printing) (message : Option Bytes) : Printing :=
  match message with
  | some message => { state with writes := .err message :: state.writes }
  | none => state

/-- Complain and end. -/
def abandon (state : Printing) (message : Bytes) (status : Nat) : Printing :=
  { state with writes := .err message :: state.writes, status, stopped := true }

/-- The next argument, if there is one. -/
def take (state : Printing) : Option Bytes × Printing :=
  match state.args with
  | arg :: rest => (some arg, { state with args := rest, used := true })
  | [] => (none, state)

end Printing

/-- End the output. -/
def Printing.stop (state : Printing) (kind : PrintfKind) : Printing :=
  { state with stopped := true, status := if kind.stopSucceeds then 0 else state.status }

/-- The byte after a quote in front, as a number. -/
def quotedByte? (kind : PrintfKind) (arg : Bytes) : Option Nat :=
  match arg with
  | '"' :: rest | '\'' :: rest =>
      if rest = [] ∧ kind.strictQuote then none else some ((rest.head?.map Char.toNat).getD 0)
  | _ => none

/-- Complain about a number that is out of range or has bytes after it. -/
def Printing.judge (state : Printing) (kind : PrintfKind) (arg : Bytes)
    (complete inRange : Bool) : Printing :=
  if ¬inRange ∧ (complete ∨ kind.rangeFirst) then state.complain (kind.complain arg .outOfRange)
  else if ¬complete then state.complain (kind.complain arg .incomplete)
  else state

/-- Read a number argument. A quote in front stands for the byte after it. -/
def takeInteger (kind : PrintfKind) (unsigned : Bool) (state : Printing) : Int × Printing :=
  match state.take with
  | (none, state) => (0, state)
  | (some arg, state) =>
      match quotedByte? kind arg with
      | some value => (value, state.mention (kind.extraBytes (arg.drop 2)))
      | none =>
          match Numeral.read? true arg with
          | none =>
              (0, if arg = [] then state else state.complain (kind.complain arg .notNumeric))
          | some numeral =>
              let limit := if unsigned then maxUnsigned else maxSigned
              let inRange := if unsigned then numeral.magnitude ≤ maxUnsigned else numeral.fits
              let value : Int :=
                if unsigned then
                  if numeral.negative ∧ inRange then -(numeral.magnitude : Int)
                  else (min numeral.magnitude limit : Nat)
                else numeral.signed
              (value, state.judge kind arg (numeral.rest = []) inRange)

/-- Read an argument with a fraction. -/
def takeQuantity (kind : PrintfKind) (state : Printing) : Quantity × Printing :=
  match state.take with
  | (none, state) => (.finite false 0 1, state)
  | (some arg, state) =>
      match quotedByte? kind arg with
      | some value => (.finite false value 1, state.mention (kind.extraBytes (arg.drop 2)))
      | none =>
          match Quantity.read? kind.precision arg with
          | none =>
              (.finite false 0 1,
                if arg = [] then state else state.complain (kind.complain arg .notNumeric))
          | some found =>
              (found.quantity, state.judge kind arg (found.rest = []) (!found.outOfRange))

/-- A width or a precision: digits, or a star that stands for an argument. -/
def takeSize (kind : PrintfKind) ( isPrecision : Bool) (state : Printing) (format : Bytes) :
    Option Int × Bytes × Printing :=
  match format with
  | '*' :: rest =>
      let arg := state.args.head?.getD []
      let (value, state) := takeInteger kind false state
      match kind.badSize with
      | none => (some (Int.bmod value 4294967296), rest, state)
      | some message =>
          let tooLarge := value > 2147483647 || (!isPrecision && value < -2147483648)
          if tooLarge then
            (some 0, rest, state.abandon (message isPrecision arg) kind.status)
          else (some value, rest, state)
  | _ =>
      let digits := format.takeWhile Char.isDigit
      (if digits = [] then none else some (Bytes.toNat digits), format.drop digits.length, state)

/-- Print an argument by a directive. -/
def convert (kind : PrintfKind) (directive : Directive) (state : Printing) : Printing :=
  let letter := directive.conversion
  if letter = 's' then
    let (arg, state) := state.take
    state.put (directive.showText (arg.getD []))
  else if letter = 'c' then
    let (arg, state) := state.take
    state.put (directive.pad [((arg.getD []).head?).getD '\x00'])
  else if letter = 'b' then
    let (arg, state) := state.take
    let (text, stopped) := kind.argument.unescape (arg.getD [])
    let state := state.put (directive.showText text)
    if stopped then state.stop kind else state
  else if letter = 'q' then
    match state.take with
    | (some arg, state) => state.put (shellName false arg)
    | (none, state) => state
  else if signedLetters.contains letter then
    let (value, state) := takeInteger kind false state
    state.put (directive.showSigned value)
  else if unsignedLetters.contains letter then
    let (value, state) := takeInteger kind true state
    state.put (directive.showUnsigned (wordBits value))
  else
    let (quantity, state) := takeQuantity kind state
    state.put (quantity.format kind.precision.bits directive)

/-- Whether a letter asks for a conversion. -/
def isConversion (kind : PrintfKind) (letter : Char) : Bool :=
  (kind.shellQuotes && letter = 'q') || letter = 's' || letter = 'c' || letter = 'b' ||
    signedLetters.contains letter || unsignedLetters.contains letter ||
    fractionLetters.contains letter

/-- Carry out a directive whose sign has been read; return the format after it. -/
def runDirective (kind : PrintfKind) (state : Printing) (format : Bytes) : Bytes × Printing :=
  let flags := format.takeWhile kind.flags.contains
  let rest := format.drop flags.length
  let (width, rest, state) := takeSize kind false state rest
  let (precision, rest, state) :=
    match rest with
    | '.' :: after =>
        if state.stopped then (none, after, state)
        else
          let (precision, rest, state) := takeSize kind true state after
          (some (precision.getD 0), rest, state)
    | _ => (none, rest, state)
  let rest := rest.dropWhile kind.sizes.contains
  let spelled := '%' :: format.take (format.length - rest.length)
  match rest with
  | [] =>
      if state.stopped then ([], state)
      else ([], state.abandon (kind.endedDirective spelled) kind.status)
  | letter :: after =>
      -- Some conversions have to stand right after the sign.
      let bare := rest.length = format.length
      if state.stopped then ([], state)
      else if isConversion kind letter ∧
          (bare ∨ kind.allows letter flags precision.isSome) then
        let directive := ({ flags, conversion := letter } : Directive).withWidth (width.getD 0)
        let directive :=
          { directive with
            precision := precision.bind fun value => if value < 0 then none else some value.toNat }
        (after, convert kind directive state)
      else ([], state.abandon (kind.badDirective (spelled ++ [letter])) kind.status)

/-- One pass over a format. -/
def formatPass (kind : PrintfKind) : Nat → Printing → Bytes → Printing
  | 0, state, _ => state
  | _ + 1, state, [] => state
  | fuel + 1, state, char :: rest =>
      if state.stopped then state
      else if char = '%' then
        match rest with
        | '%' :: after => formatPass kind fuel (state.put ['%']) after
        | _ =>
            let (after, state) := runDirective kind state rest
            formatPass kind fuel state after
      else if char = '\\' then
        match kind.format.escape rest with
        | .bytes bytes after => formatPass kind fuel (state.put bytes) after
        | .stop => state.stop kind
        | .missingDigits =>
            state.abandon (kind.badEscape "missing hexadecimal number in escape".toList) kind.status
        | .badCharacter spelled =>
            state.abandon (kind.badEscape ("invalid universal character name ".toList ++ spelled))
              kind.status
      else
        let plain := rest.takeWhile fun char => char ≠ '%' ∧ char ≠ '\\'
        formatPass kind fuel (state.put (char :: plain)) (rest.drop plain.length)

/-- Use a format until all arguments are used. -/
def formatAll (kind : PrintfKind) (format : Bytes) : Nat → Printing → Printing
  | 0, state => state
  | fuel + 1, state =>
      let after := formatPass kind (format.length + 1) state format
      if after.stopped ∨ after.args = [] ∨ after.args.length = state.args.length then after
      else formatAll kind format fuel after

/-- Print arguments by a format. -/
def runPrintf (kind : PrintfKind) (format : Bytes) (args : List Bytes) : Printing :=
  formatAll kind format (args.length + 1) { args }

/-- The program. -/
def programPrintf (start : Start) : PrintfKind where
  format := { afterZero := 2, bareOctal := true, hexadecimal := true, stops := true,
              doubleQuote := true, universal := true }
  argument := { afterZero := 3, bareOctal := true, hexadecimal := true, stops := true,
                doubleQuote := true, universal := true }
  precision := { bits := 64, least := -16445, limit := 16384 }
  flags := "-+ #0'I".toList
  sizes := "lLhjtz".toList
  complain := fun arg fault =>
    start.complaint <| quotedWord arg ++
      (match fault with
        | .notNumeric => ": expected a numeric value"
        | .incomplete => ": value not completely converted"
        | .outOfRange => ": Numerical result out of range").toList
  badDirective := fun spelled =>
    start.complaint (spelled ++ ": invalid conversion specification".toList)
  badEscape := start.complaint
  endedDirective := fun spelled =>
    start.complaint (spelled ++ ": invalid conversion specification".toList)
  strictQuote := true
  shellQuotes := true
  extraBytes := fun extra =>
    if extra = [] then none
    else
      some (start.complaint ("warning: ".toList ++ extra ++
        ": character(s) following character constant have been ignored".toList))
  stopSucceeds := true
  rangeFirst := true
  allows := fun letter flags precise =>
    letter ≠ 'b' && letter ≠ 'q' &&
      !(letter = 'c' && precise) &&
      !((flags.contains '\'' || flags.contains 'I') && "aAceEosxX".toList.contains letter) &&
      !(flags.contains '#' && "cdisu".toList.contains letter) &&
      !(flags.contains '0' && "cs".toList.contains letter)
  badSize := some fun isPrecision arg =>
    let size := if isPrecision then "precision" else "field width"
    start.complaint ("invalid ".toList ++ size.toList ++ ": ".toList ++ quotedWord arg)
  status := 1

/-- The program `printf`. -/
def printf (start : Start) : Ran :=
  let args :=
    match start.args with
    | ['-', '-'] :: rest => rest
    | args => args
  if start.args = ["--help".toList] then start.help
  else if start.args = ["--version".toList] then version "printf"
  else
    match args with
    | [] => start.misuse 1 "missing operand".toList
    | format :: args =>
        let state := runPrintf (programPrintf start) format args
        let writes :=
          match state.args with
          | extra :: _ =>
              if state.stopped ∨ state.used then state.writes
              else
                let warning := "warning: ignoring excess arguments, starting with ".toList
                .err (start.complaint (warning ++ quotedWord extra)) :: state.writes
          | [] => state.writes
        { writes := writes.reverse, status := state.status }

/-- The command inside a script. Its complaints come before its output. -/
def scriptPrintf : PrintfKind where
  format :=
    { afterZero := 2, bareOctal := true, hexadecimal := false, stops := false,
      doubleQuote := false, keepsUnknown := true }
  argument := { afterZero := 3, bareOctal := true, hexadecimal := false, stops := true,
                doubleQuote := false }
  precision := { bits := 53, least := -1074, limit := 1024 }
  flags := "#-+ 0".toList
  sizes := []
  complain := fun arg fault =>
    arg ++
      (match fault with
        | .notNumeric => ": expected numeric value"
        | .incomplete => ": not completely converted"
        | .outOfRange => ": Numerical result out of range").toList
  badDirective := fun spelled => spelled ++ ": invalid directive".toList
  badEscape := id
  strictQuote := false
  shellQuotes := false
  extraBytes := fun _ => none
  stopSucceeds := false
  rangeFirst := false
  allows := fun _ _ _ => true
  badSize := none
  endedDirective := fun _ => "missing format character".toList
  status := 2

end ScanCircuit.Tool
