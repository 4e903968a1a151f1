import ScanCircuit.Tool.Basic

/-!
# Backslash escapes

The escapes that `echo` and `printf` know. Each of them has a dialect: which escapes there
are, and how octal digits are counted.

This is a part of the tools that a generator may call. They serve to run generators from
the command line only; no theorem depends on them.
-/

namespace ScanCircuit.Tool

open Shell

/-- Which escapes count. -/
structure Dialect where
  /-- The number of octal digits after a backslash and a zero. -/
  afterZero : Nat
  /-- Whether octal digits may also follow a backslash without a zero. -/
  bareOctal : Bool
  /-- Whether `\x` names a byte by hexadecimal digits. -/
  hexadecimal : Bool
  /-- Whether `\c` ends the output. -/
  stops : Bool
  /-- Whether a double quote may follow a backslash. -/
  doubleQuote : Bool
  /-- Whether `\u` and `\U` name characters. -/
  universal : Bool := false
  /-- Whether the byte after a backslash without a meaning keeps its own meaning. -/
  keepsUnknown : Bool := false
  deriving DecidableEq, Repr

/-- What a backslash and the bytes after it stand for. -/
inductive Escape where
  | bytes (bytes : Bytes) (rest : Bytes)
  /-- The output ends. -/
  | stop
  /-- A hexadecimal number without digits. -/
  | missingDigits
  /-- The name of a character that is to be written as itself. -/
  | badCharacter (spelled : Bytes)
  deriving DecidableEq, Repr

/-- The byte of a one-letter escape. -/
def escapeByte? (char : Char) : Option Char :=
  match char with
  | '\\' => some '\\'
  | 'a' => some '\x07'
  | 'b' => some '\x08'
  | 'e' => some '\x1b'
  | 'f' => some '\x0c'
  | 'n' => some '\n'
  | 'r' => some '\r'
  | 't' => some '\t'
  | 'v' => some '\x0b'
  | _ => none

/-- Read what follows a backslash. -/
def Dialect.escape (dialect : Dialect) : Bytes → Escape
  | [] => .bytes ['\\'] []
  | char :: rest =>
      match escapeByte? char with
      | some byte => .bytes [byte] rest
      | none =>
          if char = 'c' ∧ dialect.stops then .stop
          else if char = '"' ∧ dialect.doubleQuote then .bytes ['"'] rest
          else if char = '0' then
            let (value, after) := Bytes.digits 8 dialect.afterZero 0 rest
            .bytes [Bytes.byte value] after
          else if dialect.bareOctal ∧ (Bytes.digit? 8 char).isSome then
            let (value, after) := Bytes.digits 8 3 0 (char :: rest)
            .bytes [Bytes.byte value] after
          else if char = 'x' ∧ dialect.hexadecimal then
            let (value, after) := Bytes.digits 16 2 0 rest
            if after.length = rest.length then .missingDigits
            else .bytes [Bytes.byte value] after
          else if (char = 'u' ∨ char = 'U') ∧ dialect.universal then
            let count := if char = 'u' then 4 else 8
            let (value, after) := Bytes.digits 16 count 0 rest
            if rest.length - after.length < count then .missingDigits
            else characterEscape char value (rest.take count) after
          else if dialect.keepsUnknown then .bytes ['\\'] (char :: rest)
          else .bytes ['\\', char] rest
where
  /-- A character outside ASCII stays an escape, with capital digits. -/
  characterEscape (letter : Char) (value : Nat) (digits after : Bytes) : Escape :=
    if value = 0x24 ∨ value = 0x40 ∨ value = 0x60 then .bytes [Char.ofNat value] after
    else if value < 0xA0 ∨ (0xD800 ≤ value ∧ value ≤ 0xDFFF) then
      .badCharacter ('\\' :: letter :: digits.map Char.toLower)
    else if value < 0x10000 then
      .bytes ("\\u".toList ++ (digits.drop (digits.length - 4)).map Char.toUpper) after
    else .bytes ("\\U".toList ++ digits.map Char.toUpper) after

/-- The bytes of a text with its escapes, and whether the output ends after them. -/
def Dialect.expand (dialect : Dialect) : Nat → Bytes → Bytes → Bytes × Bool
  | 0, collected, _ => (collected.reverse, false)
  | _ + 1, collected, [] => (collected.reverse, false)
  | fuel + 1, collected, char :: rest =>
      if char = '\\' then
        match dialect.escape rest with
        | .bytes bytes after => dialect.expand fuel (bytes.reverse ++ collected) after
        | .stop => (collected.reverse, true)
        | .missingDigits | .badCharacter _ => dialect.expand fuel ('\\' :: collected) rest
      else dialect.expand fuel (char :: collected) rest

/-- A text with its escapes. -/
def Dialect.unescape (dialect : Dialect) (text : Bytes) : Bytes × Bool :=
  dialect.expand (text.length + 1) [] text

end ScanCircuit.Tool
