/-!
# Faults in JSON text

Why a text is not JSON, and where. Places are byte offsets; a `Position` gives the
same place as a line and a column, both counted in bytes.
-/

namespace ScanCircuit.Json

/-- The ways in which a text fails to be JSON. -/
inductive Cause where
  | eofValue
  | eofString
  | eofList
  | eofObject
  | expectedValue
  | expectedIdent
  | expectedColon
  | expectedListSeparator
  | expectedObjectSeparator
  | trailingComma
  | trailingCharacters
  | keyNotString
  | controlCharacter
  | invalidEscape
  | loneSurrogate
  | unfinishedSurrogate
  | invalidNumber
  | numberOutOfRange
  | tooDeep
  deriving DecidableEq, Repr

namespace Cause

/-- The words for a cause. -/
def message : Cause → String
  | eofValue => "EOF while parsing a value"
  | eofString => "EOF while parsing a string"
  | eofList => "EOF while parsing a list"
  | eofObject => "EOF while parsing an object"
  | expectedValue => "expected value"
  | expectedIdent => "expected ident"
  | expectedColon => "expected `:`"
  | expectedListSeparator => "expected `,` or `]`"
  | expectedObjectSeparator => "expected `,` or `\x7d`"
  | trailingComma => "trailing comma"
  | trailingCharacters => "trailing characters"
  | keyNotString => "key must be a string"
  | controlCharacter => "control character (\\u0000-\\u001F) found while parsing a string"
  | invalidEscape => "invalid escape"
  | loneSurrogate => "lone leading surrogate in hex escape"
  | unfinishedSurrogate => "unexpected end of hex escape"
  | invalidNumber => "invalid number"
  | numberOutOfRange => "number out of range"
  | tooDeep => "recursion limit exceeded"

/-- Whether the text simply stopped too early. -/
def isEof : Cause → Bool
  | eofValue | eofString | eofList | eofObject => true
  | _ => false

end Cause

/-- A cause together with the number of bytes before the place it was noticed. -/
structure Fault where
  cause : Cause
  offset : Nat
  deriving DecidableEq, Repr

/-- A place in a text: its line from one, and the bytes of that line before it. -/
structure Position where
  line : Nat
  column : Nat
  deriving DecidableEq, Repr

namespace Position

/-- The place that lies `bytes` further on in the remaining characters. -/
def advance (position : Position) (bytes : Nat) : List Char → Position
  | [] => position
  | char :: rest =>
      if bytes = 0 then position
      else if char = '\n' then advance ⟨position.line + 1, 0⟩ (bytes - 1) rest
      else
        let width := min bytes char.utf8Size
        advance ⟨position.line, position.column + width⟩ (bytes - width) rest

/-- The place after the first `offset` bytes of a text. -/
def ofOffset (offset : Nat) (text : List Char) : Position :=
  advance ⟨1, 0⟩ offset text

end Position

/-- The words for a cause and the place it was noticed in the text. -/
def Fault.message (fault : Fault) (text : List Char) : String :=
  let position := Position.ofOffset fault.offset text
  fault.cause.message ++ s!" at line {position.line} column {position.column}"

end ScanCircuit.Json
