import ScanCircuit.Json.Numeral

/-!
# Reading JSON text

The reader is a machine that takes one character at a time. Its state is a stack of
the arrays and objects that are still open and what it expects next. The machine
stops as soon as one value is complete and hands back the characters after it, so
that a caller may look at the value before it looks at the rest.

Blanks are the space, the tab, the line feed and the carriage return. At most 127
arrays and objects may be open at once.
-/

namespace ScanCircuit.Json

/-- An array or object that is still open; what it has so far is held last first. -/
inductive Frame where
  | array (elements : List Value)
  /-- An object and the key that was read last. -/
  | object (members : List (String × Value)) (key : String)
  deriving Repr

/-- What may come next between the parts of a value. -/
inductive Expect where
  /-- A value. -/
  | value
  /-- The first element of an array, or its end. -/
  | firstElement
  /-- An element after a comma. -/
  | element
  /-- A comma or the end of an array. -/
  | elementEnd
  /-- The first key of an object, or its end. -/
  | firstKey
  /-- A key after a comma. -/
  | key
  /-- The colon after a key. -/
  | colon
  /-- A comma or the end of an object. -/
  | memberEnd
  deriving DecidableEq, Repr

/-- How far an escape inside a string has been read. -/
inductive Escape where
  /-- No escape is open. -/
  | closed
  /-- The backslash. -/
  | opened
  /-- Some bytes after `\u`: how many, whether all were digits, their value, and the
  leading surrogate that came before. -/
  | code (bytes : Nat) (digits : Bool) (value : Nat) (leading : Option Nat)
  /-- A leading surrogate, which needs another escape. -/
  | leading (surrogate : Nat)
  /-- A leading surrogate and a backslash. -/
  | leadingOpened (surrogate : Nat)
  deriving DecidableEq, Repr

/-- What the machine is in the middle of. -/
inductive State where
  | expect (what : Expect)
  /-- A word of which these letters are still missing. -/
  | word (missing : List Char) (value : Value)
  | numeral (numeral : Numeral)
  /-- A string, its characters last first. -/
  | text (isKey : Bool) (chars : List Char) (escape : Escape)
  deriving Repr

/-- What one character does to the machine. -/
inductive Step where
  /-- The character is taken and reading goes on. -/
  | more (stack : List Frame) (state : State)
  /-- The character completes the value. -/
  | complete (value : Value)
  /-- The value was complete before the character. -/
  | completeBefore (value : Value)
  /-- Reading fails so many bytes after the start of the character. -/
  | failed (cause : Cause) (bytes : Nat)

/-- The most arrays and objects that may be open. -/
def maxDepth : Nat := 127

/-- Whether a character may stand between the parts of a value. -/
def isSpace (char : Char) : Bool :=
  char = ' ' || char = '\t' || char = '\n' || char = '\r'

/-- Hand a complete value to the innermost open array or object. -/
def deliver (value : Value) : List Frame → Step
  | [] => .complete value
  | .array elements :: stack => .more (.array (value :: elements) :: stack) (.expect .elementEnd)
  | .object members key :: stack =>
      .more (.object ((key, value) :: members) key :: stack) (.expect .memberEnd)

/-- Close the innermost open array or object. -/
def close : List Frame → Step
  | [] => .failed .expectedValue 1
  | .array elements :: stack => deliver (.array elements.reverse) stack
  | .object members _ :: stack => deliver (.object members.reverse) stack

/-- Open an array or object, unless too many are open. -/
def openFrame (stack : List Frame) (frame : Frame) (what : Expect) : Step :=
  if maxDepth ≤ stack.length then .failed .tooDeep 1 else .more (frame :: stack) (.expect what)

/-- The first character of a value. -/
def startValue (stack : List Frame) (char : Char) : Step :=
  if char = '"' then .more stack (.text false [] .closed)
  else if char = '[' then openFrame stack (.array []) .firstElement
  else if char = '\x7b' then openFrame stack (.object [] "") .firstKey
  else if char = '-' then .more stack (.numeral { phase := .sign, negative := true })
  else if char = 'n' then .more stack (.word ['u', 'l', 'l'] .null)
  else if char = 't' then .more stack (.word ['r', 'u', 'e'] (.bool true))
  else if char = 'f' then .more stack (.word ['a', 'l', 's', 'e'] (.bool false))
  else
    match Numeral.digit? char with
    | some digit => .more stack (.numeral (Numeral.start false digit))
    | none => .failed .expectedValue 1

/-- The first character of a key. -/
def startKey (stack : List Frame) (char : Char) : Step :=
  if char = '"' then .more stack (.text true [] .closed) else .failed .keyNotString 1

/-- A character between the parts of a value. -/
def stepExpect (stack : List Frame) (what : Expect) (char : Char) : Step :=
  if isSpace char then .more stack (.expect what)
  else
    match what with
    | .value => startValue stack char
    | .firstElement => if char = ']' then close stack else startValue stack char
    | .element => if char = ']' then .failed .trailingComma 1 else startValue stack char
    | .elementEnd =>
        if char = ']' then close stack
        else if char = ',' then .more stack (.expect .element)
        else .failed .expectedListSeparator 1
    | .firstKey => if char = '\x7d' then close stack else startKey stack char
    | .key => if char = '\x7d' then .failed .trailingComma 1 else startKey stack char
    | .colon =>
        if char = ':' then .more stack (.expect .value) else .failed .expectedColon 1
    | .memberEnd =>
        if char = '\x7d' then close stack
        else if char = ',' then .more stack (.expect .key)
        else .failed .expectedObjectSeparator 1

/-- A character that follows a complete value. -/
def stepAfter (value : Value) (stack : List Frame) (char : Char) : Step :=
  match deliver value stack with
  | .complete value => .completeBefore value
  | .more stack (.expect what) => stepExpect stack what char
  | other => other

/-- A letter of a word. -/
def stepWord (stack : List Frame) (missing : List Char) (value : Value) (char : Char) : Step :=
  match missing with
  | [] => .failed .expectedIdent 1
  | letter :: rest =>
      if char = letter then
        if rest.isEmpty then deliver value stack else .more stack (.word rest value)
      else .failed .expectedIdent 1

/-- A character of a numeral, or the first after it. -/
def stepNumeral (stack : List Frame) (numeral : Numeral) (char : Char) : Step :=
  match numeral.step char with
  | .more numeral => .more stack (.numeral numeral)
  | .failed cause => .failed cause 1
  | .ended =>
      match numeral.value with
      | .ok value => stepAfter value stack char
      | .error cause => .failed cause 0

/-- The closing quote of a string. -/
def closeText (stack : List Frame) (isKey : Bool) (chars : List Char) : Step :=
  let text := String.ofList chars.reverse
  if isKey then
    match stack with
    | .object members _ :: rest => .more (.object members text :: rest) (.expect .colon)
    | _ => .failed .keyNotString 1
  else deliver (.string text) stack

/-- The character that a one-letter escape stands for. -/
def simpleEscape? (char : Char) : Option Char :=
  if char = '"' ∨ char = '\\' ∨ char = '/' then some char
  else if char = 'b' then some '\x08'
  else if char = 'f' then some '\x0c'
  else if char = 'n' then some '\n'
  else if char = 'r' then some '\r'
  else if char = 't' then some '\t'
  else none

/-- The value of a hexadecimal digit. -/
def hexDigit? (char : Char) : Option Nat :=
  if char.isDigit then some (char.toNat - '0'.toNat)
  else if 'a' ≤ char ∧ char ≤ 'f' then some (char.toNat - 'a'.toNat + 10)
  else if 'A' ≤ char ∧ char ≤ 'F' then some (char.toNat - 'A'.toNat + 10)
  else none

/-- Whether a code is the first of a surrogate pair. -/
def isLeading (code : Nat) : Bool := 0xD800 ≤ code && code ≤ 0xDBFF

/-- Whether a code is the second of a surrogate pair. -/
def isTrailing (code : Nat) : Bool := 0xDC00 ≤ code && code ≤ 0xDFFF

/-- The character of a surrogate pair. -/
def pairedChar (leading trailing : Nat) : Char :=
  Char.ofNat (0x10000 + (leading - 0xD800) * 0x400 + (trailing - 0xDC00))

/-- A string after four digits of a code. -/
def closeCode (stack : List Frame) (isKey : Bool) (chars : List Char) (code : Nat) :
    Option Nat → Step
  | none =>
      if isTrailing code then .failed .loneSurrogate 1
      else if isLeading code then .more stack (.text isKey chars (.leading code))
      else .more stack (.text isKey (Char.ofNat code :: chars) .closed)
  | some leading =>
      if isTrailing code then .more stack (.text isKey (pairedChar leading code :: chars) .closed)
      else .failed .loneSurrogate 1

/-- A character of a string. -/
def stepText (stack : List Frame) (isKey : Bool) (chars : List Char) (escape : Escape)
    (char : Char) : Step :=
  match escape with
  | .closed =>
      if char = '"' then closeText stack isKey chars
      else if char = '\\' then .more stack (.text isKey chars .opened)
      else if char.toNat < 0x20 then .failed .controlCharacter 1
      else .more stack (.text isKey (char :: chars) .closed)
  | .opened =>
      if char = 'u' then .more stack (.text isKey chars (.code 0 true 0 none))
      else
        match simpleEscape? char with
        | some plain => .more stack (.text isKey (plain :: chars) .closed)
        | none => .failed .invalidEscape 1
  | .code bytes digits value leading =>
      let read := bytes + char.utf8Size
      match digits, hexDigit? char with
      | true, some digit =>
          let value := value * 16 + digit
          if read < 4 then .more stack (.text isKey chars (.code read true value leading))
          else closeCode stack isKey chars value leading
      | _, _ =>
          if read < 4 then .more stack (.text isKey chars (.code read false value leading))
          else .failed .invalidEscape (4 - bytes)
  | .leading surrogate =>
      if char = '\\' then .more stack (.text isKey chars (.leadingOpened surrogate))
      else .failed .unfinishedSurrogate 1
  | .leadingOpened surrogate =>
      if char = 'u' then .more stack (.text isKey chars (.code 0 true 0 (some surrogate)))
      else .failed .unfinishedSurrogate 1

/-- Read one character. -/
def step (stack : List Frame) (state : State) (char : Char) : Step :=
  match state with
  | .expect what => stepExpect stack what char
  | .word missing value => stepWord stack missing value char
  | .numeral numeral => stepNumeral stack numeral char
  | .text isKey chars escape => stepText stack isKey chars escape char

/-- What is missing when the text ends between the parts of a value. -/
def Expect.eof : Expect → Cause
  | .value | .element | .key => .eofValue
  | .firstElement | .elementEnd => .eofList
  | .firstKey | .colon | .memberEnd => .eofObject

/-- The value at the end of the text, or what is missing. -/
def finish (stack : List Frame) : State → Except Cause Value
  | .expect what => .error what.eof
  | .word _ _ => .error .eofValue
  | .text _ _ _ => .error .eofString
  | .numeral numeral => do
      let value ← numeral.value
      match stack with
      | [] => .ok value
      | .array _ :: _ => .error .eofList
      | .object _ _ :: _ => .error .eofObject

/-- A value, the number of bytes before its end, and the characters after it. -/
structure Reading where
  value : Value
  offset : Nat
  rest : List Char
  deriving Repr

/-- Run the machine over the remaining characters, which start at `offset`. -/
def scan (stack : List Frame) (state : State) (offset : Nat) :
    List Char → Except Fault Reading
  | [] =>
      match finish stack state with
      | .ok value => .ok ⟨value, offset, []⟩
      | .error cause => .error ⟨cause, offset⟩
  | char :: rest =>
      match step stack state char with
      | .more stack state => scan stack state (offset + char.utf8Size) rest
      | .complete value => .ok ⟨value, offset + char.utf8Size, rest⟩
      | .completeBefore value => .ok ⟨value, offset, char :: rest⟩
      | .failed cause bytes => .error ⟨cause, offset + bytes⟩

/-- Read one value from the front of a text. -/
def readValue (text : List Char) : Except Fault Reading :=
  scan [] (.expect .value) 0 text

/-- Only blanks may follow a value. -/
def checkRest (offset : Nat) : List Char → Except Fault Unit
  | [] => .ok ()
  | char :: rest =>
      if isSpace char then checkRest (offset + 1) rest
      else .error ⟨.trailingCharacters, offset + 1⟩

/-- Read a text that holds one value and nothing else. -/
def read (text : List Char) : Except Fault Value := do
  let reading ← readValue text
  checkRest reading.offset reading.rest
  return reading.value

end ScanCircuit.Json
