import ScanCircuit.Shell.Syntax

/-!
# Reading tokens

A script is read token by token. A backslash at the end of a line joins it to the next
one, everywhere but inside single quotes. A word may hold whole scripts, so its reader is
given the readers of what can stand inside.

This is a part of the shell that a generator may run in. It serves to run generators from
the command line only; no theorem depends on it.
-/

namespace ScanCircuit.Shell

/-- A redirection sign: the descriptor in front of it and what it asks for. -/
inductive Sign where
  | file (fd : Nat) (mode : OpenMode)
  | duplicate (fd : Nat)
  | document (fd : Nat) (strip : Bool)
  deriving DecidableEq, Repr

/-- The tokens of a script. -/
inductive Token where
  | word (word : Word) (quoted : Bool)
  /-- A word that has a meaning of its own where a command may start. -/
  | keyword (name : Bytes)
  | redirect (sign : Sign)
  | newline
  | semicolon
  | ampersand
  | andIf
  | orIf
  | pipe
  | opening
  | closing
  | endCase
  | eof

namespace Token

/-- How a complaint names a token. -/
def describe : Token → String
  | word _ _ => "word"
  | keyword name => "\"" ++ Bytes.key name ++ "\""
  | redirect _ => "redirection"
  | newline => "newline"
  | semicolon => "\";\""
  | ampersand => "\"&\""
  | andIf => "\"&&\""
  | orIf => "\"||\""
  | pipe => "\"|\""
  | opening => "\"(\""
  | closing => "\")\""
  | endCase => "\";;\""
  | eof => "end of file"

/-- Whether a token is a keyword of this name. -/
def isKeyword (token : Token) (name : String) : Bool :=
  match token with
  | keyword found => found = name.toList
  | _ => false

end Token

/-- The words with a meaning of their own. -/
def keywords : List Bytes :=
  ["!", "case", "do", "done", "elif", "else", "esac", "fi", "for", "if", "in", "then", "until",
    "while", "\x7b", "\x7d"].map String.toList

/-- A here-document whose text is still to come. -/
structure Awaited where
  id : Nat
  mark : Bytes
  /-- Whether tabs at the starts of its lines are dropped. -/
  strip : Bool
  /-- Whether its text is taken as it is. -/
  verbatim : Bool

/-- The text of an alias that has been put in its place. -/
structure Expansion where
  name : Bytes
  /-- The number of bytes that are left when the text has been read. -/
  left : Nat
  /-- Whether the text ends with a blank. The word after it may be an alias then. -/
  blank : Bool
  deriving DecidableEq, Repr

/-- Where the reading of a script has got to. -/
structure Scanner where
  rest : Bytes
  /-- The words that stand for other text. -/
  aliases : List (Bytes × Bytes) := []
  /-- The texts of aliases that are being read, last first. -/
  expansions : List Expansion := []
  line : Nat := 1
  /-- A token that has been put back. -/
  pushed : Option Token := none
  awaited : List Awaited := []
  /-- The here-document whose text is being read. -/
  document : Option Awaited := none
  /-- The texts of here-documents by number. -/
  documents : List (Nat × Word) := []
  nextDocument : Nat := 0

/-- Why a script cannot be read, the line on which that is noticed, and how many bytes of the
script are left then. -/
structure SyntaxError where
  line : Nat
  message : String
  left : Nat

/-- Reading a script. -/
abbrev Reading := StateT Scanner (Except SyntaxError)

/-- Give up reading. -/
def refuse {α : Type} (message : String) : Reading α := do
  let scanner ← get
  throw ⟨scanner.line, message, scanner.rest.length⟩

/-- Read a text that stands in a script, told how many bytes of the script are left behind
it. -/
def readingInside {α : Type} (behind : Nat) (reading : Reading α) : Reading α := fun scanner =>
  (reading scanner).mapError fun error => { error with left := error.left + behind }

/-- Give up at a token that does not belong here. -/
def unexpected {α : Type} (token : Token) (expecting : Option String) : Reading α :=
  refuse (token.describe ++ " unexpected" ++
    match expecting with
    | some wanted => " (expecting " ++ wanted ++ ")"
    | none => "")

/-- Join lines at the front, and count them. -/
def joinLines (count : Nat) : Bytes → Bytes × Nat
  | '\\' :: '\n' :: rest => joinLines (count + 1) rest
  | rest => (rest, count)

/-- The next byte, which is not taken. -/
def peek : Reading (Option Char) := do
  let scanner ← get
  let (rest, joined) := joinLines 0 scanner.rest
  set { scanner with rest, line := scanner.line + joined }
  return rest.head?

/-- Take a byte. -/
def advance : Reading Unit :=
  modify fun scanner =>
    match scanner.rest with
    | '\n' :: rest => { scanner with rest, line := scanner.line + 1 }
    | _ :: rest => { scanner with rest }
    | [] => scanner

/-- What is found at the start of a line. -/
inductive LineStart where
  /-- The mark that ends the here-document being read. It has been taken. -/
  | mark
  /-- Text that is taken as it is. -/
  | text (bytes : Bytes)
  deriving DecidableEq, Repr

/-- See what the start of a line is. Unless a here-document is being read it is nothing
special. Behind tabs that are dropped lines are not joined. -/
def lineStart : Reading LineStart := do
  let scanner ← get
  match scanner.document with
  | none => return .text []
  | some doc =>
      let (joined, count) := joinLines 0 scanner.rest
      let rest := if doc.strip then joined.dropWhile (· = '\t') else joined
      let line := scanner.line + count
      let behind := rest.drop doc.mark.length
      if doc.mark.isPrefixOf rest ∧ behind.head?.all (· = '\n') then
        set { scanner with rest := behind.drop 1, line := line + (behind.take 1).length }
        return .mark
      else
        match rest, decide (rest.length < joined.length) with
        | '\\' :: '\n' :: rest, true =>
            set { scanner with rest, line := line + 1 }
            return .text ['\\', '\n']
        | _, _ =>
            set { scanner with rest, line }
            return .text []

/-- Take the next byte if it is the given one. -/
def accept (char : Char) : Reading Bool := do
  if (← peek) = some char then
    advance
    return true
  else return false

/-- More steps than any script takes. -/
def plenty : Nat := 1000000000

/-- The most levels of commands inside commands. -/
def maxNesting : Nat := 250

/-- Take bytes as long as they fit. -/
def takeRun (fits : Char → Bool) : Nat → Reading Bytes
  | 0 => return []
  | fuel + 1 => do
      match ← peek with
      | some char =>
          if fits char then
            advance
            let more ← takeRun fits fuel
            return char :: more
          else return []
      | none => return []

/-- Where a part of a word stands. -/
inductive Zone where
  /-- Outside quotes: ends before a blank or an operator. -/
  | bare
  /-- The word that ends a here-document. -/
  | mark
  /-- Inside double quotes. -/
  | quotes
  /-- Inside braces. -/
  | braces
  /-- Inside braces inside double quotes. -/
  | quotedBraces
  /-- In the text of a here-document. -/
  | document
  /-- Inside an arithmetic expression. -/
  | arithmetic
  deriving DecidableEq, Repr

/-- Whether text is quoted here. -/
def Zone.isQuoted : Zone → Bool
  | bare | mark | braces => false
  | quotes | quotedBraces | document | arithmetic => true

/-- How a list of commands ends. -/
inductive Extent where
  /-- With its line. -/
  | line
  /-- Before a token that cannot start a command; there is at least one command. -/
  | block
  /-- Before a token that cannot start a command; it may be empty. -/
  | loose
  deriving DecidableEq, Repr

/-- The readers of what can stand inside a word or a command. -/
structure Nested where
  /-- The parts up to the end of a zone, which is taken. -/
  parts : Zone → Reading Word
  /-- A list of commands. The token that ends it is put back. -/
  list : Extent → Reading Command
  command : Reading Command

/-- Whether a byte ends a word outside quotes. -/
def endsWord (char : Char) : Bool :=
  char = ' ' || char = '\t' || char = '\n' || char = ';' || char = '&' || char = '|' ||
    char = '<' || char = '>' || char = '(' || char = ')'

/-- Whether a byte names a parameter that a shell sets itself. -/
def isSpecial (char : Char) : Bool :=
  char.isDigit || char = '!' || char = '#' || char = '$' || char = '*' || char = '-' ||
    char = '?' || char = '@'

/-- Put a token back. -/
def pushBack (token : Token) : Reading Unit :=
  modify fun scanner => { scanner with pushed := some token }

end ScanCircuit.Shell
