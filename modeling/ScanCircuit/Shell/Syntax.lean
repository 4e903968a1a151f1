import ScanCircuit.Shell.Bytes

/-!
# The shell language

Scripts as data. A word is a list of parts: literal text, quoted or not, and what is to be
put in its place when the word is expanded. Commands are built from simple commands by
pipes, conditions, loops and groups. A here-document is named by a number, because its
text is read after the command that it belongs to.

This is a part of the shell that a generator may run in. It serves to run generators from
the command line only; no theorem depends on it.
-/

namespace ScanCircuit.Shell

/-- What to do with a parameter that has no value. -/
inductive OnUnset where
  /-- Use a word. -/
  | supply
  /-- Use a word and keep it as the value. -/
  | assign
  /-- Fail with a word. -/
  | fail
  /-- Use a word if there is a value, and nothing otherwise. -/
  | replace
  deriving DecidableEq, Repr

/-- How a file is opened by a redirection. -/
inductive OpenMode where
  | read
  | write
  /-- Write, even if existing files are to be kept. -/
  | clobber
  | append
  | update
  deriving DecidableEq, Repr

mutual

/-- A part of a word. -/
inductive Part where
  /-- Text outside quotes. -/
  | plain (text : Bytes)
  /-- Text inside quotes or after a backslash. -/
  | quoted (text : Bytes)
  | parameter (name : Bytes) (use : Use) (inQuotes : Bool)
  | substitution (body : Command) (inQuotes : Bool)
  | arithmetic (expr : List Part) (inQuotes : Bool)

/-- What is asked of a parameter. -/
inductive Use where
  | value
  | length
  /-- Nothing that has a meaning. -/
  | broken
  /-- The value, or what `how` says if it is unset, or empty while `orEmpty` holds. -/
  | unless (how : OnUnset) (orEmpty : Bool) (word : List Part)
  /-- The value without what matches a pattern at one of its ends. -/
  | trim (fromEnd longest : Bool) (pattern : List Part)

/-- Where a descriptor of a command leads. -/
inductive Redirect where
  | file (fd : Nat) (mode : OpenMode) (path : List Part)
  /-- Where another descriptor leads. -/
  | duplicate (fd : Nat) (source : List Part)
  /-- To the text of a here-document. -/
  | document (fd : Nat) (id : Nat)

/-- A command. -/
inductive Command where
  | simple (line : Nat) (assignments : List (Bytes × List Part)) (words : List (List Part))
      (redirects : List Redirect)
  | sequence (commands : List Command)
  | pipeline (commands : List Command)
  | background (command : Command)
  | negated (command : Command)
  | both (first second : Command)
  | either (first second : Command)
  | branch (condition : Command) (positive : Command) (negative : Option Command)
  | loop (positive : Bool) (condition body : Command)
  | each (line : Nat) (name : Bytes) (words : List (List Part)) (body : Command)
  | cases (line : Nat) (subject : List Part) (arms : List (List (List Part) × Option Command))
  | subshell (line : Nat) (body : Command) (redirects : List Redirect)
  | redirected (line : Nat) (body : Command) (redirects : List Redirect)
  | function (line : Nat) (name : Bytes) (body : Command)

end

/-- A word before it is expanded. -/
abbrev Word := List Part

instance : Inhabited Command := ⟨.sequence []⟩

/-- Whether a part comes from quotes. -/
def Part.isQuoted : Part → Bool
  | .quoted _ => true
  | _ => false

/-- The text of a word that is one piece of plain text. -/
def plainText? : Word → Option Bytes
  | [] => some []
  | [.plain text] => some text
  | _ => none

/-- Put neighbouring texts of one kind together. -/
def mergeParts (parts : Word) : Word :=
  parts.foldr
    (fun part merged =>
      match part, merged with
      | .plain first, .plain second :: rest => .plain (first ++ second) :: rest
      | .quoted first, .quoted second :: rest => .quoted (first ++ second) :: rest
      | _, _ => part :: merged)
    []

/-- The text of a word as it stands between its quotes. -/
def spelledText (word : Word) : Bytes :=
  word.flatMap fun
    | .plain text | .quoted text => text
    | _ => []

/-- The name and the value of a word that gives a variable a value. -/
def assignment? : Word → Option (Bytes × Word)
  | .plain text :: rest =>
      let name := text.takeWhile (· ≠ '=')
      match text.dropWhile (· ≠ '=') with
      | '=' :: value =>
          if Bytes.isName name then some (name, if value = [] then rest else .plain value :: rest)
          else none
      | _ => none
  | _ => none

end ScanCircuit.Shell
