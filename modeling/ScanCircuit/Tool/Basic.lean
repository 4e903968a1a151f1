import ScanCircuit.Shell.World

/-!
# Tools

The small programs that generators and their scripts call. A tool turns its arguments,
its standard input and the files into what it prints and a status.

This is a part of the tools that a generator may call. They serve to run generators from
the command line only; no theorem depends on them.
-/

namespace ScanCircuit.Tool

open Shell

/-- What a tool is started with. -/
structure Start where
  /-- The name that the tool has been called by. -/
  name : Bytes
  args : List Bytes
  /-- What a path leads to. -/
  entry : Bytes → Option (Location × Entry)
  /-- What can be read at a path, and whether that is what is left on the standard input. -/
  readAt : Bytes → Except OsError Bytes × Bool
  /-- All that is left to read on the standard input. -/
  stdin : Except OsError Bytes
  /-- Whether the standard input is open. -/
  isInputOpen : Bool := true
  /-- The stored file that the standard output leads to. -/
  target : Option Location := none
  /-- The variables of the environment. -/
  environment : List (Bytes × Bytes) := []

/-- A piece of output. -/
inductive Write where
  | out (bytes : Bytes)
  | err (bytes : Bytes)
  deriving DecidableEq, Repr

/-- What a tool leaves behind. -/
structure Ran where
  /-- What it has printed, in order. -/
  writes : List Write := []
  status : Nat := 0
  /-- Whether it has read its standard input to the end. -/
  tookInput : Bool := false

/-- Only a message on the standard error, and a status. -/
def failing (message : Bytes) (status : Nat) : Ran :=
  { writes := [.err message], status }

/-- Only output. -/
def printing (bytes : Bytes) : Ran :=
  { writes := [.out bytes] }

/-- One run after another; the status is the greater one. -/
def Ran.then (first second : Ran) : Ran where
  writes := first.writes ++ second.writes
  status := max first.status second.status
  tookInput := first.tookInput || second.tookInput

/-- Read a file by its name; `-` is the standard input. The answer says whether the standard
input has been read. -/
def Start.read (start : Start) (name : Bytes) : Except OsError Bytes × Bool :=
  if name = ['-'] then (start.stdin, true) else start.readAt name

/-! ## Names in messages -/

/-- Whether a byte stands for itself in a message. -/
def isPrintable (char : Char) : Bool :=
  32 ≤ char.toNat && char.toNat < 127

/-- The letter after the backslash that names a control character. -/
def escapeLetter? (char : Char) : Option Char :=
  match char.toNat with
  | 7 => some 'a'
  | 8 => some 'b'
  | 9 => some 't'
  | 10 => some 'n'
  | 11 => some 'v'
  | 12 => some 'f'
  | 13 => some 'r'
  | _ => none

/-- A byte after a backslash, by a letter or by three octal digits. -/
def backslashed (char : Char) : Bytes :=
  match escapeLetter? char with
  | some letter => ['\\', letter]
  | none =>
      let code := char.toNat
      '\\' :: [code / 64, code / 8 % 8, code % 8].map Nat.digitChar

/-- Whether a byte at a place means the same inside double quotes of a shell and of C. -/
def isHarmless (place : Nat) (char : Char) : Bool :=
  char.isAlphanum || " %+,-./:]_'@".toList.contains char ||
    (place = 0 && (char = '#' || char = '~'))

/-- Whether a name has to be quoted for a shell because of a byte at a place. -/
def needsQuotes (colon alone : Bool) (place : Nat) (char : Char) : Bool :=
  if char = '\x7b' ∨ char = '\x7d' then alone
  else if char = '#' ∨ char = '~' then place = 0
  else if char = ':' then colon
  else !isPrintable char || " !\"$&()*;<=>[^\x60|'?\\".toList.contains char

/-- The bytes of a name between quotes; `escaped` says whether escapes are open. -/
def quotedBytes (escaped : Bool) : Bytes → Bytes
  | [] => []
  | char :: rest =>
      if char = '\'' then "'\\''".toList ++ quotedBytes false rest
      else if isPrintable char then
        (if escaped then "''".toList else []) ++ char :: quotedBytes false rest
      else
        (if escaped then [] else "'$'".toList) ++ backslashed char ++ quotedBytes true rest

/-- A name as it could be written in a shell, in quotes only if it needs them. A single quote in
it makes the name be gone through twice, and what the end leaves open is open at the start. -/
def shellName (colon : Bool) (name : Bytes) : Bytes :=
  let alone := name.length = 1
  let needed := name.zipIdx.any fun (char, place) => needsQuotes colon alone place char
  if name ≠ [] ∧ ¬needed then name
  else if ¬name.contains '\'' then '\'' :: quotedBytes false name ++ ['\'']
  else if name.zipIdx.all fun (char, place) => isHarmless place char then
    '"' :: name ++ ['"']
  else
    let escaped := name.getLast?.any fun char => !isPrintable char
    '\'' :: quotedBytes escaped name ++ ['\'']

/-- A word in single quotes. -/
def quotedWord (word : Bytes) : Bytes :=
  '\'' :: word.flatMap (fun char =>
    if char = '\'' ∨ char = '\\' then ['\\', char]
    else if isPrintable char then [char]
    else backslashed char) ++ ['\'']

/-- A complaint in the name of a tool. -/
def Start.complaint (start : Start) (message : Bytes) : Bytes :=
  start.name ++ ": ".toList ++ message ++ ['\n']

/-- A complaint about a file. -/
def Start.fileComplaint (start : Start) (name : Bytes) (error : OsError) : Bytes :=
  start.complaint (shellName true name ++ ": ".toList ++ error.words.toList)

/-- A complaint about how the tool has been called. -/
def Start.misuse (start : Start) (status : Nat) (message : Bytes) : Ran :=
  let hint := "Try '".toList ++ start.name ++ " --help' for more information.\n".toList
  failing (start.complaint message ++ hint) status

/-- What a tool says about an option that it does not know, a long one or a letter. -/
def Start.unknownOption (start : Start) (status : Nat) (option : Bytes) : Ran :=
  start.misuse status <|
    match option with
    | '-' :: '-' :: _ => "unrecognized option '".toList ++ option ++ "'".toList
    | _ => "invalid option -- '".toList ++ option ++ "'".toList

/-- What a tool prints when it is asked for help. -/
def Start.help (start : Start) : Ran :=
  printing ("Usage: ".toList ++ start.name ++ " [OPTION]...\n".toList)

/-- What a tool prints when it is asked for its version. -/
def version (tool : String) : Ran :=
  printing (tool ++ " (coreutils) 9.1\n").toList

end ScanCircuit.Tool
