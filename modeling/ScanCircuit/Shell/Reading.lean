import ScanCircuit.Shell.Expand

/-!
# Reading lines

The builtins that take input apart: `read` splits a line into the values of variables, and
`getopts` takes the options of a script one by one.

This is a part of the shell that a generator may run in. It serves to run generators from
the command line only; no theorem depends on it.
-/

namespace ScanCircuit.Shell

/-- The pieces of a line and how many bytes it took. A backslash quotes the byte after it, and
joins lines, unless lines are taken as they are. There is no line end at the end of the
input. -/
def takeLine (verbatim : Bool) (pieces : List Piece) (count : Nat) :
    Bytes → List Piece × Nat × Bool
  | [] => (pieces.reverse, count, false)
  | '\\' :: rest =>
      if verbatim then takeLine verbatim (.loose '\\' :: pieces) (count + 1) rest
      else
        match rest with
        | [] => (pieces.reverse, count + 1, false)
        | '\n' :: rest => takeLine verbatim (.region :: pieces) (count + 2) rest
        | char :: rest =>
            takeLine verbatim (.region :: .glyph ⟨char, true⟩ :: pieces) (count + 2) rest
  | '\n' :: _ => (pieces.reverse, count + 1, true)
  | char :: rest =>
      let pieces := if char = '\x00' then pieces else .loose char :: pieces
      takeLine verbatim pieces (count + 1) rest

/-- How far the splitting of a line has got. -/
structure LineSplitting where
  fields : List Bytes := []
  field : Bytes := []
  /-- The number of fields that are still to come. -/
  wanted : Nat
  /-- Whether a blank has just ended a field. -/
  afterBlank : Bool := false
  /-- How much of the last field is kept, if separators at its end are dropped. -/
  kept : Option Nat := none

namespace LineSplitting

/-- Add a byte to the field. -/
def push (state : LineSplitting) (char : Char) : LineSplitting :=
  { state with field := char :: state.field }

/-- Take a byte of the last field. -/
def takeLast (state : LineSplitting) (char : Char) (separates blank : Bool) : LineSplitting :=
  let size := state.field.length
  let state := state.push char
  if blank then { state with kept := some (state.kept.getD size) }
  else
    { state with
      kept := if separates ∧ state.afterBlank then state.kept else none
      afterBlank := false }

/-- Take a byte. -/
def takeByte (separators : Bytes) (state : LineSplitting) (char : Char) : LineSplitting :=
  let separates := separators.contains char
  let blank := separates && (char = ' ' || char = '\t' || char = '\n')
  if state.wanted = 0 then state.takeLast char separates blank
  else if state.afterBlank then
    if blank then state
    else if separates then { state with afterBlank := false }
    else { state.push char with afterBlank := false }
  else if ¬separates then state.push char
  else if blank ∧ state.field = [] then state
  else if state.wanted = 1 then
    { state.push char with wanted := 0, kept := some state.field.length, afterBlank := blank }
  else
    { state with
      fields := state.field.reverse :: state.fields
      field := []
      wanted := state.wanted - 1
      afterBlank := blank }

/-- Take a piece. -/
def step (separators : Bytes) (state : LineSplitting) : Piece → LineSplitting
  | .glyph glyph => state.push glyph.char
  | .loose char => state.takeByte separators char
  | .region => { state with afterBlank := false }
  | _ => state

end LineSplitting

/-- Split a line into at most so many fields; the last one is all that is left. -/
def splitLine (separators : Bytes) (count : Nat) (pieces : List Piece) : List Bytes :=
  let state := pieces.foldl (LineSplitting.step separators) { wanted := count }
  let last := state.field.reverse
  let last := last.take (state.kept.getD last.length)
  (if last = [] then state.fields else last :: state.fields).reverse

/-- Give variables the values of fields; those without a field become empty. -/
def assignFields : List Bytes → List Bytes → Step Unit
  | [], _ => return ()
  | name :: names, fields => do
      assign name (fields.head?.getD [])
      assignFields names (fields.drop 1)

/-- What the letters of an option of `read` ask for: whether lines are taken as they are, and
whether the word after them is a prompt. -/
def readLetters (verbatim : Bool) : Bytes → Except Bytes (Bool × Bool)
  | [] => .ok (verbatim, false)
  | 'r' :: letters => readLetters true letters
  | 'p' :: prompt => .ok (verbatim, prompt.isEmpty)
  | letter :: _ => .error ("Illegal option -".toList ++ [letter])

/-- Whether options of `read` ask for lines as they are, and the names after them. -/
def readOptions (verbatim : Bool) : List Bytes → Except Bytes (Bool × List Bytes)
  | ['-', '-'] :: rest => .ok (verbatim, rest)
  | ('-' :: letter :: letters) :: rest =>
      match readLetters verbatim (letter :: letters), rest with
      | .error message, _ => .error message
      | .ok (_, true), [] => .error "No arg for -p option".toList
      | .ok (verbatim, true), _ :: rest => readOptions verbatim rest
      | .ok (verbatim, false), rest => readOptions verbatim rest
  | names => .ok (verbatim, names)

/-- Read a line into variables. -/
def readBuiltin (args : List Bytes) : Step Nat := do
  match readOptions false args with
  | .error message => fault message
  | .ok (_, []) => fault "arg count".toList
  | .ok (verbatim, names) =>
      let process ← get
      let input := ((process.unread 0).toOption).getD []
      let (pieces, count, ended) := takeLine verbatim [.region] 0 input
      set (process.skipBytes 0 count)
      assignFields names (splitLine process.separators names.length pieces)
      return if ended then 0 else 1

/-! ## Options of a script -/

/-- What the next option of a script is. -/
structure OptionTaken where
  letter : Char := '?'
  /-- The argument. If there is none, the argument of an option before stays. -/
  argument : Option Bytes := none
  /-- What is said about the option. If anything is, the argument is forgotten. -/
  complaint : Bytes := []
  place : OptionPlace
  /-- Whether there are no more options. -/
  isEnd : Bool := false

/-- What stands behind a letter in a list of letters, if it is there. A colon behind a letter
belongs to it. -/
def behindLetter? (letter : Char) : Bytes → Option Bytes
  | [] => none
  | char :: ':' :: rest =>
      if char = letter then some (':' :: rest) else behindLetter? letter rest
  | char :: rest => if char = letter then some rest else behindLetter? letter rest

/-- Take one option of the word before `next`, of which `letters` are left behind its letter.
`spec` says which letters there are, with a colon behind those that have an argument. -/
def takeLetter (spec : Bytes) (words : List Bytes) (next : Nat) (letter : Char)
    (letters : Bytes) : OptionTaken :=
  let quiet := spec.head? = some ':'
  let size := ((words[next - 2]?).getD []).length
  let within : OptionPlace := { next, within := some (size - letters.length) }
  match behindLetter? letter spec with
  | none =>
      if quiet then { argument := some [letter], place := within }
      else { complaint := "Illegal option -".toList ++ [letter, '\n'], place := within }
  | some (':' :: _) =>
      if letters ≠ [] then { letter, argument := some letters, place := { next } }
      else
        match words[next - 1]? with
        | some word => { letter, argument := some word, place := { next := next + 1 } }
        | none =>
            if quiet then { letter := ':', argument := some [letter], place := { next } }
            else
              { complaint := "No arg for -".toList ++ [letter] ++ " option\n".toList,
                place := { next } }
  | some _ => { letter, argument := some [], place := within }

/-- Take the next option of words. -/
def takeOption (spec : Bytes) (words : List Bytes) (place : OptionPlace) : OptionTaken :=
  let place := if place.next > words.length + 1 then {} else place
  let next := place.next
  let pending :=
    match place.within with
    | some used => if next ≤ 1 then [] else ((words[next - 2]?).getD []).drop used
    | none => []
  match pending, words[next - 1]? with
  | letter :: letters, _ => takeLetter spec words next letter letters
  | [], some ['-', '-'] => { place := { next := next + 1 }, isEnd := true }
  | [], some ('-' :: letter :: letters) => takeLetter spec words (next + 1) letter letters
  | [], _ => { place := { next }, isEnd := true }

/-- Take the next option of a script. -/
def getoptsBuiltin (args : List Bytes) : Step Nat := do
  match args with
  | spec :: name :: words =>
      let process ← get
      let words := if words = [] then process.args else words
      let option := takeOption spec words process.taken
      set { process with taken := {} }
      if option.complaint ≠ [] then
        emit 2 option.complaint
        modify (·.bind "OPTARG".toList none)
      match option.argument with
      | some argument => assign "OPTARG".toList argument
      | none => pure ()
      assign optionCount (Bytes.ofNat option.place.next)
      modify ({ · with taken := {} })
      assign name [option.letter]
      modify ({ · with taken := option.place })
      return if option.isEnd then 1 else 0
  | _ => fault "Usage: getopts optstring var [arg...]".toList

end ScanCircuit.Shell
