import ScanCircuit.Shell.Arithmetic
import ScanCircuit.Shell.Pattern
import ScanCircuit.Shell.State

/-!
# Expanding words

The parts of a word are replaced by what they stand for. What comes from outside quotes is
then split into fields, and a field with a pattern in it is replaced by the paths that it
matches. Some words, such as the values of assignments, are not split.

This is a part of the shell that a generator may run in. It serves to run generators from
the command line only; no theorem depends on it.
-/

namespace ScanCircuit.Shell

/-- A piece of an expanded word before it is split. -/
inductive Piece where
  /-- A byte that belongs to its field. -/
  | glyph (glyph : Glyph)
  /-- A byte that may separate fields. -/
  | loose (char : Char)
  /-- Bytes that may separate fields start here. -/
  | region
  /-- The field exists even if it is empty. -/
  | mark
  /-- Something blank that separates fields. -/
  | blank
  /-- A field ends here. -/
  | hardEnd
  deriving DecidableEq, Repr

/-- Bytes from inside or outside quotes. -/
def glyphPieces (quoted : Bool) (bytes : Bytes) : List Piece :=
  bytes.map fun char => .glyph ⟨char, quoted⟩

/-- Bytes from outside quotes that may be split. -/
def loosePieces (bytes : Bytes) : List Piece :=
  .region :: bytes.map .loose

/-- The value of something that stands inside or outside quotes. -/
def valuePieces (inQuotes : Bool) (bytes : Bytes) : List Piece :=
  if inQuotes then glyphPieces true bytes else loosePieces bytes

/-- Put pieces between lists of pieces. -/
def joinPieces (between : List Piece) : List (List Piece) → List Piece
  | [] => []
  | [only] => only
  | first :: rest => first ++ between ++ joinPieces between rest

/-- How far the splitting of pieces has got. -/
structure Splitting where
  /-- The finished fields, last first. -/
  fields : List (List Glyph) := []
  /-- The field being collected, last byte first. -/
  field : List Glyph := []
  /-- Whether there is a field, even if it is empty. -/
  present : Bool := false
  /-- Whether separators are passed over. -/
  passing : Bool := false
  /-- Whether one separator that is not blank may still be passed over. -/
  spare : Bool := false

namespace Splitting

/-- End the field. -/
def close (state : Splitting) : Splitting :=
  { fields := state.field.reverse :: state.fields }

/-- Add a byte to the field. -/
def push (state : Splitting) (glyph : Glyph) : Splitting :=
  { state with field := glyph :: state.field, present := true, passing := false }

/-- Take a byte that separates fields. -/
def separate (state : Splitting) (blank : Bool) : Splitting :=
  if state.passing ∧ (blank ∨ state.spare) then { state with spare := state.spare && blank }
  else if blank ∧ ¬state.present then state
  else { state.close with passing := true, spare := blank }

/-- Take a piece. -/
def step (separators : Bytes) (state : Splitting) : Piece → Splitting
  | .glyph glyph => state.push glyph
  | .loose char =>
      if separators.contains char then
        state.separate (char = ' ' || char = '\t' || char = '\n')
      else state.push ⟨char, false⟩
  | .region => { state with passing := false }
  | .mark => { state with present := true, passing := false }
  | .blank => state.separate true
  | .hardEnd => state.close

end Splitting

/-- Split pieces into fields. -/
def splitPieces (separators : Bytes) (pieces : List Piece) : List (List Glyph) :=
  let state := pieces.foldl (Splitting.step separators) {}
  (if state.present then state.close else state).fields.reverse

/-- The bytes of pieces that are not split. -/
def joinedGlyphs (pieces : List Piece) : List Glyph :=
  pieces.filterMap fun
    | .glyph glyph => some glyph
    | .loose char => some ⟨char, false⟩
    | _ => none

/-- The bytes of glyphs. -/
def glyphBytes (glyphs : List Glyph) : Bytes :=
  glyphs.map Glyph.char

/-- The letters of the options, in the order in which a shell lists them. -/
def optionLetters : Bytes := "ubaCEVvxsnmiIfe".toList

/-- The value of a parameter that is not a list. -/
def Process.parameter? (process : Process) (name : Bytes) : Option Bytes :=
  match name with
  | ['?'] => some (Bytes.ofNat process.status)
  | ['#'] => some (Bytes.ofNat process.args.length)
  | ['-'] => some (optionLetters.filter process.has)
  | ['$'] => some (Bytes.ofNat process.pid)
  | ['!'] => process.jobs.head?.map fun job => Bytes.ofNat job.pid
  | _ =>
      if name.all Char.isDigit then
        match Bytes.toNat name with
        | 0 => some process.name
        | place + 1 => process.args[place]?
      else process.valueOf? name

/-- The directories of the accounts that every system has. -/
def accounts : List (Bytes × Bytes) :=
  [("root", "/root"), ("daemon", "/usr/sbin"), ("bin", "/bin"), ("sys", "/dev"),
   ("sync", "/bin"), ("games", "/usr/games"), ("man", "/var/cache/man"),
   ("lp", "/var/spool/lpd"), ("mail", "/var/mail"), ("news", "/var/spool/news"),
   ("uucp", "/var/spool/uucp"), ("proxy", "/bin"), ("www-data", "/var/www"),
   ("backup", "/var/backups"), ("list", "/var/list"), ("irc", "/run/ircd"),
   ("nobody", "/nonexistent")].map fun (name, home) => (name.toList, home.toList)

/-- Whether a parameter is the list of the arguments. -/
def isList (name : Bytes) : Bool :=
  name = ['@'] || name = ['*']

/-- The text of a parameter, if it has one. A list is put together. -/
def Process.text? (process : Process) (name : Bytes) : Option Bytes :=
  if isList name then some (Bytes.join process.glue process.args)
  else process.parameter? name

/-- The pieces of all arguments. -/
def Process.argumentPieces (process : Process) (split inQuotes : Bool) (name : Bytes) :
    List Piece :=
  if ¬split ∨ (inQuotes ∧ name = ['*']) then
    valuePieces inQuotes (Bytes.join process.glue process.args)
  else if inQuotes then
    joinPieces [.hardEnd] (process.args.map fun arg => .mark :: glyphPieces true arg)
  else .region :: joinPieces [.blank] (process.args.map fun arg => arg.map .loose)

/-- The text of a parameter that has to have a value if the shell insists. -/
def insistOn (name : Bytes) : Step Bytes := do
  let process ← get
  match process.text? name with
  | some text => return text
  | none =>
      if process.has 'u' then fault (name ++ ": parameter not set".toList) else return []

/-- A shell whose variables are being set by an expression, and why the first of them that
cannot be set is refused. -/
structure Evaluating where
  process : Process
  refused : Option Bytes := none

/-- Set a variable, unless that is refused. -/
def Evaluating.set (state : Evaluating) (name value : Bytes) : Evaluating :=
  match state.process.refusal? name value with
  | some message => { state with refused := state.refused.orElse fun _ => some message }
  | none => { state with process := state.process.setValue name value }

/-- Evaluate an arithmetic expression. -/
def evaluate (text : Bytes) : Step Bytes := do
  let process ← get
  let result :=
    (Arithmetic.parse text).eval
      (fun state name => ((Evaluating.process state).valueOf? name).getD []) Evaluating.set
      ({ process } : Evaluating)
  match result with
  | .ok (value, state) =>
      set state.process
      match state.refused with
      | some message => fault message
      | none => return Bytes.ofInt value
  | .error failure => fault (failure.message text)

section Expanding

variable (substitute : Command → Step Bytes)

/-- How a word is expanded. -/
structure Manner where
  /-- Whether the word is split into fields. -/
  split : Bool := false
  /-- Whether the word stands in braces outside quotes. -/
  inside : Bool := false
  /-- Whether a tilde in front of the word is replaced. -/
  home : Bool := false
  /-- Whether tildes behind colons are replaced. -/
  homes : Bool := false
  deriving DecidableEq, Repr

/-- The directory that a tilde with a name behind it stands for. -/
def Process.homeOf? (process : Process) (name : Bytes) : Option Bytes :=
  if name = [] then process.valueOf? "HOME".toList else accounts.lookup name

/-- Replace tildes in text outside quotes. Nothing but a slash or the end of the text may stand
behind the name after a tilde; `isLast` says whether the text is the end of its word. -/
def Process.plainPieces (process : Process) (manner : Manner) (isLast : Bool) (text : Bytes) :
    List Piece :=
  let plain (bytes : Bytes) : List Piece :=
    if manner.inside then loosePieces bytes else glyphPieces false bytes
  let segments := if manner.homes then Bytes.splitAt ':' [] text else [text]
  joinPieces (plain [':']) <| segments.zipIdx.map fun (segment, place) =>
    let name := (segment.drop 1).takeWhile (· ≠ '/')
    let behind := segment.drop (name.length + 1)
    let isWhole := behind ≠ [] ∨ place + 1 < segments.length ∨ isLast
    let home? :=
      if segment.head? = some '~' ∧ (manner.home ∨ place > 0) ∧ isWhole then
        process.homeOf? name
      else none
    match home? with
    | some home => glyphPieces true home ++ plain behind
    | none => plain segment

mutual

/-- Replace a part by what it stands for, told whether it is the last one of its word. -/
def expandPart (manner : Manner) (isLast : Bool) : Part → Step (List Piece)
  | .plain text => return (← get).plainPieces manner isLast text
  | .quoted text => return .mark :: glyphPieces true text
  | .substitution body inQuotes => do
      let output ← substitute body
      return valuePieces inQuotes output
  | .arithmetic expr inQuotes => do
      let pieces ← expandParts {} expr
      let value ← evaluate (glyphBytes (joinedGlyphs pieces))
      return valuePieces inQuotes value
  | .parameter name use inQuotes => expandUse manner name inQuotes use

/-- Replace the parts of a word. -/
def expandParts (manner : Manner) : List Part → Step (List Piece)
  | [] => return []
  | part :: rest => do
      let first ← expandPart manner rest.isEmpty part
      let others ← expandParts { manner with home := false } rest
      return first ++ others

/-- Replace a parameter by what is asked of it. -/
def expandUse (manner : Manner) (name : Bytes) (inQuotes : Bool) : Use → Step (List Piece)
  | .value => do
      if isList name then return (← get).argumentPieces manner.split inQuotes name
      else return valuePieces inQuotes (← insistOn name)
  | .length => do
      let text ← insistOn name
      return valuePieces inQuotes (Bytes.ofNat text.length)
  | .broken => fault "Bad substitution".toList
  | .trim fromEnd longest pattern => do
      let text ← insistOn name
      let process ← get
      if (process.text? name).isNone then return valuePieces inQuotes []
      else
        let pieces ← expandParts { home := true } pattern
        let trim := trimMatch fromEnd longest (patternOf (joinedGlyphs pieces))
        if isList name ∧ manner.split ∧ ¬(inQuotes ∧ name = ['*']) then
          let separate := Bytes.join ['\x00'] process.args
          let args := if process.args = [] then [] else Bytes.splitAt '\x00' [] (trim separate)
          return { process with args }.argumentPieces manner.split inQuotes name
        else return valuePieces inQuotes (trim text)
  | .unless how orEmpty word => do
      let process ← get
      let text := process.text? name
      let missing := text.isNone || (orEmpty && text = some [])
      let outside := !inQuotes
      let homes := outside && manner.homes
      let supplied := { manner with inside := outside, home := outside, homes }
      match how with
      | .supply =>
          if missing then expandParts supplied word
          else if isList name then return process.argumentPieces manner.split inQuotes name
          else return valuePieces inQuotes (text.getD [])
      | .replace => if missing then return [] else expandParts supplied word
      | .assign =>
          if missing then
            let pieces ← expandParts { inside := outside, home := true } word
            let value := glyphBytes (joinedGlyphs pieces)
            assign name value
            return valuePieces inQuotes value
          else if isList name then return process.argumentPieces manner.split inQuotes name
          else return valuePieces inQuotes (text.getD [])
      | .fail =>
          if missing then
            let pieces ← expandParts { inside := outside, home := true } word
            let reason := glyphBytes (joinedGlyphs pieces)
            let reason :=
              if word.isEmpty then
                (if orEmpty then "parameter not set or null" else "parameter not set").toList
              else reason
            fault (name ++ ": ".toList ++ reason)
          else if isList name then return process.argumentPieces manner.split inQuotes name
          else return valuePieces inQuotes (text.getD [])

end

/-- Expand a word that is not split, and keep what is quoted in it. -/
def expandGlyphs (word : Word) : Step (List Glyph) := do
  return joinedGlyphs (← expandParts substitute { home := true } word)

/-- Expand a word that is not split. -/
def expandText (word : Word) : Step Bytes := do
  return glyphBytes (← expandGlyphs substitute word)

/-- Expand the value of an assignment. -/
def expandValue (word : Word) : Step Bytes := do
  return glyphBytes (joinedGlyphs (← expandParts substitute { home := true, homes := true } word))

/-- The paths that a field stands for. -/
def Process.pathsOf (process : Process) (field : List Glyph) : List Bytes :=
  if process.has 'f' ∨ ¬hasPattern field then [glyphBytes field]
  else
    match expandPaths process.world.files process.here field with
    | [] => [glyphBytes field]
    | paths => paths

/-- Expand a word into fields. -/
def expandFields (word : Word) : Step (List Bytes) := do
  let pieces ← expandParts substitute { split := true, home := true } word
  let process ← get
  return (splitPieces process.separators pieces).flatMap process.pathsOf

/-- Expand words into fields. -/
def expandWords : List Word → Step (List Bytes)
  | [] => return []
  | word :: rest => do
      let first ← expandFields substitute word
      let others ← expandWords rest
      return first ++ others

end Expanding

end ScanCircuit.Shell
