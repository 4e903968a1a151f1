import ScanCircuit.Shell.Grammar
import ScanCircuit.Shell.World

/-!
# Shells at work

What a shell knows while it runs a script, and the steps that it takes. A step may end the
shell; what it has done until then stays done.

This is a part of the shell that a generator may run in. It serves to run generators from
the command line only; no theorem depends on it.
-/

namespace ScanCircuit.Shell

/-- What a shell keeps about a variable. -/
structure Binding where
  value : Option Bytes := none
  /-- Whether programs see the variable. -/
  exported : Bool := false
  /-- Whether the value cannot change any more. -/
  fixed : Bool := false
  deriving DecidableEq, Repr

/-- Why the commands that follow are passed over. -/
inductive Skip where
  /-- So many loops end. -/
  | leaveLoops (count : Nat)
  /-- All of so many loops but the outermost end, and that goes on. -/
  | nextRound (count : Nat)
  /-- The function or the file being read ends. -/
  | leaveFunction
  deriving DecidableEq, Repr

/-- Why a shell ends before its script does. -/
inductive Stop where
  /-- Something went wrong and has been complained about. -/
  | fault
  /-- A command asked for the end. -/
  | exit
  /-- Another program has taken its place. -/
  | replaced
  /-- A signal has ended it. -/
  | killed
  deriving DecidableEq, Repr

/-- A program that has been found by the search path. -/
structure Tracked where
  name : Bytes
  /-- Whether the shell has moved to another directory since. -/
  stale : Bool := false
  deriving DecidableEq, Repr

/-- A command that has been sent to the background and has ended there. -/
structure Job where
  pid : Nat
  status : Nat
  deriving DecidableEq, Repr

/-- How far the options of a script have been taken. -/
structure OptionPlace where
  /-- The number of the word to come, counted from one. -/
  next : Nat := 1
  /-- How many bytes of the word before it have been used, unless that word is done with. -/
  within : Option Nat := none
  deriving DecidableEq, Repr

/-- A shell. -/
structure Process where
  world : World
  /-- The number of the process. Copies of the shell keep it. -/
  pid : Nat := 1
  /-- Whether this is a copy of the shell that has the number. -/
  isCopy : Bool := false
  here : Location
  /-- The open files that descriptors lead to, by number. -/
  descriptors : List (Nat × Nat)
  name : Bytes
  args : List Bytes := []
  bindings : List (Bytes × Binding) := []
  functions : List (Bytes × Command) := []
  /-- The words that stand for other text, in the order in which they were first set. -/
  aliases : List (Bytes × Bytes) := []
  /-- The programs that have been found by the search path, in order. -/
  tracked : List Tracked := []
  /-- The letters of the options that are on. -/
  options : Bytes := []
  /-- The permissions that new files do not get. -/
  mask : Nat := 18
  /-- What to do on signals, by their numbers. The end of the shell has number zero. -/
  traps : List (Nat × Bytes) := []
  status : Nat := 0
  /-- The status of the last substitution in a command. -/
  substituted : Nat := 0
  /-- The line of the command being run. -/
  line : Nat := 0
  /-- The line that the reading of the script has got to. -/
  reached : Nat := 0
  /-- The builtin being run. -/
  builtin : Bytes := []
  skip : Option Skip := none
  /-- The number of loops around the command being run. -/
  loops : Nat := 0
  /-- The commands that have been sent to the background, last first. -/
  jobs : List Job := []
  /-- The signal that has ended the program run last. -/
  ended : Option Nat := none
  /-- The status with which the shell is ending, while its trap runs. -/
  ending : Option Nat := none
  /-- For each command being run that has variables of its own, what they hid. -/
  hidden : List (List (Bytes × Option Binding)) := []
  /-- The number of functions being run. -/
  calls : Nat := 0
  documents : List (Nat × Word) := []
  nextDocument : Nat := 0
  taken : OptionPlace := {}

/-- The variable that counts the words with options. -/
def optionCount : Bytes := "OPTIND".toList

/-- The variable that says where programs are. -/
def searchPath : Bytes := "PATH".toList

/-- A step of a shell. -/
abbrev Step := ExceptT Stop (StateM Process)

namespace Process

/-- Whether an option is on. -/
def has (process : Process) (letter : Char) : Bool :=
  process.options.contains letter

/-- Turn an option on or off. -/
def withOption (process : Process) (letter : Char) (on : Bool) : Process :=
  let others := process.options.filter (· ≠ letter)
  { process with options := if on then letter :: others else others }

/-- What is kept about a variable. -/
def binding? (process : Process) (name : Bytes) : Option Binding :=
  process.bindings.lookup name

/-- The value of a variable. -/
def valueOf? (process : Process) (name : Bytes) : Option Bytes :=
  (process.binding? name).bind Binding.value

/-- Keep something about a variable, or forget it. -/
def bind (process : Process) (name : Bytes) (binding : Option Binding) : Process :=
  let others := process.bindings.filter (·.1 ≠ name)
  { process with
    bindings :=
      match binding with
      | some binding => others ++ [(name, binding)]
      | none => others }

/-- Heed the value that a variable gets: options are taken from the word that it says, and
programs are looked for once more. -/
def heed (process : Process) (name value : Bytes) : Process :=
  if name = optionCount then
    { process with taken := { next := max 1 ((Numeral.count? value).getD 1) } }
  else if name = searchPath then { process with tracked := [] }
  else process

/-- Give a variable a value. -/
def setValue (process : Process) (name value : Bytes) : Process :=
  let old := (process.binding? name).getD {}
  let binding :=
    { old with value := some value, exported := old.exported || process.has 'a' }
  (process.bind name (some binding)).heed name value

/-- Why a variable cannot get a value, if it cannot. -/
def refusal? (process : Process) (name value : Bytes) : Option Bytes :=
  if (process.binding? name).any Binding.fixed then some (name ++ ": is read only".toList)
  else if name = optionCount ∧ (Numeral.count? value).isNone then
    some ("Illegal number: ".toList ++ value)
  else none

/-- Open a scope for variables of a command's own. -/
def openScope (process : Process) : Process :=
  { process with hidden := [] :: process.hidden }

/-- Keep what a variable is until the scope is closed. A minus sign stands for the options. -/
def hide (process : Process) (name : Bytes) : Process :=
  match process.hidden with
  | [] => process
  | frame :: frames =>
      if frame.any (·.1 = name) then process
      else
        let before :=
          if name = ['-'] then some { value := some process.options } else process.binding? name
        { process with hidden := ((name, before) :: frame) :: frames }

/-- Give variables back what they were. -/
def restore (process : Process) (frame : List (Bytes × Option Binding)) : Process :=
  frame.foldr (fun (name, before) process =>
    let value := (before.bind Binding.value).getD []
    if name = ['-'] then { process with options := value }
    else (process.bind name before).heed name value) process

/-- Close scopes until so many are left. -/
def closeScopes (process : Process) (left : Nat) : Process :=
  let frames := process.hidden.take (process.hidden.length - left)
  let process := frames.foldl restore process
  { process with hidden := process.hidden.drop frames.length }

/-- The bytes that separate fields. -/
def separators (process : Process) : Bytes :=
  match process.valueOf? "IFS".toList with
  | some value => value
  | none => " \t\n".toList

/-- What stands between arguments that are put together. -/
def glue (process : Process) : Bytes :=
  process.separators.take 1

/-- The variables that programs see. -/
def environment (process : Process) : List (Bytes × Bytes) :=
  process.bindings.filterMap fun (name, binding) =>
    if binding.exported then binding.value.map (name, ·) else none

/-- Lead a descriptor to an open file. -/
def withDescriptor (process : Process) (fd number : Nat) : Process :=
  { process with descriptors := (fd, number) :: process.descriptors.filter (·.1 ≠ fd) }

/-- Lead a descriptor nowhere. -/
def withoutDescriptor (process : Process) (fd : Nat) : Process :=
  { process with descriptors := process.descriptors.filter (·.1 ≠ fd) }

/-- Add an open file and lead a descriptor to it. -/
def opening (process : Process) (fd : Nat) (openFile : OpenFile) : Process :=
  let (number, world) := process.world.add openFile
  { process with world }.withDescriptor fd number

/-- Write to a descriptor. -/
def write (process : Process) (fd : Nat) (bytes : Bytes) : Except OsError Process :=
  match process.descriptors.lookup fd with
  | some number => do
      let world ← process.world.write number bytes
      return { process with world }
  | none => .error .badDescriptor

/-- What is left to read on a descriptor. -/
def unread (process : Process) (fd : Nat) : Except OsError Bytes :=
  match process.descriptors.lookup fd with
  | some number => process.world.unread number
  | none => .error .badDescriptor

/-- Go on behind bytes that have been read. -/
def skipBytes (process : Process) (fd count : Nat) : Process :=
  match process.descriptors.lookup fd with
  | some number => { process with world := process.world.skip number count }
  | none => process

/-- What a path leads to. The streams of a process are found by their descriptors. -/
def entry (process : Process) (path : Bytes) : Option (Location × Entry) :=
  match streamOf? (pathOf path) with
  | some stream => (process.descriptors.lookup stream).bind (process.world.entryOf stream)
  | none => (process.world.files.entryAt process.here (pathOf path)).toOption

/-- A complaint of a shell, with the line that it is about. -/
def complaint (process : Process) (message : Bytes) : Bytes :=
  let builtin := if process.builtin = [] then [] else process.builtin ++ ": ".toList
  process.name ++ ": ".toList ++ Bytes.ofNat process.line ++ ": ".toList ++ builtin ++ message ++
    ['\n']

end Process

/-- Print bytes, if that is possible. -/
def emit (fd : Nat) (bytes : Bytes) : Step Unit :=
  modify fun process => (process.write fd bytes).toOption.getD process

/-- Complain and go on. -/
def warn (message : Bytes) : Step Unit := do
  emit 2 ((← get).complaint message)

/-- Complain and end the shell. -/
def fault {α : Type} (message : Bytes) : Step α := do
  warn message
  modify ({ · with status := 2 })
  throw .fault

/-- Do something, and then change the shell, also if it is about to end. -/
def leaving {α : Type} (change : Process → Process) (body : Step α) : Step α := fun process =>
  let (result, process) := body.run.run process
  (result, change process)

/-- Remember the line of the command being run. -/
def setLine (line : Nat) : Step Unit :=
  modify ({ · with line })

/-- Set the status. -/
def setStatus (status : Nat) : Step Unit :=
  modify ({ · with status })

/-- Give a variable a value, unless it is fixed. Only what stands before an equals sign is its
name. -/
def assign (name value : Bytes) : Step Unit := do
  let process ← get
  let name := name.takeWhile (· ≠ '=')
  if ¬Bytes.isName name then fault (name ++ ": bad variable name".toList)
  match process.refusal? name value with
  | some message => fault message
  | none => set (process.setValue name value)

/-- Give a variable a value, and let programs see it. -/
def assignExported (name value : Bytes) : Step Unit := do
  assign name value
  modify fun process =>
    process.bind name
      ((process.binding? name).map fun binding => { binding with exported := true })

/-- Do something in a copy of the shell. What it does to files stays, and the rest is forgotten
but for what is asked about it. Signals that are passed over are passed over there too. -/
def inCopy {α : Type} (prepare : Process → Process) (body : Step Unit) (ask : Process → α) :
    Step α := fun process =>
  let traps := process.traps.filter (·.2 = [])
  let (_, copy) := body.run.run (prepare { process with traps, isCopy := true })
  (.ok (ask copy), { process with world := copy.world })

/-- Do something in a copy of the shell, and return its status. -/
def apart (prepare : Process → Process) (body : Step Unit) : Step Nat :=
  inCopy prepare body fun copy => copy.status % 256

end ScanCircuit.Shell
