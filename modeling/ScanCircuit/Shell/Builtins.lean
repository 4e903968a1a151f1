import ScanCircuit.Shell.Alias
import ScanCircuit.Shell.Condition
import ScanCircuit.Shell.Jobs
import ScanCircuit.Shell.Mask
import ScanCircuit.Shell.Options
import ScanCircuit.Shell.Reading
import ScanCircuit.Tool.Echo
import ScanCircuit.Tool.Printf

/-!
# Builtins

The commands that a shell carries out itself, without those that run other commands. Each
of them returns a status.

This is a part of the shell that a generator may run in. It serves to run generators from
the command line only; no theorem depends on it.
-/

namespace ScanCircuit.Shell

/-! ## Output -/

/-- Print the arguments. -/
def echoBuiltin (args : List Bytes) : Step Nat :=
  output (Tool.scriptEcho args)

/-- Complaints come out before the output. -/
def complainFirst : List Tool.Write → Step Unit
  | [] => return ()
  | .err message :: rest => do
      warn message
      complainFirst rest
  | .out _ :: rest => complainFirst rest

/-- Print arguments by a format. -/
def printfBuiltin (args : List Bytes) : Step Nat := do
  let (_, args) ← lettersFrom [] none args
  match args with
  | [] => fault "usage: printf format [arg ...]".toList
  | format :: args =>
      let state := Tool.runPrintf Tool.scriptPrintf format args
      let writes := state.writes.reverse
      complainFirst writes
      let status ← output (writes.flatMap fun
        | .out bytes => bytes
        | .err _ => [])
      return max state.status status

/-! ## Conditions -/

/-- Answer a condition. -/
def testBuiltin (words : List Bytes) : Step Nat := do
  let process ← get
  match Condition.answer process.entry words with
  | .ok true => return 0
  | .ok false => return 1
  | .error message => fault message

/-- Answer a condition in brackets. Only the first byte of the closing word counts. -/
def bracketBuiltin (words : List Bytes) : Step Nat :=
  if words.getLast?.bind List.head? = some ']' then testBuiltin words.dropLast
  else fault "missing ]".toList

/-! ## The flow of commands -/

/-- End the shell. -/
def exitBuiltin (args : List Bytes) : Step Nat := do
  match args with
  | [] =>
      modify fun process => { process with status := process.ending.getD process.status }
      throw .exit
  | word :: _ =>
      let status ← numberOf word
      setStatus status
      throw .exit

/-- End a function or a file. -/
def returnBuiltin (args : List Bytes) : Step Nat := do
  let status ←
    match args with
    | [] => pure (← get).status
    | word :: _ => numberOf word
  modify ({ · with skip := some .leaveFunction })
  return status

/-- Leave loops, or go on with their next round. -/
def loopBuiltin (skip : Nat → Skip) (args : List Bytes) : Step Nat := do
  let count ←
    match args with
    | [] => pure 1
    | word :: _ => do
        let count ← numberOf word
        if count = 0 then fault ("Illegal number: ".toList ++ word) else pure count
  modify fun process =>
    let count := min count process.loops
    if count = 0 then process else { process with skip := some (skip count) }
  return 0

/-- Drop arguments from the front. -/
def shiftBuiltin (args : List Bytes) : Step Nat := do
  let count ←
    match args with
    | [] => pure 1
    | word :: _ => numberOf word
  let process ← get
  if count > process.args.length then fault "can't shift that many".toList
  else
    set { process with args := process.args.drop count, taken := {} }
    return 0

/-- List the traps or change them. -/
def trapBuiltin (args : List Bytes) : Step Nat := do
  let (_, args) ← lettersFrom [] none args
  match args with
  | [] => output (← get).trapList
  | [only] => setTraps none [only]
  | action :: signals =>
      if (signalNumber? action).isSome then setTraps none args
      else if action = ['-'] then setTraps none signals
      else setTraps (some action) signals

/-! ## Variables -/

/-- The variables for which something holds, as commands that set them. -/
def Process.bindingList (process : Process) (command : Bytes) (holds : Binding → Bool) : Bytes :=
  let chosen := process.bindings.filter fun (_, binding) => holds binding
  (sortNames (chosen.map Prod.fst)).flatMap fun name =>
    let front := if command = [] then name else command ++ [' '] ++ name
    match process.valueOf? name with
    | some value => front ++ ['='] ++ singleQuoted value ++ ['\n']
    | none => if command = [] then [] else front ++ ['\n']

/-- The name in front of an equals sign, and the value after it. -/
def nameAndValue (word : Bytes) : Bytes × Option Bytes :=
  let name := word.takeWhile (· ≠ '=')
  match word.drop name.length with
  | _ :: value => (name, some value)
  | [] => (name, none)

/-- Change what is kept about variables, and give values to those that come with one. -/
def declare (change : Binding → Binding) : List Bytes → Step Nat
  | [] => return 0
  | word :: rest => do
      let (name, value) := nameAndValue word
      if ¬Bytes.isName name then fault (name ++ ": bad variable name".toList)
      match value with
      | some value => assign name value
      | none => pure ()
      modify fun process => process.bind name (some (change ((process.binding? name).getD {})))
      declare change rest

/-- Mark variables, or list those that are marked. -/
def declareBuiltin (name : String) (marked : Binding → Bool) (change : Binding → Binding)
    (args : List Bytes) : Step Nat := do
  let (letter, args) ← lettersFrom ['p'] none args
  if letter = some 'p' ∨ args = [] then output ((← get).bindingList name.toList marked)
  else declare change args

/-- Give a command variables of its own. A minus sign stands for the options. -/
def hideAll : List Bytes → Step Nat
  | [] => return 0
  | word :: rest => do
      let (name, value) := nameAndValue word
      if word ≠ ['-'] ∧ ¬Bytes.isName name then fault (name ++ ": bad variable name".toList)
      modify (·.hide name)
      match value with
      | some value => assign name value
      | none => pure ()
      hideAll rest

/-- Variables of a function's own, or of any other command that has a scope. -/
def localBuiltin (args : List Bytes) : Step Nat := do
  if (← get).hidden = [] then fault "not in a function".toList else hideAll args

/-- Forget variables or functions. -/
def forget (functions : Bool) : List Bytes → Step Nat
  | [] => return 0
  | word :: rest => do
      let process ← get
      let name := (nameAndValue word).1
      if functions then
        set { process with functions := process.functions.filter (·.1 ≠ word) }
      else if ¬Bytes.isName name then fault (name ++ ": bad variable name".toList)
      else
        match process.refusal? name [] with
        | some message => fault message
        | none => set ((process.bind name none).heed name [])
      forget functions rest

/-- Forget variables, or functions with `-f`. -/
def unsetBuiltin (args : List Bytes) : Step Nat := do
  let (letter, names) ← lettersFrom ['v', 'f'] none args
  forget (letter = some 'f') names

/-- Change options and arguments, or list all variables. -/
def setBuiltin (args : List Bytes) : Step Nat := do
  let process ← get
  if args = [] then output (process.bindingList [] fun _ => true)
  else
    match process.request false args with
    | .error message => fault message
    | .ok request =>
        set <|
          if request.rest ≠ [] ∨ request.replace then
            { request.process with args := request.rest, taken := {} }
          else request.process
        output request.output

/-! ## Places -/

/-- A place as a path. -/
def pathTo (location : Location) : Bytes :=
  '/' :: Bytes.join ['/'] (location.map Bytes.ofText)

/-- Print the directory that the shell works in. -/
def pwdBuiltin (args : List Bytes) : Step Nat := do
  let _ ← lettersFrom ['L', 'P'] none args
  output (pathTo (← get).here ++ ['\n'])

/-- Whether a directory is also looked for in the directories of a search path. -/
def isSearchedDirectory (target : Bytes) : Bool :=
  match target with
  | '/' :: _ => false
  | '.' :: rest =>
      let rest := if rest.head? = some '.' then rest.drop 1 else rest
      rest ≠ [] && rest.head? ≠ some '/'
  | _ => true

/-- The directory that a name stands for, and whether it has been found in another one by the
search path for directories. -/
def Process.directory (process : Process) (target : Bytes) : Bytes × Bool :=
  match process.valueOf? "CDPATH".toList with
  | none => (target, false)
  | some path =>
      let candidates := (Bytes.splitAt ':' [] path).map fun directory =>
        if directory = [] then (target, false) else (directory ++ '/' :: target, true)
      let isDirectory (candidate : Bytes × Bool) : Bool :=
        (process.entry candidate.1).any fun (_, entry) => entry = .directory
      if isSearchedDirectory target then (candidates.find? isDirectory).getD (target, false)
      else (target, false)

/-- Work in another directory. -/
def cdBuiltin (args : List Bytes) : Step Nat := do
  let (_, args) ← lettersFrom ['L', 'P'] none args
  let process ← get
  let old := "OLDPWD".toList
  let target :=
    match args with
    | [] => (process.valueOf? "HOME".toList).getD []
    | ['-'] :: _ => (process.valueOf? old).getD []
    | target :: _ => target
  let target := if target = [] then ['.'] else target
  let (path, searched) := process.directory target
  match process.world.files.entryAt process.here (pathOf path) with
  | .ok (location, .directory) =>
      let before := pathTo process.here
      let tracked := process.tracked.map ({ · with stale := true })
      set { process with here := location, tracked }
      assignExported old before
      assignExported "PWD".toList (pathTo location)
      if searched ∨ args.head? = some ['-'] then output (pathTo location ++ ['\n'])
      else return 0
  | _ => fault ("can't cd to ".toList ++ target)

/-- Print a limit, or take a new one. There are no limits. -/
def limitBuiltin (args : List Bytes) : Step Nat := do
  let (_, args) ← lettersFrom "HSatfdscmlpnvwr".toList none args
  match args with
  | [] => output "unlimited\n".toList
  | [word] =>
      if word = "unlimited".toList ∨ word.all Char.isDigit then return 0
      else fault "bad number".toList
  | _ => fault "too many arguments".toList

/-! ## Where commands come from -/

/-- The builtins that are no special ones. -/
def plainBuiltins : List (Bytes × Builtin) :=
  [("[", bracketBuiltin), ("alias", aliasBuiltin), ("bg", refuseJobs []), ("cd", cdBuiltin),
   ("chdir", cdBuiltin), ("echo", echoBuiltin), ("false", fun _ => return 1),
   ("fg", refuseJobs []), ("getopts", getoptsBuiltin), ("jobs", jobsBuiltin), ("kill", killBuiltin),
   ("printf", printfBuiltin), ("pwd", pwdBuiltin), ("read", readBuiltin), ("test", testBuiltin),
   ("true", fun _ => return 0), ("ulimit", limitBuiltin), ("umask", maskBuiltin),
   ("unalias", unaliasBuiltin), ("wait", waitBuiltin)].map fun (name, run) => (name.toList, run)

/-- The special builtins that run no other commands. A mistake in one ends the shell, and
assignments in front of it stay. -/
def specialCommands : List (Bytes × Builtin) :=
  [(":", fun _ => return 0), ("break", loopBuiltin .leaveLoops),
   ("continue", loopBuiltin .nextRound), ("exit", exitBuiltin),
   ("export",
    declareBuiltin "export" Binding.exported fun binding => { binding with exported := true }),
   ("local", localBuiltin),
   ("readonly",
    declareBuiltin "readonly" Binding.fixed fun binding => { binding with fixed := true }),
   ("return", returnBuiltin), ("set", setBuiltin), ("shift", shiftBuiltin),
   ("times", fun _ => output "0m0.000000s 0m0.000000s\n0m0.000000s 0m0.000000s\n".toList),
   ("trap", trapBuiltin), ("unset", unsetBuiltin)].map fun (name, run) => (name.toList, run)

end ScanCircuit.Shell
