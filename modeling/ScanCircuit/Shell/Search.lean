import ScanCircuit.Shell.Builtins
import ScanCircuit.Tool.Shelf

/-!
# Finding commands

A name without a slash is looked for among the special builtins, the functions, the other
builtins, and the files in the directories of the search path, in this order. A name with a
slash is a path.

This is a part of the shell that a generator may run in. It serves to run generators from
the command line only; no theorem depends on it.
-/

namespace ScanCircuit.Shell

/-- The paths that a name may stand for, by the search path. -/
def Process.candidates (process : Process) (name : Bytes) : List Bytes :=
  let path := (process.valueOf? "PATH".toList).getD []
  (Bytes.splitAt ':' [] path).map fun directory =>
    if directory = [] then name else directory ++ '/' :: name

/-- What lies at a path. -/
def Process.entryAt (process : Process) (path : Bytes) : Except OsError (Location × Entry) :=
  process.world.files.entryAt process.here (pathOf path)

/-- Whether a path leads to a program. -/
def Process.isProgram (process : Process) (path : Bytes) : Bool :=
  match process.entryAt path with
  | .ok (_, .program) => true
  | _ => false

/-- Whether a path leads to a stored file. -/
def Process.isStored (process : Process) (path : Bytes) : Bool :=
  match process.entryAt path with
  | .ok (_, .program) | .ok (_, .file _) => true
  | _ => false

/-- The name of the program that a command name stands for. -/
def Process.program (process : Process) (name : Bytes) : Except OsError String :=
  if name.contains '/' then
    match process.entryAt name with
    | .ok (location, .program) => .ok (location.getLast?.getD "")
    | .ok _ => .error .permissionDenied
    | .error error => .error error
  else
    let paths := process.candidates name
    match paths.find? process.isProgram with
    | some path =>
        match process.entryAt path with
        | .ok (location, _) => .ok (location.getLast?.getD "")
        | .error error => .error error
    | none =>
        .error (if paths.any fun path => (process.entryAt path).isOk then .permissionDenied
          else .notFound)

/-- What is said about a program that cannot be run, and the status then. The status does not
tell why a search has failed. -/
def programFailure (searched : Bool) (name : Bytes) (error : OsError) : Bytes × Nat :=
  let missing := error = .notFound || error = .notDirectory
  let reason := if missing then "not found" else error.words
  (name ++ ": ".toList ++ reason.toList,
    if searched ∨ missing ∨ error = .nameTooLong then 127 else 126)

/-- The builtins that are no special ones and run or look for other commands. -/
def searchBuiltins : List Bytes :=
  ["command", "hash", "type"].map String.toList

/-- Whether a name is that of a special builtin. A mistake in one ends the shell. -/
def isSpecialBuiltin (name : Bytes) : Bool :=
  specialBuiltins.contains (Bytes.key name) || name = "local".toList

/-- Whether a name is that of a builtin. -/
def isBuiltin (name : Bytes) : Bool :=
  isSpecialBuiltin name || searchBuiltins.contains name || plainBuiltins.any (·.1 = name)

/-- Whether a program has been found before. -/
def Process.isTracked (process : Process) (name : Bytes) : Bool :=
  process.tracked.any (·.name = name)

/-- Whether a name has to be looked for in the directories of the search path. -/
def Process.isSearched (process : Process) (name : Bytes) : Bool :=
  !name.contains '/' && !isBuiltin name && !process.functions.any (·.1 = name)

/-- What a name stands for, in a sentence or briefly; nothing is found for some. -/
def Process.describe (process : Process) (verbose : Bool) (name : Bytes) : Option Bytes :=
  let say (text : String) : Bytes :=
    if verbose then name ++ " is ".toList ++ text.toList ++ ['\n'] else name ++ ['\n']
  let found (path : Bytes) : Bytes :=
    let tracked := if process.isTracked name then "a tracked alias for " else ""
    if verbose then name ++ " is ".toList ++ tracked.toList ++ path ++ ['\n'] else path ++ ['\n']
  if keywords.contains name then some (say "a shell keyword")
  else if let some value := process.aliases.lookup name then
    some <|
      if verbose then name ++ " is an alias for ".toList ++ value ++ ['\n']
      else "alias ".toList ++ aliasLine name value
  else if specialBuiltins.contains (Bytes.key name) then some (say "a special shell builtin")
  else if process.functions.any (·.1 = name) then some (say "a shell function")
  else if isBuiltin name then some (say "a shell builtin")
  else if name.contains '/' then
    match process.entryAt name with
    | .ok _ => some (found name)
    | .error _ => none
  else ((process.candidates name).find? process.isStored).map found

/-- Remember that a program has been found. -/
def track (name : Bytes) : Step Unit :=
  modify fun process =>
    if !process.isSearched name then process
    else if process.isTracked name then
      { process with
        tracked := process.tracked.map fun tracked =>
          if tracked.name = name then { tracked with stale := false } else tracked }
    else { process with tracked := process.tracked ++ [{ name }] }

/-- Forget that a program has been found. -/
def untrack (name : Bytes) : Step Unit :=
  modify fun process =>
    { process with tracked := process.tracked.filter (·.name ≠ name) }

/-- Say what names stand for. What is said is collected and printed at the end. -/
def describeAll (verbose : Bool) (status : Nat) (said : Bytes) : List Bytes → Step Nat
  | [] => do return status ||| (← output said)
  | name :: rest => do
      let process ← get
      match process.describe verbose name with
      | some text =>
          unless keywords.contains name || process.isTracked name do
            track name
          describeAll verbose status (said ++ text) rest
      | none =>
          let said := if verbose then said ++ name ++ ": not found\n".toList else said
          describeAll verbose 127 said rest

/-- Look for names and remember them. -/
def trackAll (status : Nat) : List Bytes → Step Nat
  | [] => return status
  | name :: rest => do
      match (← get).describe false name with
      | some _ =>
          untrack name
          track name
          trackAll status rest
      | none =>
          let error :=
            match (← get).program name with
            | .ok _ => OsError.notFound
            | .error error => error
          warn (programFailure true name error).1
          trackAll 1 rest

/-- The number of places of the list of found programs. -/
def trackedPlaces : Nat := 31

/-- The paths of the found programs, place by place. Those that will be looked for again have
a star. -/
def Process.listTracked (process : Process) : Bytes :=
  (List.range trackedPlaces).flatMap fun place =>
    process.tracked.flatMap fun tracked =>
      match (process.candidates tracked.name).find? process.isStored with
      | some path =>
          if placeOf trackedPlaces tracked.name = place then
            path ++ (if tracked.stale then ['*'] else []) ++ ['\n']
          else []
      | none => []

/-- Remember programs, forget all of them, or say which are known. -/
def hashBuiltin (args : List Bytes) : Step Nat := do
  let (letter, names) ← lettersFrom ['r'] none args
  if letter.isSome then
    modify ({ · with tracked := [] })
    return 0
  else if names = [] then output (← get).listTracked
  else trackAll 0 names

end ScanCircuit.Shell
