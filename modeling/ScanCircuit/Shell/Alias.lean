import ScanCircuit.Shell.Arguments
import ScanCircuit.Shell.Signal

/-!
# Aliases

Words that stand for other text where a command may start. The text is put in their place
while a script is read; here they are set, listed and forgotten.

This is a part of the shell that a generator may run in. It serves to run generators from
the command line only; no theorem depends on it.
-/

namespace ScanCircuit.Shell

/-- The places of a list that names are kept in: names that share a place stay together. -/
def placeOf (count : Nat) (name : Bytes) : Nat :=
  let first := (name.head?.map Char.toNat).getD 0
  name.foldl (fun total char => total + char.toNat) (16 * first) % count

/-- The number of places of the list of aliases. -/
def aliasPlaces : Nat := 39

/-- An alias as it is listed. -/
def aliasLine (name value : Bytes) : Bytes :=
  name ++ ['='] ++ singleQuoted value ++ ['\n']

/-- All aliases, place by place. -/
def Process.aliasList (process : Process) : Bytes :=
  (List.range aliasPlaces).flatMap fun place =>
    process.aliases.flatMap fun (name, value) =>
      if placeOf aliasPlaces name = place then aliasLine name value else []

/-- Set an alias. -/
def Process.withAlias (process : Process) (name value : Bytes) : Process :=
  { process with
    aliases :=
      if process.aliases.any (·.1 = name) then
        process.aliases.map fun found => if found.1 = name then (name, value) else found
      else process.aliases ++ [(name, value)] }

/-- The name of an alias and its text. The first byte always belongs to the name. -/
def aliasParts (word : Bytes) : Bytes × Option Bytes :=
  let name := word.take 1 ++ (word.drop 1).takeWhile (· ≠ '=')
  match word.drop name.length with
  | _ :: value => (name, some value)
  | [] => (name, none)

/-- Set aliases or say what they are. What is said is collected and printed at the end. -/
def aliasAll (status : Nat) (said : Bytes) : List Bytes → Step Nat
  | [] => do return status ||| (← output said)
  | word :: rest => do
      match aliasParts word with
      | (name, some value) =>
          modify (·.withAlias name value)
          aliasAll status said rest
      | (name, none) =>
          match (← get).aliases.lookup name with
          | some value => aliasAll status (said ++ aliasLine name value) rest
          | none =>
              emit 2 ("alias: ".toList ++ name ++ " not found\n".toList)
              aliasAll 1 said rest

/-- Set aliases, or list them. -/
def aliasBuiltin (args : List Bytes) : Step Nat := do
  if args = [] then output (← get).aliasList else aliasAll 0 [] args

/-- Forget aliases. -/
def unaliasAll (status : Nat) : List Bytes → Step Nat
  | [] => return status
  | name :: rest => do
      let process ← get
      if process.aliases.any (·.1 = name) then
        set { process with aliases := process.aliases.filter (·.1 ≠ name) }
        unaliasAll status rest
      else
        emit 2 ("unalias: ".toList ++ name ++ " not found\n".toList)
        unaliasAll 1 rest

/-- Forget aliases, or all of them with `-a`. -/
def unaliasBuiltin (args : List Bytes) : Step Nat := do
  let (letter, names) ← lettersFrom ['a'] none args
  if letter.isSome then
    modify ({ · with aliases := [] })
    return 0
  else unaliasAll 0 names

end ScanCircuit.Shell
