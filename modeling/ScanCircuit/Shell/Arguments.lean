import ScanCircuit.Shell.Arithmetic
import ScanCircuit.Shell.State

/-!
# Arguments of builtins

What builtins have in common: how they take options and numbers from their arguments, and
how they print.

This is a part of the shell that a generator may run in. It serves to run generators from
the command line only; no theorem depends on it.
-/

namespace ScanCircuit.Shell

/-- A builtin, given its arguments. -/
abbrev Builtin := List Bytes → Step Nat

/-- Print bytes on the standard output, and complain if that is impossible. -/
def output (bytes : Bytes) : Step Nat := do
  if bytes = [] then return 0
  else
    let process ← get
    match process.write 1 bytes with
    | .ok process =>
        set process
        return 0
    | .error _ =>
        warn (process.builtin ++ ": I/O error".toList)
        return 1

/-- The number that an argument spells. -/
def numberOf (word : Bytes) : Step Nat :=
  match Numeral.count? word with
  | some number => return number
  | none => fault ("Illegal number: ".toList ++ word)

/-- Take options of single letters from the front of the arguments; return the last one. -/
def lettersFrom (known : Bytes) (found : Option Char) :
    List Bytes → Step (Option Char × List Bytes)
  | ['-', '-'] :: rest => return (found, rest)
  | ('-' :: letter :: letters) :: rest => do
      match (letter :: letters).find? fun letter => !known.contains letter with
      | some bad => fault ("Illegal option -".toList ++ [bad])
      | none => lettersFrom known (letter :: letters).getLast? rest
  | args => return (found, args)

end ScanCircuit.Shell
