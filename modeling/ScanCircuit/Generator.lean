import ScanCircuit.Load
import ScanCircuit.Text.Blank

/-!
# Generators

A generator is an outside program that turns a pattern into the JSON text of an
automaton. It is named by a command line that is split at blanks, without quoting, and
gets the pattern as its last argument.
-/

namespace ScanCircuit

/-- The program to run and the arguments that come before the pattern. -/
structure Generator where
  program : String
  args : List String
  deriving DecidableEq, Repr

namespace Generator

/-- The generator that a command line names, if it has a word at all. -/
def ofCommand? (command : String) : Option Generator :=
  match Text.words command with
  | [] => none
  | program :: args => some { program, args }

/-- The fields of a generator, quoted. -/
def describe (generator : Generator) : String :=
  "GeneratorCommand \x7b program: " ++ Text.quote generator.program ++ ", args: " ++
    Text.bracketed (generator.args.map Text.quote) ++ " \x7d"

end Generator

/-- Why a pattern has no automaton. -/
inductive SourceError where
  | load (error : LoadError)
  /-- The generator could not be run. -/
  | io (detail : String)
  /-- The generator ran and failed. -/
  | generator (detail : String)
  deriving DecidableEq, Repr

/-- The sentence that says what went wrong. -/
def SourceError.message : SourceError → String
  | load error => error.message
  | io detail => "failed to run automaton generator: " ++ detail
  | generator detail => "automaton generator failed: " ++ detail

end ScanCircuit
