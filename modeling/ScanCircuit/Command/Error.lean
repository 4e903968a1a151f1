import ScanCircuit.Compilation
import ScanCircuit.Generator
import ScanCircuit.Files.Tree

/-!
# Failures of a command

Why a command ends without doing its work, and the sentence that it prints then.
-/

namespace ScanCircuit

/-- Why an input cannot be read as text. -/
inductive ReadError where
  | os (error : OsError)
  | notUtf8
  deriving DecidableEq, Repr

/-- The words for a failed reading. -/
def ReadError.message : ReadError → String
  | os error => error.message
  | notUtf8 => "stream did not contain valid UTF-8"

/-- Why a command fails. -/
inductive CommandError where
  /-- A pattern without a generator. -/
  | needsGenerator
  /-- Neither a graph nor a pattern. -/
  | needsInput
  | readStdin (error : ReadError)
  | readGraph (path : String) (error : ReadError)
  | load (error : LoadError)
  | source (error : SourceError)
  | compile (error : CompileError)
  | encoding (error : Unencodable)
  | write (path : String) (error : OsError)
  deriving DecidableEq, Repr

/-- The sentence that a failed command prints. -/
def CommandError.message : CommandError → String
  | needsGenerator => "a pattern needs --generator to build its automaton"
  | needsInput => "automaton is required: use a GRAPH file, - for stdin, or -p/--pattern"
  | readStdin error => "failed to read stdin: " ++ error.message
  | readGraph path error => "failed to read '" ++ path ++ "': " ++ error.message
  | load error => error.message
  | source error => error.message
  | compile error => error.message
  | encoding error => error.message
  | write path error => "failed to write '" ++ path ++ "': " ++ error.message

end ScanCircuit
