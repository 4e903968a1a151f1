import ScanCircuit.Command.Input
import ScanCircuit.Command.Staged

/-!
# Running commands

Each command loads an automaton and prints or writes something about it. `compile`
stages both of its outputs before it moves either into place, the transition table
first and the circuit second; then it moves the circuit and the table.
-/

namespace ScanCircuit.Command

variable {m : Type → Type} [Monad m] [Host m]

/-- What a run shows: its exit code and what it printed. -/
structure Outcome where
  exit : Nat := 0
  stdout : String := ""
  stderr : String := ""
  deriving DecidableEq, Repr

/-- Write the outputs of a compilation and return what is to be printed. -/
def deliver (args : CompileArgs) (compilation : Compilation) : ExceptT CommandError m String := do
  let circuit :=
    compilation.render
      { window := args.window, template := args.template, annotate := args.annotate }
  let lookup ← stageAny compilation.table.render args.lookup
  let output ← guarding lookup (stageAny circuit args.output)
  guarding lookup (commitAny output)
  commitAny lookup
  return if args.output.isSome then "" else circuit

/-- Compile an automaton to a circuit and a transition table. -/
def compile (args : CompileArgs) : ExceptT CommandError m String := do
  let automaton ← loadAutomaton args.input
  let compilation ← attempt .compile (Compilation.ofAutomaton automaton)
  deliver args compilation

/-- Say nothing about an automaton that compiles. -/
def check (input : Input) : ExceptT CommandError m String := do
  let automaton ← loadAutomaton input
  let _ ← attempt .compile (Compilation.ofAutomaton automaton)
  return ""

/-- Print the transition table, or write it straight to a file. -/
def lookup (input : Input) (output : Option String) : ExceptT CommandError m String := do
  let automaton ← loadAutomaton input
  let table ← attempt .encoding (Table.ofAutomaton automaton)
  match output with
  | none => return table.render
  | some path =>
      match ← (Host.write (Path.ofString path) (Text.Utf8.encode table.render) : m _) with
      | .ok () => return ""
      | .error error => throw (.write path error)

/-- A name padded to ten places, and a number. -/
def statistic (name : String) (value : Nat) : String :=
  name ++ String.ofList (List.replicate (10 - name.length) ' ') ++ value.repr ++ "\n"

/-- The sizes of an automaton and of its compilation. -/
def statistics (automaton : Automaton) (compilation : Compilation) : String :=
  statistic "nodes" automaton.size ++
    statistic "edges" automaton.edgeCount ++
    statistic "start" 0 ++
    statistic "accept" automaton.accept ++
    String.join (Circuit.Kind.all.map fun kind =>
      statistic kind.array (compilation.counts.get kind)) ++
    statistic "total" compilation.counts.total ++
    statistic "lookup" compilation.table.size

/-- Print the number of components of each kind. -/
def stats (input : Input) : ExceptT CommandError m String := do
  let automaton ← loadAutomaton input
  let compilation ← attempt .compile (Compilation.ofAutomaton automaton)
  return statistics automaton compilation

/-- Do what an invocation asks for and return what is to be printed. -/
def perform : Invocation → ExceptT CommandError m String
  | .compile args => compile args
  | .check input => check input
  | .lookup input output => lookup input output
  | .stats input => stats input

/-- What a command that has ended shows. -/
def report : Except CommandError String → Outcome
  | .ok stdout => { stdout }
  | .error error => { exit := 1, stderr := "error: " ++ error.message ++ "\n" }

/-- What a command line that cannot be run shows. -/
def reportUsage (error : UsageError) : Outcome :=
  match error with
  | .displayHelp => { exit := error.exitCode, stdout := error.message ++ "\n" }
  | _ => { exit := error.exitCode, stderr := "error: " ++ error.message ++ "\n" }

/-- Run a command line. -/
def run (words : List String) : m Outcome :=
  match Invocation.parse words with
  | .error error => return reportUsage error
  | .ok invocation => report <$> (perform invocation : ExceptT CommandError m String).run

end ScanCircuit.Command
