import ScanCircuit.Load
import ScanCircuit.Table
import ScanCircuit.Circuit.Build
import ScanCircuit.Circuit.Text

/-!
# Compilations

The two outputs of one automaton, built together: its circuit and its transition
table. If either cannot be built there is no compilation at all; the circuit is built
first.
-/

namespace ScanCircuit

/-- Why there is no compilation. -/
inductive CompileError where
  | load (error : LoadError)
  | encoding (error : Unencodable)
  deriving DecidableEq, Repr

/-- The sentence that says what went wrong. -/
def CompileError.message : CompileError → String
  | load error => error.message
  | encoding error => "encoding failed: " ++ error.message

/-- A circuit, the number of its components, and a transition table. -/
structure Compilation where
  program : Circuit.Program
  counts : Circuit.Counts
  table : Table
  deriving Repr

namespace Compilation

/-- Compile an automaton. -/
def ofAutomaton (automaton : Automaton) : Except CompileError Compilation :=
  match Circuit.ofAutomaton automaton with
  | .error error => .error (.encoding error)
  | .ok (program, counts) =>
      match Table.ofAutomaton automaton with
      | .error error => .error (.encoding error)
      | .ok table => .ok { program, counts, table }

/-- Load an automaton from JSON text and compile it. -/
def load (text : String) : Except CompileError Compilation :=
  match Automaton.load text with
  | .error error => .error (.load error)
  | .ok automaton => ofAutomaton automaton

/-- The text of the circuit. -/
def render (compilation : Compilation) (config : Circuit.Config) : String :=
  compilation.program.render config

end Compilation

end ScanCircuit
