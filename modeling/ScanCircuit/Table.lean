import ScanCircuit.Automaton
import ScanCircuit.CharClass

/-!
# Transition tables

A table lists the transitions of an automaton one byte at a time, for backends that
look them up instead of computing them. Its text is the accepting node on the first
line and then one line for each transition.
-/

namespace ScanCircuit

/-- One step of an automaton on one byte. -/
structure Transition where
  source : Nat
  dest : Nat
  code : UInt8
  deriving DecidableEq, Repr

/-- The accepting node and all transitions. -/
structure Table where
  accept : Nat
  transitions : List Transition
  deriving DecidableEq, Repr

namespace Table

/-- The transitions of an edge, characters ascending. -/
def edgeTransitions (source : Nat) (edge : Edge) : Except Unencodable (List Transition) := do
  let codes ← byteCodes source edge.dest edge.label.toList
  return codes.map fun code => ⟨source, edge.dest, code⟩

/-- The transitions of several edges of a node, in declaration order. -/
def edgesTransitions (source : Nat) : List Edge → Except Unencodable (List Transition)
  | [] => .ok []
  | edge :: rest => do
      let first ← edgeTransitions source edge
      let others ← edgesTransitions source rest
      return first ++ others

/-- The transitions of several nodes, in order. -/
def nodesTransitions : List Node → Except Unencodable (List Transition)
  | [] => .ok []
  | node :: rest => do
      let first ← edgesTransitions node.id node.edges
      let others ← nodesTransitions rest
      return first ++ others

/-- The table of an automaton, or the first character that does not fit in a byte. -/
def ofAutomaton (automaton : Automaton) : Except Unencodable Table := do
  return ⟨automaton.accept, ← nodesTransitions automaton.nodes⟩

/-- The number of transitions. -/
def size (table : Table) : Nat :=
  table.transitions.length

end Table

/-- A number in decimal digits. -/
def decimal (number : Nat) : List Char :=
  Nat.toDigits 10 number

/-- Source, destination and code on a line. -/
def Transition.chars (transition : Transition) : List Char :=
  decimal transition.source ++ [' '] ++ decimal transition.dest ++ [' '] ++
    decimal transition.code.toNat ++ ['\n']

/-- The characters of a table. -/
def Table.chars (table : Table) : List Char :=
  decimal table.accept ++ ['\n'] ++ table.transitions.flatMap Transition.chars

/-- The text of a table. -/
def Table.render (table : Table) : String :=
  String.ofList table.chars

end ScanCircuit
