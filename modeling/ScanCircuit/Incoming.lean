import ScanCircuit.Automaton

/-!
# Incoming edges

A circuit computes each state from the edges that lead to it, while an automaton
lists the edges that leave a node. The index turns one view into the other: it
walks all edges once and files each under its destination.
-/

namespace ScanCircuit

/-- An edge seen from its destination. -/
structure Incoming where
  source : Nat
  label : CharSet
  deriving DecidableEq, Repr

/-- The incoming edges of every node, filed by node id. -/
structure IncomingIndex where
  slots : Array (Array Incoming)
  deriving DecidableEq, Repr

namespace IncomingIndex

/-- An index of so many nodes and no edges. -/
def bare (size : Nat) : IncomingIndex := ⟨Array.replicate size #[]⟩

/-- File an edge under its destination, after those already there. -/
def file (index : IncomingIndex) (source : Nat) (edge : Edge) : IncomingIndex :=
  ⟨index.slots.modify edge.dest (·.push ⟨source, edge.label⟩)⟩

/-- File the edges of a node in declaration order. -/
def fileNode (index : IncomingIndex) (node : Node) : IncomingIndex :=
  node.edges.foldl (fun index edge => index.file node.id edge) index

/-- The index of an automaton: sources ascending, each in declaration order. -/
def ofAutomaton (automaton : Automaton) : IncomingIndex :=
  automaton.nodes.foldl fileNode (bare automaton.size)

/-- The incoming edges of a node; an unknown node has none. -/
def incoming (index : IncomingIndex) (id : Nat) : List Incoming :=
  (index.slots[id]?.getD #[]).toList

/-- The number of nodes. -/
def size (index : IncomingIndex) : Nat :=
  index.slots.size

@[simp] theorem size_file (index : IncomingIndex) (source : Nat) (edge : Edge) :
    (index.file source edge).size = index.size := by
  simp [size, file]

/-- An edge is filed under its destination and nowhere else. -/
theorem incoming_file (index : IncomingIndex) (source : Nat) (edge : Edge)
    (known : edge.dest < index.size) (id : Nat) :
    (index.file source edge).incoming id =
      index.incoming id ++ if edge.dest = id then [⟨source, edge.label⟩] else [] := by
  unfold incoming file
  by_cases equal : edge.dest = id
  · subst equal
    have bound : edge.dest < index.slots.size := known
    simp [Array.getElem_modify, bound]
  · simp [Array.getElem?_modify, equal]

end IncomingIndex

end ScanCircuit
