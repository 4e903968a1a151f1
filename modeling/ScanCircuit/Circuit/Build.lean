import ScanCircuit.CharClass
import ScanCircuit.Incoming
import ScanCircuit.Circuit.Draft

/-!
# The circuit of an automaton

The circuit keeps a matrix of states: row `i` says which nodes are active after `i`
bytes. Node zero is active in every row, so a match may begin anywhere. Another node
is active in the next row when, for some edge that leads to it, the source is active
in the current row and the byte satisfies one of the checks of the edge. The output
counts the rows in which the accepting node is active.

Edges are planned before anything is drafted. Nodes are drafted in ascending order,
and the edges of a node in the order of the incoming index; this fixes the numbers of
all components.
-/

namespace ScanCircuit.Circuit

/-- An incoming edge together with its checks. -/
structure PlannedEdge where
  source : Nat
  checks : List Check
  deriving DecidableEq, Repr

/-- Plan the incoming edges of a node, up to the first that cannot be encoded. -/
def planEdges (dest : Nat) : List Incoming → Except Unencodable (List PlannedEdge)
  | [] => .ok []
  | edge :: rest => do
      let checks ← plan edge.label edge.source dest
      let others ← planEdges dest rest
      return ⟨edge.source, checks⟩ :: others

/-- Plan the incoming edges of several nodes. -/
def planNodes (index : IncomingIndex) :
    List Nat → Except Unencodable (List (Nat × List PlannedEdge))
  | [] => .ok []
  | node :: rest => do
      let edges ← planEdges node (index.incoming node)
      let others ← planNodes index rest
      return (node, edges) :: others

/-- How a comment shows a byte: itself if it is printable, else as an escape. -/
def shownByte (code : UInt8) : String :=
  let value := code.toNat
  if 0x20 ≤ value ∧ value ≤ 0x7E then String.singleton (Char.ofNat value)
  else if value = 9 then "\\t"
  else if value = 13 then "\\r"
  else if value = 10 then "\\n"
  else "\\x" ++ String.ofList [Nat.digitChar (value / 16), Nat.digitChar (value % 16)]

open Draft

/-- Compare the byte with both bounds of a class. -/
def draftRange (charClass : CharClass) : Draft Component := do
  write (.comment charClass.label)
  let above ← instantiate .lt (.lessThan 8)
  wire above (.input 0) (.const charClass.lower)
  wire above (.input 1) .byte
  let below ← instantiate .lt (.lessThan 8)
  wire below (.input 0) .byte
  wire below (.input 1) (.const charClass.upper)
  let both ← instantiate .and .and
  wire both .a (.output above)
  wire both .b (.output below)
  return both

/-- Compare the byte with a code. -/
def draftEqual (code : UInt8) : Draft Component := do
  write (.comment (shownByte code))
  let equal ← instantiate .eq .isEqual
  wire equal (.input 0) .byte
  wire equal (.input 1) (.const code.toNat)
  return equal

/-- A component whose output says whether a check holds. -/
def draftCheck : Check → Draft Component
  | .range charClass => draftRange charClass
  | .equal code => draftEqual code

/-- A component for each check. -/
def draftChecks : List Check → Draft (List Component)
  | [] => return []
  | check :: rest => do
      let first ← draftCheck check
      let others ← draftChecks rest
      return first :: others

/-- Wire outputs to the numbered inputs of a component, from input `start` on. -/
def wireInputs (component : Component) (start : Nat) : List Component → Draft Unit
  | [] => return ()
  | term :: rest => do
      wire component (.input start) (.output term)
      wireInputs component (start + 1) rest

/-- Whether one of several outputs is set; a single output stands for itself. -/
def draftAny : List Component → Draft Expr
  | [single] => return .output single
  | terms => do
      let any ← instantiate .multiOr (.multiOr terms.length)
      wireInputs any 0 terms
      return .output any

/-- A component whose output says whether an edge is taken. -/
def draftEdge (edge : PlannedEdge) : Draft Component := do
  let terms ← draftChecks edge.checks
  let gate ← instantiate .and .and
  wire gate .a (.state .current edge.source)
  let condition ← draftAny terms
  wire gate .b condition
  return gate

/-- A component for each edge. -/
def draftEdges : List PlannedEdge → Draft (List Component)
  | [] => return []
  | edge :: rest => do
      let first ← draftEdge edge
      let others ← draftEdges rest
      return first :: others

/-- The state of a node in the next row. A node without incoming edges is never active. -/
def draftNode (node : Nat) : List PlannedEdge → Draft Unit
  | [] => constrain (.state .next (.node node)) (.const 0)
  | edges => do
      let gates ← draftEdges edges
      let active ← draftAny gates
      constrain (.state .next (.node node)) active

/-- The states of several nodes in the next row. -/
def draftNodes : List (Nat × List PlannedEdge) → Draft Unit
  | [] => return ()
  | (node, edges) :: rest => do
      draftNode node edges
      draftNodes rest

/-- Declare the components in use and the state matrix. -/
def declarations (counts : Counts) (nodes : Nat) : List Stmt :=
  (Kind.all.filter fun kind => counts.get kind ≠ 0).map
      (fun kind => .declareComponents kind (counts.get kind)) ++
    [.declareStates nodes, .blank]

/-- The start is active in every row, and nothing else is in the first. -/
def boundary (nodes : Nat) : List Stmt :=
  [.loop (.windowInclusive 0) [.constrain (.state .current (.node 0)) (.const 1)],
   .loop (.fixed 1 nodes) [.constrain (.state .zero .var) (.const 0)],
   .blank]

/-- Count the rows in which the accepting node is active. -/
def reduction (accept : Nat) : List Stmt :=
  [.blank,
   .declareSum,
   .constrain (.sum .zero) (.state .zero accept),
   .loop (.windowInclusive 1)
     [.constrain (.sum .current) (.add (.signal (.sum .previous)) (.state .current accept))],
   .constrain .out (.signal (.sum .last))]

/-- The program with the given transitions in its loop over the window. -/
def assemble (nodes accept : Nat) (drafted : Drafted Unit) : Program where
  declarations := declarations drafted.counts nodes
  init := boundary nodes
  transitions := [.loop (.window 0) drafted.body]
  accept := reduction accept

/-- The nodes other than the start. -/
def innerNodes (automaton : Automaton) : List Nat :=
  List.range' 1 (automaton.size - 1)

/-- The transitions of an automaton, drafted from no components. -/
def transitions (automaton : Automaton) : Except Unencodable (Drafted Unit) := do
  let nodes ← planNodes (.ofAutomaton automaton) (innerNodes automaton)
  return draftNodes nodes {}

/-- The circuit of an automaton and the number of its components. -/
def ofAutomaton (automaton : Automaton) : Except Unencodable (Program × Counts) := do
  let drafted ← transitions automaton
  return (assemble automaton.size automaton.accept drafted, drafted.counts)

end ScanCircuit.Circuit
