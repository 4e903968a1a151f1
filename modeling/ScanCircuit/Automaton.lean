import ScanCircuit.CharSet

/-!
# Automata

An automaton is a list of nodes numbered from zero. Node zero is the start and no
edge leads to it, exactly one other node accepts, and every edge has a label with
at least one character and ends at a node of the automaton.

`Automaton.WellFormed` states those rules, the type `Automaton` carries them, and
`Automaton.ofNodes` decides them, reporting the first `Defect` it meets.
-/

namespace ScanCircuit

/-- Whether reaching a node means that the pattern has matched. -/
inductive NodeKind where
  | normal
  | accept
  deriving DecidableEq, Repr

/-- An outgoing edge: the characters it consumes and the node it leads to. -/
structure Edge where
  label : CharSet
  dest : Nat
  deriving DecidableEq, Repr

/-- A node with its outgoing edges in declaration order. -/
structure Node where
  id : Nat
  kind : NodeKind
  edges : List Edge
  deriving DecidableEq, Repr

namespace Node

/-- A node that has no edges yet. -/
def bare (id : Nat) (kind : NodeKind) : Node := ⟨id, kind, []⟩

/-- The node with one more edge, declared last. -/
def addEdge (node : Node) (label : CharSet) (dest : Nat) : Node :=
  { node with edges := node.edges ++ [⟨label, dest⟩] }

/-- Whether the node accepts. -/
def isAccept (node : Node) : Bool :=
  node.kind = .accept

end Node

/-- The ways in which a graph fails to be an automaton. -/
inductive Defect where
  | empty
  | invalidNodeId (key : String)
  | nonDenseIds (expected found : Nat)
  | unknownKind (node : Nat) (kind : String)
  | malformedLabel (node : Nat) (label : String)
  | emptyLabel (source dest : Nat)
  | destinationOutOfRange (source dest size : Nat)
  | startHasIncoming (source : Nat)
  | noAcceptNode
  | multipleAcceptNodes (ids : List Nat)
  | acceptIsStart
  deriving DecidableEq, Repr

namespace Defect

/-- The sentence that names the broken rule. -/
def message : Defect → String
  | empty => "automaton has no nodes"
  | invalidNodeId key =>
      "invalid node id " ++ Text.quote key ++ " (node ids must be decimal integers)"
  | nonDenseIds expected found =>
      s!"node ids must be dense: expected node {expected}, found node {found}"
  | unknownKind node kind =>
      s!"node {node} has unknown kind " ++ Text.quote kind ++
        " (expected \"normal\" or \"accept\")"
  | malformedLabel node label =>
      s!"node {node} has malformed edge label " ++ Text.quote label ++
        " (expected single characters)"
  | emptyLabel source dest => s!"edge {source} -> {dest} has an empty character set"
  | destinationOutOfRange source dest size =>
      s!"edge {source} -> {dest} points outside the automaton ({size} nodes)"
  | startHasIncoming source =>
      s!"start node 0 must not have incoming edges (found one from node {source})"
  | noAcceptNode => "automaton has no accept node (exactly one is required)"
  | multipleAcceptNodes ids =>
      s!"automaton has {ids.length} accept nodes " ++
        Text.bracketed (ids.map Nat.repr) ++ " (exactly one is required)"
  | acceptIsStart => "accept node must not be the start node 0"

end Defect

namespace Automaton

/-- The accepting nodes, in order. -/
def acceptIds (nodes : List Node) : List Nat :=
  (nodes.filter Node.isAccept).map Node.id

/-- An edge has a character to consume and leads to a node other than the start. -/
structure EdgeFits (size : Nat) (edge : Edge) : Prop where
  labelled : edge.label.toList ≠ []
  inside : edge.dest < size
  notStart : edge.dest ≠ 0

/-- The rules of an automaton whose accepting node is `accept`. -/
structure WellFormed (nodes : List Node) (accept : Nat) : Prop where
  dense : nodes.map Node.id = List.range nodes.length
  edgesFit : ∀ node ∈ nodes, ∀ edge ∈ node.edges, EdgeFits nodes.length edge
  onlyAccept : acceptIds nodes = [accept]
  acceptNotStart : accept ≠ 0

end Automaton

/-- Nodes that obey the rules of an automaton, and the one that accepts. -/
structure Automaton where
  nodes : List Node
  accept : Nat
  wellFormed : Automaton.WellFormed nodes accept
  deriving DecidableEq

namespace Automaton

/-- An automaton is determined by its nodes and its accepting node. -/
@[ext] theorem ext {left right : Automaton} (nodes : left.nodes = right.nodes)
    (accept : left.accept = right.accept) : left = right := by
  cases left; cases right; cases nodes; cases accept; rfl

/-- The first node whose id is not its position. -/
def densityDefect (expected : Nat) : List Node → Option Defect
  | [] => none
  | node :: rest =>
      if node.id = expected then densityDefect (expected + 1) rest
      else some (.nonDenseIds expected node.id)

/-- What is wrong with an edge that leaves `source` in a graph of `size` nodes. -/
def edgeDefect (size source : Nat) (edge : Edge) : Option Defect :=
  if edge.label.toList = [] then some (.emptyLabel source edge.dest)
  else if size ≤ edge.dest then some (.destinationOutOfRange source edge.dest size)
  else if edge.dest = 0 then some (.startHasIncoming source)
  else none

/-- The first defect of an edge, node by node in declaration order. -/
def edgesDefect (nodes : List Node) : Option Defect :=
  nodes.findSome? fun node => node.edges.findSome? (edgeDefect nodes.length node.id)

theorem densityDefect_eq_none {nodes : List Node} {expected : Nat} :
    densityDefect expected nodes = none ↔
      nodes.map Node.id = List.range' expected nodes.length := by
  induction nodes generalizing expected with
  | nil => simp [densityDefect]
  | cons node rest ih =>
      by_cases equal : node.id = expected <;>
        simp [densityDefect, equal, ih, List.range'_succ]

theorem edgeDefect_eq_none {size source : Nat} {edge : Edge} :
    edgeDefect size source edge = none ↔ EdgeFits size edge := by
  unfold edgeDefect
  constructor
  · intro none
    split at none <;> try simp at none
    next labelled =>
      split at none <;> try simp at none
      next inside => exact ⟨labelled, Nat.lt_of_not_le inside, none⟩
  · intro fits
    simp [fits.labelled, Nat.not_le.2 fits.inside, fits.notStart]

theorem edgesDefect_eq_none {nodes : List Node} :
    edgesDefect nodes = none ↔
      ∀ node ∈ nodes, ∀ edge ∈ node.edges, EdgeFits nodes.length edge := by
  simp [edgesDefect, List.findSome?_eq_none_iff, edgeDefect_eq_none]

/-- The automaton of the given nodes, or the first rule they break. Numbering is
checked before edges, and edges before accepting nodes. -/
def ofNodes (nodes : List Node) : Except Defect Automaton :=
  if nodes = [] then .error .empty
  else
    match dense : densityDefect 0 nodes with
    | some defect => .error defect
    | none =>
        match fit : edgesDefect nodes with
        | some defect => .error defect
        | none =>
            match only : acceptIds nodes with
            | [] => .error .noAcceptNode
            | [accept] =>
                if notStart : accept = 0 then .error .acceptIsStart
                else
                  .ok
                    { nodes, accept
                      wellFormed :=
                        { dense := by
                            rw [densityDefect_eq_none.1 dense, List.range_eq_range']
                          edgesFit := edgesDefect_eq_none.1 fit
                          onlyAccept := only
                          acceptNotStart := notStart } }
            | first :: second :: rest => .error (.multipleAcceptNodes (first :: second :: rest))

/-- The number of nodes. -/
def size (automaton : Automaton) : Nat :=
  automaton.nodes.length

/-- The node with the given id. -/
def node? (automaton : Automaton) (id : Nat) : Option Node :=
  automaton.nodes[id]?

/-- The number of edges of all nodes together. -/
def edgeCount (automaton : Automaton) : Nat :=
  (automaton.nodes.flatMap Node.edges).length

/-- The complaint about an id that no node of the automaton has. -/
def unknownNodeMessage (automaton : Automaton) (id : Nat) : String :=
  s!"Automaton: node {id} not found (automaton has {automaton.size} nodes; " ++
    "ids must come from this automaton)"

/-- The outgoing edges of a node in declaration order. -/
def edges? (automaton : Automaton) (id : Nat) : Option (List Edge) :=
  (automaton.node? id).map Node.edges

end Automaton

end ScanCircuit
