import ScanCircuit.Circuit.Build
import ScanCircuit.Proofs.Movement
import ScanCircuit.Proofs.Related

/-!
# Planned nodes

A circuit exists when all incoming edges can be planned.  The plan then has the inner
nodes in order, and for each of them its incoming edges, in the order of the index, with
the checks of their labels.
-/

namespace ScanCircuit.Circuit

/-- What planning keeps of an incoming edge. -/
def Plans (dest : Nat) (edge : Incoming) (planned : PlannedEdge) : Prop :=
  planned.source = edge.source ∧ plan edge.label edge.source dest = .ok planned.checks

theorem planEdges_eq_ok {dest : Nat} {edges : List Incoming} {planned : List PlannedEdge} :
    planEdges dest edges = .ok planned ↔ List.Forall₂ (Plans dest) edges planned := by
  induction edges generalizing planned with
  | nil => simp [planEdges, eq_comm]
  | cons edge rest ih =>
      simp only [planEdges, bind_eq_ok, ih, pure, Except.pure, Except.ok.injEq]
      constructor
      · rintro ⟨checks, checked, others, plans, rfl⟩
        exact .cons ⟨rfl, checked⟩ plans
      · intro plans
        cases plans with
        | @cons _ first _ others plans rest =>
            obtain ⟨source, checks⟩ := first
            obtain ⟨rfl, checked⟩ := plans
            exact ⟨checks, checked, others, rest, rfl⟩

/-- What planning keeps of a node. -/
def PlansNode (index : IncomingIndex) (id : Nat) (planned : Nat × List PlannedEdge) : Prop :=
  planned.1 = id ∧ List.Forall₂ (Plans id) (index.incoming id) planned.2

theorem planNodes_eq_ok {index : IncomingIndex} {ids : List Nat}
    {planned : List (Nat × List PlannedEdge)} :
    planNodes index ids = .ok planned ↔ List.Forall₂ (PlansNode index) ids planned := by
  induction ids generalizing planned with
  | nil => simp [planNodes, eq_comm]
  | cons id rest ih =>
      simp only [planNodes, bind_eq_ok, planEdges_eq_ok, ih, pure, Except.pure, Except.ok.injEq]
      constructor
      · rintro ⟨edges, planned, others, plans, rfl⟩
        exact .cons ⟨rfl, planned⟩ plans
      · intro plans
        cases plans with
        | @cons _ first _ others plans rest =>
            obtain ⟨id, edges⟩ := first
            obtain ⟨rfl, planned⟩ := plans
            exact ⟨edges, planned, others, rest, rfl⟩

/-- The plan of all inner nodes of an automaton. -/
def Planned (automaton : Automaton) (nodes : List (Nat × List PlannedEdge)) : Prop :=
  List.Forall₂ (PlansNode (.ofAutomaton automaton)) (innerNodes automaton) nodes

/-- A circuit is assembled from the draft of the planned nodes. -/
theorem ofAutomaton_eq_ok {automaton : Automaton} {program : Program} {counts : Counts} :
    ofAutomaton automaton = .ok (program, counts) ↔
      ∃ nodes, Planned automaton nodes ∧
        program = assemble automaton.size automaton.accept (draftNodes nodes {}) ∧
        counts = (draftNodes nodes {}).counts := by
  simp only [ofAutomaton, transitions, bind_eq_ok, planNodes_eq_ok, pure, Except.pure,
    Except.ok.injEq, Prod.mk.injEq]
  constructor
  · rintro ⟨drafted, ⟨nodes, planned, rfl⟩, rfl, rfl⟩
    exact ⟨nodes, planned, rfl, rfl⟩
  · rintro ⟨nodes, planned, rfl, rfl⟩
    exact ⟨_, ⟨nodes, planned, rfl⟩, rfl, rfl⟩

theorem emitted_numerals : ∃ program counts, ofAutomaton .numerals = .ok (program, counts) :=
  ⟨_, _, rfl⟩

namespace Planned

variable {automaton : Automaton} {nodes : List (Nat × List PlannedEdge)}

theorem ids (planned : Planned automaton nodes) :
    nodes.map Prod.fst = innerNodes automaton := by
  have equal : List.Forall₂ (fun node id => node.1 = id) nodes (innerNodes automaton) :=
    (List.Forall₂.imp (fun _ _ plans => plans.1) planned).flip
  rw [← List.forall₂_eq_eq_eq, List.forall₂_map_left_iff]
  exact equal

theorem nodup (planned : Planned automaton nodes) : (nodes.map Prod.fst).Nodup := by
  rw [planned.ids]
  exact List.nodup_range'

theorem mem_ids (planned : Planned automaton nodes) {id : Nat} :
    (∃ node ∈ nodes, node.1 = id) ↔ id ≠ 0 ∧ id < automaton.size := by
  rw [← List.mem_map, planned.ids, innerNodes, List.mem_range'_1]
  omega

/-- The edges of a planned node are those that arrive at it. -/
theorem plans (planned : Planned automaton nodes) {node : Nat × List PlannedEdge}
    (member : node ∈ nodes) :
    List.Forall₂ (Plans node.1) ((IncomingIndex.ofAutomaton automaton).incoming node.1)
      node.2 := by
  obtain ⟨id, -, rfl, plans⟩ := exists_left_of_forall₂ planned member
  exact plans

/-- A planned edge leaves a node of the automaton and has a check. -/
theorem edge_fits (planned : Planned automaton nodes) {node : Nat × List PlannedEdge}
    (member : node ∈ nodes) {edge : PlannedEdge} (edgeMember : edge ∈ node.2) :
    edge.source < automaton.size ∧ edge.checks ≠ [] := by
  obtain ⟨incoming, listed, source, checked⟩ :=
    exists_left_of_forall₂ (planned.plans member) edgeMember
  obtain ⟨origin, originMember, id, outgoing, outgoingMember, -, label⟩ :=
    IncomingIndex.mem_incoming.1 listed
  have fits := automaton.wellFormed.edgesFit origin originMember outgoing outgoingMember
  constructor
  · rw [source, ← id]
    exact Automaton.id_lt_size originMember
  · exact ne_nil_of_plan checked (label ▸ fits.labelled)

/-- A check of an edge from a node holds of a byte exactly when the automaton moves from
there on that byte. -/
theorem moves (planned : Planned automaton nodes) {node : Nat × List PlannedEdge}
    (member : node ∈ nodes) (source : Nat) (byte : UInt8) :
    (∃ edge ∈ node.2, edge.source = source ∧ ∃ check ∈ edge.checks, check.Holds byte) ↔
      automaton.Moves source byte node.1 := by
  constructor
  · rintro ⟨edge, edgeMember, rfl, holds⟩
    obtain ⟨incoming, listed, equal, checked⟩ :=
      exists_left_of_forall₂ (planned.plans member) edgeMember
    obtain ⟨origin, originMember, id, outgoing, outgoingMember, dest, label⟩ :=
      IncomingIndex.mem_incoming.1 listed
    refine ⟨origin, originMember, id.trans equal.symm, outgoing, outgoingMember, dest, ?_⟩
    rw [label]
    exact (exists_holds_of_plan checked byte).1 holds
  · rintro ⟨origin, originMember, rfl, outgoing, outgoingMember, dest, taken⟩
    have listed : ⟨origin.id, outgoing.label⟩ ∈
        (IncomingIndex.ofAutomaton automaton).incoming node.1 :=
      IncomingIndex.mem_incoming.2
        ⟨origin, originMember, rfl, outgoing, outgoingMember, dest, rfl⟩
    obtain ⟨edge, edgeMember, equal, checked⟩ :=
      exists_right_of_forall₂ (planned.plans member) listed
    exact ⟨edge, edgeMember, equal, (exists_holds_of_plan checked byte).2 taken⟩

end Planned

end ScanCircuit.Circuit
