import ScanCircuit.Proofs.Encoding
import ScanCircuit.Proofs.Circuit.Tally

/-!
# Edges by destination

The index of incoming edges is the transpose of an automaton: each slot holds the edges
that lead to its node, in the order in which a walk by source meets them, and no edge is
lost or listed twice.

Filing an edge needs a slot for its destination. `IncomingIndex.ofAutomaton?` stops at the
first edge without one, and it never stops, because the edges of an automaton end at its
nodes.
-/

namespace ScanCircuit

/-- A fold whose steps can fail is a plain fold where an invariant keeps each step from failing. -/
theorem foldlM_eq_some_foldl {α β : Type} (holds : β → Prop) {step? : β → α → Option β}
    {step : β → α → β} {items : List α}
    (steps : ∀ state item, holds state → item ∈ items →
      step? state item = some (step state item) ∧ holds (step state item))
    {state : β} (start : holds state) :
    items.foldlM step? state = some (items.foldl step state) ∧
      holds (items.foldl step state) := by
  induction items generalizing state with
  | nil => exact ⟨rfl, start⟩
  | cons item rest ih =>
      obtain ⟨passes, kept⟩ := steps state item start (by simp)
      rw [List.foldlM_cons, passes, List.foldl_cons]
      exact ih (fun state other holds member => steps state other holds (by simp [member])) kept

namespace IncomingIndex

/-- File an edge, unless the index has no slot for its destination. -/
def file? (index : IncomingIndex) (source : Nat) (edge : Edge) : Option IncomingIndex :=
  if edge.dest < index.size then some (index.file source edge) else none

/-- File the edges of a node, unless a slot is missing. -/
def fileNode? (index : IncomingIndex) (node : Node) : Option IncomingIndex :=
  node.edges.foldlM (fun index edge => index.file? node.id edge) index

/-- The index of an automaton, unless a slot is missing for one of its edges. -/
def ofAutomaton? (automaton : Automaton) : Option IncomingIndex :=
  automaton.nodes.foldlM fileNode? (bare automaton.size)

/-- A node is filed where there is a slot for each of its edges. -/
theorem fileNode?_eq_some {index : IncomingIndex} {node : Node}
    (known : ∀ edge ∈ node.edges, edge.dest < index.size) :
    index.fileNode? node = some (index.fileNode node) ∧
      (index.fileNode node).size = index.size := by
  refine foldlM_eq_some_foldl (fun state : IncomingIndex => state.size = index.size) ?_ rfl
  intro state edge size member
  constructor
  · rw [file?, if_pos (size ▸ known edge member)]
  · rw [size_file, size]

/-- There is a slot for every edge of an automaton. -/
theorem ofAutomaton?_eq_some (automaton : Automaton) :
    ofAutomaton? automaton = some (ofAutomaton automaton) ∧
      (ofAutomaton automaton).size = automaton.size := by
  have start : (bare automaton.size).size = automaton.size := by
    simp [bare, IncomingIndex.size]
  refine foldlM_eq_some_foldl (fun state : IncomingIndex => state.size = automaton.size) ?_ start
  intro state node size member
  have known : ∀ edge ∈ node.edges, edge.dest < state.size := by
    intro edge edgeMember
    rw [size]
    exact (automaton.wellFormed.edgesFit node member edge edgeMember).inside
  obtain ⟨filed, kept⟩ := fileNode?_eq_some known
  exact ⟨filed, kept.trans size⟩

theorem length_incoming (automaton : Automaton) (id : Nat) :
    ((ofAutomaton automaton).incoming id).length = (Circuit.arriving automaton id).length := by
  rw [← List.length_map Incoming.label, Circuit.labels_incoming, List.length_map]

/-- Every edge is in exactly one slot. -/
theorem sum_length_incoming (automaton : Automaton) :
    ((List.range automaton.size).map fun id =>
      ((ofAutomaton automaton).incoming id).length).sum = automaton.edgeCount := by
  have inside : ∀ edge ∈ automaton.nodes.flatMap Node.edges,
      edge.dest ∈ List.range automaton.size := by
    intro edge member
    obtain ⟨node, nodeMember, edgeMember⟩ := List.mem_flatMap.1 member
    exact List.mem_range.2 (automaton.wellFormed.edgesFit node nodeMember edge edgeMember).inside
  have regrouped := Circuit.flatMap_filter_dest_perm List.nodup_range inside
  simp only [length_incoming]
  rw [Automaton.edgeCount, ← regrouped.length_eq, List.length_flatMap]
  rfl

theorem incoming_eq_nil_of_size_le {automaton : Automaton} {id : Nat}
    (unknown : automaton.size ≤ id) : (ofAutomaton automaton).incoming id = [] := by
  have outside : (ofAutomaton automaton).slots.size ≤ id :=
    (ofAutomaton?_eq_some automaton).2.trans_le unknown
  simp [incoming, Array.getElem?_eq_none outside]

/-- The index is built without a missing slot.  It lists for each node the edges of the automaton
that lead there, sources ascending and then in declaration order, and all edges once. -/
theorem index_transposes (automaton : Automaton) :
    let index := ofAutomaton automaton
    ofAutomaton? automaton = some index ∧
    index.size = automaton.size ∧
    automaton.arcs.Pairwise Arc.BySource ∧
    (∀ arc, arc ∈ automaton.arcs ↔ automaton.HasArc arc) ∧
    (∀ id, index.incoming id =
      (automaton.arcs.filter fun arc => arc.edge.dest = id).map fun arc =>
        ⟨arc.source, arc.edge.label⟩) ∧
    (∀ id, automaton.size ≤ id → index.incoming id = []) ∧
    index.incoming 0 = [] ∧
    ((List.range automaton.size).map fun id => (index.incoming id).length).sum =
      automaton.edgeCount := by
  intro index
  obtain ⟨built, size⟩ := ofAutomaton?_eq_some automaton
  have start : index.incoming 0 = [] := by
    rw [← List.length_eq_zero_iff, length_incoming, Circuit.arriving_zero, List.length_nil]
  exact ⟨built, size, Automaton.arcs_ordered, fun _ => Automaton.mem_arcs,
    incoming_eq_arcs automaton, fun _ => incoming_eq_nil_of_size_le, start,
    sum_length_incoming automaton⟩

end IncomingIndex

end ScanCircuit
