import ScanCircuit.Incoming
import ScanCircuit.Table
import ScanCircuit.Proofs.Planning

/-!
# Movements of an automaton

An automaton moves from node to node along its edges, one byte at a time, and a path
spells the bytes of its edges in turn.  The incoming index and the transition table
both list these movements: the index by destination, the table by source and byte.
-/

namespace ScanCircuit

namespace Automaton

/-- Some edge leads from one node to another and its label has the byte. -/
def Moves (automaton : Automaton) (source : Nat) (byte : UInt8) (dest : Nat) : Prop :=
  ∃ node ∈ automaton.nodes, node.id = source ∧
    ∃ edge ∈ node.edges, edge.dest = dest ∧ Char.ofUInt8 byte ∈ edge.label

/-- Some path spells a word: its edges have the bytes of the word in turn. -/
inductive Path (automaton : Automaton) : Nat → List UInt8 → Nat → Prop where
  | nil (node : Nat) : Path automaton node [] node
  | cons {source middle dest : Nat} {byte : UInt8} {word : List UInt8} :
      automaton.Moves source byte middle → Path automaton middle word dest →
      Path automaton source (byte :: word) dest

variable {automaton : Automaton} {source dest : Nat} {byte : UInt8} {word : List UInt8}

/-- A node of an automaton is below its size. -/
theorem id_lt_size {node : Node} (member : node ∈ automaton.nodes) :
    node.id < automaton.size := by
  have listed : node.id ∈ automaton.nodes.map Node.id := List.mem_map_of_mem member
  rw [automaton.wellFormed.dense, List.mem_range] at listed
  exact listed

theorem accept_lt_size (automaton : Automaton) : automaton.accept < automaton.size := by
  have listed : automaton.accept ∈ acceptIds automaton.nodes := by
    simp [automaton.wellFormed.onlyAccept]
  obtain ⟨node, member, equal⟩ := List.mem_map.1 listed
  rw [← equal]
  exact id_lt_size (List.mem_of_mem_filter member)

theorem Moves.source_lt (moves : automaton.Moves source byte dest) :
    source < automaton.size := by
  obtain ⟨node, member, rfl, -⟩ := moves
  exact id_lt_size member

/-- A path for a longer word is a path followed by one movement. -/
theorem path_concat :
    automaton.Path source (word ++ [byte]) dest ↔
      ∃ middle, automaton.Path source word middle ∧ automaton.Moves middle byte dest := by
  induction word generalizing source with
  | nil =>
      constructor
      · rintro (_ | ⟨moves, rest⟩)
        cases rest
        exact ⟨source, .nil source, moves⟩
      · rintro ⟨middle, path, moves⟩
        cases path
        exact .cons moves (.nil dest)
  | cons first rest ih =>
      constructor
      · rintro (_ | ⟨moves, path⟩)
        obtain ⟨middle, path, last⟩ := ih.1 path
        exact ⟨middle, .cons moves path, last⟩
      · rintro ⟨middle, path, last⟩
        obtain _ | ⟨moves, path⟩ := path
        exact .cons moves (ih.2 ⟨middle, path, last⟩)

/-- A path that ends away from its source spells at least one byte. -/
theorem Path.ne_nil (path : automaton.Path source word dest) (different : source ≠ dest) :
    word ≠ [] := by
  rintro rfl
  cases path
  exact different rfl

/-- Digits, with underscores among them after the first, and a node that nothing leads to. -/
def numerals : Automaton where
  nodes :=
    [⟨0, .normal, [⟨CharClass.digits.members, 1⟩]⟩,
     ⟨1, .accept, [⟨CharClass.digits.members.insert '_', 1⟩]⟩,
     ⟨2, .normal, [⟨{ toList := ['é'] }, 1⟩]⟩]
  accept := 1
  wellFormed :=
    { dense := rfl
      edgesFit := edgesDefect_eq_none.1 (by decide)
      onlyAccept := rfl
      acceptNotStart := by decide }

end Automaton

/-! ## The incoming index -/

namespace IncomingIndex

/-- The edges of a node that lead to another one, seen from there. -/
def arrivals (id : Nat) (node : Node) : List Incoming :=
  (node.edges.filter fun edge => edge.dest = id).map fun edge => ⟨node.id, edge.label⟩

theorem fileNode_spec (index : IncomingIndex) (node : Node)
    (known : ∀ edge ∈ node.edges, edge.dest < index.size) (id : Nat) :
    (index.fileNode node).size = index.size ∧
      (index.fileNode node).incoming id = index.incoming id ++ arrivals id node := by
  obtain ⟨source, kind, edges⟩ := node
  simp only [fileNode, arrivals]
  induction edges generalizing index with
  | nil => simp
  | cons edge rest ih =>
      have bound := known edge (by simp)
      have others : ∀ other ∈ rest, other.dest < (index.file source edge).size := by
        intro other member
        rw [size_file]
        exact known other (by simp [member])
      obtain ⟨size, incoming⟩ := ih (index.file source edge) others
      rw [List.foldl_cons, size, incoming, size_file, incoming_file index source edge bound]
      by_cases equal : edge.dest = id <;> simp [equal]

/-- Filing several nodes appends what arrives from each of them. -/
theorem incoming_foldl (nodes : List Node) (index : IncomingIndex)
    (known : ∀ node ∈ nodes, ∀ edge ∈ node.edges, edge.dest < index.size) (id : Nat) :
    (nodes.foldl fileNode index).incoming id =
      index.incoming id ++ nodes.flatMap (arrivals id) := by
  induction nodes generalizing index with
  | nil => simp
  | cons node rest ih =>
      obtain ⟨size, incoming⟩ := index.fileNode_spec node (known node (by simp)) id
      have others : ∀ other ∈ rest, ∀ edge ∈ other.edges,
          edge.dest < (index.fileNode node).size := by
        intro other member
        rw [size]
        exact known other (by simp [member])
      rw [List.foldl_cons, ih _ others, incoming, List.flatMap_cons, List.append_assoc]

/-- The index lists what arrives at a node, sources ascending. -/
theorem incoming_ofAutomaton (automaton : Automaton) (id : Nat) :
    (ofAutomaton automaton).incoming id = automaton.nodes.flatMap (arrivals id) := by
  have known : ∀ node ∈ automaton.nodes, ∀ edge ∈ node.edges,
      edge.dest < (bare automaton.size).size := by
    intro node member edge edgeMember
    simpa [bare, size, Automaton.size] using
      (automaton.wellFormed.edgesFit node member edge edgeMember).inside
  have empty : (bare automaton.size).incoming id = [] := by
    simp only [bare, incoming, Array.getElem?_replicate]
    split <;> rfl
  rw [ofAutomaton, incoming_foldl _ _ known, empty, List.nil_append]

/-- An edge is in the index of its destination. -/
theorem mem_incoming {automaton : Automaton} {id : Nat} {edge : Incoming} :
    edge ∈ (ofAutomaton automaton).incoming id ↔
      ∃ node ∈ automaton.nodes, node.id = edge.source ∧
        ∃ outgoing ∈ node.edges, outgoing.dest = id ∧ outgoing.label = edge.label := by
  obtain ⟨source, label⟩ := edge
  simp only [incoming_ofAutomaton, arrivals, List.mem_flatMap, List.mem_map, List.mem_filter,
    decide_eq_true_eq, Incoming.mk.injEq, and_assoc]
  constructor
  · rintro ⟨node, member, outgoing, edgeMember, dest, id, label⟩
    exact ⟨node, member, id, outgoing, edgeMember, dest, label⟩
  · rintro ⟨node, member, id, outgoing, edgeMember, dest, label⟩
    exact ⟨node, member, outgoing, edgeMember, dest, id, label⟩

end IncomingIndex

/-- The edges from one node to another, in declaration order. -/
def Automaton.edgesBetween (automaton : Automaton) (source dest : Nat) : List Edge :=
  ((automaton.edges? source).getD []).filter fun edge => edge.dest = dest

namespace IncomingIndex

/-- The edges from one node to another, seen from the destination. -/
def arrivalsFrom (automaton : Automaton) (dest source : Nat) : List Incoming :=
  (automaton.edgesBetween source dest).map fun edge => ⟨source, edge.label⟩

/-- The index of a node lists what arrives from each source, sources ascending. -/
theorem incoming_eq_flatMap (automaton : Automaton) (dest : Nat) :
    (ofAutomaton automaton).incoming dest =
      (List.range automaton.size).flatMap (arrivalsFrom automaton dest) := by
  have each : automaton.nodes.map (arrivals dest) =
      (List.range automaton.size).map (arrivalsFrom automaton dest) := by
    apply List.ext_getElem
    · simp [Automaton.size]
    · intro position left right
      have bound : position < automaton.nodes.length := by simpa using left
      have id : automaton.nodes[position].id = position := by
        have listed : position < (automaton.nodes.map Node.id).length := by simpa using left
        have dense := automaton.wellFormed.dense
        simpa using (List.getElem_of_eq dense listed)
      simp [arrivals, arrivalsFrom, Automaton.edgesBetween, Automaton.edges?, Automaton.node?,
        bound, id]
  rw [incoming_ofAutomaton, List.flatMap, List.flatMap, each]

/-- What arrives at a node from one source is what the edges between the two carry. -/
theorem filter_incoming (automaton : Automaton) (dest source : Nat) :
    ((ofAutomaton automaton).incoming dest).filter (fun edge => edge.source = source) =
      arrivalsFrom automaton dest source := by
  have each (other : Nat) : (arrivalsFrom automaton dest other).filter
      (fun edge => edge.source = source) =
        if other = source then arrivalsFrom automaton dest source else [] := by
    by_cases equal : other = source
    · subst equal
      rw [if_pos rfl, List.filter_eq_self]
      simp [arrivalsFrom]
    · rw [if_neg equal, List.filter_eq_nil_iff]
      simp [arrivalsFrom, equal]
  have only (size : Nat) :
      (List.range size).flatMap (fun other =>
        if other = source then arrivalsFrom automaton dest source else []) =
          if source < size then arrivalsFrom automaton dest source else [] := by
    induction size with
    | zero => rfl
    | succ size ih =>
        rw [List.range_succ, List.flatMap_append, ih, List.flatMap_singleton]
        rcases Nat.lt_trichotomy source size with below | equal | above
        · simp [below, Nat.ne_of_gt below, Nat.lt_succ_of_lt below]
        · simp [equal]
        · simp [Nat.not_lt_of_lt above, Nat.ne_of_lt above, Nat.not_lt.2 above]
  rw [incoming_eq_flatMap, List.filter_flatMap]
  simp only [each, only]
  split
  next => rfl
  next outside =>
    have unknown : automaton.nodes[source]? = none :=
      List.getElem?_eq_none (Nat.le_of_not_lt outside)
    simp [arrivalsFrom, Automaton.edgesBetween, Automaton.edges?, Automaton.node?, unknown]

/-- Two automata have the same index exactly when they have the same edges between any two nodes. -/
theorem incoming_eq_iff {left right : Automaton} (sizes : left.size = right.size) :
    (∀ dest, (ofAutomaton left).incoming dest = (ofAutomaton right).incoming dest) ↔
      ∀ source dest, left.edgesBetween source dest = right.edgesBetween source dest := by
  constructor
  · intro same source dest
    have arriving : arrivalsFrom left dest source = arrivalsFrom right dest source := by
      rw [← filter_incoming, ← filter_incoming, same]
    -- All edges between the two nodes have the same destination, so their labels tell them apart.
    have labels : (left.edgesBetween source dest).map Edge.label =
        (right.edgesBetween source dest).map Edge.label := by
      simpa [arrivalsFrom, Function.comp_def] using congrArg (List.map Incoming.label) arriving
    have rebuilt (automaton : Automaton) :
        ((automaton.edgesBetween source dest).map Edge.label).map (fun label => ⟨label, dest⟩) =
          automaton.edgesBetween source dest := by
      rw [List.map_map]
      rw [List.map_congr_left (g := id), List.map_id]
      intro edge member
      have leads : edge.dest = dest := of_decide_eq_true (List.mem_filter.1 member).2
      rw [← leads]
      rfl
    rw [← rebuilt left, ← rebuilt right, labels]
  · intro same dest
    have arriving : arrivalsFrom left dest = arrivalsFrom right dest := by
      funext source
      rw [arrivalsFrom, arrivalsFrom, same]
    rw [incoming_eq_flatMap, incoming_eq_flatMap, sizes, arriving]

end IncomingIndex

/-! ## The transition table -/

namespace Table

theorem mem_edgeTransitions {source : Nat} {edge : Edge} {listed : List Transition}
    (built : edgeTransitions source edge = .ok listed) {transition : Transition} :
    transition ∈ listed ↔ transition.source = source ∧ transition.dest = edge.dest ∧
      Char.ofUInt8 transition.code ∈ edge.label := by
  obtain ⟨codes, coded, rfl⟩ : ∃ codes, byteCodes source edge.dest edge.label.toList = .ok codes ∧
      codes.map (fun code => (⟨source, edge.dest, code⟩ : Transition)) = listed := by
    simpa [edgeTransitions, bind_eq_ok, pure, Except.pure] using built
  rw [CharSet.mem_iff, ← byteCodes_eq_ok.1 coded, List.mem_map_of_injective ofUInt8_injective,
    List.mem_map]
  obtain ⟨start, stop, code⟩ := transition
  constructor
  · rintro ⟨code, member, equal⟩
    cases equal
    exact ⟨rfl, rfl, member⟩
  · rintro ⟨rfl, rfl, member⟩
    exact ⟨code, member, rfl⟩

theorem mem_edgesTransitions {source : Nat} {edges : List Edge} {listed : List Transition}
    (built : edgesTransitions source edges = .ok listed) {transition : Transition} :
    transition ∈ listed ↔ transition.source = source ∧
      ∃ edge ∈ edges, edge.dest = transition.dest ∧
        Char.ofUInt8 transition.code ∈ edge.label := by
  induction edges generalizing listed with
  | nil =>
      cases built
      simp
  | cons edge rest ih =>
      simp only [edgesTransitions, bind_eq_ok, pure, Except.pure, Except.ok.injEq] at built
      obtain ⟨first, firstBuilt, others, othersBuilt, rfl⟩ := built
      rw [List.mem_append, mem_edgeTransitions firstBuilt, ih othersBuilt,
        List.exists_mem_cons_iff, ← and_or_left, eq_comm (a := edge.dest)]

theorem mem_nodesTransitions {nodes : List Node} {listed : List Transition}
    (built : nodesTransitions nodes = .ok listed) {transition : Transition} :
    transition ∈ listed ↔ ∃ node ∈ nodes, node.id = transition.source ∧
      ∃ edge ∈ node.edges, edge.dest = transition.dest ∧
        Char.ofUInt8 transition.code ∈ edge.label := by
  induction nodes generalizing listed with
  | nil =>
      cases built
      simp
  | cons node rest ih =>
      simp only [nodesTransitions, bind_eq_ok, pure, Except.pure, Except.ok.injEq] at built
      obtain ⟨first, firstBuilt, others, othersBuilt, rfl⟩ := built
      rw [List.mem_append, mem_edgesTransitions firstBuilt, ih othersBuilt,
        List.exists_mem_cons_iff, eq_comm (a := node.id)]

/-- The table of an automaton lists its movements and names its accepting node. -/
theorem ofAutomaton_spec {automaton : Automaton} {table : Table}
    (built : ofAutomaton automaton = .ok table) :
    table.accept = automaton.accept ∧
      ∀ source dest byte,
        ⟨source, dest, byte⟩ ∈ table.transitions ↔ automaton.Moves source byte dest := by
  obtain ⟨listed, listedBuilt, rfl⟩ : ∃ listed, nodesTransitions automaton.nodes = .ok listed ∧
      (⟨automaton.accept, listed⟩ : Table) = table := by
    simpa [ofAutomaton, bind_eq_ok, pure, Except.pure] using built
  exact ⟨rfl, fun source dest byte => mem_nodesTransitions listedBuilt⟩

end Table

end ScanCircuit
