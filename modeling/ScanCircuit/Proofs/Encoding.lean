import Mathlib.Data.Char
import Mathlib.Data.List.Infix
import ScanCircuit.Compilation
import ScanCircuit.Proofs.Movement

/-!
# Encoding failures

A circuit and a transition table need every character of a label as a byte.  Both walk
the edges of an automaton and stop at the first character that does not fit, the circuit
by destination and the table by source.

`Automaton.FirstUnencodable` says which failure a walk in a given order has to report,
and `encoding_failures_agree` says that both walks report it, and that they fail on the
same automata.
-/

namespace ScanCircuit

/-! ## Edges in their places -/

/-- An edge in its place: the node that it leaves and its position there. -/
structure Arc where
  source : Nat
  position : Nat
  edge : Edge

/-- Sources ascending, then in declaration order. -/
def Arc.BySource (left right : Arc) : Prop :=
  left.source < right.source ∨ left.source = right.source ∧ left.position < right.position

/-- Destinations ascending, then sources ascending, then in declaration order. -/
def Arc.ByDest (left right : Arc) : Prop :=
  left.edge.dest < right.edge.dest ∨ left.edge.dest = right.edge.dest ∧ left.BySource right

/-- The least character of a label that does not fit in a byte. -/
structure CharSet.LeastUnencodable (label : CharSet) (char : Char) : Prop where
  member : char ∈ label
  tooLarge : 255 < char.toNat
  least : ∀ other ∈ label, 255 < other.toNat → char ≤ other

namespace Automaton

/-- The automaton has an edge in a place. -/
def HasArc (automaton : Automaton) (arc : Arc) : Prop :=
  ∃ edges, automaton.edges? arc.source = some edges ∧ edges[arc.position]? = some arc.edge

/-- Every character of every label fits in a byte. -/
def Encodable (automaton : Automaton) : Prop :=
  ∀ node ∈ automaton.nodes, ∀ edge ∈ node.edges, ∀ char ∈ edge.label, char.toNat ≤ 255

/-- A failure names the ends of the first edge, in the given order, that has a character
which does not fit in a byte, and the least such character of that edge. -/
def FirstUnencodable (automaton : Automaton) (before : Arc → Arc → Prop)
    (failure : Unencodable) : Prop :=
  ∃ arc, automaton.HasArc arc ∧ arc.edge.label.LeastUnencodable failure.char ∧
    failure.source = arc.source ∧ failure.dest = arc.edge.dest ∧
    ∀ other, automaton.HasArc other → (∃ char ∈ other.edge.label, 255 < char.toNat) →
      other = arc ∨ before arc other

end Automaton

/-! ## The failure of a computation -/

section Failure

variable {ε α β : Type}

/-- The failure of a computation, if it fails. -/
def failure? : Except ε α → Option ε
  | .ok _ => none
  | .error error => some error

theorem failure?_eq_some {result : Except ε α} {error : ε} :
    failure? result = some error ↔ result = .error error := by
  cases result <;> simp [failure?]

theorem failure?_eq_none {result : Except ε α} :
    failure? result = none ↔ ∃ value, result = .ok value := by
  cases result <;> simp [failure?]

/-- A computation of two steps fails with the first failure of a step. -/
theorem failure?_bind {first : Except ε α} {next : α → Except ε β} {later : Option ε}
    (second : ∀ value, failure? (next value) = later) :
    failure? (first >>= next) = (failure? first).or later := by
  cases first with
  | ok value => exact second value
  | error error => rfl

/-- A step that cannot fail adds no failure. -/
theorem failure?_bind_pure {first : Except ε α} {result : α → β} :
    failure? (first >>= fun value => pure (result value)) = failure? first := by
  cases first <;> rfl

end Failure

theorem findSome?_cons_or {α β : Type} (found : α → Option β) (first : α) (rest : List α) :
    (first :: rest).findSome? found = (found first).or (rest.findSome? found) := by
  cases present : found first <;> simp [present]

/-! ## What the walks report -/

/-- The failure of an edge that leaves a node, if one of its characters does not fit. -/
def Edge.unencodable? (source : Nat) (edge : Edge) : Option Unencodable :=
  (edge.label.toList.find? fun char => 255 < char.toNat).map fun char => ⟨char, source, edge.dest⟩

theorem failure?_byteCodes (source dest : Nat) (chars : List Char) :
    failure? (byteCodes source dest chars) =
      (chars.find? fun char => 255 < char.toNat).map fun char => ⟨char, source, dest⟩ := by
  induction chars with
  | nil => rfl
  | cons char rest ih =>
      rw [byteCodes, failure?_bind fun _ => failure?_bind_pure, ih, byteCode]
      by_cases fits : char.toNat < 256
      · have small : ¬ 255 < char.toNat := by omega
        simp [fits, small, failure?]
      · have large : 255 < char.toNat := by omega
        simp [fits, large, failure?]

/-- What is left without the classes still has every character that does not fit. -/
theorem find?_extractClasses (classes : List CharClass) (label : CharSet) :
    ((extractClasses classes label).2.toList.find? fun char => 255 < char.toNat) =
      label.toList.find? fun char => 255 < char.toNat := by
  induction classes generalizing label with
  | nil => rfl
  | cons charClass rest ih =>
      simp only [extractClasses]
      split
      next =>
        rw [ih, CharSet.removeAll, List.find?_filter]
        apply congrArg (List.find? · label.toList)
        funext char
        by_cases inside : char ∈ charClass.chars
        · have listed : char.toNat ∈ charClass.chars.map Char.toNat := List.mem_map_of_mem inside
          rw [charClass.codes_chars, List.mem_range'_1] at listed
          have small : ¬ 255 < char.toNat := by
            have := charClass.bounds_lt
            omega
          simp [small]
        · have outside : charClass.members.contains char = false := by
            simpa [CharSet.contains, CharClass.members] using inside
          simp [outside]
      next => exact ih label

/-- Planning a label fails at the character at which listing all of it fails. -/
theorem failure?_plan (label : CharSet) (source dest : Nat) :
    failure? (plan label source dest) = Edge.unencodable? source ⟨label, dest⟩ := by
  rw [plan, failure?_bind_pure, failure?_byteCodes, find?_extractClasses, Edge.unencodable?]

theorem failure?_planEdges (dest : Nat) (edges : List Incoming) :
    failure? (Circuit.planEdges dest edges) =
      edges.findSome? fun edge => Edge.unencodable? edge.source ⟨edge.label, dest⟩ := by
  induction edges with
  | nil => rfl
  | cons edge rest ih =>
      rw [Circuit.planEdges, failure?_bind fun _ => failure?_bind_pure, ih, failure?_plan,
        findSome?_cons_or]

theorem failure?_planNodes (index : IncomingIndex) (ids : List Nat) :
    failure? (Circuit.planNodes index ids) =
      ids.findSome? fun dest => (index.incoming dest).findSome? fun edge =>
        Edge.unencodable? edge.source ⟨edge.label, dest⟩ := by
  induction ids with
  | nil => rfl
  | cons dest rest ih =>
      rw [Circuit.planNodes, failure?_bind fun _ => failure?_bind_pure, ih, failure?_planEdges,
        findSome?_cons_or]

theorem failure?_circuit (automaton : Automaton) :
    failure? (Circuit.ofAutomaton automaton) =
      (Circuit.innerNodes automaton).findSome? fun dest =>
        ((IncomingIndex.ofAutomaton automaton).incoming dest).findSome? fun edge =>
          Edge.unencodable? edge.source ⟨edge.label, dest⟩ := by
  rw [Circuit.ofAutomaton, failure?_bind_pure, Circuit.transitions, failure?_bind_pure,
    failure?_planNodes]

theorem failure?_edgesTransitions (source : Nat) (edges : List Edge) :
    failure? (Table.edgesTransitions source edges) =
      edges.findSome? (Edge.unencodable? source) := by
  induction edges with
  | nil => rfl
  | cons edge rest ih =>
      rw [Table.edgesTransitions, failure?_bind fun _ => failure?_bind_pure, ih,
        Table.edgeTransitions, failure?_bind_pure, failure?_byteCodes, findSome?_cons_or,
        Edge.unencodable?]

theorem failure?_table (automaton : Automaton) :
    failure? (Table.ofAutomaton automaton) =
      automaton.nodes.findSome? fun node => node.edges.findSome? (Edge.unencodable? node.id) := by
  rw [Table.ofAutomaton, failure?_bind_pure]
  induction automaton.nodes with
  | nil => rfl
  | cons node rest ih =>
      rw [Table.nodesTransitions, failure?_bind fun _ => failure?_bind_pure, ih,
        failure?_edgesTransitions, findSome?_cons_or]

/-! ## The order of the walks -/

/-- The arcs that leave a node, in declaration order. -/
def Node.arcs (node : Node) : List Arc :=
  node.edges.zipIdx.map fun (edge, position) => ⟨node.id, position, edge⟩

/-- The failure of an arc, if one of its characters does not fit. -/
def Arc.unencodable? (arc : Arc) : Option Unencodable :=
  arc.edge.unencodable? arc.source

theorem findSome?_congr {α β : Type} {items : List α} {left right : α → Option β}
    (equal : ∀ item ∈ items, left item = right item) :
    items.findSome? left = items.findSome? right := by
  induction items with
  | nil => rfl
  | cons item rest ih =>
      rw [findSome?_cons_or, findSome?_cons_or, equal item (by simp),
        ih fun other member => equal other (by simp [member])]

theorem findSome?_flatMap {α β γ : Type} (items : List α) (image : α → List β)
    (found : β → Option γ) :
    (items.flatMap image).findSome? found =
      items.findSome? fun item => (image item).findSome? found := by
  induction items with
  | nil => rfl
  | cons item rest ih =>
      rw [List.flatMap_cons, List.findSome?_append, ih, findSome?_cons_or]

/-- In an ordered list the first find is the one that comes before all others. -/
theorem findSome?_eq_some_iff_before {α β : Type} {before : α → α → Prop} {items : List α}
    {found : α → Option β} {result : β}
    (asymmetric : ∀ left right, before left right → ¬ before right left)
    (ordered : items.Pairwise before) :
    items.findSome? found = some result ↔
      ∃ item ∈ items, found item = some result ∧
        ∀ other ∈ items, found other ≠ none → other = item ∨ before item other := by
  constructor
  · intro first
    obtain ⟨earlier, item, later, rfl, here, nothing⟩ := List.findSome?_eq_some_iff.1 first
    refine ⟨item, by simp, here, ?_⟩
    intro other member present
    rcases List.mem_append.1 member with member | member
    · exact absurd (nothing other member) present
    · rcases List.mem_cons.1 member with equal | member
      · exact .inl equal
      · have after := (List.pairwise_cons.1 (List.pairwise_append.1 ordered).2.1).1
        exact .inr (after other member)
  · rintro ⟨item, member, here, first⟩
    obtain ⟨earlier, later, rfl⟩ := List.append_of_mem member
    refine List.findSome?_eq_some_iff.2 ⟨earlier, item, later, rfl, here, ?_⟩
    intro other otherMember
    by_contra present
    have ahead : before other item :=
      (List.pairwise_append.1 ordered).2.2 other otherMember item (by simp)
    rcases first other (by simp [otherMember]) present with equal | behind
    · subst equal
      exact asymmetric other other ahead ahead
    · exact asymmetric other item ahead behind

theorem Arc.BySource.asymmetric (left right : Arc) (before : left.BySource right) :
    ¬ right.BySource left := by
  unfold Arc.BySource at *
  omega

theorem Arc.ByDest.asymmetric (left right : Arc) (before : left.ByDest right) :
    ¬ right.ByDest left := by
  unfold Arc.ByDest Arc.BySource at *
  omega

namespace Automaton

/-- All arcs, sources ascending. -/
def arcs (automaton : Automaton) : List Arc :=
  automaton.nodes.flatMap Node.arcs

/-- All arcs, destinations ascending. -/
def arcsByDest (automaton : Automaton) : List Arc :=
  (Circuit.innerNodes automaton).flatMap fun dest =>
    automaton.arcs.filter fun arc => arc.edge.dest = dest

variable {automaton : Automaton}

/-- The node at a position has that position as its id. -/
theorem id_of_node? {id : Nat} {node : Node} (found : automaton.node? id = some node) :
    node.id = id := by
  have listed : (automaton.nodes.map Node.id)[id]? = some node.id := by
    rw [List.getElem?_map, show automaton.nodes[id]? = some node from found, Option.map_some]
  rw [automaton.wellFormed.dense, List.getElem?_eq_some_iff] at listed
  obtain ⟨bound, equal⟩ := listed
  simpa using equal.symm

theorem mem_arcs {arc : Arc} : arc ∈ automaton.arcs ↔ automaton.HasArc arc := by
  obtain ⟨source, position, edge⟩ := arc
  simp only [arcs, Node.arcs, HasArc, edges?, List.mem_flatMap, List.mem_map, Prod.exists,
    List.mk_mem_zipIdx_iff_getElem?, Arc.mk.injEq, Option.map_eq_some_iff]
  constructor
  · rintro ⟨node, member, _, _, found, rfl, rfl, rfl⟩
    obtain ⟨id, bound, rfl⟩ := List.getElem_of_mem member
    have here : automaton.node? id = some automaton.nodes[id] := List.getElem?_eq_getElem bound
    rw [id_of_node? here]
    exact ⟨_, ⟨_, here, rfl⟩, found⟩
  · rintro ⟨_, ⟨node, here, rfl⟩, found⟩
    exact ⟨node, List.mem_of_getElem? here, edge, position, found, id_of_node? here, rfl, rfl⟩

theorem arcs_ordered : automaton.arcs.Pairwise Arc.BySource := by
  rw [arcs, List.pairwise_flatMap]
  constructor
  · intro node member
    have positions : (node.edges.zipIdx.map Prod.snd).Pairwise (· < ·) := by
      rw [List.zipIdx_map_snd]
      exact List.pairwise_lt_range'
    rw [Node.arcs, List.pairwise_map]
    exact (List.pairwise_map.1 positions).imp fun earlier => .inr ⟨rfl, earlier⟩
  · have ids : (automaton.nodes.map Node.id).Pairwise (· < ·) := by
      rw [automaton.wellFormed.dense]
      exact List.pairwise_lt_range
    refine (List.pairwise_map.1 ids).imp ?_
    intro earlier later below left leftMember right rightMember
    obtain ⟨_, -, rfl⟩ := List.mem_map.1 leftMember
    obtain ⟨_, -, rfl⟩ := List.mem_map.1 rightMember
    exact .inl below

theorem mem_arcsByDest {arc : Arc} : arc ∈ automaton.arcsByDest ↔ automaton.HasArc arc := by
  simp only [arcsByDest, List.mem_flatMap, List.mem_filter, decide_eq_true_eq, ← mem_arcs]
  constructor
  · rintro ⟨_, -, member, -⟩
    exact member
  · intro member
    refine ⟨arc.edge.dest, ?_, member, rfl⟩
    obtain ⟨node, nodeMember, listed⟩ := List.mem_flatMap.1 member
    obtain ⟨⟨edge, position⟩, found, rfl⟩ := List.mem_map.1 listed
    have edgeMember := List.mem_of_getElem? (List.mk_mem_zipIdx_iff_getElem?.1 found)
    have fits := automaton.wellFormed.edgesFit node nodeMember edge edgeMember
    have inside : edge.dest < automaton.size := fits.inside
    have inner := fits.notStart
    rw [Circuit.innerNodes, List.mem_range'_1]
    dsimp only
    omega

theorem arcsByDest_ordered : automaton.arcsByDest.Pairwise Arc.ByDest := by
  rw [arcsByDest, List.pairwise_flatMap]
  constructor
  · intro dest _
    refine (arcs_ordered.filter _).imp_of_mem ?_
    intro left right leftMember rightMember before
    have leftDest := of_decide_eq_true (List.mem_filter.1 leftMember).2
    have rightDest := of_decide_eq_true (List.mem_filter.1 rightMember).2
    exact .inr ⟨leftDest.trans rightDest.symm, before⟩
  · have ids : (Circuit.innerNodes automaton).Pairwise (· < ·) := List.pairwise_lt_range'
    refine ids.imp ?_
    intro earlier later below left leftMember right rightMember
    have leftDest := of_decide_eq_true (List.mem_filter.1 leftMember).2
    have rightDest := of_decide_eq_true (List.mem_filter.1 rightMember).2
    left
    omega

end Automaton

/-! ## Both walks are walks over arcs -/

theorem incoming_eq_arcs (automaton : Automaton) (dest : Nat) :
    (IncomingIndex.ofAutomaton automaton).incoming dest =
      (automaton.arcs.filter fun arc => arc.edge.dest = dest).map fun arc =>
        ⟨arc.source, arc.edge.label⟩ := by
  rw [IncomingIndex.incoming_ofAutomaton, Automaton.arcs, List.filter_flatMap, List.map_flatMap]
  apply congrArg (List.flatMap · automaton.nodes)
  funext node
  have edges : node.edges = node.edges.zipIdx.map Prod.fst := (List.zipIdx_map_fst 0 _).symm
  rw [IncomingIndex.arrivals, Node.arcs]
  conv_lhs => rw [edges]
  simp only [List.filter_map, List.map_map, Function.comp_def]

theorem failure?_circuit_eq (automaton : Automaton) :
    failure? (Circuit.ofAutomaton automaton) =
      automaton.arcsByDest.findSome? Arc.unencodable? := by
  rw [failure?_circuit, Automaton.arcsByDest, findSome?_flatMap]
  apply congrArg (List.findSome? · (Circuit.innerNodes automaton))
  funext dest
  rw [incoming_eq_arcs, List.findSome?_map]
  apply findSome?_congr
  intro arc member
  have equal := of_decide_eq_true (List.mem_filter.1 member).2
  subst equal
  rfl

theorem failure?_table_eq (automaton : Automaton) :
    failure? (Table.ofAutomaton automaton) = automaton.arcs.findSome? Arc.unencodable? := by
  rw [failure?_table, Automaton.arcs, findSome?_flatMap]
  apply congrArg (List.findSome? · automaton.nodes)
  funext node
  have edges : node.edges = node.edges.zipIdx.map Prod.fst := (List.zipIdx_map_fst 0 _).symm
  rw [Node.arcs]
  conv_lhs => rw [edges]
  rw [List.findSome?_map, List.findSome?_map]
  rfl

/-! ## Agreement -/

/-- An arc fails with the least of its characters that does not fit. -/
theorem Arc.unencodable?_eq_some {arc : Arc} {failure : Unencodable} :
    arc.unencodable? = some failure ↔ arc.edge.label.LeastUnencodable failure.char ∧
      failure.source = arc.source ∧ failure.dest = arc.edge.dest := by
  obtain ⟨char, source, dest⟩ := failure
  simp only [Arc.unencodable?, Edge.unencodable?, Option.map_eq_some_iff, Unencodable.mk.injEq]
  constructor
  · rintro ⟨_, first, rfl, rfl, rfl⟩
    obtain ⟨large, earlier, later, listed, small⟩ := List.find?_eq_some_iff_append.1 first
    have ascending := arc.edge.label.ascending
    rw [listed] at ascending
    refine ⟨⟨by simp [CharSet.mem_iff, listed], by simpa using large, ?_⟩, rfl, rfl⟩
    intro other member otherLarge
    rw [CharSet.mem_iff, listed, List.mem_append, List.mem_cons] at member
    rcases member with member | equal | member
    · have := small other member
      simp [otherLarge] at this
    · exact le_of_eq equal.symm
    · have after := (List.pairwise_cons.1 (List.pairwise_append.1 ascending).2.1).1
      exact le_of_lt (after other member)
  · rintro ⟨⟨member, large, least⟩, rfl, rfl⟩
    refine ⟨char, ?_, rfl, rfl, rfl⟩
    obtain ⟨earlier, later, listed⟩ := List.append_of_mem (CharSet.mem_iff.1 member)
    have ascending := arc.edge.label.ascending
    rw [listed] at ascending
    refine List.find?_eq_some_iff_append.2 ⟨by simpa using large, earlier, later, listed, ?_⟩
    intro other otherMember
    have below : other < char := (List.pairwise_append.1 ascending).2.2 other otherMember char
      (by simp)
    by_contra otherLarge
    have above := least other (by simp [CharSet.mem_iff, listed, otherMember])
      (by simpa using otherLarge)
    exact Char.not_le.2 below above

theorem Arc.unencodable?_ne_none {arc : Arc} :
    arc.unencodable? ≠ none ↔ ∃ char ∈ arc.edge.label, 255 < char.toNat := by
  simp [Arc.unencodable?, Edge.unencodable?, CharSet.mem_iff]

/-- A walk over all arcs in an order reports the first failure in that order. -/
theorem Automaton.firstUnencodable_iff {automaton : Automaton} {before : Arc → Arc → Prop}
    {arcs : List Arc} (asymmetric : ∀ left right, before left right → ¬ before right left)
    (ordered : arcs.Pairwise before) (complete : ∀ arc, arc ∈ arcs ↔ automaton.HasArc arc)
    (failure : Unencodable) :
    arcs.findSome? Arc.unencodable? = some failure ↔
      automaton.FirstUnencodable before failure := by
  rw [findSome?_eq_some_iff_before asymmetric ordered]
  simp only [complete, Arc.unencodable?_eq_some, Arc.unencodable?_ne_none, FirstUnencodable,
    and_assoc]

/-- A walk over all arcs finds nothing when all labels can be encoded. -/
theorem Automaton.findSome?_eq_none_iff {automaton : Automaton} {arcs : List Arc}
    (complete : ∀ arc, arc ∈ arcs ↔ automaton.HasArc arc) :
    arcs.findSome? Arc.unencodable? = none ↔ automaton.Encodable := by
  rw [List.findSome?_eq_none_iff]
  constructor
  · intro none node nodeMember edge edgeMember char charMember
    obtain ⟨id, bound, rfl⟩ := List.getElem_of_mem nodeMember
    obtain ⟨position, inside, rfl⟩ := List.getElem_of_mem edgeMember
    have has : automaton.HasArc ⟨id, position, automaton.nodes[id].edges[position]⟩ :=
      ⟨automaton.nodes[id].edges, by simp [edges?, node?, bound], by simp [inside]⟩
    by_contra large
    exact Arc.unencodable?_ne_none.2 ⟨char, charMember, Nat.lt_of_not_le large⟩
      (none _ ((complete _).2 has))
  · intro encodable arc member
    by_contra present
    obtain ⟨char, charMember, large⟩ := Arc.unencodable?_ne_none.1 present
    obtain ⟨edges, found, here⟩ := (complete arc).1 member
    obtain ⟨node, nodeFound, rfl⟩ := Option.map_eq_some_iff.1 found
    have small := encodable node (List.mem_of_getElem? nodeFound) arc.edge
      (List.mem_of_getElem? here) char charMember
    omega

theorem circuit_eq_error_iff {automaton : Automaton} {failure : Unencodable} :
    Circuit.ofAutomaton automaton = .error failure ↔
      automaton.FirstUnencodable Arc.ByDest failure := by
  rw [← failure?_eq_some, failure?_circuit_eq]
  exact Automaton.firstUnencodable_iff Arc.ByDest.asymmetric Automaton.arcsByDest_ordered
    (fun _ => Automaton.mem_arcsByDest) failure

theorem table_eq_error_iff {automaton : Automaton} {failure : Unencodable} :
    Table.ofAutomaton automaton = .error failure ↔
      automaton.FirstUnencodable Arc.BySource failure := by
  rw [← failure?_eq_some, failure?_table_eq]
  exact Automaton.firstUnencodable_iff Arc.BySource.asymmetric Automaton.arcs_ordered
    (fun _ => Automaton.mem_arcs) failure

theorem exists_circuit_iff {automaton : Automaton} :
    (∃ emitted, Circuit.ofAutomaton automaton = .ok emitted) ↔ automaton.Encodable := by
  rw [← failure?_eq_none, failure?_circuit_eq]
  exact Automaton.findSome?_eq_none_iff fun _ => Automaton.mem_arcsByDest

theorem exists_table_iff {automaton : Automaton} :
    (∃ table, Table.ofAutomaton automaton = .ok table) ↔ automaton.Encodable := by
  rw [← failure?_eq_none, failure?_table_eq]
  exact Automaton.findSome?_eq_none_iff fun _ => Automaton.mem_arcs

/-- A compilation fails exactly as its circuit does. -/
theorem compilation_eq_error_iff {automaton : Automaton} {error : CompileError} :
    Compilation.ofAutomaton automaton = .error error ↔
      ∃ failure, error = .encoding failure ∧ Circuit.ofAutomaton automaton = .error failure := by
  unfold Compilation.ofAutomaton
  cases emitted : Circuit.ofAutomaton automaton with
  | error failure => simp [eq_comm]
  | ok circuit =>
      obtain ⟨table, built⟩ := exists_table_iff.2 (exists_circuit_iff.1 ⟨circuit, emitted⟩)
      simp [built]

/-- The circuit and the transition table of an automaton can be built exactly when every
character of its labels fits in a byte, and a compilation needs nothing more.  Otherwise
the circuit, and with it the compilation, fails at the first edge by destination and the
table at the first edge by source that has a character which does not fit, and both report
the least such character of that edge with the ends of the edge. -/
theorem encoding_failures_agree (automaton : Automaton) :
    ((∃ emitted, Circuit.ofAutomaton automaton = .ok emitted) ↔ automaton.Encodable) ∧
    ((∃ table, Table.ofAutomaton automaton = .ok table) ↔ automaton.Encodable) ∧
    ((∃ error, Compilation.ofAutomaton automaton = .error error) ↔
      ∃ node ∈ automaton.nodes, ∃ edge ∈ node.edges, ∃ char ∈ edge.label, 255 < char.toNat) ∧
    (∀ emitted, Circuit.ofAutomaton automaton = .ok emitted →
      ∃ table, Table.ofAutomaton automaton = .ok table ∧
        Compilation.ofAutomaton automaton = .ok ⟨emitted.1, emitted.2, table⟩) ∧
    (∀ failure, Circuit.ofAutomaton automaton = .error failure ↔
      automaton.FirstUnencodable Arc.ByDest failure) ∧
    (∀ error, Compilation.ofAutomaton automaton = .error error ↔
      ∃ failure, error = .encoding failure ∧ automaton.FirstUnencodable Arc.ByDest failure) ∧
    (∀ failure, Table.ofAutomaton automaton = .error failure ↔
      automaton.FirstUnencodable Arc.BySource failure) := by
  refine ⟨exists_circuit_iff, exists_table_iff, ?_, ?_, fun _ => circuit_eq_error_iff, ?_,
    fun _ => table_eq_error_iff⟩
  · have failed : (∃ error, Compilation.ofAutomaton automaton = .error error) ↔
        ¬ automaton.Encodable := by
      rw [← exists_circuit_iff]
      cases emitted : Circuit.ofAutomaton automaton with
      | error failure => simp [compilation_eq_error_iff, emitted]
      | ok circuit => simp [compilation_eq_error_iff, emitted]
    simp only [failed, Automaton.Encodable, not_forall, not_le, exists_prop]
  · intro emitted made
    obtain ⟨table, built⟩ := exists_table_iff.2 (exists_circuit_iff.1 ⟨emitted, made⟩)
    refine ⟨table, built, ?_⟩
    simp [Compilation.ofAutomaton, made, built]
  · intro error
    simp only [compilation_eq_error_iff, circuit_eq_error_iff]

example :
    ((Automaton.ofNodes
        [⟨0, .normal, [⟨CharSet.ofString "aλπ", 2⟩]⟩, ⟨1, .accept, [⟨CharSet.ofString "β", 1⟩]⟩,
         ⟨2, .normal, [⟨CharSet.ofString "c", 1⟩]⟩]).map fun automaton =>
      (failure? (Circuit.ofAutomaton automaton), failure? (Table.ofAutomaton automaton))) =
      .ok (some ⟨'β', 1, 1⟩, some ⟨'λ', 0, 2⟩) := by
  decide +kernel

end ScanCircuit
