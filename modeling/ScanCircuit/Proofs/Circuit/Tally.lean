import Mathlib.Algebra.BigOperators.Group.List.Lemmas
import Mathlib.Algebra.BigOperators.Ring.List
import Mathlib.Algebra.Ring.Nat
import ScanCircuit.Proofs.Circuit.Renumbering
import ScanCircuit.Proofs.Circuit.Transition
import ScanCircuit.Proofs.Cover

/-!
# The number of components

Each draft adds to the counts so far what its statements instantiate: a check, the gate of an
edge, and a join where there is more than one thing to join.  These costs depend on the labels
alone.  A circuit goes through the edges by destination, but every edge arrives at exactly one
inner node, so the cost of a circuit is a sum over the edges of the automaton.

`components_tally` states the sum for each kind, and the size of the transition table beside it.
-/

namespace ScanCircuit.Circuit

/-! ## What drafts cost -/

/-- The components of a check. -/
def checkCost : Check → Counts
  | .range _ => { lt := 2, and := 1 }
  | .equal _ => { eq := 1 }

/-- The component that joins several outputs; a single one needs none. -/
def joinCost (terms : Nat) : Counts :=
  if 1 < terms then { multiOr := 1 } else 0

/-- The components of an edge: those of its checks, its gate, and what joins its checks. -/
def edgeCost (edge : PlannedEdge) : Counts :=
  (edge.checks.map checkCost).sum + { and := 1 } + joinCost edge.checks.length

/-- The components of a node: those of its edges, and what joins them. -/
def nodeCost (edges : List PlannedEdge) : Counts :=
  (edges.map edgeCost).sum + joinCost edges.length

theorem counts_draftCheck (check : Check) (counts : Counts) :
    (draftCheck check counts).counts = counts + checkCost check := by
  cases check <;> rfl

theorem counts_draftChecks (checks : List Check) (counts : Counts) :
    (draftChecks checks counts).counts = counts + (checks.map checkCost).sum := by
  induction checks generalizing counts with
  | nil => exact (add_zero counts).symm
  | cons check rest ih =>
      rw [draftChecks_cons, List.map_cons, List.sum_cons, ← add_assoc, ← counts_draftCheck]
      exact ih _

theorem counts_draftAny {terms : List Component} (some : terms ≠ []) (counts : Counts) :
    (draftAny terms counts).counts = counts + joinCost terms.length := by
  by_cases single : terms.length = 1
  · obtain ⟨term, rfl⟩ := List.length_eq_one_iff.1 single
    exact (add_zero counts).symm
  · have positive := List.length_pos_iff.2 some
    rw [draftAny_eq terms single, joinCost, if_pos (by omega)]
    rfl

theorem counts_draftEdge {edge : PlannedEdge} (some : edge.checks ≠ []) (counts : Counts) :
    (draftEdge edge counts).counts = counts + edgeCost edge := by
  have length := (draftChecks_accounts edge.checks counts).2
  have terms : (draftChecks edge.checks counts).result ≠ [] := by
    rw [← List.length_pos_iff, length]
    exact List.length_pos_iff.2 some
  rw [draftEdge_eq, edgeCost, ← add_assoc, ← add_assoc, ← counts_draftChecks, ← length]
  exact counts_draftAny terms _

theorem counts_draftEdges {edges : List PlannedEdge} (some : ∀ edge ∈ edges, edge.checks ≠ [])
    (counts : Counts) :
    (draftEdges edges counts).counts = counts + (edges.map edgeCost).sum := by
  induction edges generalizing counts with
  | nil => exact (add_zero counts).symm
  | cons edge rest ih =>
      obtain ⟨here, others⟩ := List.forall_mem_cons.1 some
      rw [draftEdges_cons, List.map_cons, List.sum_cons, ← add_assoc, ← counts_draftEdge here]
      exact ih others _

theorem counts_draftNode (node : Nat) {edges : List PlannedEdge}
    (some : ∀ edge ∈ edges, edge.checks ≠ []) (counts : Counts) :
    (draftNode node edges counts).counts = counts + nodeCost edges := by
  cases edges with
  | nil => exact (add_zero counts).symm
  | cons edge rest =>
      have length := (draftEdges_accounts some counts).2
      have gates : (draftEdges (edge :: rest) counts).result ≠ [] := by
        rw [← List.length_pos_iff, length]
        exact Nat.succ_pos _
      rw [draftNode_cons, nodeCost, ← add_assoc, ← counts_draftEdges some, ← length]
      exact counts_draftAny gates _

/-- Drafting nodes adds the costs of all of them. -/
theorem counts_draftNodes {nodes : List (Nat × List PlannedEdge)}
    (some : ∀ node ∈ nodes, ∀ edge ∈ node.2, edge.checks ≠ []) (counts : Counts) :
    (draftNodes nodes counts).counts =
      counts + (nodes.map fun node => nodeCost node.2).sum := by
  induction nodes generalizing counts with
  | nil => exact (add_zero counts).symm
  | cons node rest ih =>
      obtain ⟨here, others⟩ := List.forall_mem_cons.1 some
      rw [draftNodes_cons, List.map_cons, List.sum_cons, ← add_assoc,
        ← counts_draftNode node.1 here]
      exact ih others _

/-! ## What labels cost -/

/-- The components of an edge with a label. -/
def labelCost (label : CharSet) : Counts where
  eq := label.loose.length
  lt := 2 * label.wholeClasses.length
  and := 1 + label.wholeClasses.length
  multiOr := if 1 < label.wholeClasses.length + label.loose.length then 1 else 0

theorem sum_rangeCost (classes : List CharClass) :
    ((classes.map Check.range).map checkCost).sum =
      { lt := 2 * classes.length, and := classes.length } := by
  induction classes with
  | nil => rfl
  | cons charClass rest ih =>
      rw [List.map_cons, List.map_cons, List.sum_cons, ih]
      simp only [checkCost, Counts.mk_add_mk, List.length_cons, Counts.mk.injEq, true_and,
        and_true]
      omega

theorem sum_equalCost (codes : List UInt8) :
    ((codes.map Check.equal).map checkCost).sum = { eq := codes.length } := by
  induction codes with
  | nil => rfl
  | cons code rest ih =>
      rw [List.map_cons, List.map_cons, List.sum_cons, ih]
      simp only [checkCost, Counts.mk_add_mk, List.length_cons, Counts.mk.injEq, and_true]
      omega

/-- The cost of a planned edge is that of its label. -/
theorem edgeCost_of_plan {edge : PlannedEdge} {label : CharSet} {source dest : Nat}
    (planned : plan label source dest = .ok edge.checks) : edgeCost edge = labelCost label := by
  obtain ⟨codes, listed, equal⟩ := checks_of_plan planned
  have length : label.loose.length = codes.length := by rw [← listed, List.length_map]
  rw [edgeCost, equal, List.map_append, List.sum_append, sum_rangeCost, sum_equalCost,
    List.length_append, List.length_map, List.length_map, joinCost, labelCost, length]
  split
  next =>
    simp only [Counts.mk_add_mk, Counts.mk.injEq, and_true]
    omega
  next =>
    simp only [Counts.mk_add_mk, add_zero, Counts.mk.injEq, true_and, and_true]
    omega

/-! ## Edges by destination -/

/-- The edges of an automaton that lead to a node. -/
def arriving (automaton : Automaton) (id : Nat) : List Edge :=
  (automaton.nodes.flatMap Node.edges).filter fun edge => edge.dest = id

theorem labels_incoming (automaton : Automaton) (id : Nat) :
    ((IncomingIndex.ofAutomaton automaton).incoming id).map Incoming.label =
      (arriving automaton id).map Edge.label := by
  rw [IncomingIndex.incoming_ofAutomaton, arriving, List.filter_flatMap, List.map_flatMap,
    List.map_flatMap]
  simp only [IncomingIndex.arrivals, List.map_map, Function.comp_def]

/-- Edges are regrouped by destination without loss or repetition. -/
theorem flatMap_filter_dest_perm {edges : List Edge} {ids : List Nat} (nodup : ids.Nodup)
    (inside : ∀ edge ∈ edges, edge.dest ∈ ids) :
    (ids.flatMap fun id => edges.filter fun edge => edge.dest = id).Perm edges := by
  induction ids generalizing edges with
  | nil =>
      cases edges with
      | nil => exact .refl _
      | cons edge rest => cases inside edge List.mem_cons_self
  | cons id rest ih =>
      obtain ⟨new, nodup⟩ := List.nodup_cons.1 nodup
      let others := edges.filter fun edge => !decide (edge.dest = id)
      have same : (rest.flatMap fun other => edges.filter fun edge => edge.dest = other) =
          rest.flatMap fun other => others.filter fun edge => edge.dest = other := by
        apply List.flatMap_congr
        intro other member
        rw [List.filter_filter]
        apply List.filter_congr
        intro edge _
        by_cases leads : edge.dest = other
        · have different : other ≠ id := fun equal => new (equal ▸ member)
          simp [leads, different]
        · simp [leads]
      have kept : ∀ edge ∈ others, edge.dest ∈ rest := by
        intro edge member
        rw [List.mem_filter] at member
        have listed := inside edge member.1
        simpa using (List.mem_cons.1 listed).resolve_left (by simpa using member.2)
      rw [List.flatMap_cons, same]
      exact ((ih nodup kept).append_left _).trans (List.filter_append_perm _ edges)

/-- Every edge leads to exactly one inner node. -/
theorem arriving_perm (automaton : Automaton) :
    ((innerNodes automaton).flatMap (arriving automaton)).Perm
      (automaton.nodes.flatMap Node.edges) := by
  apply flatMap_filter_dest_perm List.nodup_range'
  intro edge member
  obtain ⟨node, nodeMember, edgeMember⟩ := List.mem_flatMap.1 member
  have fits := automaton.wellFormed.edgesFit node nodeMember edge edgeMember
  have bound : edge.dest < automaton.size := fits.inside
  have inner := fits.notStart
  rw [List.mem_range'_1]
  omega

/-- The cost of a planned node is that of the labels that arrive at it. -/
theorem nodeCost_of_plans {automaton : Automaton} {id : Nat} {edges : List PlannedEdge}
    (plans : List.Forall₂ (Plans id) ((IncomingIndex.ofAutomaton automaton).incoming id) edges) :
    nodeCost edges =
      ((arriving automaton id).map fun edge => labelCost edge.label).sum +
        joinCost (arriving automaton id).length := by
  have costs : edges.map edgeCost =
      (((IncomingIndex.ofAutomaton automaton).incoming id).map Incoming.label).map labelCost := by
    rw [List.map_map]
    exact map_eq_of_forall₂ plans.flip fun _ _ planned => edgeCost_of_plan planned.2
  have lengths : edges.length = (arriving automaton id).length := by
    rw [← plans.length_eq, ← List.length_map Incoming.label, labels_incoming, List.length_map]
  rw [nodeCost, costs, lengths, labels_incoming, List.map_map]
  rfl

/-- The cost of a circuit is a sum over edges, and one over nodes for what joins their edges. -/
theorem counts_ofAutomaton {automaton : Automaton} {program : Program} {counts : Counts}
    (emitted : ofAutomaton automaton = .ok (program, counts)) :
    counts =
      ((automaton.nodes.flatMap Node.edges).map fun edge => labelCost edge.label).sum +
        ((innerNodes automaton).map fun id => joinCost (arriving automaton id).length).sum := by
  obtain ⟨nodes, planned, rfl, rfl⟩ := ofAutomaton_eq_ok.1 emitted
  have checked : ∀ node ∈ nodes, ∀ edge ∈ node.2, edge.checks ≠ [] :=
    fun node member edge edgeMember => (planned.edge_fits member edgeMember).2
  have costs : (nodes.map fun node => nodeCost node.2) =
      (innerNodes automaton).map fun id =>
        ((arriving automaton id).map fun edge => labelCost edge.label).sum +
          joinCost (arriving automaton id).length := by
    apply map_eq_of_forall₂ (List.Forall₂.flip planned)
    intro node id plans
    exact nodeCost_of_plans plans.2
  rw [counts_draftNodes checked, costs, List.sum_map_add]
  have grouped := ((arriving_perm automaton).map fun edge => labelCost edge.label).sum_eq
  rw [List.map_flatMap, List.flatMap_def, List.sum_flatten, List.map_map] at grouped
  rw [← grouped]
  exact zero_add _

/-! ## The size of the table -/

/-- A label has its loose characters and those of the classes that lie whole in it. -/
theorem size_eq_loose_add (label : CharSet) :
    label.size = label.loose.length +
      (label.wholeClasses.map fun charClass => charClass.chars.length).sum := by
  let taken := label.toList.filter fun char =>
    !decide (∀ charClass ∈ label.wholeClasses, char ∉ charClass.members)
  have nodup (set : CharSet) : set.toList.Nodup := set.ascending.imp Char.ne_of_lt
  have apart : label.wholeClasses.Pairwise
      (Function.onFun List.Disjoint CharClass.chars) := by
    apply label.nodup_wholeClasses.imp
    intro left right different char inLeft inRight
    exact different (CharClass.eq_of_mem_members inLeft inRight)
  have regrouped : taken.Perm (label.wholeClasses.flatMap CharClass.chars) := by
    apply (List.perm_ext_iff_of_nodup ((nodup label).filter _) (List.nodup_flatMap.2
      ⟨fun charClass _ => nodup charClass.members, apart⟩)).2
    intro char
    rw [List.mem_filter, List.mem_flatMap]
    simp only [Bool.not_eq_true', decide_eq_false_iff_not, not_forall, not_not, exists_prop]
    constructor
    · intro member
      exact member.2
    · rintro ⟨charClass, whole, inside⟩
      exact ⟨CharSet.mem_wholeClasses.1 whole char inside, charClass, whole, inside⟩
  rw [CharSet.size, List.length_eq_length_filter_add, ← List.length_flatMap,
    ← regrouped.length_eq]
  rfl

theorem length_edgesTransitions {source : Nat} {edges : List Edge} {listed : List Transition}
    (built : Table.edgesTransitions source edges = .ok listed) :
    listed.length = (edges.map fun edge => edge.label.size).sum := by
  induction edges generalizing listed with
  | nil =>
      cases built
      rfl
  | cons edge rest ih =>
      simp only [Table.edgesTransitions, Table.edgeTransitions, bind_eq_ok, byteCodes_eq_ok, pure,
        Except.pure, Except.ok.injEq] at built
      obtain ⟨_, ⟨codes, coded, rfl⟩, others, othersBuilt, rfl⟩ := built
      rw [List.length_append, List.length_map, ih othersBuilt, List.map_cons, List.sum_cons,
        CharSet.size, ← coded, List.length_map]

theorem length_nodesTransitions {nodes : List Node} {listed : List Transition}
    (built : Table.nodesTransitions nodes = .ok listed) :
    listed.length = ((nodes.flatMap Node.edges).map fun edge => edge.label.size).sum := by
  induction nodes generalizing listed with
  | nil =>
      cases built
      rfl
  | cons node rest ih =>
      simp only [Table.nodesTransitions, bind_eq_ok, pure, Except.pure, Except.ok.injEq] at built
      obtain ⟨first, firstBuilt, others, othersBuilt, rfl⟩ := built
      rw [List.length_append, length_edgesTransitions firstBuilt, ih othersBuilt,
        List.flatMap_cons, List.map_append, List.sum_append]

/-- A table has a transition for each character of each edge. -/
theorem size_table {automaton : Automaton} {table : Table}
    (built : Table.ofAutomaton automaton = .ok table) :
    table.size = ((automaton.nodes.flatMap Node.edges).map fun edge => edge.label.size).sum := by
  simp only [Table.ofAutomaton, bind_eq_ok, pure, Except.pure, Except.ok.injEq] at built
  obtain ⟨listed, listedBuilt, rfl⟩ := built
  exact length_nodesTransitions listedBuilt

/-! ## The tally -/

theorem sum_map_indicator {α : Type} (chosen : α → Bool) (value : Nat) (items : List α) :
    (items.map fun item => if chosen item then value else 0).sum =
      value * items.countP chosen := by
  rw [List.sum_map_ite, List.map_const', List.map_const', List.sum_replicate,
    List.sum_replicate, nsmul_zero, add_zero, Nat.nsmul_eq_mul, Nat.mul_comm,
    List.countP_eq_length_filter]
  simp only [Bool.decide_eq_true]

theorem Counts.get_sum (costs : List Counts) (kind : Kind) :
    costs.sum.get kind = (costs.map fun cost => cost.get kind).sum := by
  induction costs with
  | nil => exact Counts.get_zero kind
  | cons cost rest ih => rw [List.sum_cons, Counts.get_add, ih, List.map_cons, List.sum_cons]

theorem get_joinCost (terms : Nat) (kind : Kind) :
    (joinCost terms).get kind = if kind = .multiOr ∧ 1 < terms then 1 else 0 := by
  by_cases several : 1 < terms
  · cases kind <;> simp [joinCost, several, Counts.get]
  · simp [joinCost, several]

/-- The size of a label, with the sizes of the classes written out. -/
theorem size_eq_loose_add_classes (label : CharSet) :
    label.size = label.loose.length +
      (if label.containsAll CharClass.uppercase.members then 26 else 0) +
      (if label.containsAll CharClass.lowercase.members then 26 else 0) +
      (if label.containsAll CharClass.digits.members then 10 else 0) := by
  have each : (label.wholeClasses.map fun charClass => charClass.chars.length).sum =
      (CharClass.all.map fun charClass =>
        if label.containsAll charClass.members then charClass.chars.length else 0).sum := by
    rw [List.sum_map_ite, List.map_const', List.sum_replicate, nsmul_zero, add_zero,
      CharSet.wholeClasses]
    simp only [Bool.decide_eq_true]
  have sizes : CharClass.uppercase.chars.length = 26 ∧ CharClass.lowercase.chars.length = 26 ∧
      CharClass.digits.chars.length = 10 := by decide
  rw [size_eq_loose_add, each]
  simp only [CharClass.all, List.map_cons, List.map_nil, List.sum_cons, List.sum_nil, sizes]
  omega

theorem length_arriving (automaton : Automaton) (id : Nat) :
    (arriving automaton id).length =
      (automaton.nodes.flatMap Node.edges).countP fun edge => edge.dest = id :=
  List.countP_eq_length_filter.symm

/-- No edge leads to the start. -/
theorem arriving_zero (automaton : Automaton) : arriving automaton 0 = [] := by
  rw [arriving, List.filter_eq_nil_iff]
  intro edge member
  obtain ⟨node, nodeMember, edgeMember⟩ := List.mem_flatMap.1 member
  have fits := automaton.wellFormed.edgesFit node nodeMember edge edgeMember
  simpa using fits.notStart

/-- A join is needed for each node with more than one incoming edge. -/
theorem sum_joins (automaton : Automaton) :
    ((innerNodes automaton).map fun id =>
      (joinCost (arriving automaton id).length).get .multiOr).sum =
        automaton.nodes.countP fun node => 1 <
          (automaton.nodes.flatMap Node.edges).countP fun edge => edge.dest = node.id := by
  let joined (id : Nat) : Bool := 1 < (arriving automaton id).length
  have ids : automaton.nodes.map Node.id = 0 :: innerNodes automaton := by
    have positive : 0 < automaton.size := Nat.zero_lt_of_lt automaton.accept_lt_size
    rw [automaton.wellFormed.dense, List.range_eq_range', innerNodes]
    change List.range' 0 automaton.size = _
    rw [← Nat.sub_add_cancel positive, List.range'_succ]
    rfl
  have start : joined 0 = false := by
    simp [joined, arriving_zero]
  have indicator (id : Nat) : (joinCost (arriving automaton id).length).get .multiOr =
      if joined id then 1 else 0 := by
    simp [get_joinCost, joined]
  calc
    _ = ((innerNodes automaton).map fun id => if joined id then 1 else 0).sum := by
      simp only [indicator]
    _ = (innerNodes automaton).countP joined := by
      rw [sum_map_indicator, Nat.one_mul]
    _ = (automaton.nodes.map Node.id).countP joined := by
      rw [ids, List.countP_cons, start]
      rfl
    _ = automaton.nodes.countP (joined ∘ Node.id) := List.countP_map
    _ = _ := by
      simp only [joined, length_arriving, Function.comp_def]

/-- How many components of each kind a compiled automaton takes, by the classes that lie whole in
the labels of its edges and the characters outside them.  The transition table has as many lines
as there are equality checks, and one for each character of each of those classes. -/
theorem components_tally {automaton : Automaton} {compilation : Compilation}
    (compiled : Compilation.ofAutomaton automaton = .ok compilation) :
    let edges := automaton.nodes.flatMap Node.edges
    let ranges := (edges.map fun edge => edge.label.wholeClasses.length).sum
    let counts := compilation.counts
    counts.eq = (edges.map fun edge => edge.label.loose.length).sum ∧
    counts.lt = 2 * ranges ∧
    counts.and = edges.length + ranges ∧
    counts.multiOr =
      (edges.countP fun edge => 1 < edge.label.wholeClasses.length + edge.label.loose.length) +
        automaton.nodes.countP (fun node => 1 < edges.countP fun edge => edge.dest = node.id) ∧
    compilation.table.size = counts.eq +
      26 * edges.countP (fun edge => edge.label.containsAll CharClass.uppercase.members) +
      26 * edges.countP (fun edge => edge.label.containsAll CharClass.lowercase.members) +
      10 * edges.countP (fun edge => edge.label.containsAll CharClass.digits.members) := by
  intro edges ranges counts
  obtain ⟨emitted, built⟩ := Compilation.ofAutomaton_eq_ok.1 compiled
  have total (kind : Kind) : counts.get kind =
      (edges.map fun edge => (labelCost edge.label).get kind).sum +
        ((innerNodes automaton).map fun id =>
          (joinCost (arriving automaton id).length).get kind).sum := by
    have sum := congrArg (fun counts => counts.get kind) (counts_ofAutomaton emitted)
    simpa only [Counts.get_add, Counts.get_sum, List.map_map, Function.comp_def] using sum
  have unjoined (kind : Kind) (other : kind ≠ .multiOr) :
      counts.get kind = (edges.map fun edge => (labelCost edge.label).get kind).sum := by
    rw [total]
    simp [get_joinCost, other]
  have eq : counts.eq = (edges.map fun edge => edge.label.loose.length).sum :=
    unjoined .eq nofun
  have lt : counts.lt = 2 * ranges := by
    rw [← List.sum_map_mul_left]
    exact unjoined .lt nofun
  have and : counts.and = edges.length + ranges := by
    have sum : counts.and = (edges.map fun edge => 1 + edge.label.wholeClasses.length).sum :=
      unjoined .and nofun
    rw [sum, List.sum_map_add, List.map_const', List.sum_replicate, Nat.nsmul_eq_mul, Nat.mul_one]
  refine ⟨eq, lt, and, ?_, ?_⟩
  · refine (total .multiOr).trans ?_
    rw [sum_joins]
    congr 1
    rw [← Nat.one_mul (edges.countP _), ← sum_map_indicator]
    simp [labelCost, Counts.get]
  · rw [size_table built, eq]
    simp only [size_eq_loose_add_classes, List.sum_map_add, sum_map_indicator]
    rfl

theorem components_tally_numerals :
    ∃ compilation, Compilation.ofAutomaton .numerals = .ok compilation ∧
      compilation.counts = { eq := 2, lt := 4, and := 5, multiOr := 2 } ∧
      compilation.table.size = 22 := by
  obtain ⟨compilation, compiled⟩ :
      ∃ compilation, Compilation.ofAutomaton .numerals = .ok compilation := ⟨_, rfl⟩
  obtain ⟨eq, lt, and, multiOr, size⟩ := components_tally compiled
  refine ⟨compilation, compiled, ?_, ?_⟩
  · ext kind
    cases kind with
    | eq => exact eq.trans (by decide)
    | lt => exact lt.trans (by decide)
    | and => exact and.trans (by decide)
    | multiOr => exact multiOr.trans (by decide)
  · rw [size, eq]
    decide

end ScanCircuit.Circuit
