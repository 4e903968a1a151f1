import Mathlib.Data.List.Sort
import ScanCircuit.Automaton

/-!
# Validation of a graph

`Automaton.ofNodes` accepts exactly the lists of nodes that obey the rules of an automaton, and
otherwise reports the first rule that a list breaks.

`Automaton.Valid` states the rules one by one, and `Automaton.FirstDefect` says which defect
comes first: numbering comes before edges, edges come before accepting nodes, and among the
edges the one that is declared first decides.
-/

namespace ScanCircuit.Automaton

variable {nodes : List Node} {defect : Defect}

/-! ## The rules -/

/-- The node at every position has that position as its id. -/
def Dense (nodes : List Node) : Prop :=
  ∀ (position : Nat) (node : Node), nodes[position]? = some node → node.id = position

/-- Every edge of every node has a label and leads to a node other than the start. -/
def AllFit (size : Nat) (nodes : List Node) : Prop :=
  ∀ node ∈ nodes, ∀ edge ∈ node.edges, EdgeFits size edge

/-- The rules of an automaton, without a name for its accepting node. -/
structure Valid (nodes : List Node) : Prop where
  nonempty : nodes ≠ []
  dense : Dense nodes
  edgesFit : AllFit nodes.length nodes
  oneAccept : nodes.countP Node.isAccept = 1
  acceptNotStart : ∀ node ∈ nodes, node.isAccept → node.id ≠ 0

/-- The first rule that an edge breaks: a label comes before a destination in the graph, and
that before a destination other than the start. -/
inductive EdgeBreaks (size source : Nat) (edge : Edge) : Defect → Prop where
  | emptyLabel :
      edge.label.toList = [] → EdgeBreaks size source edge (.emptyLabel source edge.dest)
  | outOfRange :
      edge.label.toList ≠ [] → size ≤ edge.dest →
      EdgeBreaks size source edge (.destinationOutOfRange source edge.dest size)
  | intoStart :
      edge.label.toList ≠ [] → edge.dest < size → edge.dest = 0 →
      EdgeBreaks size source edge (.startHasIncoming source)

/-- The first rule that a list of nodes breaks. -/
inductive FirstDefect (nodes : List Node) : Defect → Prop where
  | empty : nodes = [] → FirstDefect nodes .empty
  /-- The first node whose id is not its position. -/
  | nonDense {earlier later : List Node} {node : Node} :
      nodes = earlier ++ node :: later → Dense earlier → node.id ≠ earlier.length →
      FirstDefect nodes (.nonDenseIds earlier.length node.id)
  /-- The first edge that breaks a rule, by node and then in declaration order. -/
  | edge {earlier later : List Node} {node : Node} {before after : List Edge} {edge : Edge}
      {defect : Defect} :
      Dense nodes → nodes = earlier ++ node :: later → node.edges = before ++ edge :: after →
      AllFit nodes.length earlier → (∀ other ∈ before, EdgeFits nodes.length other) →
      EdgeBreaks nodes.length node.id edge defect → FirstDefect nodes defect
  | noAccept :
      nodes ≠ [] → Dense nodes → AllFit nodes.length nodes →
      (∀ node ∈ nodes, ¬ node.isAccept) → FirstDefect nodes .noAcceptNode
  /-- Several nodes accept; their ids are listed in ascending order. -/
  | multipleAccept {ids : List Nat} :
      Dense nodes → AllFit nodes.length nodes → 2 ≤ ids.length → ids.Pairwise (· < ·) →
      (∀ id, id ∈ ids ↔ ∃ node ∈ nodes, node.isAccept ∧ node.id = id) →
      FirstDefect nodes (.multipleAcceptNodes ids)
  | acceptIsStart {node : Node} :
      Dense nodes → AllFit nodes.length nodes → node ∈ nodes → node.isAccept → node.id = 0 →
      (∀ other ∈ nodes, other.isAccept → other = node) → FirstDefect nodes .acceptIsStart

/-! ## Numbering -/

/-- Ids are dense from a start when each is its position after the start. -/
theorem map_id_eq_range' {start : Nat} :
    nodes.map Node.id = List.range' start nodes.length ↔
      ∀ position node, nodes[position]? = some node → node.id = start + position := by
  constructor
  · intro equal position node found
    have listed : (nodes.map Node.id)[position]? = some node.id := by
      rw [List.getElem?_map, found, Option.map_some]
    rw [equal, List.getElem?_eq_some_iff] at listed
    rcases listed with ⟨bound, same⟩
    simpa using same.symm
  · intro each
    apply List.ext_getElem
    · simp
    · intro position left right
      have bound : position < nodes.length := by simpa using left
      simpa using each position nodes[position] (List.getElem?_eq_getElem bound)

theorem dense_iff : Dense nodes ↔ nodes.map Node.id = List.range nodes.length := by
  rw [List.range_eq_range', map_id_eq_range']
  simp only [Dense, Nat.zero_add]

theorem densityDefect_eq_some {start : Nat} :
    densityDefect start nodes = some defect ↔
      ∃ earlier node later, nodes = earlier ++ node :: later ∧
        earlier.map Node.id = List.range' start earlier.length ∧
        node.id ≠ start + earlier.length ∧
        defect = .nonDenseIds (start + earlier.length) node.id := by
  induction nodes generalizing start with
  | nil => simp [densityDefect]
  | cons first rest ih =>
      by_cases equal : first.id = start
      · rw [densityDefect, if_pos equal, ih]
        constructor
        · rintro ⟨earlier, node, later, rfl, numbered, differs, rfl⟩
          refine ⟨first :: earlier, node, later, rfl, ?_, ?_, ?_⟩
          · simp [equal, numbered, List.range'_succ]
          · simpa [Nat.add_assoc, Nat.add_comm 1] using differs
          · simp [Nat.add_assoc, Nat.add_comm 1]
        · rintro ⟨earlier, node, later, split, numbered, differs, rfl⟩
          cases earlier with
          | nil =>
              simp only [List.nil_append, List.cons.injEq] at split
              rw [← split.1] at differs
              exact absurd equal differs
          | cons head tail =>
              simp only [List.cons_append, List.cons.injEq] at split
              simp only [List.map_cons, List.length_cons, List.range'_succ, List.cons.injEq]
                at numbered
              refine ⟨tail, node, later, split.2, numbered.2, ?_, ?_⟩
              · simpa [Nat.add_assoc, Nat.add_comm 1] using differs
              · simp [Nat.add_assoc, Nat.add_comm 1]
      · rw [densityDefect, if_neg equal, Option.some.injEq]
        constructor
        · rintro rfl
          exact ⟨[], first, rest, rfl, rfl, equal, rfl⟩
        · rintro ⟨earlier, node, later, split, numbered, differs, rfl⟩
          cases earlier with
          | nil =>
              simp only [List.nil_append, List.cons.injEq] at split
              rw [split.1]
              rfl
          | cons head tail =>
              simp only [List.cons_append, List.cons.injEq] at split
              simp only [List.map_cons, List.length_cons, List.range'_succ, List.cons.injEq]
                at numbered
              exact absurd (split.1 ▸ numbered.1) equal

/-! ## Edges -/

theorem edgeDefect_eq_some {size source : Nat} {edge : Edge} :
    edgeDefect size source edge = some defect ↔ EdgeBreaks size source edge defect := by
  unfold edgeDefect
  constructor
  · intro found
    split at found
    next unlabelled =>
      cases found
      exact .emptyLabel unlabelled
    next labelled =>
      split at found
      next outside =>
        cases found
        exact .outOfRange labelled outside
      next inside =>
        split at found
        next start =>
          cases found
          exact .intoStart labelled (Nat.lt_of_not_le inside) start
        next => cases found
  · intro breaks
    cases breaks with
    | emptyLabel unlabelled => rw [if_pos unlabelled]
    | outOfRange labelled outside => rw [if_neg labelled, if_pos outside]
    | intoStart labelled inside start =>
        rw [if_neg labelled, if_neg (Nat.not_le.2 inside), if_pos start]

theorem edgesDefect_eq_some :
    edgesDefect nodes = some defect ↔
      ∃ earlier node later, nodes = earlier ++ node :: later ∧
        (∃ before edge after, node.edges = before ++ edge :: after ∧
          EdgeBreaks nodes.length node.id edge defect ∧
          ∀ other ∈ before, EdgeFits nodes.length other) ∧
        AllFit nodes.length earlier := by
  simp only [edgesDefect, List.findSome?_eq_some_iff, List.findSome?_eq_none_iff,
    edgeDefect_eq_some, edgeDefect_eq_none, AllFit]

/-! ## Accepting nodes -/

theorem mem_acceptIds {id : Nat} :
    id ∈ acceptIds nodes ↔ ∃ node ∈ nodes, node.isAccept ∧ node.id = id := by
  simp only [acceptIds, List.mem_map, List.mem_filter, and_assoc]

theorem length_acceptIds : (acceptIds nodes).length = nodes.countP Node.isAccept := by
  rw [acceptIds, List.length_map, List.countP_eq_length_filter]

/-- The accepting nodes of a dense list are listed in ascending order. -/
theorem acceptIds_ascending (dense : Dense nodes) : (acceptIds nodes).Pairwise (· < ·) := by
  have ids : (nodes.map Node.id).Pairwise (· < ·) := by
    rw [dense_iff.1 dense]
    exact List.pairwise_lt_range
  exact List.Pairwise.sublist (List.filter_sublist.map Node.id) ids

/-- Nodes of a dense list with the same id are the same. -/
theorem Dense.eq_of_id (dense : Dense nodes) {left right : Node} (leftMember : left ∈ nodes)
    (rightMember : right ∈ nodes) (same : left.id = right.id) : left = right := by
  rcases List.getElem?_of_mem leftMember with ⟨position, found⟩
  rcases List.getElem?_of_mem rightMember with ⟨other, otherFound⟩
  have equal : position = other := by
    rw [← dense position left found, same, dense other right otherFound]
  rw [equal, otherFound] at found
  exact (Option.some.inj found).symm

/-! ## Validation -/

/-- The nodes of an accepted list are kept. -/
theorem nodes_of_ofNodes {automaton : Automaton} (accepted : ofNodes nodes = .ok automaton) :
    automaton.nodes = nodes := by
  unfold ofNodes at accepted
  split at accepted
  next => cases accepted
  next =>
    split at accepted
    next => cases accepted
    next =>
      split at accepted
      next => cases accepted
      next =>
        split at accepted
        next => cases accepted
        next =>
          split at accepted
          next => cases accepted
          next =>
            cases accepted
            rfl
        next => cases accepted

/-- The checks of a list, each made only when those before it have passed. -/
theorem ofNodes_eq_error :
    ofNodes nodes = .error defect ↔
      nodes = [] ∧ defect = .empty ∨
      nodes ≠ [] ∧ densityDefect 0 nodes = some defect ∨
      nodes ≠ [] ∧ Dense nodes ∧ edgesDefect nodes = some defect ∨
      nodes ≠ [] ∧ Dense nodes ∧ AllFit nodes.length nodes ∧
        (acceptIds nodes = [] ∧ defect = .noAcceptNode ∨
          acceptIds nodes = [0] ∧ defect = .acceptIsStart ∨
          2 ≤ (acceptIds nodes).length ∧ defect = .multipleAcceptNodes (acceptIds nodes)) := by
  have numbered : densityDefect 0 nodes = none ↔ Dense nodes := by
    rw [densityDefect_eq_none, dense_iff, List.range_eq_range']
  have fitted : edgesDefect nodes = none ↔ AllFit nodes.length nodes := edgesDefect_eq_none
  unfold ofNodes
  split
  next absent =>
    subst absent
    simp [densityDefect, eq_comm (a := defect)]
  next present =>
    split
    next found dense =>
      have notDense : ¬ Dense nodes := by
        rw [← numbered, dense]
        exact Option.some_ne_none found
      simp [present, dense, notDense]
    next dense =>
      rw [numbered] at dense
      split
      next found fit =>
        have notFit : ¬ AllFit nodes.length nodes := by
          rw [← fitted, fit]
          exact Option.some_ne_none found
        simp [present, numbered.2 dense, dense, fit, notFit]
      next fit =>
        rw [fitted] at fit
        split
        next only =>
          simp [present, numbered.2 dense, dense, fitted.2 fit, fit, only, eq_comm (a := defect)]
        next accept only =>
          split
          next start =>
            subst start
            simp [present, numbered.2 dense, dense, fitted.2 fit, fit, only, eq_comm (a := defect)]
          next notStart =>
            simp [present, numbered.2 dense, dense, fitted.2 fit, fit, only, notStart]
        next first second rest several =>
          simp [present, numbered.2 dense, dense, fitted.2 fit, fit, several, eq_comm (a := defect)]

/-- A list is refused with the first rule that it breaks. -/
theorem ofNodes_eq_error_iff : ofNodes nodes = .error defect ↔ FirstDefect nodes defect := by
  rw [ofNodes_eq_error]
  constructor
  · rintro (⟨absent, rfl⟩ | ⟨-, found⟩ | ⟨-, dense, found⟩ | ⟨present, dense, fit, accepting⟩)
    · exact .empty absent
    · rcases densityDefect_eq_some.1 found with ⟨earlier, node, later, split, ids, differs, rfl⟩
      rw [Nat.zero_add] at differs ⊢
      exact .nonDense split (dense_iff.2 (ids.trans (List.range_eq_range' ..).symm)) differs
    · rcases edgesDefect_eq_some.1 found with
        ⟨earlier, node, later, split, ⟨before, edge, after, edges, breaks, fits⟩, allFit⟩
      exact .edge dense split edges allFit fits breaks
    · rcases accepting with ⟨none, rfl⟩ | ⟨only, rfl⟩ | ⟨several, rfl⟩
      · apply FirstDefect.noAccept present dense fit
        intro node member accepts
        have listed : node.id ∈ acceptIds nodes := mem_acceptIds.2 ⟨node, member, accepts, rfl⟩
        simp [none] at listed
      · have listed : 0 ∈ acceptIds nodes := by simp [only]
        rcases mem_acceptIds.1 listed with ⟨node, member, accepts, start⟩
        apply FirstDefect.acceptIsStart dense fit member accepts start
        intro other otherMember otherAccepts
        have otherListed : other.id ∈ acceptIds nodes :=
          mem_acceptIds.2 ⟨other, otherMember, otherAccepts, rfl⟩
        rw [only, List.mem_singleton] at otherListed
        exact dense.eq_of_id otherMember member (otherListed.trans start.symm)
      · exact .multipleAccept dense fit several (acceptIds_ascending dense) fun _ => mem_acceptIds
  · intro first
    have present {id : Nat} (listed : id ∈ acceptIds nodes) : nodes ≠ [] := by
      rintro rfl
      cases listed
    cases first with
    | empty absent => exact .inl ⟨absent, rfl⟩
    | @nonDense earlier later node split dense differs =>
        refine .inr (.inl ⟨by simp [split], densityDefect_eq_some.2 ?_⟩)
        refine ⟨earlier, node, later, split, ?_, ?_, ?_⟩
        · exact (dense_iff.1 dense).trans (List.range_eq_range' ..)
        · rwa [Nat.zero_add]
        · rw [Nat.zero_add]
    | @edge earlier later node before after edge _ dense split edges allFit fits breaks =>
        refine .inr (.inr (.inl ⟨by simp [split], dense, edgesDefect_eq_some.2 ?_⟩))
        exact ⟨earlier, node, later, split, ⟨before, edge, after, edges, breaks, fits⟩, allFit⟩
    | noAccept present dense fit none =>
        refine .inr (.inr (.inr ⟨present, dense, fit, .inl ⟨?_, rfl⟩⟩))
        rw [List.eq_nil_iff_forall_not_mem]
        intro id listed
        rcases mem_acceptIds.1 listed with ⟨node, member, accepts, -⟩
        exact none node member accepts
    | @multipleAccept ids dense fit several ascends listed =>
        have same : acceptIds nodes = ids := by
          apply (acceptIds_ascending dense).eq_of_mem_iff ascends
          intro id
          rw [mem_acceptIds, listed]
        subst same
        have inhabited : acceptIds nodes ≠ [] := by
          intro none
          simp [none] at several
        rcases List.exists_mem_of_ne_nil _ inhabited with ⟨id, member⟩
        exact .inr (.inr (.inr ⟨present member, dense, fit, .inr (.inr ⟨several, rfl⟩)⟩))
    | @acceptIsStart node dense fit member accepts start only =>
        have listed : 0 ∈ acceptIds nodes := mem_acceptIds.2 ⟨node, member, accepts, start⟩
        have same : acceptIds nodes = [0] := by
          apply (acceptIds_ascending dense).eq_of_mem_iff (List.pairwise_singleton _ 0)
          intro id
          rw [List.mem_singleton]
          constructor
          · intro other
            rcases mem_acceptIds.1 other with ⟨found, foundMember, foundAccepts, rfl⟩
            rw [only found foundMember foundAccepts, start]
          · rintro rfl
            exact listed
        exact .inr (.inr (.inr ⟨present listed, dense, fit, .inr (.inl ⟨same, rfl⟩)⟩))

/-- Valid nodes have one accepting node, which makes them an automaton. -/
theorem Valid.wellFormed (valid : Valid nodes) : ∃ accept, WellFormed nodes accept := by
  have one : (acceptIds nodes).length = 1 := length_acceptIds.trans valid.oneAccept
  rcases List.length_eq_one_iff.1 one with ⟨accept, only⟩
  have listed : accept ∈ acceptIds nodes := by simp [only]
  rcases mem_acceptIds.1 listed with ⟨node, member, accepts, rfl⟩
  exact ⟨node.id, dense_iff.1 valid.dense, valid.edgesFit, only,
    valid.acceptNotStart node member accepts⟩

/-- The nodes of an automaton are valid. -/
theorem valid_nodes (automaton : Automaton) : Valid automaton.nodes where
  nonempty := by
    intro absent
    have only := automaton.wellFormed.onlyAccept
    rw [absent] at only
    cases only
  dense := dense_iff.2 automaton.wellFormed.dense
  edgesFit := automaton.wellFormed.edgesFit
  oneAccept := by
    rw [← length_acceptIds, automaton.wellFormed.onlyAccept, List.length_singleton]
  acceptNotStart := by
    intro node member accepts
    have listed : node.id ∈ acceptIds automaton.nodes :=
      mem_acceptIds.2 ⟨node, member, accepts, rfl⟩
    rw [automaton.wellFormed.onlyAccept, List.mem_singleton] at listed
    rw [listed]
    exact automaton.wellFormed.acceptNotStart

/-- The nodes of an automaton are validated as that automaton. -/
theorem ofNodes_nodes (automaton : Automaton) : ofNodes automaton.nodes = .ok automaton := by
  obtain ⟨nodes, accept, wellFormed⟩ := automaton
  have present : nodes ≠ [] := by
    rintro rfl
    cases wellFormed.onlyAccept
  have dense : densityDefect 0 nodes = none := by
    rw [densityDefect_eq_none, wellFormed.dense, List.range_eq_range']
  have fit : edgesDefect nodes = none := edgesDefect_eq_none.2 wellFormed.edgesFit
  unfold ofNodes
  rw [if_neg present]
  split
  next defect found => cases dense.symm.trans found
  next =>
    split
    next defect found => cases fit.symm.trans found
    next =>
      split
      next none => cases wellFormed.onlyAccept.symm.trans none
      next only one =>
        cases wellFormed.onlyAccept.symm.trans one
        rw [dif_neg wellFormed.acceptNotStart]
      next several => cases wellFormed.onlyAccept.symm.trans several

/-- A list of nodes is accepted exactly when it is valid; the automaton then has these nodes
unchanged and the id of their only accepting node.  Otherwise the list is refused with the first
rule that it breaks. -/
theorem ofNodes_accepts_valid (nodes : List Node) :
    ((∃ automaton, ofNodes nodes = .ok automaton) ↔ Valid nodes) ∧
    (∀ automaton, ofNodes nodes = .ok automaton →
      automaton.nodes = nodes ∧
        ∀ node ∈ nodes, node.isAccept ↔ node.id = automaton.accept) ∧
    (∀ defect, ofNodes nodes = .error defect ↔ FirstDefect nodes defect) := by
  refine ⟨⟨?_, ?_⟩, ?_, fun _ => ofNodes_eq_error_iff⟩
  · rintro ⟨automaton, accepted⟩
    rw [← nodes_of_ofNodes accepted]
    exact automaton.valid_nodes
  · intro valid
    rcases valid.wellFormed with ⟨accept, wellFormed⟩
    exact ⟨⟨nodes, accept, wellFormed⟩, ofNodes_nodes ⟨nodes, accept, wellFormed⟩⟩
  · intro automaton accepted
    have kept := nodes_of_ofNodes accepted
    refine ⟨kept, ?_⟩
    intro node member
    rw [← kept] at member
    have listed (id : Nat) : id ∈ acceptIds automaton.nodes ↔ id = automaton.accept := by
      rw [automaton.wellFormed.onlyAccept, List.mem_singleton]
    constructor
    · intro accepts
      exact (listed node.id).1 (mem_acceptIds.2 ⟨node, member, accepts, rfl⟩)
    · intro same
      rcases mem_acceptIds.1 ((listed node.id).2 same) with ⟨other, otherMember, accepts, equal⟩
      rw [← automaton.valid_nodes.dense.eq_of_id otherMember member equal]
      exact accepts

/-- An edge that breaks two rules, before one into the start and two accepting nodes. -/
example :
    ofNodes
      [⟨0, .accept, [⟨.ofString "a", 1⟩, ⟨.ofString "", 7⟩]⟩,
       ⟨1, .accept, [⟨.ofString "b", 0⟩]⟩] = .error (.emptyLabel 0 7) := by
  decide

end ScanCircuit.Automaton
