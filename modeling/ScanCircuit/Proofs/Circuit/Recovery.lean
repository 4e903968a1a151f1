import ScanCircuit.Proofs.Circuit.Drafting
import ScanCircuit.Proofs.Circuit.Planned

/-!
# Recovering the edges from a circuit

The statements of a circuit can be read back.  A comment begins a check, the gate of an edge
ends its checks, and a constraint or the component that joins all edges of a node ends the
edges, so the drafted body determines the planned edges of every node, and these determine
the labels.

`program_eq_iff_incoming` concludes that two circuits are the same exactly when the automata
agree on their size, their accepting node and the incoming edges of every node.
-/

namespace ScanCircuit.Circuit

variable {α β : Type} {counts : Counts} {rest others : List Stmt}

/-! ## Lists of drafts -/

/-- Statements are none at all, or begin with one of a sort. -/
def Follow (sort : Stmt → Prop) (stmts : List Stmt) : Prop :=
  ∀ first ∈ stmts.head?, sort first

/-- What a draft writes can be told apart from what the same draft writes for another item,
whatever comes next, and from the statements of a sort. -/
structure Separable (draft : α → Draft β) (sort : Stmt → Prop) : Prop where
  begins : ∀ item counts, ∃ first more, (draft item counts).body = first :: more ∧ ¬ sort first
  recovers : ∀ {left right : α} {counts : Counts} {rest others : List Stmt},
    (draft left counts).body ++ rest = (draft right counts).body ++ others →
      left = right ∧ rest = others

/-- Items drafted one after another are recovered up to a statement of the sort. -/
theorem Separable.list {draft : α → Draft β} {sort : Stmt → Prop}
    (separable : Separable draft sort) (bodies : List α → Counts → List Stmt)
    (none : ∀ counts, bodies [] counts = [])
    (more : ∀ item items counts, bodies (item :: items) counts =
      (draft item counts).body ++ bodies items (draft item counts).counts)
    {left right : List α} (leftEnds : Follow sort rest) (rightEnds : Follow sort others)
    (same : bodies left counts ++ rest = bodies right counts ++ others) :
    left = right ∧ rest = others := by
  -- The side that has no more items shows a statement of the sort, the other side does not.
  have continues (item : α) (items : List α) (counts : Counts) {ends : List Stmt}
      (follow : Follow sort ends) (tail : List Stmt) :
      ends ≠ bodies (item :: items) counts ++ tail := by
    intro equal
    obtain ⟨first, remaining, begins, notSort⟩ := separable.begins item counts
    rw [more, begins] at equal
    apply notSort
    apply follow
    rw [equal]
    rfl
  induction left generalizing right counts with
  | nil =>
      cases right with
      | nil => simpa [none] using same
      | cons item items =>
          rw [none, List.nil_append] at same
          exact absurd same (continues item items counts leftEnds others)
  | cons item items ih =>
      cases right with
      | nil =>
          rw [none, List.nil_append] at same
          exact absurd same.symm (continues item items counts rightEnds rest)
      | cons found remaining =>
          rw [more, more, List.append_assoc, List.append_assoc] at same
          obtain ⟨rfl, tails⟩ := separable.recovers same
          obtain ⟨rfl, after⟩ := ih tails
          exact ⟨rfl, after⟩

/-! ## Checks -/

/-- A statement that is no comment ends the checks of an edge. -/
def Stmt.EndsChecks (stmt : Stmt) : Prop :=
  ∀ text, stmt ≠ .comment text

theorem draftCheck_recovers {left right : Check}
    (same : (draftCheck left counts).body ++ rest = (draftCheck right counts).body ++ others) :
    left = right ∧ rest = others := by
  cases left with
  | range leftClass =>
      cases right with
      | range rightClass =>
          simp only [draftCheck, draftRange_eq, List.cons_append, List.cons.injEq,
            Stmt.wire.injEq, Expr.const.injEq, true_and, List.nil_append] at same
          rw [CharClass.lower_injective same.2.1]
          exact ⟨rfl, same.2.2.2⟩
      | equal code => simp [draftCheck, draftRange_eq, draftEqual_eq] at same
  | equal leftCode =>
      cases right with
      | range charClass => simp [draftCheck, draftRange_eq, draftEqual_eq] at same
      | equal rightCode =>
          simp only [draftCheck, draftEqual_eq, List.cons_append, List.cons.injEq,
            Stmt.wire.injEq, Expr.const.injEq, true_and, List.nil_append] at same
          rw [UInt8.toNat_inj.1 same.2.1]
          exact ⟨rfl, same.2.2⟩

/-- A check begins with a comment. -/
theorem draftCheck_begins (check : Check) (counts : Counts) :
    ∃ text more, (draftCheck check counts).body = .comment text :: more := by
  cases check with
  | range charClass => exact ⟨_, _, rfl⟩
  | equal code => exact ⟨_, _, rfl⟩

theorem draftCheck_separable : Separable draftCheck Stmt.EndsChecks where
  begins check counts := by
    obtain ⟨text, more, begins⟩ := draftCheck_begins check counts
    exact ⟨.comment text, more, begins, fun ends => ends text rfl⟩
  recovers := draftCheck_recovers

/-! ## Edges -/

/-- A statement ends the edges of a node when it is a constraint, or begins the component that
joins the edges. -/
def Stmt.EndsEdges : Stmt → Prop
  | .constrain _ _ => True
  | .instantiate component _ => component.kind = .multiOr
  | _ => False

/-- The checks of an edge are recovered at its gate, and its source right after it. -/
theorem draftEdge_recovers {left right : PlannedEdge}
    (same : (draftEdge left counts).body ++ rest = (draftEdge right counts).body ++ others) :
    left = right ∧ rest = others := by
  obtain ⟨leftSource, leftChecks⟩ := left
  obtain ⟨rightSource, rightChecks⟩ := right
  simp only [draftEdge_eq, List.append_assoc, List.cons_append, List.nil_append] at same
  obtain ⟨rfl, gates⟩ := draftCheck_separable.list
    (fun checks counts => (draftChecks checks counts).body) (fun _ => rfl)
    (fun check checks counts => by rw [draftChecks_cons]) (by simp [Follow, Stmt.EndsChecks])
    (by simp [Follow, Stmt.EndsChecks]) same
  obtain ⟨wired, conditions⟩ := List.cons.inj (List.cons.inj gates).2
  have sources : leftSource = rightSource := by
    simpa [Expr.state] using wired
  subst sources
  have remaining := List.append_cancel_left conditions
  exact ⟨rfl, (List.cons.inj remaining).2⟩

theorem draftEdge_separable : Separable draftEdge Stmt.EndsEdges where
  begins edge counts := by
    obtain ⟨source, checks⟩ := edge
    cases checks with
    | nil => exact ⟨_, _, rfl, Kind.noConfusion⟩
    | cons check more =>
        obtain ⟨text, tail, begins⟩ := draftCheck_begins check counts
        simp only [draftEdge_eq, draftChecks_cons, begins, List.cons_append]
        exact ⟨_, _, rfl, not_false⟩
  recovers := draftEdge_recovers

/-! ## Nodes -/

/-- The edges of a node are followed by its constraint, or by what joins the edges. -/
theorem draftNode_begins (node : Nat) (edges : List PlannedEdge) (counts : Counts)
    (rest : List Stmt) :
    ∃ first more, (draftNode node edges counts).body ++ rest =
      (draftEdges edges counts).body ++ first :: more ∧ first.EndsEdges := by
  cases edges with
  | nil => exact ⟨_, _, rfl, trivial⟩
  | cons edge more =>
      rw [draftNode_cons]
      generalize draftEdges (edge :: more) counts = gates
      by_cases single : gates.result.length = 1
      · obtain ⟨gate, only⟩ := List.length_eq_one_iff.1 single
        simp only [only, draftAny, Draft.run_pure, List.append_assoc, List.nil_append,
          List.cons_append]
        exact ⟨_, _, rfl, trivial⟩
      · simp only [draftAny_eq gates.result single, List.append_assoc, List.cons_append]
        exact ⟨_, _, rfl, rfl⟩

/-- What the edges of a node are joined by does not depend on the node, only its constraint
does. -/
theorem draftNode_constrains (edges : List PlannedEdge) (counts : Counts) :
    ∃ body value, ∀ node : Nat, (draftNode node edges counts).body =
      body ++ [.constrain (.state .next (.node node)) value] := by
  cases edges with
  | nil => exact ⟨[], .const 0, fun _ => rfl⟩
  | cons edge more =>
      let gates := draftEdges (edge :: more) counts
      let active := draftAny gates.result gates.counts
      refine ⟨gates.body ++ active.body, active.result, ?_⟩
      intro node
      rw [draftNode_cons, List.append_assoc]

theorem draftNode_recovers {left right : Nat × List PlannedEdge}
    (same : (draftNode left.1 left.2 counts).body ++ rest =
      (draftNode right.1 right.2 counts).body ++ others) :
    left = right ∧ rest = others := by
  obtain ⟨node, edges⟩ := left
  obtain ⟨other, otherEdges⟩ := right
  obtain ⟨first, more, begins, ends⟩ := draftNode_begins node edges counts rest
  obtain ⟨last, tail, otherBegins, otherEnds⟩ := draftNode_begins other otherEdges counts others
  obtain ⟨rfl, -⟩ := draftEdge_separable.list
    (fun edges counts => (draftEdges edges counts).body) (fun _ => rfl)
    (fun edge edges counts => by rw [draftEdges_cons]) (by simpa [Follow] using ends)
    (by simpa [Follow] using otherEnds) (begins.symm.trans (same.trans otherBegins))
  obtain ⟨body, value, written⟩ := draftNode_constrains edges counts
  dsimp only at same
  rw [written, written, List.append_assoc, List.append_assoc] at same
  obtain ⟨constraint, tails⟩ := List.cons.inj (List.append_cancel_left same)
  have nodes : node = other := by simpa using constraint
  rw [nodes]
  exact ⟨rfl, tails⟩

theorem draftNode_separable :
    Separable (fun node : Nat × List PlannedEdge => draftNode node.1 node.2)
      fun _ => False where
  begins node counts := by
    obtain ⟨first, more, begins, -⟩ := draftNode_begins node.1 node.2 counts []
    rw [List.append_nil] at begins
    cases written : (draftNode node.1 node.2 counts).body with
    | nil => simp [written] at begins
    | cons stmt stmts => exact ⟨stmt, stmts, rfl, not_false⟩
  recovers := draftNode_recovers

/-- The planned nodes are recovered from the body of the loop. -/
theorem draftNodes_recovers {left right : List (Nat × List PlannedEdge)}
    (same : (draftNodes left counts).body = (draftNodes right counts).body) : left = right := by
  rw [← List.append_nil (draftNodes left counts).body,
    ← List.append_nil (draftNodes right counts).body] at same
  exact (draftNode_separable.list (fun nodes counts => (draftNodes nodes counts).body)
    (fun _ => rfl) (fun _ _ _ => rfl) (by simp [Follow]) (by simp [Follow]) same).1

/-! ## Incoming edges -/

/-- An incoming edge is determined by its plan. -/
theorem Plans.unique {dest target : Nat} {left right : Incoming} {planned : PlannedEdge}
    (leftPlans : Plans dest left planned) (rightPlans : Plans target right planned) :
    left = right := by
  obtain ⟨leftSource, leftLabel⟩ := left
  obtain ⟨rightSource, rightLabel⟩ := right
  have sources : leftSource = rightSource := leftPlans.1.symm.trans rightPlans.1
  have labels : leftLabel = rightLabel := label_eq_of_plan leftPlans.2 rightPlans.2
  rw [sources, labels]

theorem plans_unique {dest target : Nat} {left right : List Incoming}
    {planned : List PlannedEdge} (leftPlans : List.Forall₂ (Plans dest) left planned)
    (rightPlans : List.Forall₂ (Plans target) right planned) : left = right := by
  induction leftPlans generalizing right with
  | nil =>
      cases rightPlans
      rfl
  | cons first _ ih =>
      cases rightPlans with
      | cons other more => rw [first.unique other, ih more]

/-- Nothing arrives at the start, nor outside the automaton. -/
theorem incoming_eq_nil {automaton : Automaton} {id : Nat}
    (outer : ¬ (id ≠ 0 ∧ id < automaton.size)) :
    (IncomingIndex.ofAutomaton automaton).incoming id = [] := by
  rw [List.eq_nil_iff_forall_not_mem]
  intro edge arrives
  obtain ⟨node, member, -, outgoing, listed, rfl, -⟩ := IncomingIndex.mem_incoming.1 arrives
  have fits := automaton.wellFormed.edgesFit node member outgoing listed
  exact outer ⟨fits.notStart, fits.inside⟩

section

variable {left right : Automaton} {leftNodes rightNodes : List (Nat × List PlannedEdge)}

/-- The plan of an automaton determines what arrives at each of its nodes. -/
theorem Planned.incoming_eq {planned : List (Nat × List PlannedEdge)}
    (leftPlanned : Planned left planned) (rightPlanned : Planned right planned) (id : Nat)
    (sizes : left.size = right.size) :
    (IncomingIndex.ofAutomaton left).incoming id =
      (IncomingIndex.ofAutomaton right).incoming id := by
  by_cases inner : id ≠ 0 ∧ id < left.size
  · obtain ⟨node, member, rfl⟩ := leftPlanned.mem_ids.2 inner
    exact plans_unique (leftPlanned.plans member) (rightPlanned.plans member)
  · rw [incoming_eq_nil inner, incoming_eq_nil (sizes ▸ inner)]

/-- The plan of an automaton depends on what arrives at its nodes and on nothing else. -/
theorem Planned.of_incoming_eq (planned : Planned left leftNodes)
    (sizes : left.size = right.size)
    (incoming : ∀ id, (IncomingIndex.ofAutomaton left).incoming id =
      (IncomingIndex.ofAutomaton right).incoming id) : Planned right leftNodes := by
  have inner : innerNodes right = innerNodes left := by rw [innerNodes, innerNodes, sizes]
  rw [Planned, inner]
  refine List.Forall₂.imp ?_ planned
  intro id node plans
  refine ⟨plans.1, ?_⟩
  rw [← incoming]
  exact plans.2

theorem Planned.unique (planned : Planned left leftNodes) (other : Planned left rightNodes) :
    leftNodes = rightNodes := by
  have first := planNodes_eq_ok.2 planned
  rw [planNodes_eq_ok.2 other] at first
  exact (Except.ok.inj first).symm

end

/-- A program shows the size, the accepting node and the transitions that it was assembled
from. -/
theorem assemble_recovers {nodes size accept other : Nat} {left right : Drafted Unit}
    (same : assemble nodes accept left = assemble size other right) :
    nodes = size ∧ accept = other ∧ left.body = right.body := by
  simp only [assemble, Program.mk.injEq, boundary, reduction, LoopRange.fixed, Expr.state,
    List.cons.injEq, Stmt.loop.injEq, LoopRange.mk.injEq, Bound.const.injEq,
    Stmt.constrain.injEq, Expr.signal.injEq, Signal.state.injEq, Column.node.injEq,
    true_and, and_true] at same
  exact ⟨same.2.1, same.2.2.2.1, same.2.2.1⟩

/-- Two circuits are the same exactly when their automata have the same size, the same
accepting node and the same incoming edges of every node; or, said by source, the same edges
between any two nodes.  The same circuits have the same counts. -/
theorem program_eq_iff_incoming {left right : Automaton} {leftProgram rightProgram : Program}
    {leftCounts rightCounts : Counts}
    (leftEmitted : ofAutomaton left = .ok (leftProgram, leftCounts))
    (rightEmitted : ofAutomaton right = .ok (rightProgram, rightCounts)) :
    (leftProgram = rightProgram ↔
      left.size = right.size ∧ left.accept = right.accept ∧
        ∀ id, (IncomingIndex.ofAutomaton left).incoming id =
          (IncomingIndex.ofAutomaton right).incoming id) ∧
    (leftProgram = rightProgram ↔
      left.size = right.size ∧ left.accept = right.accept ∧
        ∀ source dest, left.edgesBetween source dest = right.edgesBetween source dest) ∧
    (leftProgram = rightProgram → leftCounts = rightCounts) := by
  obtain ⟨leftNodes, leftPlanned, rfl, rfl⟩ := ofAutomaton_eq_ok.1 leftEmitted
  obtain ⟨rightNodes, rightPlanned, rfl, rfl⟩ := ofAutomaton_eq_ok.1 rightEmitted
  have nodes_eq (same : assemble left.size left.accept (draftNodes leftNodes {}) =
      assemble right.size right.accept (draftNodes rightNodes {})) : leftNodes = rightNodes :=
    draftNodes_recovers (assemble_recovers same).2.2
  have programs : assemble left.size left.accept (draftNodes leftNodes {}) =
      assemble right.size right.accept (draftNodes rightNodes {}) ↔
        left.size = right.size ∧ left.accept = right.accept ∧
          ∀ id, (IncomingIndex.ofAutomaton left).incoming id =
            (IncomingIndex.ofAutomaton right).incoming id := by
    constructor
    · intro same
      have sizes := (assemble_recovers same).1
      refine ⟨sizes, (assemble_recovers same).2.1, ?_⟩
      intro id
      rw [nodes_eq same] at leftPlanned
      exact leftPlanned.incoming_eq rightPlanned id sizes
    · rintro ⟨sizes, accepts, incoming⟩
      rw [sizes, accepts, (leftPlanned.of_incoming_eq sizes incoming).unique rightPlanned]
  refine ⟨programs, ?_, ?_⟩
  · rw [programs]
    apply and_congr_right
    intro sizes
    rw [IncomingIndex.incoming_eq_iff sizes]
  · intro same
    rw [nodes_eq same]

/-- An automaton whose start leads to the accepting node and to one before it. -/
def forked : Automaton where
  nodes :=
    [⟨0, .normal, [⟨{ toList := ['a'] }, 1⟩, ⟨{ toList := ['b'] }, 2⟩]⟩, ⟨1, .accept, []⟩,
     ⟨2, .normal, [⟨{ toList := ['c'] }, 1⟩]⟩]
  accept := 1
  wellFormed :=
    { dense := rfl
      edgesFit := Automaton.edgesDefect_eq_none.1 (by decide)
      onlyAccept := rfl
      acceptNotStart := by decide }

/-- The same automaton with the edges of its start in the other order. -/
def forkedBack : Automaton where
  nodes :=
    [⟨0, .normal, [⟨{ toList := ['b'] }, 2⟩, ⟨{ toList := ['a'] }, 1⟩]⟩, ⟨1, .accept, []⟩,
     ⟨2, .normal, [⟨{ toList := ['c'] }, 1⟩]⟩]
  accept := 1
  wellFormed :=
    { dense := rfl
      edgesFit := Automaton.edgesDefect_eq_none.1 (by decide)
      onlyAccept := rfl
      acceptNotStart := by decide }

theorem program_eq_iff_incoming_forked :
    forked ≠ forkedBack ∧ ∃ emitted, ofAutomaton forked = .ok emitted ∧
      ofAutomaton forkedBack = .ok emitted := by
  obtain ⟨left, leftCounts, leftEmitted⟩ :
      ∃ program counts, ofAutomaton forked = .ok (program, counts) := ⟨_, _, rfl⟩
  obtain ⟨right, rightCounts, rightEmitted⟩ :
      ∃ program counts, ofAutomaton forkedBack = .ok (program, counts) := ⟨_, _, rfl⟩
  obtain ⟨-, between, counted⟩ := program_eq_iff_incoming leftEmitted rightEmitted
  have same : left = right := by
    refine between.2 ⟨rfl, rfl, ?_⟩
    intro source dest
    match source, dest with
    | 0, 0 | 0, 1 | 0, 2 => rfl
    | 0, dest + 3 =>
        simp [Automaton.edgesBetween, Automaton.edges?, Automaton.node?, forked, forkedBack]
    | source + 1, dest => rfl
  rw [← same, ← counted same] at rightEmitted
  exact ⟨by decide, _, leftEmitted, rightEmitted⟩

end ScanCircuit.Circuit
