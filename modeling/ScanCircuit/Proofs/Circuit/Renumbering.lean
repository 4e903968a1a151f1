import Mathlib.Algebra.Group.Defs
import ScanCircuit.Proofs.Circuit.Inventory
import ScanCircuit.Proofs.Circuit.Planned

/-!
# Renumbering the components of a draft

The counts so far are all that one draft tells the next, and a draft uses them only to number
its components.  From higher counts it writes the same statements with higher numbers.

`Raises` states this for two drafts, one of which may take the components that the other one
takes with their numbers raised.  It is closed under `pure` and `bind`, so every draft of a
circuit has it.  `numbering_stable` concludes that later nodes of an automaton do not change
the statements of earlier ones, and that earlier nodes change the statements of later ones only
by their numbers.
-/

namespace ScanCircuit.Circuit

variable {α β : Type} {offset : Counts}

/-! ## Sums of counts -/

namespace Counts

/-- Counts are determined by the count of each kind. -/
@[ext] theorem ext {left right : Counts} (same : ∀ kind, left.get kind = right.get kind) :
    left = right := by
  cases left
  cases right
  have eq := same .eq
  have lt := same .lt
  have and := same .and
  have multiOr := same .multiOr
  simp only [get] at eq lt and multiOr
  rw [eq, lt, and, multiOr]

instance : Zero Counts where
  zero := {}

instance : Add Counts where
  add left right :=
    { eq := left.eq + right.eq
      lt := left.lt + right.lt
      and := left.and + right.and
      multiOr := left.multiOr + right.multiOr }

theorem mk_add_mk (eq lt and multiOr moreEq moreLt moreAnd moreMultiOr : Nat) :
    Counts.mk eq lt and multiOr + Counts.mk moreEq moreLt moreAnd moreMultiOr =
      Counts.mk (eq + moreEq) (lt + moreLt) (and + moreAnd) (multiOr + moreMultiOr) := rfl

@[simp] theorem get_zero (kind : Kind) : get 0 kind = 0 := by
  cases kind <;> rfl

@[simp] theorem get_add (left right : Counts) (kind : Kind) :
    (left + right).get kind = left.get kind + right.get kind := by
  cases kind <;> rfl

instance : AddCommMonoid Counts where
  add_assoc first second third := by
    ext kind
    simp only [get_add, Nat.add_assoc]
  zero_add counts := by
    ext kind
    simp
  add_zero counts := by
    ext kind
    simp
  add_comm left right := by
    ext kind
    simp only [get_add, Nat.add_comm]
  nsmul := nsmulRec

theorem bump_add (counts offset : Counts) (kind : Kind) :
    (counts + offset).bump kind = counts.bump kind + offset := by
  ext other
  simp only [get_bump, get_add]
  omega

end Counts

/-! ## Raised numbers -/

/-- The component whose number is higher by the count of its kind. -/
def Component.raise (offset : Counts) (component : Component) : Component :=
  { component with index := component.index + offset.get component.kind }

/-- The expression with the numbers of its components raised. -/
def Expr.raise (offset : Counts) : Expr → Expr
  | .output component => .output (component.raise offset)
  | .add left right => .add (left.raise offset) (right.raise offset)
  | .const value => .const value
  | .byte => .byte
  | .signal cell => .signal cell

mutual

/-- The statement with the numbers of its components raised. -/
def Stmt.raise (offset : Counts) : Stmt → Stmt
  | .loop range body => .loop range (Stmt.raiseAll offset body)
  | .instantiate component template => .instantiate (component.raise offset) template
  | .wire component pin value => .wire (component.raise offset) pin (value.raise offset)
  | .constrain target value => .constrain target (value.raise offset)
  | .declareComponents kind count => .declareComponents kind count
  | .declareStates nodes => .declareStates nodes
  | .declareSum => .declareSum
  | .comment text => .comment text
  | .blank => .blank

/-- Several statements with the numbers of their components raised. -/
def Stmt.raiseAll (offset : Counts) : List Stmt → List Stmt
  | [] => []
  | stmt :: rest => Stmt.raise offset stmt :: Stmt.raiseAll offset rest

end

/-- From counts that are higher by an offset, the second draft writes what the first one writes
with all numbers raised, and returns the moved result. -/
def Raises (offset : Counts) (move : α → α) (draft raised : Draft α) : Prop :=
  ∀ counts, raised (counts + offset) =
    ⟨move (draft counts).result, Stmt.raiseAll offset (draft counts).body,
      (draft counts).counts + offset⟩

theorem Stmt.raiseAll_append (offset : Counts) (body rest : List Stmt) :
    Stmt.raiseAll offset (body ++ rest) =
      Stmt.raiseAll offset body ++ Stmt.raiseAll offset rest := by
  induction body with
  | nil => rfl
  | cons stmt body ih => rw [List.cons_append, raiseAll, raiseAll, ih, List.cons_append]

theorem raises_pure (move : α → α) (result : α) :
    Raises offset move (pure result) (pure (move result)) := by
  intro counts
  rfl

/-- Drafts in a row are raised one after the other. -/
theorem Raises.bind {first firstRaised : Draft α} {next nextRaised : α → Draft β}
    {move : α → α} {moveNext : β → β} (firstRaises : Raises offset move first firstRaised)
    (nextRaises : ∀ result, Raises offset moveNext (next result) (nextRaised (move result))) :
    Raises offset moveNext (first >>= next) (firstRaised >>= nextRaised) := by
  intro counts
  rw [Draft.run_bind, firstRaises counts]
  dsimp only
  rw [nextRaises, Draft.run_bind, Stmt.raiseAll_append]

theorem raises_write (stmt : Stmt) :
    Raises offset id (Draft.write stmt) (Draft.write (stmt.raise offset)) := by
  intro counts
  rfl

theorem raises_wire (component : Component) (pin : Pin) (value : Expr) :
    Raises offset id (Draft.wire component pin value)
      (Draft.wire (component.raise offset) pin (value.raise offset)) :=
  raises_write (.wire component pin value)

theorem raises_instantiate (kind : Kind) (template : Template) :
    Raises offset (Component.raise offset) (Draft.instantiate kind template)
      (Draft.instantiate kind template) := by
  intro counts
  simp only [Draft.instantiate, Counts.get_add, Counts.bump_add]
  rfl

/-! ## Drafts of a circuit -/

theorem raises_draftEqual (code : UInt8) :
    Raises offset (Component.raise offset) (draftEqual code) (draftEqual code) := by
  apply (raises_write (.comment (shownByte code))).bind
  intro _
  apply (raises_instantiate .eq .isEqual).bind
  intro equal
  apply (raises_wire equal (.input 0) .byte).bind
  intro _
  apply (raises_wire equal (.input 1) (.const code.toNat)).bind
  intro _
  exact raises_pure _ equal

theorem raises_draftRange (charClass : CharClass) :
    Raises offset (Component.raise offset) (draftRange charClass) (draftRange charClass) := by
  apply (raises_write (.comment charClass.label)).bind
  intro _
  apply (raises_instantiate .lt (.lessThan 8)).bind
  intro above
  apply (raises_wire above (.input 0) (.const charClass.lower)).bind
  intro _
  apply (raises_wire above (.input 1) .byte).bind
  intro _
  apply (raises_instantiate .lt (.lessThan 8)).bind
  intro below
  apply (raises_wire below (.input 0) .byte).bind
  intro _
  apply (raises_wire below (.input 1) (.const charClass.upper)).bind
  intro _
  apply (raises_instantiate .and .and).bind
  intro both
  apply (raises_wire both .a (.output above)).bind
  intro _
  apply (raises_wire both .b (.output below)).bind
  intro _
  exact raises_pure _ both

theorem raises_draftCheck (check : Check) :
    Raises offset (Component.raise offset) (draftCheck check) (draftCheck check) := by
  cases check with
  | range charClass => exact raises_draftRange charClass
  | equal code => exact raises_draftEqual code

theorem raises_draftChecks (checks : List Check) :
    Raises offset (List.map (Component.raise offset)) (draftChecks checks)
      (draftChecks checks) := by
  induction checks with
  | nil => exact raises_pure _ []
  | cons check rest ih =>
      apply (raises_draftCheck check).bind
      intro first
      apply ih.bind
      intro others
      exact raises_pure _ (first :: others)

theorem raises_wireInputs (component : Component) (start : Nat) (terms : List Component) :
    Raises offset id (wireInputs component start terms)
      (wireInputs (component.raise offset) start (terms.map (Component.raise offset))) := by
  induction terms generalizing start with
  | nil => exact raises_pure id ()
  | cons term rest ih =>
      apply (raises_wire component (.input start) (.output term)).bind
      intro _
      exact ih (start + 1)

theorem raises_draftAny (terms : List Component) :
    Raises offset (Expr.raise offset) (draftAny terms)
      (draftAny (terms.map (Component.raise offset))) := by
  have joined : Raises offset (Expr.raise offset)
      (do
        let any ← Draft.instantiate .multiOr (.multiOr terms.length)
        wireInputs any 0 terms
        return Expr.output any)
      (do
        let any ← Draft.instantiate .multiOr
          (.multiOr (terms.map (Component.raise offset)).length)
        wireInputs any 0 (terms.map (Component.raise offset))
        return Expr.output any) := by
    rw [List.length_map]
    apply (raises_instantiate .multiOr (.multiOr terms.length)).bind
    intro any
    apply (raises_wireInputs any 0 terms).bind
    intro _
    exact raises_pure _ (Expr.output any)
  match terms, joined with
  | [], joined => exact joined
  | [single], _ => exact raises_pure _ (Expr.output single)
  | _ :: _ :: _, joined => exact joined

theorem raises_draftEdge (edge : PlannedEdge) :
    Raises offset (Component.raise offset) (draftEdge edge) (draftEdge edge) := by
  apply (raises_draftChecks edge.checks).bind
  intro terms
  apply (raises_instantiate .and .and).bind
  intro gate
  apply (raises_wire gate .a (.state .current edge.source)).bind
  intro _
  apply (raises_draftAny terms).bind
  intro condition
  apply (raises_wire gate .b condition).bind
  intro _
  exact raises_pure _ gate

theorem raises_draftEdges (edges : List PlannedEdge) :
    Raises offset (List.map (Component.raise offset)) (draftEdges edges)
      (draftEdges edges) := by
  induction edges with
  | nil => exact raises_pure _ []
  | cons edge rest ih =>
      apply (raises_draftEdge edge).bind
      intro first
      apply ih.bind
      intro others
      exact raises_pure _ (first :: others)

theorem raises_draftNode (node : Nat) (edges : List PlannedEdge) :
    Raises offset id (draftNode node edges) (draftNode node edges) := by
  cases edges with
  | nil => exact raises_write (.constrain (.state .next (.node node)) (.const 0))
  | cons edge rest =>
      apply (raises_draftEdges (edge :: rest)).bind
      intro gates
      apply (raises_draftAny gates).bind
      intro active
      exact raises_write (.constrain (.state .next (.node node)) active)

/-- From any counts, a node is drafted as from none, with all numbers raised. -/
theorem draftNode_raised (node : Nat) (edges : List PlannedEdge) (counts : Counts) :
    draftNode node edges counts =
      ⟨(), Stmt.raiseAll counts (draftNode node edges {}).body,
        (draftNode node edges {}).counts + counts⟩ := by
  have raises : Raises counts id (draftNode node edges) (draftNode node edges) :=
    raises_draftNode node edges
  have raised := raises 0
  rw [zero_add] at raised
  exact raised

/-! ## The statements of some of the nodes -/

/-- What is drafted for the nodes from the first inner one up to the last one given. -/
def draftedThrough (automaton : Automaton) (last : Nat) : Except Unencodable (Drafted Unit) := do
  let nodes ← planNodes (.ofAutomaton automaton) (List.range' 1 last)
  return draftNodes nodes {}

/-- What is drafted for a single node, given the edges that arrive at it and the counts so
far. -/
def draftedNode (node : Nat) (incoming : List Incoming) (counts : Counts) :
    Except Unencodable (Drafted Unit) := do
  let edges ← planEdges node incoming
  return draftNode node edges counts

theorem draftNodes_cons (node : Nat × List PlannedEdge) (rest : List (Nat × List PlannedEdge))
    (counts : Counts) :
    let first := draftNode node.1 node.2 counts
    let others := draftNodes rest first.counts
    draftNodes (node :: rest) counts =
      ⟨(), first.body ++ others.body, others.counts⟩ := rfl

theorem draftNodes_append (before after : List (Nat × List PlannedEdge)) (counts : Counts) :
    let first := draftNodes before counts
    let others := draftNodes after first.counts
    draftNodes (before ++ after) counts =
      ⟨(), first.body ++ others.body, others.counts⟩ := by
  induction before generalizing counts with
  | nil => rfl
  | cons node before ih =>
      simp only [List.cons_append, draftNodes_cons, ih, List.append_assoc]

theorem draftedThrough_eq_ok {automaton : Automaton} {last : Nat} {drafted : Drafted Unit} :
    draftedThrough automaton last = .ok drafted ↔
      ∃ nodes, List.Forall₂ (PlansNode (.ofAutomaton automaton)) (List.range' 1 last) nodes ∧
        draftNodes nodes {} = drafted := by
  simp only [draftedThrough, bind_eq_ok, planNodes_eq_ok, pure, Except.pure, Except.ok.injEq]

/-- The plan of an automaton begins with the plan of its nodes up to any of them. -/
theorem Planned.take {automaton : Automaton} {nodes : List (Nat × List PlannedEdge)}
    (planned : Planned automaton nodes) {last : Nat} (inside : last < automaton.size) :
    List.Forall₂ (PlansNode (.ofAutomaton automaton)) (List.range' 1 last)
      (nodes.take last) := by
  have first : (innerNodes automaton).take last = List.range' 1 last :=
    List.take_range'_of_length_ge (Nat.le_sub_one_of_lt inside)
  rw [← first]
  exact List.forall₂_take last planned

/-- What is planned for some nodes depends on what arrives at them and on nothing else. -/
theorem planNodes_congr {left right : IncomingIndex} {ids : List Nat}
    (same : ∀ id ∈ ids, left.incoming id = right.incoming id) :
    planNodes left ids = planNodes right ids := by
  induction ids with
  | nil => rfl
  | cons id rest ih =>
      obtain ⟨here, others⟩ := List.forall_mem_cons.1 same
      rw [planNodes, planNodes, here, ih others]

section

variable {automaton : Automaton} {nodes : List (Nat × List PlannedEdge)} {last : Nat}
variable {program : Program} {counts : Counts}

theorem Planned.draftedThrough (planned : Planned automaton nodes)
    (inside : last < automaton.size) :
    draftedThrough automaton last = .ok (draftNodes (nodes.take last) {}) :=
  draftedThrough_eq_ok.2 ⟨nodes.take last, planned.take inside, rfl⟩

/-- The body of a circuit begins with what is drafted for its nodes up to any of them. -/
theorem transitions_begin (emitted : ofAutomaton automaton = .ok (program, counts))
    (inside : last < automaton.size) :
    ∃ drafted rest, draftedThrough automaton last = .ok drafted ∧
      program.transitions = [.loop (.window 0) (drafted.body ++ rest)] := by
  obtain ⟨nodes, planned, rfl, rfl⟩ := ofAutomaton_eq_ok.1 emitted
  let first := draftNodes (nodes.take last) {}
  have body : (draftNodes nodes {}).body =
      first.body ++ (draftNodes (nodes.drop last) first.counts).body := by
    conv_lhs => rw [← List.take_append_drop last nodes, draftNodes_append]
  have begins : (assemble automaton.size automaton.accept (draftNodes nodes {})).transitions =
      [.loop (.window 0) (first.body ++ (draftNodes (nodes.drop last) first.counts).body)] := by
    rw [assemble, body]
  exact ⟨first, _, planned.draftedThrough inside, begins⟩

/-- The plan up to a node is the plan up to the node before it and the edges of the node. -/
theorem Planned.take_succ (planned : Planned automaton nodes)
    (inside : last + 1 < automaton.size) :
    ∃ edges,
      planEdges (last + 1) ((IncomingIndex.ofAutomaton automaton).incoming (last + 1)) =
        .ok edges ∧
      nodes.take (last + 1) = nodes.take last ++ [(last + 1, edges)] := by
  have lengths : nodes.length = automaton.size - 1 := by
    have ids := congrArg List.length planned.ids
    rwa [List.length_map, innerNodes, List.length_range'] at ids
  have bound : last < nodes.length := by omega
  have id : nodes[last].1 = last + 1 := by
    have listed : last < (nodes.map Prod.fst).length := by simpa using bound
    have same := List.getElem_of_eq planned.ids listed
    rw [List.getElem_map] at same
    rw [same]
    simp [innerNodes, Nat.add_comm]
  have plans := planned.plans (List.getElem_mem bound)
  rw [id] at plans
  refine ⟨nodes[last].2, planEdges_eq_ok.2 plans, ?_⟩
  rw [List.take_add_one, List.getElem?_eq_getElem bound, ← id]
  rfl

/-- What is drafted up to a node is what is drafted up to the node before it, and then for the
node itself from the counts so far. -/
theorem draftedThrough_succ (emitted : ofAutomaton automaton = .ok (program, counts))
    (inside : last + 1 < automaton.size) :
    ∃ before alone,
      draftedThrough automaton last = .ok before ∧
      (∀ counts, draftedNode (last + 1)
        ((IncomingIndex.ofAutomaton automaton).incoming (last + 1)) counts =
          .ok ⟨(), Stmt.raiseAll counts alone.body, alone.counts + counts⟩) ∧
      draftedNode (last + 1) ((IncomingIndex.ofAutomaton automaton).incoming (last + 1)) {} =
        .ok alone ∧
      draftedThrough automaton (last + 1) =
        .ok ⟨(), before.body ++ Stmt.raiseAll before.counts alone.body,
          alone.counts + before.counts⟩ := by
  obtain ⟨nodes, planned, rfl, rfl⟩ := ofAutomaton_eq_ok.1 emitted
  obtain ⟨edges, plans, taken⟩ := planned.take_succ inside
  have drafts (counts : Counts) :
      draftedNode (last + 1) ((IncomingIndex.ofAutomaton automaton).incoming (last + 1)) counts =
        .ok (draftNode (last + 1) edges counts) := by
    rw [draftedNode, plans]
    rfl
  refine ⟨draftNodes (nodes.take last) {}, draftNode (last + 1) edges {},
    planned.draftedThrough (Nat.lt_of_succ_lt inside), ?_, drafts {}, ?_⟩
  · intro counts
    rw [drafts, draftNode_raised]
  · rw [planned.draftedThrough inside, taken, draftNodes_append, draftNodes_cons,
      draftNode_raised]
    simp [draftNodes]

/-- The counts after some nodes are the numbers of components that have been instantiated. -/
theorem counts_draftedThrough (emitted : ofAutomaton automaton = .ok (program, counts))
    (inside : last < automaton.size) {drafted : Drafted Unit}
    (through : draftedThrough automaton last = .ok drafted) (kind : Kind) :
    drafted.counts.get kind =
      (drafted.body.filterMap Stmt.instance?).countP fun component => component.kind = kind := by
  obtain ⟨nodes, planned, rfl, rfl⟩ := ofAutomaton_eq_ok.1 emitted
  rw [planned.draftedThrough inside, Except.ok.injEq] at through
  have checked : ∀ node ∈ nodes.take last, ∀ edge ∈ node.2, edge.checks ≠ [] := by
    intro node member edge edgeMember
    exact (planned.edge_fits (List.mem_of_mem_take member) edgeMember).2
  have made := (draftNodes_accounts checked {}).made.1 kind
  rw [← through, List.countP_eq_length_filter, made, List.length_map, List.length_range]

end

/-- Automata that agree on what arrives at their first nodes have circuits that begin alike, with
the same numbers.  The statements of each node are those that the edges arriving at it give from
no components, with all numbers raised by the components of the nodes before it. -/
theorem numbering_stable {left right : Automaton} {leftProgram rightProgram : Program}
    {leftCounts rightCounts : Counts}
    (leftEmitted : ofAutomaton left = .ok (leftProgram, leftCounts))
    (rightEmitted : ofAutomaton right = .ok (rightProgram, rightCounts)) :
    (∀ last, last < left.size → last < right.size →
      (∀ id, 1 ≤ id → id ≤ last →
        (IncomingIndex.ofAutomaton left).incoming id =
          (IncomingIndex.ofAutomaton right).incoming id) →
      ∃ common leftRest rightRest,
        draftedThrough left last = .ok common ∧ draftedThrough right last = .ok common ∧
        leftProgram.transitions = [.loop (.window 0) (common.body ++ leftRest)] ∧
        rightProgram.transitions = [.loop (.window 0) (common.body ++ rightRest)]) ∧
    ∀ id, 1 ≤ id → id < left.size →
      ∃ before block alone rest,
        draftedThrough left (id - 1) = .ok before ∧
        draftedNode id ((IncomingIndex.ofAutomaton left).incoming id) before.counts = .ok block ∧
        draftedNode id ((IncomingIndex.ofAutomaton left).incoming id) {} = .ok alone ∧
        draftedThrough left id = .ok ⟨(), before.body ++ block.body, block.counts⟩ ∧
        leftProgram.transitions = [.loop (.window 0) (before.body ++ block.body ++ rest)] ∧
        block.body = Stmt.raiseAll before.counts alone.body ∧
        ∀ kind, before.counts.get kind =
          (before.body.filterMap Stmt.instance?).countP fun component =>
            component.kind = kind := by
  constructor
  · intro last leftInside rightInside same
    obtain ⟨common, leftRest, drafted, leftBegins⟩ := transitions_begin leftEmitted leftInside
    obtain ⟨other, rightRest, otherDrafted, rightBegins⟩ :=
      transitions_begin rightEmitted rightInside
    have alike : draftedThrough left last = draftedThrough right last := by
      rw [draftedThrough, draftedThrough, planNodes_congr]
      intro id member
      obtain ⟨first, below⟩ := List.mem_range'_1.1 member
      exact same id first (by omega)
    rw [← alike, drafted, Except.ok.injEq] at otherDrafted
    rw [← otherDrafted] at rightBegins
    exact ⟨common, leftRest, rightRest, drafted, alike ▸ drafted, leftBegins, rightBegins⟩
  · intro id first inside
    obtain ⟨last, rfl⟩ := Nat.exists_eq_add_of_le' first
    obtain ⟨before, alone, drafted, raised, fromNone, through⟩ :=
      draftedThrough_succ leftEmitted inside
    obtain ⟨whole, rest, wholeDrafted, begins⟩ := transitions_begin leftEmitted inside
    rw [through, Except.ok.injEq] at wholeDrafted
    rw [← wholeDrafted] at begins
    exact ⟨before, _, alone, rest, drafted, raised before.counts, fromNone, through, begins, rfl,
      counts_draftedThrough leftEmitted (Nat.lt_of_succ_lt inside) drafted⟩

/-- Numerals with a suffix: the automaton has another node, and other edges to the node that
nothing leads to. -/
def suffixedNumerals : Automaton where
  nodes :=
    [⟨0, .normal, [⟨CharClass.digits.members, 1⟩]⟩,
     ⟨1, .normal, [⟨CharClass.digits.members.insert '_', 1⟩, ⟨.ofString "u", 3⟩]⟩,
     ⟨2, .normal, [⟨.ofString "é", 1⟩, ⟨.ofString "u", 2⟩]⟩,
     ⟨3, .accept, []⟩]
  accept := 3
  wellFormed :=
    { dense := rfl
      edgesFit := Automaton.edgesDefect_eq_none.1 (by decide)
      onlyAccept := rfl
      acceptNotStart := by decide }

theorem numbering_stable_numerals :
    ∃ left right leftCounts rightCounts common leftRest rightRest,
      ofAutomaton .numerals = .ok (left, leftCounts) ∧
      ofAutomaton suffixedNumerals = .ok (right, rightCounts) ∧
      draftedThrough .numerals 1 = .ok common ∧ common.body.length = 45 ∧
      left.transitions = [.loop (.window 0) (common.body ++ leftRest)] ∧
      right.transitions = [.loop (.window 0) (common.body ++ rightRest)] := by
  obtain ⟨left, leftCounts, leftEmitted⟩ := emitted_numerals
  obtain ⟨right, rightCounts, rightEmitted⟩ :
      ∃ program counts, ofAutomaton suffixedNumerals = .ok (program, counts) := ⟨_, _, rfl⟩
  have same : ∀ id, 1 ≤ id → id ≤ 1 →
      (IncomingIndex.ofAutomaton .numerals).incoming id =
        (IncomingIndex.ofAutomaton suffixedNumerals).incoming id := by
    intro id first last
    rw [Nat.le_antisymm last first]
    rfl
  obtain ⟨common, leftRest, rightRest, drafted, -, begins, otherBegins⟩ :=
    (numbering_stable leftEmitted rightEmitted).1 1 (by decide) (by decide) same
  refine ⟨left, right, leftCounts, rightCounts, common, leftRest, rightRest, leftEmitted,
    rightEmitted, drafted, ?_, begins, otherBegins⟩
  have length : (draftedThrough .numerals 1).map (fun drafted => drafted.body.length) = .ok 45 :=
    rfl
  rw [drafted] at length
  exact Except.ok.inj length

end ScanCircuit.Circuit
