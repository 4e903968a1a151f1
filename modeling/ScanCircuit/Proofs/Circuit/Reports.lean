import ScanCircuit.Proofs.Planning
import ScanCircuit.Proofs.Circuit.Drafting
import ScanCircuit.Proofs.Circuit.Valuation

/-!
# What drafted components put out

A valuation that satisfies the steps of a draft determines the outputs of its components.
They are zero or one, provided that the current row is, and the ones that a draft returns
report whether the byte satisfies the checks that were drafted.

`Reports` states this for a draft.  The condition of a whole node is that some edge to it
is taken: the source is set, and the byte satisfies one of the checks of the edge.
-/

namespace ScanCircuit.Circuit

variable {window position : Nat} {bytes : List UInt8} {byte : UInt8} {valuation : Valuation}

/-- A number that is one if a condition holds and zero otherwise. -/
def Indicates (number : Nat) (condition : Prop) : Prop :=
  (condition → number = 1) ∧ (¬condition → number = 0)

theorem indicates_iff {number : Nat} {condition : Prop} :
    Indicates number condition ↔ number ≤ 1 ∧ (number ≠ 0 ↔ condition) := by
  by_cases holds : condition
  · simp only [Indicates, holds, true_imp_iff, not_true_eq_false, false_imp_iff, and_true,
      iff_true]
    omega
  · simp only [Indicates, holds, not_false_eq_true, true_imp_iff, false_imp_iff, true_and,
      iff_false]
    omega

theorem indicates_ite (condition : Prop) [Decidable condition] :
    Indicates (if condition then 1 else 0) condition :=
  ⟨fun holds => if_pos holds, fun fails => if_neg fails⟩

theorem Indicates.mul {left right : Nat} {first second : Prop}
    (leftIndicates : Indicates left first) (rightIndicates : Indicates right second) :
    Indicates (left * right) (first ∧ second) := by
  constructor
  · rintro ⟨firstHolds, secondHolds⟩
    rw [leftIndicates.1 firstHolds, rightIndicates.1 secondHolds]
  · intro fails
    by_cases holds : first
    · rw [rightIndicates.2 fun other => fails ⟨holds, other⟩, Nat.mul_zero]
    · rw [leftIndicates.2 holds, Nat.zero_mul]

/-- All components of a draft put out zero or one, and one of those that it returns puts
out one exactly when a condition holds. -/
structure Reports (valuation : Valuation) (position : Nat) (body : List Stmt)
    (components : List Component) (condition : Prop) : Prop where
  binary : ∀ component template, .instantiate component template ∈ body →
    valuation (.output ⟨component, position⟩) ≤ 1
  returned : ∀ component ∈ components, valuation (.output ⟨component, position⟩) ≤ 1
  set_iff : (∃ component ∈ components, valuation (.output ⟨component, position⟩) ≠ 0) ↔ condition

namespace Reports

variable {body rest : List Stmt} {component : Component} {components : List Component}
variable {condition other : Prop}

/-- A component that is returned alone reports the condition that it indicates. -/
theorem single (output : Indicates (valuation (.output ⟨component, position⟩)) condition)
    (binary : ∀ component template, .instantiate component template ∈ body →
      valuation (.output ⟨component, position⟩) ≤ 1) :
    Reports valuation position body [component] condition := by
  rw [indicates_iff] at output
  exact ⟨binary, by simpa using output.1, by simpa using output.2⟩

theorem indicates (reports : Reports valuation position body [component] condition) :
    Indicates (valuation (.output ⟨component, position⟩)) condition := by
  refine indicates_iff.2 ⟨reports.returned component (by simp), ?_⟩
  simpa using reports.set_iff

/-- Drafts in a row report that one of their conditions holds. -/
theorem cons (first : Reports valuation position body [component] condition)
    (second : Reports valuation position rest components other) :
    Reports valuation position (body ++ rest) (component :: components) (condition ∨ other) where
  binary made template member := by
    rcases List.mem_append.1 member with member | member
    · exact first.binary made template member
    · exact second.binary made template member
  returned returned member := by
    rcases List.mem_cons.1 member with rfl | member
    · exact first.returned returned (by simp)
    · exact second.returned returned member
  set_iff := by
    rw [List.exists_mem_cons_iff, ← first.set_iff, ← second.set_iff]
    simp

end Reports

theorem draftEqual_reports (here : bytes[position]? = some byte) (code : UInt8) (counts : Counts)
    (satisfies : Satisfies .standard bytes
      (stepsAt window position (draftEqual code counts).body) valuation) :
    let drafted := draftEqual code counts
    Reports valuation position drafted.body [drafted.result] (byte = code) := by
  rw [draftEqual_eq] at satisfies ⊢
  generalize (⟨.eq, counts.get .eq⟩ : Component) = equal at satisfies ⊢
  simp only [stepsAt_comment, stepsAt_instantiate, stepsAt_wire, stepsAt_nil, satisfies_cons,
    satisfies_nil, Expr.resolve_byte, Expr.resolve_const, Option.map_some, Option.getD_some,
    Step.Holds, GateLibrary.standard_accepts, Value.eval, here, Option.some.injEq] at satisfies
  obtain ⟨output, first, second, -⟩ := satisfies
  have indicates : Indicates (valuation (.output ⟨equal, position⟩)) (byte = code) := by
    rw [output, Template.output, Valuation.pins, ← first, Valuation.pins, ← second]
    simp only [UInt8.toNat_inj]
    exact indicates_ite _
  refine .single indicates ?_
  intro component template member
  obtain ⟨rfl, -⟩ : component = equal ∧ template = .isEqual := by simpa using member
  exact (indicates_iff.1 indicates).1

theorem draftRange_reports (here : bytes[position]? = some byte) (charClass : CharClass)
    (counts : Counts)
    (satisfies : Satisfies .standard bytes
      (stepsAt window position (draftRange charClass counts).body) valuation) :
    let drafted := draftRange charClass counts
    Reports valuation position drafted.body [drafted.result]
      ((Check.range charClass).Holds byte) := by
  rw [draftRange_eq] at satisfies ⊢
  generalize (⟨.lt, counts.get .lt⟩ : Component) = above at satisfies ⊢
  generalize (⟨.lt, (counts.bump .lt).get .lt⟩ : Component) = below at satisfies ⊢
  generalize (⟨.and, counts.get .and⟩ : Component) = both at satisfies ⊢
  simp only [stepsAt_comment, stepsAt_instantiate, stepsAt_wire, stepsAt_nil, satisfies_cons,
    satisfies_nil, Expr.resolve_byte, Expr.resolve_const, Expr.resolve_output, Option.map_some,
    Option.getD_some, Step.Holds, GateLibrary.standard_accepts, Value.eval, here,
    Option.some.injEq] at satisfies
  obtain ⟨aboveOutput, aboveFirst, aboveSecond, belowOutput, belowFirst, belowSecond,
    output, first, second, -⟩ := satisfies
  have aboveIndicates :
      Indicates (valuation (.output ⟨above, position⟩)) (charClass.lower < byte.toNat) := by
    rw [aboveOutput, Template.output, Valuation.pins, ← aboveFirst, Valuation.pins, ← aboveSecond]
    exact indicates_ite _
  have belowIndicates :
      Indicates (valuation (.output ⟨below, position⟩)) (byte.toNat < charClass.upper) := by
    rw [belowOutput, Template.output, Valuation.pins, ← belowFirst, Valuation.pins, ← belowSecond]
    exact indicates_ite _
  have indicates : Indicates (valuation (.output ⟨both, position⟩))
      ((Check.range charClass).Holds byte) := by
    rw [output, Template.output, Valuation.pins, ← first, Valuation.pins, ← second]
    exact aboveIndicates.mul belowIndicates
  refine .single indicates ?_
  intro component template member
  obtain ⟨rfl, -⟩ | ⟨rfl, -⟩ | ⟨rfl, -⟩ :
      component = above ∧ template = .lessThan 8 ∨ component = below ∧ template = .lessThan 8 ∨
        component = both ∧ template = .and := by simpa using member
  · exact (indicates_iff.1 aboveIndicates).1
  · exact (indicates_iff.1 belowIndicates).1
  · exact (indicates_iff.1 indicates).1

theorem draftCheck_reports (here : bytes[position]? = some byte) (check : Check)
    (counts : Counts)
    (satisfies : Satisfies .standard bytes
      (stepsAt window position (draftCheck check counts).body) valuation) :
    let drafted := draftCheck check counts
    Reports valuation position drafted.body [drafted.result] (check.Holds byte) := by
  cases check with
  | range charClass => exact draftRange_reports here charClass counts satisfies
  | equal code => exact draftEqual_reports here code counts satisfies

theorem draftChecks_reports (here : bytes[position]? = some byte) (checks : List Check)
    (counts : Counts)
    (satisfies : Satisfies .standard bytes
      (stepsAt window position (draftChecks checks counts).body) valuation) :
    let drafted := draftChecks checks counts
    Reports valuation position drafted.body drafted.result
      (∃ check ∈ checks, check.Holds byte) := by
  induction checks generalizing counts with
  | nil => exact ⟨nofun, nofun, by simp [draftChecks]⟩
  | cons check rest ih =>
      rw [draftChecks_cons] at satisfies ⊢
      rw [stepsAt_append, satisfies_append] at satisfies
      rw [List.exists_mem_cons_iff]
      exact (draftCheck_reports here check counts satisfies.1).cons (ih _ satisfies.2)

/-- A component that joins others reports what they report. -/
theorem draftAny_reports {terms : List Component} {earlier : List Stmt} {condition : Prop}
    (reports : Reports valuation position earlier terms condition) (counts : Counts)
    (satisfies : Satisfies .standard bytes
      (stepsAt window position (draftAny terms counts).body) valuation) :
    let drafted := draftAny terms counts
    ∃ component, drafted.result = .output component ∧
      Reports valuation position drafted.body [component] condition := by
  by_cases single : terms.length = 1
  · obtain ⟨term, rfl⟩ := List.length_eq_one_iff.1 single
    exact ⟨term, rfl, nofun, reports.returned, reports.set_iff⟩
  · rw [draftAny_eq terms single] at satisfies ⊢
    generalize (⟨.multiOr, counts.multiOr⟩ : Component) = any at satisfies ⊢
    refine ⟨any, rfl, ?_⟩
    rw [stepsAt_instantiate, satisfies_cons] at satisfies
    obtain ⟨output, wires⟩ := satisfies
    have inputs : ∀ term ∈ terms.zipIdx, valuation (.output ⟨term.1, position⟩) =
        valuation (.input ⟨any, position⟩ (.input term.2)) := by
      intro term member
      have listed : .wire ⟨any, position⟩ (.input term.2) (.output ⟨term.1, position⟩) ∈
          stepsAt window position (terms.zipIdx.map fun term =>
            .wire any (.input term.2) (.output term.1)) := by
        rw [stepsAt, Stmt.expandAll_eq_flatMap, List.mem_flatMap]
        exact ⟨_, List.mem_map_of_mem member, List.mem_singleton.2 rfl⟩
      exact Option.some.inj (wires _ listed)
    have set_iff :
        (∃ index < terms.length, valuation (.input ⟨any, position⟩ (.input index)) ≠ 0) ↔
          condition := by
      rw [← reports.set_iff]
      constructor
      · rintro ⟨index, bound, set⟩
        have listed : (terms[index], index) ∈ terms.zipIdx :=
          List.mk_mem_zipIdx_iff_getElem?.2 (List.getElem?_eq_getElem bound)
        refine ⟨terms[index], List.getElem_mem bound, ?_⟩
        rw [inputs _ listed]
        exact set
      · rintro ⟨term, member, set⟩
        obtain ⟨index, bound, rfl⟩ := List.getElem_of_mem member
        have listed : (terms[index], index) ∈ terms.zipIdx :=
          List.mk_mem_zipIdx_iff_getElem?.2 (List.getElem?_eq_getElem bound)
        refine ⟨index, bound, ?_⟩
        rw [← inputs _ listed]
        exact set
    have indicates : Indicates (valuation (.output ⟨any, position⟩)) condition := by
      rw [← set_iff, show valuation (.output ⟨any, position⟩) = _ from output]
      exact indicates_ite _
    refine .single indicates ?_
    intro component template member
    obtain ⟨rfl, -⟩ : component = any ∧ template = .multiOr terms.length := by
      simpa using member
    exact (indicates_iff.1 indicates).1

/-- The source of an edge is set in the current row, and the byte satisfies a check. -/
def PlannedEdge.Taken (valuation : Valuation) (position : Nat) (byte : UInt8)
    (edge : PlannedEdge) : Prop :=
  valuation (.cell (.state position edge.source)) ≠ 0 ∧ ∃ check ∈ edge.checks, check.Holds byte

theorem draftEdge_reports (here : bytes[position]? = some byte) (edge : PlannedEdge)
    (source : valuation (.cell (.state position edge.source)) ≤ 1) (counts : Counts)
    (satisfies : Satisfies .standard bytes
      (stepsAt window position (draftEdge edge counts).body) valuation) :
    let drafted := draftEdge edge counts
    Reports valuation position drafted.body [drafted.result]
      (edge.Taken valuation position byte) := by
  rw [draftEdge_eq] at satisfies ⊢
  generalize checkedEq : draftChecks edge.checks counts = checked at satisfies ⊢
  simp only [stepsAt_append, satisfies_append] at satisfies
  obtain ⟨checks, opening, any, closing⟩ := satisfies
  have checksReport : Reports valuation position checked.body checked.result
      (∃ check ∈ edge.checks, check.Holds byte) := by
    subst checkedEq
    exact draftChecks_reports here edge.checks counts checks
  obtain ⟨condition, equal, anyReport⟩ := draftAny_reports checksReport _ any
  simp only [equal] at closing ⊢
  generalize (⟨.and, checked.counts.and⟩ : Component) = gate at opening closing ⊢
  simp only [stepsAt_instantiate, stepsAt_wire, stepsAt_nil, satisfies_cons, satisfies_nil,
    Expr.resolve_current, Expr.resolve_output, Option.map_some, Option.getD_some, Step.Holds,
    GateLibrary.standard_accepts, Value.eval, Option.some.injEq, and_true] at opening closing
  have indicates : Indicates (valuation (.output ⟨gate, position⟩))
      (edge.Taken valuation position byte) := by
    rw [opening.1, Template.output, Valuation.pins, ← opening.2, Valuation.pins, ← closing]
    exact (indicates_iff.2 ⟨source, Iff.rfl⟩).mul anyReport.indicates
  refine .single indicates ?_
  intro component template member
  simp only [List.mem_append, List.mem_cons, List.not_mem_nil, Stmt.instantiate.injEq,
    reduceCtorEq, or_false] at member
  rcases member with member | ⟨rfl, -⟩ | member
  · exact checksReport.binary component template member
  · exact (indicates_iff.1 indicates).1
  · exact anyReport.binary component template member

theorem draftEdges_reports (here : bytes[position]? = some byte) (edges : List PlannedEdge)
    (sources : ∀ edge ∈ edges, valuation (.cell (.state position edge.source)) ≤ 1)
    (counts : Counts)
    (satisfies : Satisfies .standard bytes
      (stepsAt window position (draftEdges edges counts).body) valuation) :
    let drafted := draftEdges edges counts
    Reports valuation position drafted.body drafted.result
      (∃ edge ∈ edges, edge.Taken valuation position byte) := by
  induction edges generalizing counts with
  | nil => exact ⟨nofun, nofun, by simp [draftEdges]⟩
  | cons edge rest ih =>
      rw [draftEdges_cons] at satisfies ⊢
      rw [stepsAt_append, satisfies_append] at satisfies
      rw [List.exists_mem_cons_iff]
      have restSources : ∀ other ∈ rest,
          valuation (.cell (.state position other.source)) ≤ 1 :=
        fun other member => sources other (by simp [member])
      exact (draftEdge_reports here edge (sources edge (by simp)) counts satisfies.1).cons
        (ih restSources _ satisfies.2)

/-- A node is set in the next row exactly when an edge that leads to it is taken. -/
theorem draftNode_indicates (here : bytes[position]? = some byte) (node : Nat)
    (edges : List PlannedEdge)
    (sources : ∀ edge ∈ edges, valuation (.cell (.state position edge.source)) ≤ 1)
    (counts : Counts)
    (satisfies : Satisfies .standard bytes
      (stepsAt window position (draftNode node edges counts).body) valuation) :
    (∀ component template, .instantiate component template ∈ (draftNode node edges counts).body →
        valuation (.output ⟨component, position⟩) ≤ 1) ∧
      Indicates (valuation (.cell (.state (position + 1) node)))
        (∃ edge ∈ edges, edge.Taken valuation position byte) := by
  cases edges with
  | nil =>
      have zero : 0 = valuation (.cell (.state (position + 1) node)) := by
        simpa [draftNode, Draft.constrain, Draft.write, Step.Holds, Value.eval] using satisfies
      refine ⟨by simp [draftNode, Draft.constrain, Draft.write], ?_⟩
      rw [← zero]
      exact ⟨by simp, fun _ => rfl⟩
  | cons edge rest =>
      rw [draftNode_cons] at satisfies ⊢
      simp only [stepsAt_append, satisfies_append] at satisfies
      obtain ⟨edges, any, target⟩ := satisfies
      have edgesReport := draftEdges_reports here (edge :: rest) sources counts edges
      obtain ⟨active, equal, anyReport⟩ := draftAny_reports edgesReport _ any
      simp only [equal, stepsAt_next, stepsAt_nil, satisfies_cons, satisfies_nil,
        Expr.resolve_output, Option.map_some, Option.getD_some, Step.Holds, Value.eval,
        Option.some.injEq, and_true] at target
      rw [← target]
      refine ⟨?_, anyReport.indicates⟩
      intro component template member
      simp only [List.mem_append, List.mem_singleton, reduceCtorEq, or_false] at member
      rcases member with member | member
      · exact edgesReport.binary component template member
      · exact anyReport.binary component template member

/-- All components put out zero or one, and every drafted node is set in the next row
exactly when an edge that leads to it is taken. -/
theorem draftNodes_indicates (here : bytes[position]? = some byte)
    (nodes : List (Nat × List PlannedEdge))
    (sources : ∀ node ∈ nodes, ∀ edge ∈ node.2,
      valuation (.cell (.state position edge.source)) ≤ 1)
    (counts : Counts)
    (satisfies : Satisfies .standard bytes
      (stepsAt window position (draftNodes nodes counts).body) valuation) :
    (∀ component template, .instantiate component template ∈ (draftNodes nodes counts).body →
        valuation (.output ⟨component, position⟩) ≤ 1) ∧
      ∀ node ∈ nodes, Indicates (valuation (.cell (.state (position + 1) node.1)))
        (∃ edge ∈ node.2, edge.Taken valuation position byte) := by
  induction nodes generalizing counts with
  | nil => exact ⟨nofun, nofun⟩
  | cons node rest ih =>
      have split : (draftNodes (node :: rest) counts).body =
          (draftNode node.1 node.2 counts).body ++
            (draftNodes rest (draftNode node.1 node.2 counts).counts).body := rfl
      rw [split] at satisfies ⊢
      rw [stepsAt_append, satisfies_append] at satisfies
      obtain ⟨firstBinary, first⟩ := draftNode_indicates here node.1 node.2
        (sources node (by simp)) counts satisfies.1
      obtain ⟨restBinary, others⟩ := ih (fun other member => sources other (by simp [member])) _
        satisfies.2
      constructor
      · intro component template member
        rcases List.mem_append.1 member with member | member
        · exact firstBinary component template member
        · exact restBinary component template member
      · intro other member
        rcases List.mem_cons.1 member with rfl | member
        · exact first
        · exact others other member

end ScanCircuit.Circuit
