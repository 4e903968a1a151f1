import Mathlib.Algebra.GroupWithZero.Nat
import ScanCircuit.Compilation
import ScanCircuit.Proofs.Circuit.Coverage
import ScanCircuit.Proofs.Circuit.Reports

/-!
# The transition of a row

Evaluating the loop body at one position sets a node in the next row exactly when some
edge leads to it from a node that is set in the current row and has the byte at that
position in its label.

Comparisons are only made between bytes, so it does not matter how a gate library
compares other numbers: a valuation satisfies the body with any library if it does with
the standard one.
-/

namespace ScanCircuit.Circuit

variable {window position : Nat} {bytes : List UInt8} {byte : UInt8} {valuation : Valuation}
variable {library : GateLibrary}

/-! ## Independence of the library -/

/-- A value that is known to be below 256. -/
def Value.FitsByte : Value → Prop
  | .const value => value < 256
  | .byte _ => True
  | .cell _ | .output _ | .add .. => False

/-- A step that comes from a plain statement. -/
def Step.Plain : Step → Prop
  | .instantiate gate template => gate.component.kind.Fits template
  | .wire gate _ value => gate.component.kind = .lt → value.FitsByte
  | .components .. | .states .. | .sums _ | .constrain .. | .fault => True

theorem Value.FitsByte.eval_lt {value : Value} (fits : value.FitsByte) {number : Nat}
    (evaluated : value.eval bytes valuation = some number) : number < 256 := by
  cases value with
  | const value =>
      cases evaluated
      exact fits
  | byte position =>
      obtain ⟨byte, -, rfl⟩ := Option.map_eq_some_iff.1 evaluated
      exact byte.toNat_lt
  | cell | output | add => exact fits.elim

theorem Expr.FitsByte.resolve {expr : Expr} (fits : expr.FitsByte) {value : Value}
    (resolved : expr.resolve window (some position) = some value) : value.FitsByte := by
  cases expr with
  | const | byte =>
      cases resolved
      exact fits
  | signal | output | add => exact fits.elim

theorem stepsAt_plain {body : List Stmt} (plain : ∀ stmt ∈ body, stmt.Plain) :
    ∀ step ∈ stepsAt window position body, step.Plain := by
  intro step member
  rcases mem_stepsAt plain member with ⟨component, template, rfl, listed⟩ |
    ⟨component, pin, expr, value, rfl, listed, resolved⟩ | ⟨target, value, rfl⟩ | rfl
  · exact plain _ listed
  · intro comparison
    exact (plain _ listed comparison).resolve resolved
  · trivial
  · trivial

/-- In a closed ledger, steps have wired all inputs of the gates that they made. -/
theorem exists_wire_of_closed {ledger : Ledger} {steps : List Step}
    (untouched : ∀ gate, ledger.Untouched gate)
    (leaves : Leaves window ledger steps Ledger.Closed) {gate : Gate} {template : Template}
    (made : .instantiate gate template ∈ steps) {pin : Pin} (member : pin ∈ template.pins) :
    ∃ value, .wire gate pin value ∈ steps := by
  have known := leaves.1.template_recordAll.2 (.inr made)
  rcases Ledger.mem_wired_recordAll.1 (leaves.2 gate template known pin member) with old | wire
  · exact ((untouched gate).2 pin old).elim
  · exact wire

section Library

variable {ledger : Ledger} {steps : List Step} (plain : ∀ step ∈ steps, step.Plain)
variable (untouched : ∀ gate, ledger.Untouched gate)
variable (leaves : Leaves window ledger steps Ledger.Closed)

include plain untouched leaves

/-- If the wires hold, they bring the inputs of every gate in the range of its template. -/
theorem inRange_of_wires {gate : Gate} {template : Template}
    (made : .instantiate gate template ∈ steps)
    (wires : ∀ pin value, .wire gate pin value ∈ steps →
      value.eval bytes valuation = some (valuation (.input gate pin))) :
    template.InRange (valuation.pins gate) := by
  cases template with
  | lessThan bits =>
      obtain ⟨comparison, exact8⟩ := Kind.fits_lessThan (plain _ made)
      have small (pin : Pin) (listed : pin ∈ (Template.lessThan bits).pins) :
          valuation (.input gate pin) < 256 := by
        obtain ⟨value, wire⟩ := exists_wire_of_closed untouched leaves made listed
        exact (plain _ wire comparison).eval_lt (wires pin value wire)
      refine ⟨exact8, small (.input 0) ?_, small (.input 1) ?_⟩
      · simp [Template.pins]
      · simp [Template.pins]
  | isEqual | and | multiOr => trivial

/-- Plain steps that wire all inputs of their gates mean the same with every library. -/
theorem satisfies_iff_standard (library : GateLibrary) (bytes : List UInt8)
    (valuation : Valuation) :
    Satisfies library bytes steps valuation ↔ Satisfies .standard bytes steps valuation := by
  -- Only gates depend on the library, and wires hold with both libraries or with none.
  have same {gate : Gate} {template : Template} (made : .instantiate gate template ∈ steps)
      (wires : ∀ pin value, .wire gate pin value ∈ steps →
        value.eval bytes valuation = some (valuation (.input gate pin))) :
      (Step.instantiate gate template).Holds library bytes valuation ↔
        (Step.instantiate gate template).Holds .standard bytes valuation :=
    library.accepts_iff (inRange_of_wires plain untouched leaves made wires)
  constructor
  · intro satisfies step member
    have holds := satisfies step member
    cases step with
    | instantiate => exact (same member fun pin value wire => satisfies _ wire).1 holds
    | wire | constrain | components | states | sums | fault => exact holds
  · intro satisfies step member
    have holds := satisfies step member
    cases step with
    | instantiate => exact (same member fun pin value wire => satisfies _ wire).2 holds
    | wire | constrain | components | states | sums | fault => exact holds

end Library

/-! ## The next row -/

/-- The next row of an automaton: a node is set exactly when the automaton moves to it, on
the byte at the position, from a node that is set. -/
theorem Planned.next_row {automaton : Automaton} {planned : List (Nat × List PlannedEdge)}
    (plan : Planned automaton planned) (here : bytes[position]? = some byte)
    (row : ∀ node < automaton.size, valuation (.cell (.state position node)) ≤ 1)
    (satisfies : Satisfies .standard bytes
      (stepsAt window position (draftNodes planned {}).body) valuation) :
    (∀ component template, .instantiate component template ∈ (draftNodes planned {}).body →
        valuation (.output ⟨component, position⟩) ≤ 1) ∧
      ∀ node, node ≠ 0 → node < automaton.size →
        Indicates (valuation (.cell (.state (position + 1) node)))
          (∃ source, valuation (.cell (.state position source)) ≠ 0 ∧
            automaton.Moves source byte node) := by
  have sources : ∀ node ∈ planned, ∀ edge ∈ node.2,
      valuation (.cell (.state position edge.source)) ≤ 1 :=
    fun node member edge edgeMember => row _ (plan.edge_fits member edgeMember).1
  obtain ⟨binary, nodes⟩ := draftNodes_indicates here planned sources {} satisfies
  refine ⟨binary, ?_⟩
  intro node notStart bound
  obtain ⟨found, member, rfl⟩ := plan.mem_ids.2 ⟨notStart, bound⟩
  have taken : (∃ edge ∈ found.2, edge.Taken valuation position byte) ↔
      ∃ source, valuation (.cell (.state position source)) ≠ 0 ∧
        automaton.Moves source byte found.1 := by
    constructor
    · rintro ⟨edge, edgeMember, set, holds⟩
      exact ⟨edge.source, set, (plan.moves member _ byte).1 ⟨edge, edgeMember, rfl, holds⟩⟩
    · rintro ⟨source, set, moves⟩
      obtain ⟨edge, edgeMember, rfl, holds⟩ := (plan.moves member source byte).2 moves
      exact ⟨edge, edgeMember, set, holds⟩
  rw [← taken]
  exact nodes found member

/-- The loop body evaluates to exactly one valuation with every library, which satisfies it
with the standard one and has the same row as before. -/
theorem Planned.evaluation {automaton : Automaton} {planned : List (Nat × List PlannedEdge)}
    (plan : Planned automaton planned) (library : GateLibrary) (inside : position < bytes.length)
    (base : Valuation) :
    let steps := stepsAt bytes.length position (draftNodes planned {}).body
    (∃! valuation, Evaluates library bytes steps base valuation) ∧
      ∀ valuation, Evaluates library bytes steps base valuation →
        Satisfies .standard bytes steps valuation ∧
          ∀ node < automaton.size,
            valuation (.cell (.state position node)) = base (.cell (.state position node)) := by
  intro steps
  obtain ⟨ledger, untouched, rowKnown, leaves⟩ := plan.scheduled inside
  have same (valuation : Valuation) :=
    satisfies_iff_standard (stepsAt_plain plan.plain) untouched leaves library bytes valuation
  have standard (valuation : Valuation) :
      Evaluates library bytes steps base valuation ↔
        Evaluates .standard bytes steps base valuation :=
    ⟨fun ⟨satisfies, kept⟩ => ⟨(same valuation).1 satisfies, kept⟩,
      fun ⟨satisfies, kept⟩ => ⟨(same valuation).2 satisfies, kept⟩⟩
  have unique := leaves.1.existsUnique (fun gate => (untouched gate).1) base
  refine ⟨(existsUnique_congr standard).2 unique, ?_⟩
  intro valuation evaluates
  obtain ⟨satisfies, kept⟩ := (standard valuation).1 evaluates
  refine ⟨satisfies, ?_⟩
  intro node bound
  apply kept
  intro assigned
  exact leaves.1.nodup_targets.2 _ (mem_targets.2 assigned) (rowKnown node bound)

/-! ## The accepting rows -/

/-- The running sum adds up the accepting node row by row. -/
theorem sum_eq {accept : Nat}
    (satisfies : Satisfies library bytes (reductionSteps accept window) valuation) {row : Nat}
    (bound : row ≤ window) :
    valuation (.cell (.sum row)) =
      ((List.range (row + 1)).map fun place => valuation (.cell (.state place accept))).sum := by
  induction row with
  | zero =>
      have first := satisfies (.constrain (.sum 0) (.cell (.state 0 accept)))
        (by simp [reductionSteps])
      simpa using (Option.some.inj first).symm
  | succ row ih =>
      have next := satisfies (.constrain (.sum (row + 1))
        (.add (.cell (.sum row)) (.cell (.state (row + 1) accept))))
        (by simpa [reductionSteps] using Nat.lt_of_succ_le bound)
      rw [List.range_succ, List.map_append, List.sum_append, ← ih (by omega)]
      simpa using (Option.some.inj next).symm

/-- The output is the sum over all rows. -/
theorem out_eq {accept : Nat}
    (satisfies : Satisfies library bytes (reductionSteps accept window) valuation) :
    valuation (.cell .out) =
      ((List.range (window + 1)).map fun row => valuation (.cell (.state row accept))).sum := by
  have last := satisfies (.constrain .out (.cell (.sum window))) (by simp [reductionSteps])
  rw [← sum_eq satisfies (Nat.le_refl window)]
  exact (Option.some.inj last).symm

end ScanCircuit.Circuit

namespace ScanCircuit

theorem Compilation.ofAutomaton_eq_ok {automaton : Automaton} {compilation : Compilation} :
    Compilation.ofAutomaton automaton = .ok compilation ↔
      Circuit.ofAutomaton automaton = .ok (compilation.program, compilation.counts) ∧
        Table.ofAutomaton automaton = .ok compilation.table := by
  obtain ⟨program, counts, table⟩ := compilation
  unfold Compilation.ofAutomaton
  cases Circuit.ofAutomaton automaton with
  | error => simp
  | ok emitted =>
      cases Table.ofAutomaton automaton with
      | error => simp
      | ok built => simp [Prod.ext_iff, and_assoc]

end ScanCircuit

namespace ScanCircuit.Circuit

/-! ## Agreement with the transition table -/

/-- Evaluating the loop body on any row and any byte gives exactly one valuation.  In it the
row is as before, all components put out zero or one, and the next row has the nodes to
which the transition table of the same compilation leads.  The node that the output counts
is the accepting node of the table. -/
theorem transition_agrees_with_table {automaton : Automaton} {compilation : Compilation}
    (compiled : Compilation.ofAutomaton automaton = .ok compilation) :
    ∃ body, compilation.program.transitions = [.loop (.window 0) body] ∧
      (∀ (library : GateLibrary) (bytes : List UInt8) (position : Nat) (byte : UInt8)
          (row : Nat → Bool) (base : Valuation), bytes[position]? = some byte →
        (∀ node < automaton.size, base (.cell (.state position node)) = (row node).toNat) →
        let steps := stepsAt bytes.length position body
        (∃! valuation, Evaluates library bytes steps base valuation) ∧
          ∀ valuation, Evaluates library bytes steps base valuation →
            (∀ node < automaton.size,
              valuation (.cell (.state position node)) = (row node).toNat) ∧
            (∀ gate template, .instantiate gate template ∈ steps →
              valuation (.output gate) = 0 ∨ valuation (.output gate) = 1) ∧
            ∀ node, node ≠ 0 → node < automaton.size →
              Indicates (valuation (.cell (.state (position + 1) node)))
                (∃ source, row source = true ∧
                  ⟨source, node, byte⟩ ∈ compilation.table.transitions)) ∧
      compilation.program.accept = reduction compilation.table.accept ∧
      ∀ (library : GateLibrary) (bytes : List UInt8) (valuation : Valuation),
        Satisfies library bytes
            (Stmt.expandAll bytes.length none compilation.program.accept) valuation →
          valuation (.cell .out) = ((List.range (bytes.length + 1)).map fun row =>
            valuation (.cell (.state row compilation.table.accept))).sum := by
  obtain ⟨emitted, built⟩ := Compilation.ofAutomaton_eq_ok.1 compiled
  obtain ⟨planned, plan, program, -⟩ := ofAutomaton_eq_ok.1 emitted
  obtain ⟨accept, transitions⟩ := Table.ofAutomaton_spec built
  rw [program, accept]
  refine ⟨(draftNodes planned {}).body, rfl, ?_, rfl, ?_⟩
  · intro library bytes position byte row base here current steps
    have inside : position < bytes.length := (List.getElem?_eq_some_iff.1 here).1
    obtain ⟨unique, kept⟩ := plan.evaluation library inside base
    refine ⟨unique, ?_⟩
    intro valuation evaluates
    obtain ⟨satisfies, same⟩ := kept valuation evaluates
    have rowKept (node : Nat) (bound : node < automaton.size) :
        valuation (.cell (.state position node)) = (row node).toNat :=
      (same node bound).trans (current node bound)
    have bits (node : Nat) (bound : node < automaton.size) :
        valuation (.cell (.state position node)) ≤ 1 := by
      rw [rowKept node bound]
      exact Bool.toNat_le (row node)
    obtain ⟨binary, nodes⟩ := plan.next_row here bits satisfies
    refine ⟨rowKept, ?_, ?_⟩
    · rintro ⟨component, place⟩ template made
      obtain ⟨rfl, listed⟩ := (instantiate_mem_stepsAt plan.plain).1 made
      have bound : valuation (.output ⟨component, place⟩) ≤ 1 := binary component template listed
      omega
    · intro node notStart bound
      have leads : (∃ source, valuation (.cell (.state position source)) ≠ 0 ∧
            automaton.Moves source byte node) ↔
          ∃ source, row source = true ∧ ⟨source, node, byte⟩ ∈ compilation.table.transitions := by
        refine exists_congr fun source => ?_
        rw [transitions]
        refine and_congr_left fun moves => ?_
        rw [rowKept source moves.source_lt]
        cases row source <;> simp
      rw [← leads]
      exact nodes node notStart bound
  · intro library bytes valuation satisfies
    have reduced : Satisfies library bytes (reductionSteps automaton.accept bytes.length)
        valuation := by
      rw [← expandAll_reduction]
      exact satisfies
    exact out_eq reduced

theorem transition_agrees_with_table_numerals :
    ∃ compilation, Compilation.ofAutomaton .numerals = .ok compilation ∧
      ∃ body, compilation.program.transitions = [.loop (.window 0) body] ∧
        ∀ base valuation : Valuation,
          (∀ node < 3, base (.cell (.state 0 node)) = (node == 2).toNat) →
          Evaluates .standard [233] (stepsAt 1 0 body) base valuation →
            Indicates (valuation (.cell (.state 1 1)))
              (∃ source, (source == 2) = true ∧
                ⟨source, 1, 233⟩ ∈ compilation.table.transitions) := by
  obtain ⟨compilation, compiled⟩ :
      ∃ compilation, Compilation.ofAutomaton .numerals = .ok compilation := ⟨_, rfl⟩
  obtain ⟨body, transitions, agrees, -⟩ := transition_agrees_with_table compiled
  refine ⟨compilation, compiled, body, transitions, ?_⟩
  intro base valuation row evaluates
  obtain ⟨-, every⟩ := agrees .standard [233] 0 233 (fun node => node == 2) base rfl row
  exact (every valuation evaluates).2.2 1 (by decide) (by decide)

end ScanCircuit.Circuit
