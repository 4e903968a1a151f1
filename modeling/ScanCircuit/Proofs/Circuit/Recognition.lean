import Mathlib.Data.List.Infix
import ScanCircuit.Proofs.Circuit.Transition

/-!
# What an emitted circuit recognises

Read as a constraint system, the circuit of an automaton has exactly one solution for
every window.  Row by row, a node other than the start is set in it exactly when some
path from the start to the node spells the bytes right before the row, and the output
counts the rows in which the accepting node is set.
-/

namespace ScanCircuit

/-! ## Paths that end at a row -/

/-- Some path from the start to a node spells at least one of the bytes right before a
row. -/
def Automaton.EndsAt (automaton : Automaton) (bytes : List UInt8) (row node : Nat) : Prop :=
  ∃ start < row, automaton.Path 0 ((bytes.take row).drop start) node

namespace Automaton

variable {automaton : Automaton} {bytes : List UInt8} {byte : UInt8} {row node : Nat}

/-- A path that ends at the next row is one more movement, from the start or from where a
path ends at this row. -/
theorem endsAt_succ (here : bytes[row]? = some byte) :
    automaton.EndsAt bytes (row + 1) node ↔
      ∃ source, (source = 0 ∨ automaton.EndsAt bytes row source) ∧
        automaton.Moves source byte node := by
  have bound : row < bytes.length := (List.getElem?_eq_some_iff.1 here).1
  have extend (start : Nat) (early : start ≤ row) :
      (bytes.take (row + 1)).drop start = (bytes.take row).drop start ++ [byte] := by
    rw [List.take_add_one, here, List.drop_append_of_le_length]
    · rfl
    · rw [List.length_take]
      omega
  constructor
  · rintro ⟨start, early, path⟩
    rw [extend start (by omega), path_concat] at path
    obtain ⟨source, path, moves⟩ := path
    refine ⟨source, ?_, moves⟩
    by_cases last : start = row
    · left
      have empty : (bytes.take row).drop start = [] := by
        rw [List.drop_eq_nil_iff, List.length_take]
        omega
      rw [empty] at path
      cases path
      rfl
    · exact .inr ⟨start, by omega, path⟩
  · rintro ⟨source, rfl | ⟨start, early, path⟩, moves⟩
    · refine ⟨row, Nat.lt_succ_self row, ?_⟩
      have empty : (bytes.take row).drop row = [] := by
        rw [List.drop_eq_nil_iff, List.length_take]
        omega
      rw [extend row (Nat.le_refl row), empty]
      exact path_concat.2 ⟨0, .nil 0, moves⟩
    · refine ⟨start, by omega, ?_⟩
      rw [extend start (by omega)]
      exact path_concat.2 ⟨source, path, moves⟩

/-- A path to another node than the start spells a factor of the bytes exactly when it ends
at some row. -/
theorem exists_endsAt_iff (notStart : node ≠ 0) :
    (∃ row ≤ bytes.length, automaton.EndsAt bytes row node) ↔
      ∃ word, word <:+: bytes ∧ automaton.Path 0 word node := by
  constructor
  · rintro ⟨row, -, start, -, path⟩
    have inside := (List.drop_suffix start (bytes.take row)).isInfix
    exact ⟨_, inside.trans (List.take_prefix row bytes).isInfix, path⟩
  · rintro ⟨word, ⟨front, back, rfl⟩, path⟩
    have some := List.length_pos_iff.2 (path.ne_nil notStart.symm)
    refine ⟨front.length + word.length, by simp, front.length, by omega, ?_⟩
    have taken : (front ++ word ++ back).take (front.length + word.length) = front ++ word := by
      rw [← List.length_append, List.take_left]
    rw [taken, List.drop_left]
    exact path

end Automaton

namespace Circuit

variable {automaton : Automaton} {planned : List (Nat × List PlannedEdge)}
variable {window : Nat} {bytes : List UInt8} {valuation : Valuation}

/-! ## Exactly one solution -/

theorem Ledger.untouched_empty (gate : Gate) : Ledger.empty.Untouched gate :=
  ⟨rfl, fun _ wired => wired⟩

namespace Planned

variable (plan : Planned automaton planned) (window : Nat)

include plan

theorem expand_plain :
    ∀ step ∈ (assemble automaton.size automaton.accept (draftNodes planned {})).expand window,
      step.Plain := by
  intro step member
  rw [expand_assemble, List.mem_append, List.mem_append, List.mem_append] at member
  rcases member with ((declared | fixed) | moved) | reduced
  · simp only [declarationSteps, List.mem_append, List.mem_map, List.mem_singleton] at declared
    rcases declared with ⟨kind, -, rfl⟩ | rfl <;> trivial
  · simp only [boundarySteps, List.mem_append, List.mem_map] at fixed
    rcases fixed with ⟨row, -, rfl⟩ | ⟨node, -, rfl⟩ <;> trivial
  · obtain ⟨position, -, listed⟩ := List.mem_flatMap.1 moved
    exact stepsAt_plain plan.plain step listed
  · simp only [reductionSteps, List.mem_append, List.mem_cons, List.not_mem_nil, or_false,
      List.mem_map] at reduced
    rcases reduced with ((rfl | rfl) | ⟨row, -, rfl⟩) | rfl <;> trivial

/-- The nets that a program declares are those that it has equations for. -/
theorem declares_iff_assigns (net : Net) :
    let steps := (assemble automaton.size automaton.accept (draftNodes planned {})).expand window
    Declares steps net ↔ Assigns steps net := by
  obtain ⟨scheduled, finished⟩ := program_leaves plan window
  have leaves := And.intro scheduled finished.closed
  cases net with
  | cell cell =>
      refine (declares_cell plan.plain cell).trans ?_
      rw [← finished.cells, Ledger.mem_cells_recordAll]
      exact ⟨fun known => known.resolve_left id, .inr⟩
  | input gate pin =>
      constructor
      · rintro ⟨template, made, member⟩
        exact exists_wire_of_closed Ledger.untouched_empty leaves made member
      · rintro ⟨value, member⟩
        obtain ⟨before, after, split⟩ := List.append_of_mem member
        obtain ⟨⟨template, known, inside⟩, -⟩ := scheduled.ready split
        rw [split, scheduled_append] at scheduled
        have made := (scheduled.1.template_recordAll.1 known).resolve_left nofun
        refine ⟨template, ?_, inside⟩
        rw [split]
        exact List.mem_append_left _ made
  | output gate => exact Iff.rfl

omit window in
/-- With every library, the solutions are the evaluations on a valuation of zeros. -/
theorem solution_iff (library : GateLibrary) (bytes : List UInt8) (valuation : Valuation) :
    let program := assemble automaton.size automaton.accept (draftNodes planned {})
    program.Solution library bytes valuation ↔
      Evaluates .standard bytes (program.expand bytes.length) (fun _ => 0) valuation := by
  intro program
  obtain ⟨scheduled, finished⟩ := program_leaves plan bytes.length
  have same := satisfies_iff_standard (plan.expand_plain bytes.length) Ledger.untouched_empty
    ⟨scheduled, finished.closed⟩ library bytes valuation
  have nets := plan.declares_iff_assigns bytes.length
  constructor
  · rintro ⟨satisfies, confined⟩
    exact ⟨same.1 satisfies, fun net unassigned =>
      confined net fun declared => unassigned ((nets net).1 declared)⟩
  · rintro ⟨satisfies, kept⟩
    exact ⟨same.2 satisfies, fun net undeclared =>
      kept net fun assigned => undeclared ((nets net).2 assigned)⟩

end Planned

/-! ## The rows of a solution -/

/-- The boundary sets the start in every row, and nothing else in the first. -/
theorem boundary_values {nodes : Nat}
    (satisfies : Satisfies .standard bytes (boundarySteps nodes window) valuation) :
    (∀ row ≤ window, valuation (.cell (.state row 0)) = 1) ∧
      ∀ node, node ≠ 0 → node < nodes → valuation (.cell (.state 0 node)) = 0 := by
  constructor
  · intro row bound
    have listed : .constrain (.state row 0) (.const 1) ∈ boundarySteps nodes window := by
      simpa [boundarySteps] using Nat.lt_succ_of_le bound
    exact (Option.some.inj (satisfies _ listed)).symm
  · intro node notStart bound
    have listed : .constrain (.state 0 node) (.const 0) ∈ boundarySteps nodes window := by
      simp only [boundarySteps, List.mem_append, List.mem_map, List.mem_range'_1]
      exact .inr ⟨node, by omega, rfl⟩
    exact (Option.some.inj (satisfies _ listed)).symm

/-- In every row, a node is set if it is the start or a path ends there. -/
theorem row_indicates (plan : Planned automaton planned)
    (start : ∀ row ≤ bytes.length, valuation (.cell (.state row 0)) = 1)
    (first : ∀ node, node ≠ 0 → node < automaton.size → valuation (.cell (.state 0 node)) = 0)
    (satisfies : Satisfies .standard bytes
      (transitionSteps bytes.length (draftNodes planned {}).body) valuation)
    {row : Nat} (bound : row ≤ bytes.length) {node : Nat} (inside : node < automaton.size) :
    Indicates (valuation (.cell (.state row node)))
      (node = 0 ∨ automaton.EndsAt bytes row node) := by
  -- By induction on the row: the next row is given by the nodes that are set in this one.
  induction row generalizing node with
  | zero =>
      by_cases isStart : node = 0
      · subst isStart
        exact ⟨fun _ => start 0 bound, fun neither => absurd (.inl rfl) neither⟩
      · refine ⟨?_, fun _ => first node isStart inside⟩
        rintro (equal | ⟨_, impossible, -⟩)
        · exact absurd equal isStart
        · exact absurd impossible (Nat.not_lt_zero _)
  | succ row ih =>
      by_cases isStart : node = 0
      · subst isStart
        exact ⟨fun _ => start _ bound, fun neither => absurd (.inl rfl) neither⟩
      · have earlier : row ≤ bytes.length := by omega
        have here : bytes[row]? = some bytes[row] := List.getElem?_eq_getElem bound
        have steps : Satisfies .standard bytes
            (stepsAt bytes.length row (draftNodes planned {}).body) valuation := by
          intro step member
          exact satisfies step (List.mem_flatMap.2 ⟨row, List.mem_range.2 bound, member⟩)
        have bits : ∀ other < automaton.size, valuation (.cell (.state row other)) ≤ 1 :=
          fun other known => (indicates_iff.1 (ih earlier known)).1
        have next := (plan.next_row here bits steps).2 node isStart inside
        have reached : (∃ source, valuation (.cell (.state row source)) ≠ 0 ∧
            automaton.Moves source bytes[row] node) ↔
              node = 0 ∨ automaton.EndsAt bytes (row + 1) node := by
          rw [or_iff_right isStart, Automaton.endsAt_succ here]
          refine exists_congr fun source => and_congr_left fun moves => ?_
          exact (indicates_iff.1 (ih earlier moves.source_lt)).2
        rw [← reached]
        exact next

/-- Numbers that are zero or one add up to how many of them are one. -/
theorem sum_eq_length_filter (number : Nat → Nat) (rows : List Nat)
    (bits : ∀ row ∈ rows, number row ≤ 1) :
    (rows.map number).sum = (rows.filter fun row => number row = 1).length := by
  induction rows with
  | nil => rfl
  | cons row rest ih =>
      have bit := bits row (by simp)
      rw [List.map_cons, List.sum_cons, ih fun other member => bits other (by simp [member])]
      by_cases set : number row = 1
      · rw [List.filter_cons_of_pos (by simpa using set), List.length_cons, set, Nat.add_comm]
      · rw [List.filter_cons_of_neg (by simpa using set)]
        omega

/-! ## Recognition -/

/-- The circuit of an automaton has exactly one solution for every window.  In it the start
is set in every row, another node is set exactly when a path from the start to it spells
the bytes right before the row, and the output counts the rows in which the accepting node
is set; it is not zero exactly when a factor of the window spells a path from the start to
the accepting node. -/
theorem solution_recognises {program : Program} {counts : Counts}
    (emitted : ofAutomaton automaton = .ok (program, counts)) (library : GateLibrary)
    (bytes : List UInt8) :
    (∃! valuation, program.Solution library bytes valuation) ∧
      ∀ valuation, program.Solution library bytes valuation →
        (∀ row ≤ bytes.length, valuation (.cell (.state row 0)) = 1) ∧
        (∀ row ≤ bytes.length, ∀ node, node ≠ 0 → node < automaton.size →
          Indicates (valuation (.cell (.state row node)))
            (∃ start < row, automaton.Path 0 ((bytes.take row).drop start) node)) ∧
        valuation (.cell .out) = ((List.range (bytes.length + 1)).filter fun row =>
          valuation (.cell (.state row automaton.accept)) = 1).length ∧
        (valuation (.cell .out) ≠ 0 ↔
          ∃ word, word <:+: bytes ∧ automaton.Path 0 word automaton.accept) := by
  obtain ⟨planned, plan, rfl, rfl⟩ := ofAutomaton_eq_ok.1 emitted
  obtain ⟨scheduled, -⟩ := program_leaves plan bytes.length
  have solutions := plan.solution_iff library bytes
  refine ⟨(existsUnique_congr solutions).2 (scheduled.existsUnique (fun _ => rfl) _), ?_⟩
  intro valuation solution
  have satisfies := ((solutions valuation).1 solution).satisfies
  rw [expand_assemble, satisfies_append, satisfies_append, satisfies_append] at satisfies
  obtain ⟨⟨⟨-, fixed⟩, moved⟩, reduced⟩ := satisfies
  obtain ⟨start, first⟩ := boundary_values fixed
  have known := automaton.accept_lt_size
  have notStart := automaton.wellFormed.acceptNotStart
  have rows {row : Nat} (bound : row ≤ bytes.length) {node : Nat} (isInner : node ≠ 0)
      (inside : node < automaton.size) :
      Indicates (valuation (.cell (.state row node))) (automaton.EndsAt bytes row node) := by
    have indicates := row_indicates plan start first moved bound inside
    rwa [or_iff_right isInner] at indicates
  have total := out_eq reduced
  refine ⟨start, fun row bound node isInner inside => rows bound isInner inside, ?_, ?_⟩
  · rw [total]
    apply sum_eq_length_filter
    intro row member
    have bound : row ≤ bytes.length := Nat.le_of_lt_succ (List.mem_range.1 member)
    exact (indicates_iff.1 (rows bound notStart known)).1
  · rw [← Automaton.exists_endsAt_iff notStart, total, Ne, List.sum_eq_zero_iff_forall_eq_nat]
    constructor
    · intro some
      obtain ⟨row, bound, set⟩ : ∃ row < bytes.length + 1,
          valuation (.cell (.state row automaton.accept)) ≠ 0 := by
        simpa using some
      have inside := Nat.le_of_lt_succ bound
      exact ⟨row, inside, (indicates_iff.1 (rows inside notStart known)).2.1 set⟩
    · rintro ⟨row, inside, ends⟩ none
      have zero := none _ (List.mem_map_of_mem (List.mem_range.2 (Nat.lt_succ_of_le inside)))
      exact (indicates_iff.1 (rows inside notStart known)).2.2 ends zero

theorem solution_recognises_numerals :
    ∃ program counts, ofAutomaton .numerals = .ok (program, counts) ∧
      (∃! valuation, program.Solution .standard [97, 52, 95, 50] valuation) ∧
      ∀ valuation, program.Solution .standard [97, 52, 95, 50] valuation →
        (valuation (.cell .out) ≠ 0 ↔
          ∃ word, word <:+: [97, 52, 95, 50] ∧ Automaton.numerals.Path 0 word 1) := by
  obtain ⟨program, counts, emitted⟩ := emitted_numerals
  obtain ⟨unique, every⟩ := solution_recognises emitted .standard [97, 52, 95, 50]
  exact ⟨program, counts, emitted, unique, fun valuation solution =>
    (every valuation solution).2.2.2⟩

end Circuit

end ScanCircuit
