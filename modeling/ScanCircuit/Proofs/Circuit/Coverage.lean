import ScanCircuit.Proofs.Circuit.Inventory
import ScanCircuit.Proofs.Circuit.Planned
import ScanCircuit.Proofs.Circuit.Valuation

/-!
# Every cell is constrained once

The boundary constrains the first column and the first row of the state matrix, each
position of the window constrains the rest of the next row, and the reduction constrains
the running sum and the output.  `Ledger.Filled` says how much of the matrix is
constrained once the rows up to a given one are.

The whole program is therefore scheduled for every window, and what it leaves constrained
is exactly what it declares.
-/

namespace ScanCircuit.Circuit

variable {window nodes position row : Nat} {counts : Counts} {opened : Set Gate}
variable {ledger : Ledger}

/-- The entries of the signal arrays of a circuit with so many nodes. -/
def Cell.Inside (window nodes : Nat) : Cell → Prop
  | .state row node => row ≤ window ∧ node < nodes
  | .sum row => row ≤ window
  | .out => True

instance (cell : Cell) : Decidable (cell.Inside window nodes) :=
  match cell with
  | .state row node => inferInstanceAs (Decidable (row ≤ window ∧ node < nodes))
  | .sum row => inferInstanceAs (Decidable (row ≤ window))
  | .out => inferInstanceAs (Decidable True)

/-- The value that flows into a net. -/
def Step.value? : Step → Option Value
  | .wire _ _ value | .constrain _ value => some value
  | .components .. | .states .. | .sums _ | .instantiate .. | .fault => none

namespace Ledger

/-- Exactly the first column and the rows up to a given one are constrained. -/
def Filled (window nodes row : Nat) (ledger : Ledger) : Prop :=
  ∀ cell, cell ∈ ledger.cells ↔
    ∃ place node, cell = .state place node ∧ place ≤ window ∧ node < nodes ∧
      (node = 0 ∨ place ≤ row)

/-- Exactly the state matrix and the sums up to a given row are constrained. -/
def Summed (window nodes row : Nat) (ledger : Ledger) : Prop :=
  ∀ cell, cell ∈ ledger.cells ↔
    (∃ place node, cell = .state place node ∧ place ≤ window ∧ node < nodes) ∨
      ∃ place ≤ row, cell = .sum place

/-- All inputs of all gates are wired. -/
def Closed (ledger : Ledger) : Prop :=
  ∀ gate template, ledger.template gate = some template →
    ∀ pin ∈ template.pins, (gate, pin) ∈ ledger.wired

/-- If no gate is open, all inputs are wired. -/
theorem Tidy.allClosed (tidy : ledger.Tidy position counts ∅) : ledger.Closed :=
  fun gate template known => tidy.closed gate template known id

theorem tidy_empty : empty.Tidy 0 {} ∅ where
  fresh _ _ := ⟨rfl, fun _ wired => wired⟩
  closed _ _ known := nomatch known

/-- At the next position no component is numbered yet. -/
theorem Tidy.next (tidy : ledger.Tidy position counts opened) :
    ledger.Tidy (position + 1) {} opened := by
  refine ⟨?_, tidy.closed⟩
  intro gate ahead
  apply tidy.fresh gate
  left
  obtain later | ⟨here, -⟩ := ahead <;> omega

end Ledger

/-! ## Declarations and boundary -/

/-- Declarations do nothing. -/
theorem declarations_leave (ledger : Ledger) :
    Leaves window ledger (declarationSteps counts nodes window) fun after => after = ledger := by
  have kinds (selected : List Kind) :
      Leaves window ledger
        (selected.map fun kind => .components kind (counts.get kind) window)
        fun after => after = ledger := by
    induction selected with
    | nil => exact ⟨trivial, rfl⟩
    | cons kind rest ih => exact ⟨⟨trivial, ih.1⟩, ih.2⟩
  apply (kinds _).append
  rintro _ rfl
  exact ⟨⟨trivial, trivial⟩, rfl⟩

/-- Different cells that are not constrained yet can be constrained to a constant. -/
theorem constants_leave (window : Nat) (tidy : ledger.Tidy position counts opened) (value : Nat)
    {targets : List Cell} (nodup : targets.Nodup)
    (fresh : ∀ target ∈ targets, target ∉ ledger.cells) :
    Leaves window ledger (targets.map fun target => .constrain target (.const value))
      fun after => after.Tidy position counts opened ∧
        ∀ cell, cell ∈ after.cells ↔ cell ∈ ledger.cells ∨ cell ∈ targets := by
  induction targets generalizing ledger with
  | nil => exact ⟨trivial, tidy, by simp⟩
  | cons target rest ih =>
      rw [List.nodup_cons] at nodup
      have ready : (Value.const value).Ready window ledger := Value.ready_const value
      apply (constrain_leaves tidy (fresh target (by simp)) ready).append
      rintro middle ⟨middleTidy, cells⟩
      have restFresh : ∀ other ∈ rest, other ∉ middle.cells := by
        intro other member known
        rw [cells, Set.mem_insert_iff] at known
        rcases known with rfl | known
        · exact nodup.1 member
        · exact fresh other (by simp [member]) known
      obtain ⟨scheduled, lastTidy, lastCells⟩ := ih middleTidy nodup.2 restFresh
      refine ⟨scheduled, lastTidy, ?_⟩
      intro cell
      rw [lastCells, cells, Set.mem_insert_iff, List.mem_cons, or_assoc, or_left_comm]

/-- The boundary fills the first column and the first row. -/
theorem boundary_leaves (window : Nat) (inhabited : 0 < nodes) :
    Leaves window .empty (boundarySteps nodes window) fun after =>
      after.Tidy 0 {} ∅ ∧ after.Filled window nodes 0 := by
  let column := (List.range (window + 1)).map fun row => Cell.state row 0
  let others := (List.range' 1 (nodes - 1)).map (Cell.state 0)
  have columnNodup : column.Nodup :=
    List.nodup_range.map fun left right equal => (Cell.state.inj equal).1
  have othersNodup : others.Nodup :=
    List.Nodup.map (fun left right equal => (Cell.state.inj equal).2) List.nodup_range'
  have steps : boundarySteps nodes window =
      column.map (fun cell => .constrain cell (.const 1)) ++
        others.map fun cell => .constrain cell (.const 0) := by
    simp only [boundarySteps, column, others, List.map_map]
    rfl
  rw [steps]
  apply (constants_leave window Ledger.tidy_empty 1 columnNodup fun _ _ known => known).append
  rintro first ⟨tidy, cells⟩
  have outside : ∀ target ∈ others, target ∉ first.cells := by
    intro target member known
    obtain ⟨node, bounds, rfl⟩ := List.mem_map.1 member
    rcases (cells _).1 known with known | known
    · exact known
    · obtain ⟨row, -, equal⟩ := List.mem_map.1 known
      rw [List.mem_range'_1, ← (Cell.state.inj equal).2] at bounds
      omega
  obtain ⟨scheduled, lastTidy, lastCells⟩ := constants_leave window tidy 0 othersNodup outside
  refine ⟨scheduled, lastTidy, ?_⟩
  intro cell
  rw [lastCells, cells]
  simp only [column, others, Ledger.empty, List.mem_map, List.mem_range, List.mem_range'_1]
  constructor
  · rintro ((known | ⟨row, bound, rfl⟩) | ⟨node, bounds, rfl⟩)
    · cases known
    · exact ⟨row, 0, rfl, by omega, inhabited, .inl rfl⟩
    · exact ⟨0, node, rfl, by omega, by omega, .inr (Nat.le_refl 0)⟩
  · rintro ⟨row, node, rfl, rowBound, nodeBound, reached⟩
    by_cases first : node = 0
    · subst first
      exact .inl (.inr ⟨row, by omega, rfl⟩)
    · obtain rfl : row = 0 := by omega
      exact .inr ⟨node, by omega, rfl⟩

/-! ## The loop over the window -/

variable {automaton : Automaton} {planned : List (Nat × List PlannedEdge)}

/-- The steps at one position fill the next row. -/
theorem position_leaves (plan : Planned automaton planned) (inside : position < window)
    (tidy : ledger.Tidy position {} ∅) (filled : ledger.Filled window automaton.size position) :
    Leaves window ledger (stepsAt window position (draftNodes planned {}).body) fun after =>
      after.Tidy (position + 1) {} ∅ ∧ after.Filled window automaton.size (position + 1) := by
  have fresh : ∀ node ∈ planned, .state (position + 1) node.1 ∉ ledger.cells := by
    intro node member known
    obtain ⟨row, id, equal, -, -, reached⟩ := (filled _).1 known
    obtain ⟨rfl, rfl⟩ := Cell.state.inj equal
    have inner := plan.mem_ids.1 ⟨node, member, rfl⟩
    omega
  have sources : ∀ node ∈ planned, ∀ edge ∈ node.2,
      .state position edge.source ∈ ledger.cells := by
    intro node member edge edgeMember
    have fits := plan.edge_fits member edgeMember
    exact (filled _).2 ⟨position, edge.source, rfl, by omega, fits.1, .inr (Nat.le_refl _)⟩
  obtain ⟨scheduled, lastTidy, lastCells⟩ :=
    draftNodes_laid tidy inside planned plan.nodup fresh sources
  refine ⟨scheduled, lastTidy.next, ?_⟩
  intro cell
  rw [lastCells, filled]
  constructor
  · rintro (⟨row, node, rfl, rowBound, nodeBound, reached⟩ | ⟨node, member, rfl⟩)
    · exact ⟨row, node, rfl, rowBound, nodeBound, by omega⟩
    · have inner := plan.mem_ids.1 ⟨node, member, rfl⟩
      exact ⟨position + 1, node.1, rfl, inside, inner.2, .inr (Nat.le_refl _)⟩
  · rintro ⟨row, node, rfl, rowBound, nodeBound, reached⟩
    by_cases old : node = 0 ∨ row ≤ position
    · exact .inl ⟨row, node, rfl, rowBound, nodeBound, old⟩
    · obtain rfl : row = position + 1 := by omega
      obtain ⟨found, member, rfl⟩ := plan.mem_ids.2 (show node ≠ 0 ∧ _ by omega)
      exact .inr ⟨found, member, rfl⟩

/-- At every position of the window, the loop body is scheduled on some ledger that has the
current row and knows nothing of any gate, and leaves all gates complete. -/
theorem Planned.scheduled (plan : Planned automaton planned) (inside : position < window) :
    ∃ ledger : Ledger, (∀ gate, ledger.Untouched gate) ∧
      (∀ node < automaton.size, .state position node ∈ ledger.cells) ∧
      Leaves window ledger (stepsAt window position (draftNodes planned {}).body)
        Ledger.Closed := by
  let rows : Ledger :=
    { cells := {cell | ∃ place node, cell = .state place node ∧ place ≤ window ∧
        node < automaton.size ∧ (node = 0 ∨ place ≤ position)}
      template := fun _ => none
      wired := ∅ }
  have untouched (gate : Gate) : rows.Untouched gate := ⟨rfl, fun _ wired => wired⟩
  have tidy : rows.Tidy position {} ∅ := ⟨fun gate _ => untouched gate, nofun⟩
  obtain ⟨scheduled, lastTidy, -⟩ := position_leaves plan inside tidy fun _ => Iff.rfl
  refine ⟨rows, untouched, ?_, scheduled, lastTidy.allClosed⟩
  intro node bound
  exact ⟨position, node, rfl, Nat.le_of_lt inside, bound, .inr (Nat.le_refl _)⟩

/-- The steps at the first positions fill as many rows. -/
theorem positions_leave (plan : Planned automaton planned) (tidy : ledger.Tidy 0 {} ∅)
    (filled : ledger.Filled window automaton.size 0) {count : Nat} (bound : count ≤ window) :
    Leaves window ledger
      ((List.range count).flatMap fun position =>
        stepsAt window position (draftNodes planned {}).body)
      fun after => after.Tidy count {} ∅ ∧ after.Filled window automaton.size count := by
  induction count with
  | zero => exact ⟨trivial, tidy, filled⟩
  | succ count ih =>
      rw [List.range_succ, List.flatMap_append, List.flatMap_singleton]
      apply (ih (by omega)).append
      rintro after ⟨tidy, filled⟩
      exact position_leaves plan (by omega) tidy filled

/-! ## The reduction -/

/-- The steps that add up the accepting rows fill the running sum. -/
theorem sums_leave {accept : Nat} (known : accept < nodes)
    (tidy : ledger.Tidy position counts opened) (summed : ledger.Summed window nodes 0)
    {count : Nat} (bound : count ≤ window) :
    Leaves window ledger
      ((List.range count).map fun row =>
        .constrain (.sum (row + 1))
          (.add (.cell (.sum row)) (.cell (.state (row + 1) accept))))
      fun after => after.Tidy position counts opened ∧ after.Summed window nodes count := by
  induction count with
  | zero => exact ⟨trivial, tidy, summed⟩
  | succ count ih =>
      rw [List.range_succ, List.map_append, List.map_singleton]
      apply (ih (by omega)).append
      rintro after ⟨tidy, summed⟩
      have fresh : .sum (count + 1) ∉ after.cells := by
        rw [summed]
        rintro (⟨_, _, equal, -⟩ | ⟨row, rowBound, equal⟩)
        · cases equal
        · cases equal
          omega
      have ready : (Value.add (.cell (.sum count)) (.cell (.state (count + 1) accept))).Ready
          window after := by
        apply Value.ready_add.2
        rw [Value.ready_cell, Value.ready_cell, summed, summed]
        exact ⟨.inr ⟨count, Nat.le_refl _, rfl⟩, .inl ⟨count + 1, accept, rfl, bound, known⟩⟩
      obtain ⟨scheduled, lastTidy, lastCells⟩ := constrain_leaves tidy fresh ready
      refine ⟨scheduled, lastTidy, ?_⟩
      intro cell
      rw [lastCells, Set.mem_insert_iff, summed]
      constructor
      · rintro (rfl | known | ⟨row, rowBound, rfl⟩)
        · exact .inr ⟨count + 1, Nat.le_refl _, rfl⟩
        · exact .inl known
        · exact .inr ⟨row, by omega, rfl⟩
      · rintro (known | ⟨row, rowBound, rfl⟩)
        · exact .inr (.inl known)
        · by_cases last : row = count + 1
          · exact .inl (last ▸ rfl)
          · exact .inr (.inr ⟨row, by omega, rfl⟩)

/-- All cells of a circuit are constrained, and all inputs of its gates are wired. -/
structure Ledger.Finished (window nodes : Nat) (ledger : Ledger) : Prop where
  cells : ∀ cell, cell ∈ ledger.cells ↔ cell.Inside window nodes
  closed : ledger.Closed

/-- The reduction fills the running sum and the output. -/
theorem reduction_leaves {accept : Nat} (known : accept < nodes)
    (tidy : ledger.Tidy position counts ∅) (filled : ledger.Filled window nodes window) :
    Leaves window ledger (reductionSteps accept window) (Ledger.Finished window nodes) := by
  have unsummed (row : Nat) : .sum row ∉ ledger.cells := by
    rw [filled]
    rintro ⟨_, _, equal, -⟩
    cases equal
  have accepting : .state 0 accept ∈ ledger.cells :=
    (filled _).2 ⟨0, accept, rfl, by omega, known, .inr (by omega)⟩
  have first : Leaves window ledger
      [.sums (window + 1), .constrain (.sum 0) (.cell (.state 0 accept))] fun after =>
        after.Tidy position counts ∅ ∧ after.Summed window nodes 0 := by
    obtain ⟨scheduled, firstTidy, cells⟩ :=
      constrain_leaves tidy (unsummed 0) (Value.ready_cell.2 accepting)
    refine ⟨⟨trivial, scheduled⟩, firstTidy, ?_⟩
    intro cell
    have inserted : cell ∈ insert (.sum 0) ledger.cells ↔ cell = .sum 0 ∨ cell ∈ ledger.cells :=
      Set.mem_insert_iff
    rw [← cells, filled] at inserted
    refine inserted.trans ?_
    constructor
    · rintro (rfl | ⟨row, node, rfl, rowBound, nodeBound, -⟩)
      · exact .inr ⟨0, Nat.le_refl _, rfl⟩
      · exact .inl ⟨row, node, rfl, rowBound, nodeBound⟩
    · rintro (⟨row, node, rfl, rowBound, nodeBound⟩ | ⟨row, rowBound, rfl⟩)
      · exact .inr ⟨row, node, rfl, rowBound, nodeBound, .inr rowBound⟩
      · exact .inl (by rw [Nat.le_zero.1 rowBound])
  have sums := first.append fun after ⟨tidy, summed⟩ =>
    sums_leave known tidy summed (Nat.le_refl window)
  apply sums.append
  rintro after ⟨tidy, summed⟩
  have unset : .out ∉ after.cells := by
    rw [summed]
    rintro (⟨_, _, equal, -⟩ | ⟨_, -, equal⟩) <;> cases equal
  have last : .sum window ∈ after.cells := (summed _).2 (.inr ⟨window, Nat.le_refl _, rfl⟩)
  obtain ⟨scheduled, lastTidy, cells⟩ := constrain_leaves tidy unset (Value.ready_cell.2 last)
  refine ⟨scheduled, ?_, lastTidy.allClosed⟩
  intro cell
  rw [cells, Set.mem_insert_iff, summed]
  cases cell with
  | state row node => simp [Cell.Inside]
  | sum row => simp [Cell.Inside]
  | out => simp [Cell.Inside]

/-- The steps of a whole program constrain all its cells. -/
theorem program_leaves (plan : Planned automaton planned) (window : Nat) :
    Leaves window .empty
      ((assemble automaton.size automaton.accept (draftNodes planned {})).expand window)
      (Ledger.Finished window automaton.size) := by
  have known := automaton.accept_lt_size
  rw [expand_assemble, List.append_assoc, List.append_assoc]
  apply (declarations_leave .empty).append
  rintro _ rfl
  apply (boundary_leaves window (Nat.zero_lt_of_lt known)).append
  rintro boundary ⟨boundaryTidy, boundaryFilled⟩
  apply (positions_leave plan boundaryTidy boundaryFilled (Nat.le_refl window)).append
  rintro last ⟨tidy, filled⟩
  exact reduction_leaves known tidy filled

/-! ## Declared cells -/

theorem Planned.plain (plan : Planned automaton planned) :
    ∀ stmt ∈ (draftNodes planned {}).body, stmt.Plain := by
  have some : ∀ node ∈ planned, ∀ edge ∈ node.2, edge.checks ≠ [] :=
    fun node member edge edgeMember => (plan.edge_fits member edgeMember).2
  exact (draftNodes_accounts some {}).plain

/-- The loop over the window declares no cells. -/
theorem not_mem_transitionSteps (window : Nat) {body : List Stmt}
    (plain : ∀ stmt ∈ body, stmt.Plain) {step : Step}
    (declares : (∃ rows columns, step = .states rows columns) ∨ ∃ rows, step = .sums rows) :
    step ∉ transitionSteps window body := by
  intro member
  obtain ⟨position, -, listed⟩ := List.mem_flatMap.1 member
  have kinds := mem_stepsAt plain listed
  rcases declares with ⟨rows, columns, rfl⟩ | ⟨rows, rfl⟩
  · simp at kinds
  · simp at kinds

/-- A program declares the state matrix, the running sum and the output. -/
theorem declares_cell {accept : Nat} {drafted : Drafted Unit}
    (plain : ∀ stmt ∈ drafted.body, stmt.Plain) (cell : Cell) :
    Declares ((assemble nodes accept drafted).expand window) (.cell cell) ↔
      cell.Inside window nodes := by
  have states (rows columns : Nat) :
      .states rows columns ∈ (assemble nodes accept drafted).expand window ↔
        rows = window + 1 ∧ columns = nodes := by
    have nowhere : .states rows columns ∉ transitionSteps window drafted.body :=
      not_mem_transitionSteps window plain (.inl ⟨rows, columns, rfl⟩)
    rw [expand_assemble]
    simp [declarationSteps, boundarySteps, reductionSteps, nowhere]
  have sums (rows : Nat) :
      .sums rows ∈ (assemble nodes accept drafted).expand window ↔ rows = window + 1 := by
    have nowhere : .sums rows ∉ transitionSteps window drafted.body :=
      not_mem_transitionSteps window plain (.inr ⟨rows, rfl⟩)
    rw [expand_assemble]
    simp [declarationSteps, boundarySteps, reductionSteps, nowhere]
  cases cell with
  | state row node =>
      simp only [Declares, states, Cell.Inside]
      constructor
      · rintro ⟨_, _, ⟨rfl, rfl⟩, rowBound, nodeBound⟩
        exact ⟨Nat.le_of_lt_succ rowBound, nodeBound⟩
      · rintro ⟨rowBound, nodeBound⟩
        exact ⟨_, _, ⟨rfl, rfl⟩, Nat.lt_succ_of_le rowBound, nodeBound⟩
  | sum row =>
      simp only [Declares, sums, Cell.Inside]
      constructor
      · rintro ⟨_, rfl, rowBound⟩
        exact Nat.le_of_lt_succ rowBound
      · intro rowBound
        exact ⟨_, rfl, Nat.lt_succ_of_le rowBound⟩
  | out => exact Iff.rfl

/-! ## Single assignment -/

/-- For every window, each declared cell is constrained by exactly one step and no other
cell is, no step is a fault, and a step reads only bytes of the window and cells that an
earlier step constrains. -/
theorem cells_constrained_once {program : Program} {counts : Counts}
    (emitted : ofAutomaton automaton = .ok (program, counts)) (window : Nat) :
    let steps := program.expand window
    .fault ∉ steps ∧
      (∀ cell, (steps.filterMap Step.target?).count cell =
        if cell.Inside window automaton.size then 1 else 0) ∧
      (∀ cell, Declares steps (.cell cell) ↔ cell.Inside window automaton.size) ∧
      ∀ before step after value, steps = before ++ step :: after → step.value? = some value →
        (∀ position ∈ value.bytes, position < window) ∧
          ∀ cell ∈ value.cells, cell.Inside window automaton.size ∧
            ∃ source, .constrain cell source ∈ before := by
  intro steps
  obtain ⟨planned, plan, rfl, rfl⟩ := ofAutomaton_eq_ok.1 emitted
  obtain ⟨scheduled, finished⟩ := program_leaves plan window
  have constrained (cell : Cell) :
      (∃ value, .constrain cell value ∈ steps) ↔ cell.Inside window automaton.size := by
    rw [← finished.cells, Ledger.mem_cells_recordAll]
    exact ⟨.inr, fun known => known.resolve_left id⟩
  refine ⟨?_, ?_, declares_cell plan.plain, ?_⟩
  · intro member
    obtain ⟨before, after, split⟩ := List.append_of_mem member
    exact scheduled.ready split
  · intro cell
    rw [scheduled.nodup_targets.1.count]
    exact if_congr (mem_targets.trans (constrained cell)) rfl rfl
  · intro before step after value split flows
    have ready : value.Ready window (Ledger.empty.recordAll before) := by
      have stepReady := scheduled.ready split
      cases step with
      | wire gate pin other =>
          cases flows
          exact stepReady.2.2
      | constrain target other =>
          cases flows
          exact stepReady.2
      | components | states | sums | instantiate | fault => cases flows
    refine ⟨ready.bytes, ?_⟩
    intro cell member
    obtain ⟨source, earlier⟩ :=
      (Ledger.mem_cells_recordAll.1 (ready.cells cell member)).resolve_left id
    refine ⟨(constrained cell).1 ⟨source, ?_⟩, source, earlier⟩
    rw [split]
    exact List.mem_append_left _ earlier

theorem cells_constrained_once_numerals :
    ∃ program counts, ofAutomaton .numerals = .ok (program, counts) ∧
      ((program.expand 2).filterMap Step.target?).count (.state 2 2) = 1 ∧
      ((program.expand 2).filterMap Step.target?).count (.state 3 1) = 0 := by
  obtain ⟨program, counts, emitted⟩ := emitted_numerals
  obtain ⟨-, once, -⟩ := cells_constrained_once emitted 2
  exact ⟨program, counts, emitted, once (.state 2 2), once (.state 3 1)⟩

end ScanCircuit.Circuit
