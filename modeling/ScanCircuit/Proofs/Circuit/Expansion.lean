import ScanCircuit.Circuit.Build

/-!
# Expanded circuits

For a window of known length the loops of a program unroll into a list of steps in
which every row, column and position is a number.  A cell is one entry of a signal
array, a gate is one component at one position, and a net is whatever carries a
value: a cell, an input of a gate or its output.

A statement that has no meaning where it stands, such as one that uses the loop
variable outside all loops or the row before the first, expands to a fault.
-/

namespace ScanCircuit.Circuit

/-- The inputs of a component, in order. -/
def Template.pins : Template → List Pin
  | .isEqual => [.input 0, .input 1]
  | .lessThan _ => [.input 0, .input 1]
  | .and => [.a, .b]
  | .multiOr width => (List.range width).map .input

/-- One entry of a signal array. -/
inductive Cell where
  | state (row node : Nat)
  | sum (row : Nat)
  | out
  deriving DecidableEq, Repr

/-- A component at one position of the window. -/
structure Gate where
  component : Component
  position : Nat
  deriving DecidableEq, Repr

/-- Whatever carries a value in an expanded circuit. -/
inductive Net where
  | cell (cell : Cell)
  | input (gate : Gate) (pin : Pin)
  | output (gate : Gate)
  deriving DecidableEq, Repr

/-- A value with its rows and positions known. -/
inductive Value where
  | const (value : Nat)
  | byte (position : Nat)
  | cell (cell : Cell)
  | output (gate : Gate)
  | add (left right : Value)
  deriving DecidableEq, Repr

/-- A statement outside all loops. -/
inductive Step where
  | components (kind : Kind) (count positions : Nat)
  | states (rows columns : Nat)
  | sums (rows : Nat)
  | instantiate (gate : Gate) (template : Template)
  | wire (gate : Gate) (pin : Pin) (value : Value)
  | constrain (target : Cell) (value : Value)
  /-- A statement without a meaning where it stands. -/
  | fault
  deriving DecidableEq, Repr

/-- The number of a row, if the loop variable has a value and the row exists. -/
def Row.resolve (window : Nat) (position : Option Nat) : Row → Option Nat
  | .zero => some 0
  | .current => position
  | .next => position.map (· + 1)
  | .previous =>
      match position with
      | some (before + 1) => some before
      | _ => none
  | .last => some window

/-- The number of a column. -/
def Column.resolve (position : Option Nat) : Column → Option Nat
  | .node id => some id
  | .var => position

/-- The cell of a signal. -/
def Signal.resolve (window : Nat) (position : Option Nat) : Signal → Option Cell
  | .state row column =>
      (row.resolve window position).bind fun row =>
        (column.resolve position).map (.state row)
  | .sum row => (row.resolve window position).map .sum
  | .out => some .out

/-- The value of an expression before its nets are known. -/
def Expr.resolve (window : Nat) (position : Option Nat) : Expr → Option Value
  | .const value => some (.const value)
  | .byte => position.map .byte
  | .signal cell => (cell.resolve window position).map .cell
  | .output component => position.map fun position => .output ⟨component, position⟩
  | .add left right =>
      (left.resolve window position).bind fun left =>
        (right.resolve window position).map (.add left)

/-- The number that a loop bound stands for. -/
def Bound.number (window : Nat) : Bound → Nat
  | .const value => value
  | .window => window

/-- The values of the loop variable, in order. -/
def LoopRange.positions (window : Nat) (range : LoopRange) : List Nat :=
  List.range' (range.start.number window)
    (range.stop.number window + (if range.inclusive then 1 else 0) - range.start.number window)

mutual

/-- The steps of a statement, given the value of the loop variable around it. -/
def Stmt.expand (window : Nat) (position : Option Nat) : Stmt → List Step
  | .declareComponents kind count => [.components kind count window]
  | .declareStates nodes => [.states (window + 1) nodes]
  | .declareSum => [.sums (window + 1)]
  | .loop range body =>
      (range.positions window).flatMap fun position =>
        Stmt.expandAll window (some position) body
  | .instantiate component template =>
      [(position.map fun position => Step.instantiate ⟨component, position⟩ template).getD .fault]
  | .wire component pin value =>
      [(position.bind fun place =>
        (value.resolve window position).map (.wire ⟨component, place⟩ pin)).getD .fault]
  | .constrain target value =>
      [((target.resolve window position).bind fun target =>
        (value.resolve window position).map (.constrain target)).getD .fault]
  | .comment _ => []
  | .blank => []

/-- The steps of several statements. -/
def Stmt.expandAll (window : Nat) (position : Option Nat) : List Stmt → List Step
  | [] => []
  | stmt :: rest => Stmt.expand window position stmt ++ Stmt.expandAll window position rest

end

/-- The steps of a program for a window of the given length. -/
def Program.expand (program : Program) (window : Nat) : List Step :=
  Stmt.expandAll window none program.statements

/-- The steps of a loop body at one position. -/
def stepsAt (window position : Nat) (body : List Stmt) : List Step :=
  Stmt.expandAll window (some position) body

theorem Stmt.expandAll_eq_flatMap (window : Nat) (position : Option Nat) (stmts : List Stmt) :
    Stmt.expandAll window position stmts = stmts.flatMap (Stmt.expand window position) := by
  induction stmts with
  | nil => rfl
  | cons stmt rest ih => rw [Stmt.expandAll, ih, List.flatMap_cons]

theorem Stmt.expandAll_append (window : Nat) (position : Option Nat) (first rest : List Stmt) :
    Stmt.expandAll window position (first ++ rest) =
      Stmt.expandAll window position first ++ Stmt.expandAll window position rest := by
  simp only [Stmt.expandAll_eq_flatMap, List.flatMap_append]

section Resolve

variable {window position : Nat}

@[simp] theorem Expr.resolve_const (place : Option Nat) (value : Nat) :
    (Expr.const value).resolve window place = some (.const value) := rfl

@[simp] theorem Expr.resolve_byte :
    Expr.byte.resolve window (some position) = some (.byte position) := rfl

@[simp] theorem Expr.resolve_output (component : Component) :
    (Expr.output component).resolve window (some position) =
      some (.output ⟨component, position⟩) := rfl

@[simp] theorem Expr.resolve_current (node : Nat) :
    (Expr.state .current node).resolve window (some position) =
      some (.cell (.state position node)) := rfl

end Resolve

section StepsAt

variable {window position : Nat}

@[simp] theorem stepsAt_nil : stepsAt window position [] = [] := rfl

@[simp] theorem stepsAt_append (first rest : List Stmt) :
    stepsAt window position (first ++ rest) =
      stepsAt window position first ++ stepsAt window position rest :=
  Stmt.expandAll_append window (some position) first rest

@[simp] theorem stepsAt_comment (text : String) (rest : List Stmt) :
    stepsAt window position (.comment text :: rest) = stepsAt window position rest := rfl

@[simp] theorem stepsAt_instantiate (component : Component) (template : Template)
    (rest : List Stmt) :
    stepsAt window position (.instantiate component template :: rest) =
      .instantiate ⟨component, position⟩ template :: stepsAt window position rest := rfl

@[simp] theorem stepsAt_wire (component : Component) (pin : Pin) (value : Expr)
    (rest : List Stmt) :
    stepsAt window position (.wire component pin value :: rest) =
      ((value.resolve window (some position)).map (.wire ⟨component, position⟩ pin)).getD .fault ::
        stepsAt window position rest := rfl

theorem stepsAt_constrain (target : Signal) (value : Expr) (rest : List Stmt) :
    stepsAt window position (.constrain target value :: rest) =
      ((target.resolve window (some position)).bind fun target =>
        (value.resolve window (some position)).map (.constrain target)).getD .fault ::
        stepsAt window position rest := rfl

@[simp] theorem stepsAt_next (node : Nat) (value : Expr) (rest : List Stmt) :
    stepsAt window position (.constrain (.state .next (.node node)) value :: rest) =
      ((value.resolve window (some position)).map
        (.constrain (.state (position + 1) node))).getD .fault ::
        stepsAt window position rest := rfl

end StepsAt

/-! ## The steps of an assembled program -/

/-- The steps that declare the arrays of components and the state matrix. -/
def declarationSteps (counts : Counts) (nodes window : Nat) : List Step :=
  (Kind.all.filter fun kind => counts.get kind ≠ 0).map
      (fun kind => .components kind (counts.get kind) window) ++
    [.states (window + 1) nodes]

/-- The steps that fix the first column and the first row of the state matrix. -/
def boundarySteps (nodes window : Nat) : List Step :=
  (List.range (window + 1)).map (fun row => .constrain (.state row 0) (.const 1)) ++
    (List.range' 1 (nodes - 1)).map (fun node => .constrain (.state 0 node) (.const 0))

/-- The steps of the loop over the window. -/
def transitionSteps (window : Nat) (body : List Stmt) : List Step :=
  (List.range window).flatMap fun position => stepsAt window position body

/-- The steps that count the rows in which the accepting node is active. -/
def reductionSteps (accept window : Nat) : List Step :=
  [.sums (window + 1), .constrain (.sum 0) (.cell (.state 0 accept))] ++
    (List.range window).map (fun row =>
      .constrain (.sum (row + 1)) (.add (.cell (.sum row)) (.cell (.state (row + 1) accept)))) ++
    [.constrain .out (.cell (.sum window))]

private theorem expandAll_declarations (counts : Counts) (nodes window : Nat) :
    Stmt.expandAll window none (declarations counts nodes) =
      declarationSteps counts nodes window := by
  have kinds (selected : List Kind) :
      Stmt.expandAll window none
          (selected.map fun kind => .declareComponents kind (counts.get kind)) =
        selected.map fun kind => .components kind (counts.get kind) window := by
    induction selected with
    | nil => rfl
    | cons kind rest ih => simp [Stmt.expandAll, Stmt.expand, ih]
  rw [declarations, Stmt.expandAll_append, kinds]
  rfl

private theorem expandAll_boundary (nodes window : Nat) :
    Stmt.expandAll window none (boundary nodes) = boundarySteps nodes window := by
  simp [boundary, boundarySteps, Stmt.expandAll, Stmt.expand, LoopRange.windowInclusive,
    LoopRange.fixed, LoopRange.positions, Bound.number, Signal.resolve, Row.resolve,
    Column.resolve, List.range_eq_range', List.map_eq_flatMap]

theorem expandAll_reduction (accept window : Nat) :
    Stmt.expandAll window none (reduction accept) = reductionSteps accept window := by
  have rows : List.range' 1 window = (List.range window).map (· + 1) := by
    simp [List.range'_eq_map_range, Nat.add_comm]
  simp [reduction, reductionSteps, Stmt.expandAll, Stmt.expand, LoopRange.windowInclusive,
    LoopRange.positions, Bound.number, Signal.resolve, Row.resolve, Expr.state,
    Column.resolve, Expr.resolve, rows, List.flatMap_map, ← List.map_eq_flatMap]

/-- An assembled program expands to its declarations, its boundary, its transitions at
every position and its reduction. -/
theorem expand_assemble (nodes accept window : Nat) (drafted : Drafted Unit) :
    (assemble nodes accept drafted).expand window =
      declarationSteps drafted.counts nodes window ++ boundarySteps nodes window ++
        transitionSteps window drafted.body ++ reductionSteps accept window := by
  have transitions :
      Stmt.expandAll window none [.loop (.window 0) drafted.body] =
        transitionSteps window drafted.body := by
    simp [Stmt.expandAll, Stmt.expand, LoopRange.window, LoopRange.positions, Bound.number,
      transitionSteps, stepsAt, List.range_eq_range']
  simp only [Program.expand, Program.statements, assemble, Stmt.expandAll_append,
    expandAll_declarations, expandAll_boundary, transitions, expandAll_reduction]

end ScanCircuit.Circuit
