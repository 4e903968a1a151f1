/-!
# Circuit programs

The statements of a circuit that scans a window of input bytes. A program declares
arrays of components and signals indexed by position, wires component inputs, and
constrains signals. Loops run over positions; inside a loop, rows and the input byte
are relative to the loop variable.

Nothing here knows how a program is laid out as text.
-/

namespace ScanCircuit.Circuit

/-- The kinds of component, each numbered in an array of its own. -/
inductive Kind where
  | eq
  | lt
  | and
  | multiOr
  deriving DecidableEq, Repr

namespace Kind

/-- All kinds, in declaration order. -/
def all : List Kind := [eq, lt, and, multiOr]

/-- The name of the array that holds the components of a kind. -/
def array : Kind → String
  | eq => "eq"
  | lt => "lt"
  | and => "and"
  | multiOr => "multi_or"

end Kind

/-- One component, by its kind and its place in the array of that kind. -/
structure Component where
  kind : Kind
  index : Nat
  deriving DecidableEq, Repr

/-- What a component computes. -/
inductive Template where
  | isEqual
  | lessThan (bits : Nat)
  | and
  | multiOr (width : Nat)
  deriving DecidableEq, Repr

/-- An input of a component. -/
inductive Pin where
  | input (index : Nat)
  | a
  | b
  deriving DecidableEq, Repr

/-- A row of a signal array. -/
inductive Row where
  | zero
  /-- The row of the loop variable. -/
  | current
  | next
  | previous
  /-- The row after the last byte of the window. -/
  | last
  deriving DecidableEq, Repr

/-- A column of the state matrix. -/
inductive Column where
  | node (id : Nat)
  /-- The loop variable. -/
  | var
  deriving DecidableEq, Repr

/-- A signal that a constraint may define. -/
inductive Signal where
  /-- Whether a node is active in a row. -/
  | state (row : Row) (column : Column)
  /-- The number of rows up to this one in which the accepting node is active. -/
  | sum (row : Row)
  /-- The output of the circuit. -/
  | out
  deriving DecidableEq, Repr

/-- A value that may be wired or constrained. -/
inductive Expr where
  | const (value : Nat)
  /-- The input byte at the loop variable. -/
  | byte
  | signal (cell : Signal)
  /-- The output of a component at the loop variable. -/
  | output (component : Component)
  | add (left right : Expr)
  deriving DecidableEq, Repr, Inhabited

/-- The state of a node in a row, as a value. -/
def Expr.state (row : Row) (node : Nat) : Expr :=
  .signal (.state row (.node node))

/-- A bound of a loop. -/
inductive Bound where
  | const (value : Nat)
  /-- The length of the window. -/
  | window
  deriving DecidableEq, Repr

/-- The values of a loop variable. -/
structure LoopRange where
  start : Bound
  stop : Bound
  /-- Whether the upper bound is itself a value. -/
  inclusive : Bool
  deriving DecidableEq, Repr

namespace LoopRange

/-- From `start` up to but without the length of the window. -/
def window (start : Nat) : LoopRange := ⟨.const start, .window, false⟩

/-- From `start` up to and with the length of the window. -/
def windowInclusive (start : Nat) : LoopRange := ⟨.const start, .window, true⟩

/-- From `start` up to but without `stop`. -/
def fixed (start stop : Nat) : LoopRange := ⟨.const start, .const stop, false⟩

end LoopRange

/-- A statement of a circuit. -/
inductive Stmt where
  | declareComponents (kind : Kind) (count : Nat)
  /-- Declare the state matrix with a column for each node. -/
  | declareStates (nodes : Nat)
  /-- Declare the running sum of accepting rows. -/
  | declareSum
  | loop (range : LoopRange) (body : List Stmt)
  | instantiate (component : Component) (template : Template)
  | wire (component : Component) (pin : Pin) (value : Expr)
  | constrain (target : Signal) (value : Expr)
  | comment (text : String)
  | blank
  deriving Repr

instance : Inhabited Stmt := ⟨.blank⟩

/-- A program in its four sections. -/
structure Program where
  declarations : List Stmt := []
  init : List Stmt := []
  transitions : List Stmt := []
  accept : List Stmt := []
  deriving Repr

/-- All statements in order. -/
def Program.statements (program : Program) : List Stmt :=
  program.declarations ++ program.init ++ program.transitions ++ program.accept

/-- How many components of each kind there are. -/
structure Counts where
  eq : Nat := 0
  lt : Nat := 0
  and : Nat := 0
  multiOr : Nat := 0
  deriving DecidableEq, Repr

namespace Counts

/-- The number of components of a kind. -/
def get (counts : Counts) : Kind → Nat
  | .eq => counts.eq
  | .lt => counts.lt
  | .and => counts.and
  | .multiOr => counts.multiOr

/-- The counts with one more component of a kind. -/
def bump (counts : Counts) : Kind → Counts
  | .eq => { counts with eq := counts.eq + 1 }
  | .lt => { counts with lt := counts.lt + 1 }
  | .and => { counts with and := counts.and + 1 }
  | .multiOr => { counts with multiOr := counts.multiOr + 1 }

/-- The number of components of all kinds. -/
def total (counts : Counts) : Nat :=
  counts.eq + counts.lt + counts.and + counts.multiOr

@[simp] theorem get_bump (counts : Counts) (kind other : Kind) :
    (counts.bump kind).get other = counts.get other + if other = kind then 1 else 0 := by
  cases kind <;> cases other <;> rfl

end Counts

end ScanCircuit.Circuit
