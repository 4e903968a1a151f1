import ScanCircuit.Circuit.Program
import ScanCircuit.Circuit.Writer

/-!
# The text of a circuit

A program is written by calls of a writer, which keeps the depth of the blocks. An
empty line carries no indentation; any other line is its depth in indent units followed
by its text. The finished text has no blanks at its end apart from one line feed.

Without a template name the text is the body of a template. With one it is a complete
file, with the includes and the helper that the body needs.
-/

namespace ScanCircuit.Circuit

/-- How a program is laid out. -/
structure Config where
  /-- The name of the window length. -/
  window : String := "num_bytes"
  /-- The name of the template to wrap the program in. -/
  template : Option String := none
  /-- Whether comments are written. -/
  annotate : Bool := false
  /-- One unit of indentation. -/
  indent : String := "\t"
  deriving DecidableEq, Repr

/-- An index in square brackets. -/
def subscript (index : String) : String := "[" ++ index ++ "]"

/-- The text of a component at the loop variable. -/
def Component.text (component : Component) : String :=
  component.kind.array ++ subscript component.index.repr ++ subscript "i"

/-- The text of a template with its parameters. -/
def Template.text : Template → String
  | .isEqual => "IsEqual()"
  | .lessThan bits => "LessThan(" ++ bits.repr ++ ")"
  | .and => "AND()"
  | .multiOr width => "MultiOR(" ++ width.repr ++ ")"

/-- The text of a pin. -/
def Pin.text : Pin → String
  | .input index => "in" ++ subscript index.repr
  | .a => "a"
  | .b => "b"

/-- The text of a row. -/
def Row.text (window : String) : Row → String
  | .zero => "0"
  | .current => "i"
  | .next => "i+1"
  | .previous => "i-1"
  | .last => window

/-- The text of a column. -/
def Column.text : Column → String
  | .node id => id.repr
  | .var => "i"

/-- The text of a signal. -/
def Signal.text (window : String) : Signal → String
  | .state row column => "states" ++ subscript (row.text window) ++ subscript column.text
  | .sum row => "final_state_sum" ++ subscript (row.text window)
  | .out => "out"

/-- The text of a value. -/
def Expr.text (window : String) : Expr → String
  | .const value => value.repr
  | .byte => "in[i]"
  | .signal cell => cell.text window
  | .output component => component.text ++ ".out"
  | .add left right => left.text window ++ " + " ++ right.text window

/-- The text of a loop bound. -/
def Bound.text (window : String) : Bound → String
  | .const value => value.repr
  | .window => window

/-- The header of a loop. -/
def LoopRange.text (window : String) (range : LoopRange) : String :=
  "for (var i = " ++ range.start.text window ++ "; i " ++
    (if range.inclusive then "<=" else "<") ++ " " ++ range.stop.text window ++ "; i++)"

/-- A value flowing into a place. -/
def flow (target value : String) : String := target ++ " <== " ++ value ++ ";"

mutual

/-- The calls that write a statement. -/
def Stmt.calls (config : Config) : Stmt → List Call
  | .declareComponents kind count =>
      [.line ("component " ++ kind.array ++ subscript count.repr ++ subscript config.window ++ ";")]
  | .declareStates nodes =>
      [.line ("signal states" ++ subscript (config.window ++ "+1") ++ subscript nodes.repr ++ ";")]
  | .declareSum => [.line ("signal final_state_sum" ++ subscript (config.window ++ "+1") ++ ";")]
  | .loop range body =>
      .enter (range.text config.window) :: (Stmt.callsAll config body ++ [.leave])
  | .instantiate component template => [.line (component.text ++ " = " ++ template.text ++ ";")]
  | .wire component pin value =>
      [.line (flow (component.text ++ "." ++ pin.text) (value.text config.window))]
  | .constrain target value =>
      [.line (flow (target.text config.window) (value.text config.window))]
  | .comment text => if config.annotate then [.line ("//" ++ text)] else []
  | .blank => [.line ""]

/-- The calls that write several statements. -/
def Stmt.callsAll (config : Config) : List Stmt → List Call
  | [] => []
  | stmt :: rest => Stmt.calls config stmt ++ Stmt.callsAll config rest

end

/-- The helper of a complete file: whether any of its inputs is not zero. -/
def multiOrHelper : List Call :=
  [.enter "template MultiOR(n)",
   .line "signal input in[n];",
   .line "signal output out;",
   .line "",
   .line "signal sums[n];",
   .line "sums[0] <== in[0];",
   .enter "for (var i = 1; i < n; i++)",
   .line "sums[i] <== sums[i-1] + in[i];",
   .leave,
   .line "component is_zero = IsZero();",
   .line "is_zero.in <== sums[n-1];",
   .line "out <== 1 - is_zero.out;",
   .leave]

/-- A complete file up to the program: the includes, the helper and the head of the template. -/
def fileHead (name window : String) : List Call :=
  [.line "pragma circom 2.1.4;",
   .line "",
   .line "include \"circomlib/circuits/comparators.circom\";",
   .line "include \"circomlib/circuits/gates.circom\";",
   .line ""] ++
    multiOrHelper ++
    [.line "",
     .enter ("template " ++ name ++ "(" ++ window ++ ")"),
     .line ("signal input in" ++ subscript window ++ ";"),
     .line "signal output out;",
     .line ""]

/-- The calls that write a program, wrapped in a template if the configuration names one. -/
def Program.calls (config : Config) (program : Program) : List Call :=
  match config.template with
  | none => Stmt.callsAll config program.statements
  | some name =>
      fileHead name config.window ++ Stmt.callsAll config program.statements ++ [.leave]

/-- The lines of a program. -/
def Program.lines (config : Config) (program : Program) : List Line :=
  linesOf 0 (program.calls config)

/-- The characters of a program: its lines without the blanks at the end, and a line feed. -/
def Program.chars (config : Config) (program : Program) : List Char :=
  Text.dropBlankEnd (joinLines config.indent (program.lines config)) ++ ['\n']

/-- The text of a program. -/
def Program.render (config : Config) (program : Program) : String :=
  String.ofList (program.chars config)

end ScanCircuit.Circuit
