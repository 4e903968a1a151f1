import ScanCircuit.Circuit.Text

/-!
# The depth of a writer

A writer only adds lines, and its depth is all that earlier calls have an effect on.  The calls
of a statement close the blocks that they open, and no others.  They leave the depth as it is,
so the lines of a statement depend on the depth alone, and a block is never closed where none
is open.
-/

namespace ScanCircuit.Circuit

/-! ## The lines of calls -/

theorem Writer.run_cons (writer : Writer) (call : Call) (calls : List Call) :
    writer.run (call :: calls) = (writer.call call).run calls :=
  rfl

/-- Calls add the lines that they write from the depth of the writer on. -/
theorem Writer.lines_run (writer : Writer) (calls : List Call) :
    (writer.run calls).lines.toList = writer.lines.toList ++ linesOf writer.depth calls := by
  induction calls generalizing writer with
  | nil => exact (List.append_nil _).symm
  | cons call calls ih =>
      rw [linesOf, run_cons, run_cons, ih, ih]
      cases call <;> simp [Writer.call, write]

@[simp] theorem linesOf_nil (depth : Nat) : linesOf depth [] = [] := rfl

@[simp] theorem linesOf_line (depth : Nat) (text : String) (calls : List Call) :
    linesOf depth (.line text :: calls) = ⟨depth, text⟩ :: linesOf depth calls :=
  Writer.lines_run _ calls

@[simp] theorem linesOf_enter (depth : Nat) (header : String) (calls : List Call) :
    linesOf depth (.enter header :: calls) =
      ⟨depth, opening header⟩ :: linesOf (depth + 1) calls :=
  Writer.lines_run _ calls

@[simp] theorem linesOf_leave (depth : Nat) (calls : List Call) :
    linesOf depth (.leave :: calls) = ⟨depth - 1, closing⟩ :: linesOf (depth - 1) calls :=
  Writer.lines_run _ calls

/-- The text of the line that a call writes. -/
def Call.text : Call → String
  | .line text => text
  | .enter header => opening header
  | .leave => closing

/-- The depth has no effect on the texts of lines. -/
theorem map_text_linesOf (depth : Nat) (calls : List Call) :
    (linesOf depth calls).map Line.text = calls.map Call.text := by
  induction calls generalizing depth with
  | nil => rfl
  | cons call calls ih => cases call <;> simp [Call.text, ih]

theorem forall_mem_linesOf {sort : String → Prop} {depth : Nat} {calls : List Call} :
    (∀ line ∈ linesOf depth calls, sort line.text) ↔ ∀ call ∈ calls, sort call.text := by
  rw [← List.forall_mem_map, map_text_linesOf, List.forall_mem_map]

/-! ## Calls that close what they open -/

/-- Calls lead from one depth to the other, and close no block where none is open. -/
inductive Levels : Nat → List Call → Nat → Prop where
  | nil (depth : Nat) : Levels depth [] depth
  | line {start stop : Nat} {text : String} {calls : List Call} :
      Levels start calls stop → Levels start (.line text :: calls) stop
  | enter {start stop : Nat} {header : String} {calls : List Call} :
      Levels (start + 1) calls stop → Levels start (.enter header :: calls) stop
  | leave {start stop : Nat} {calls : List Call} :
      Levels start calls stop → Levels (start + 1) (.leave :: calls) stop

namespace Levels

variable {start middle stop : Nat} {calls others : List Call}

theorem append (first : Levels start calls middle) (second : Levels middle others stop) :
    Levels start (calls ++ others) stop := by
  induction first with
  | nil => exact second
  | line _ ih => exact .line (ih second)
  | enter _ ih => exact .enter (ih second)
  | leave _ ih => exact .leave (ih second)

/-- Inside a block, the depth is one more. -/
theorem block {depth : Nat} (header : String) (inner : Levels (depth + 1) calls (depth + 1)) :
    Levels depth (.enter header :: (calls ++ [.leave])) depth :=
  .enter (inner.append (.leave (.nil depth)))

theorem depth_run (levels : Levels start calls stop) {writer : Writer}
    (starts : writer.depth = start) : (writer.run calls).depth = stop := by
  induction levels generalizing writer with
  | nil => exact starts
  | line _ ih => exact ih starts
  | enter _ ih => exact ih (congrArg (· + 1) starts)
  | leave _ ih => exact ih (congrArg (· - 1) starts)

/-- Wherever a block is closed, one is open. -/
theorem depth_pos (levels : Levels start (calls ++ .leave :: others) stop) {writer : Writer}
    (starts : writer.depth = start) : 0 < (writer.run calls).depth := by
  induction calls generalizing start writer with
  | nil =>
      cases levels with
      | leave => exact starts ▸ Nat.succ_pos _
  | cons call calls ih =>
      cases levels with
      | line rest => exact ih rest starts
      | enter rest => exact ih rest (congrArg (· + 1) starts)
      | leave rest => exact ih rest (congrArg (· - 1) starts)

theorem linesOf_append (levels : Levels start calls middle) (others : List Call) :
    linesOf start (calls ++ others) = linesOf start calls ++ linesOf middle others := by
  induction levels with
  | nil => rfl
  | line _ ih | enter _ ih | leave _ ih => simp [ih]

end Levels

/-! ## The calls of statements -/

section

variable (config : Config)

mutual

/-- A statement closes the blocks that it opens. -/
theorem Stmt.calls_levels (depth : Nat) : ∀ stmt : Stmt, Levels depth (stmt.calls config) depth
  | .loop range body => .block (range.text config.window) (Stmt.callsAll_levels (depth + 1) body)
  | .comment text => by
      rw [Stmt.calls]
      split
      next => exact .line (.nil depth)
      next => exact .nil depth
  | .declareComponents .. | .declareStates _ | .declareSum | .instantiate .. | .wire ..
  | .constrain .. | .blank => .line (.nil depth)

/-- Several statements close the blocks that they open. -/
theorem Stmt.callsAll_levels (depth : Nat) :
    ∀ stmts : List Stmt, Levels depth (Stmt.callsAll config stmts) depth
  | [] => .nil depth
  | stmt :: rest => (Stmt.calls_levels depth stmt).append (Stmt.callsAll_levels depth rest)

end

end

/-- The lines of a statement at a depth. -/
def Stmt.lines (config : Config) (depth : Nat) (stmt : Stmt) : List Line :=
  linesOf depth (stmt.calls config)

/-- The lines of several statements at a depth. -/
def Stmt.linesAll (config : Config) (depth : Nat) (stmts : List Stmt) : List Line :=
  linesOf depth (Stmt.callsAll config stmts)

namespace Stmt

section

variable (config : Config) (depth : Nat)

theorem lines_loop (range : LoopRange) (body : List Stmt) :
    (loop range body).lines config depth =
      ⟨depth, opening (range.text config.window)⟩ ::
        (linesAll config (depth + 1) body ++ [⟨depth, closing⟩]) := by
  rw [lines, calls, linesOf_enter, (callsAll_levels config (depth + 1) body).linesOf_append]
  rfl

theorem lines_comment (text : String) :
    (comment text).lines config depth =
      if config.annotate then [⟨depth, "//" ++ text⟩] else [] := by
  rw [lines, calls]
  split <;> rfl

theorem linesAll_nil : linesAll config depth [] = [] := rfl

theorem linesAll_cons (stmt : Stmt) (rest : List Stmt) :
    linesAll config depth (stmt :: rest) =
      stmt.lines config depth ++ linesAll config depth rest :=
  (stmt.calls_levels config depth).linesOf_append _

end

/-- A statement that is written by one call has one line. -/
theorem lines_of_calls {config : Config} {stmt : Stmt} {text : String}
    (single : stmt.calls config = [.line text]) (depth : Nat) :
    stmt.lines config depth = [⟨depth, text⟩] := by
  rw [lines, single]
  rfl

/-- A writer that is given a statement adds the lines of the statement at its depth, and stays at
that depth. -/
theorem run_calls (config : Config) (stmt : Stmt) (writer : Writer) :
    (writer.run (stmt.calls config)).lines.toList =
        writer.lines.toList ++ stmt.lines config writer.depth ∧
      (writer.run (stmt.calls config)).depth = writer.depth :=
  ⟨writer.lines_run _, (stmt.calls_levels config writer.depth).depth_run rfl⟩

end Stmt

/-! ## The calls of programs -/

/-- The lines of a complete file in front of the program. -/
def templateHead (name window : String) : List Line :=
  linesOf 0 (fileHead name window)

/-- The program stands in the block of the template. -/
theorem fileHead_levels (name window : String) : Levels 0 (fileHead name window) 1 := by
  repeat constructor

example : (templateHead "Scan" "n").map Line.depth =
    [0, 0, 0, 0, 0, 0, 1, 1, 1, 1, 1, 1, 2, 1, 1, 1, 1, 0, 0, 0, 1, 1, 1] := by
  rfl

namespace Program

variable {config : Config}

/-- A program closes all blocks that it opens. -/
theorem calls_levels (config : Config) (program : Program) :
    Levels 0 (program.calls config) 0 := by
  have body (depth : Nat) := Stmt.callsAll_levels config depth program.statements
  unfold calls
  split
  next => exact body 0
  next name _ =>
    exact ((fileHead_levels name config.window).append (body 1)).append (.leave (.nil 0))

/-- A writer that is given a program closes no block where none is open. -/
theorem depth_pos_of_leave {program : Program} {before after : List Call}
    (closes : program.calls config = before ++ .leave :: after) :
    0 < (Writer.run {} before).depth :=
  (closes ▸ program.calls_levels config).depth_pos rfl

theorem lines_of_body (body : config.template = none) (program : Program) :
    program.lines config = Stmt.linesAll config 0 program.statements := by
  rw [lines, calls, body]
  rfl

theorem lines_of_template {name : String} (template : config.template = some name)
    (program : Program) :
    program.lines config =
      templateHead name config.window ++ Stmt.linesAll config 1 program.statements ++
        [⟨0, closing⟩] := by
  have head := fileHead_levels name config.window
  have inner := Stmt.callsAll_levels config 1 program.statements
  rw [lines, calls, template, (head.append inner).linesOf_append, head.linesOf_append]
  rfl

end Program

end ScanCircuit.Circuit
