import ScanCircuit.Proofs.Circuit.Comments

/-!
# Circuits in a template

The lines of a statement are the same at every depth, apart from their margins.  A circuit in a
template is therefore the circuit on its own with every line moved by one unit of indentation,
after a prologue that does not depend on the circuit, and before the end of the template.
-/

namespace ScanCircuit.Circuit

/-! ## Lines at another depth -/

/-- The same line one block further inside. -/
def Line.deeper (line : Line) : Line :=
  { line with depth := line.depth + 1 }

/-- A row with one more unit of indentation, unless it is empty. -/
def indented (indent : String) (row : List Char) : List Char :=
  if row = [] then [] else indent.toList ++ row

theorem Line.row_deeper (indent : String) (line : Line) :
    line.deeper.row indent = indented indent (line.row indent) := by
  have same : line.deeper.text = line.text := rfl
  by_cases empty : line.text = ""
  · rw [Line.row_of_empty indent empty, Line.row_of_empty indent (same.trans empty)]
    rfl
  · rw [indented, if_neg (mt Line.row_eq_nil.1 empty), Line.row_of_written indent empty,
      Line.row_of_written indent (same ▸ empty), same, Line.deeper, List.replicate_succ,
      List.flatten_cons, List.append_assoc]

section

variable {config other : Config}

mutual

/-- The name of the template has no effect on the lines of a statement, and the depth only on
their margins. -/
theorem Stmt.lines_deeper (window : config.window = other.window)
    (annotate : config.annotate = other.annotate) (depth : Nat) : ∀ stmt : Stmt,
    stmt.lines config (depth + 1) = (stmt.lines other depth).map Line.deeper
  | .loop range body => by
      rw [Stmt.lines_loop, Stmt.lines_loop, Stmt.linesAll_deeper window annotate (depth + 1) body,
        window, List.map_cons, List.map_append]
      rfl
  | .comment text => by
      rw [Stmt.lines_comment, Stmt.lines_comment, annotate]
      split <;> rfl
  | .declareComponents .. | .declareStates _ | .declareSum | .instantiate .. | .wire ..
  | .constrain .. | .blank => by
      rw [Stmt.lines_eq_heading rfl, Stmt.lines_eq_heading rfl, window]
      rfl

/-- The lines of several statements one block further inside. -/
theorem Stmt.linesAll_deeper (window : config.window = other.window)
    (annotate : config.annotate = other.annotate) (depth : Nat) : ∀ stmts : List Stmt,
    Stmt.linesAll config (depth + 1) stmts = (Stmt.linesAll other depth stmts).map Line.deeper
  | [] => rfl
  | stmt :: rest => by
      rw [Stmt.linesAll_cons, Stmt.linesAll_cons, List.map_append,
        Stmt.lines_deeper window annotate depth stmt,
        Stmt.linesAll_deeper window annotate depth rest]

end

end

/-! ## The text around a circuit -/

/-- The text of a complete file in front of the circuit. -/
def prologue (name window indent : String) : String :=
  String.ofList (joinLines indent (templateHead name window))

/-- In a template, the text of a circuit is a prologue, the text without the template one unit
further inside, and the end of the template. -/
theorem render_in_template {automaton : Automaton} {compilation : Compilation}
    (compiled : Compilation.ofAutomaton automaton = .ok compilation) {config : Config}
    (window : '\n' ∉ config.window.toList) (margin : '\n' ∉ config.indent.toList)
    (name : String) :
    let body := Text.lines (compilation.render { config with template := none })
    compilation.render { config with template := some name } =
      prologue name config.window config.indent ++
        Text.ofLines (body.map (indented config.indent)) ++ (closing ++ "\n") := by
  intro body
  obtain ⟨emitted, -⟩ := Compilation.ofAutomaton_eq_ok.1 compiled
  have concluded := ofAutomaton_concluded emitted
  obtain ⟨unbroken, -⟩ := comments_ofAutomaton emitted
  have rows : body =
      (Stmt.linesAll { config with template := none } 0 compilation.program.statements).map
        (Line.row config.indent) ++ [[]] :=
    concluded.lines_render { config with template := none } window margin
      (Program.lines_unbroken window nofun unbroken)
  have inside : Text.ofLines (body.map (indented config.indent)) =
      String.ofList (joinLines config.indent
        (Stmt.linesAll { config with template := some name } 1
          compilation.program.statements)) := by
    have deeper :
        Stmt.linesAll { config with template := some name } 1 compilation.program.statements =
          (Stmt.linesAll { config with template := none } 0
            compilation.program.statements).map Line.deeper :=
      Stmt.linesAll_deeper (by rfl) (by rfl) 0 compilation.program.statements
    have moved : indented config.indent ∘ Line.row config.indent =
        Line.row config.indent ∘ Line.deeper :=
      funext fun line => (line.row_deeper config.indent).symm
    rw [ofList_joinLines, deeper, rows, List.map_append, List.map_map, List.map_map, moved]
    rfl
  have whole : compilation.render { config with template := some name } =
      String.ofList (joinLines config.indent
        (compilation.program.lines { config with template := some name })) := by
    rw [ofList_joinLines]
    exact concluded.render_eq { config with template := some name } window
  rw [whole, compilation.program.lines_of_template rfl, inside, prologue, joinLines,
    List.flatMap_append, List.flatMap_append, String.ofList_append, String.ofList_append]
  rfl

theorem render_in_template_numerals :
    ∃ compilation, Compilation.ofAutomaton .numerals = .ok compilation ∧
      let config : Config := { window := "n", annotate := true, indent := "  " }
      let body := Text.lines (compilation.render { config with template := none })
      compilation.render { config with template := some "Scan" } =
        prologue "Scan" "n" "  " ++ Text.ofLines (body.map (indented "  ")) ++
          (closing ++ "\n") := by
  obtain ⟨compilation, compiled⟩ :
      ∃ compilation, Compilation.ofAutomaton .numerals = .ok compilation := ⟨_, rfl⟩
  exact ⟨compilation, compiled,
    @render_in_template _ _ compiled { window := "n", annotate := true, indent := "  " }
      (by decide) (by decide) "Scan"⟩

end ScanCircuit.Circuit
