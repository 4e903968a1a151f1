import ScanCircuit.Proofs.Text.Lines
import ScanCircuit.Proofs.Circuit.Unambiguity

/-!
# The rows of a circuit

A row is what the text of a circuit shows of a line: its margin and its text.  As long as no
line has a line feed in it, cutting the text at its line feeds gives the rows again.

The circuit of an automaton ends in a statement that is written on a line of its own, so no row
of it is lost when the blanks at the end of its text are dropped.
-/

namespace ScanCircuit.Circuit

/-! ## Rows -/

/-- The characters of a line with its margin, without the line feed. -/
def Line.row (indent : String) (line : Line) : List Char :=
  if line.text = "" then []
  else (List.replicate line.depth indent.toList).flatten ++ line.text.toList

section

variable {indent : String} {line : Line}

theorem Line.row_of_empty (indent : String) {line : Line} (empty : line.text = "") :
    line.row indent = [] :=
  if_pos empty

theorem Line.row_of_written (indent : String) {line : Line} (written : line.text ≠ "") :
    line.row indent =
      (List.replicate line.depth indent.toList).flatten ++ line.text.toList :=
  if_neg written

theorem Line.row_eq_nil : line.row indent = [] ↔ line.text = "" := by
  constructor
  · intro none
    by_contra written
    rw [Line.row_of_written indent written, List.append_eq_nil_iff] at none
    exact written (String.toList_eq_nil_iff.1 none.2)
  · exact Line.row_of_empty indent

theorem Line.chars_eq_row (indent : String) (line : Line) :
    line.chars indent = line.row indent ++ ['\n'] := by
  unfold Line.chars Line.row
  split <;> rfl

theorem Line.row_unbroken (margin : '\n' ∉ indent.toList) (unbroken : '\n' ∉ line.text.toList) :
    '\n' ∉ line.row indent := by
  unfold Line.row
  split
  next => exact List.not_mem_nil
  next =>
    rw [List.mem_append, List.mem_flatten]
    rintro (⟨unit, copy, inside⟩ | inside)
    · exact margin (List.eq_of_mem_replicate copy ▸ inside)
    · exact unbroken inside

theorem Trimmed.start_not_margin {text : String} (trimmed : Trimmed text) :
    ∀ char ∈ text.toList.head?, Text.isMargin char = false := by
  intro char first
  rw [Bool.eq_false_iff]
  intro inMargin
  exact trimmed.start char first (Text.isBlank_of_isMargin inMargin)

/-- The content of a row is the text of its line. -/
theorem Line.content_row (margin : ∀ char ∈ indent.toList, Text.isMargin char)
    (start : ∀ char ∈ line.text.toList.head?, Text.isMargin char = false) :
    Text.content (line.row indent) = line.text.toList := by
  unfold Line.row
  split
  next empty => rw [empty]; rfl
  next =>
    apply Text.content_append _ start
    intro char member
    obtain ⟨unit, copy, inside⟩ := List.mem_flatten.1 member
    exact margin char (List.eq_of_mem_replicate copy ▸ inside)

theorem ofList_joinLines (indent : String) (lines : List Line) :
    String.ofList (joinLines indent lines) =
      Text.ofLines (lines.map (Line.row indent) ++ [[]]) := by
  have rows : Line.chars indent = fun line => line.row indent ++ ['\n'] :=
    funext (Line.chars_eq_row indent)
  rw [Text.ofLines_concat_nil, List.flatMap_map, joinLines, rows]

end

/-- Rows without line feeds are found again in the text that they make up. -/
theorem lines_of_rows {indent : String} {lines : List Line} (margin : '\n' ∉ indent.toList)
    (unbroken : ∀ line ∈ lines, '\n' ∉ line.text.toList) :
    Text.lines (Text.ofLines (lines.map (Line.row indent) ++ [[]])) =
      lines.map (Line.row indent) ++ [[]] := by
  apply Text.lines_ofLines
  · rw [List.forall_mem_append, List.forall_mem_map, List.forall_mem_singleton]
    exact ⟨fun line member => Line.row_unbroken margin (unbroken line member), List.not_mem_nil⟩
  · simp

/-! ## Statements on one line -/

namespace Stmt

variable {stmt : Stmt}

/-- Whether a statement takes one line, with comments or without. -/
def isSingle : Stmt → Bool
  | .loop .. | .comment _ => false
  | _ => true

/-- The call of such a statement depends on nothing but the window. -/
theorem calls_eq_heading (single : stmt.isSingle) (config : Config) :
    stmt.calls config = [.line (stmt.heading { window := config.window })] := by
  cases stmt with
  | loop | comment => cases single
  | declareComponents | declareStates | declareSum | instantiate | wire | constrain | blank =>
      rfl

theorem lines_eq_heading (single : stmt.isSingle) (config : Config) (depth : Nat) :
    stmt.lines config depth = [⟨depth, stmt.heading { window := config.window }⟩] :=
  lines_of_calls (calls_eq_heading single config) depth

theorem trimmed_of_single (single : stmt.isSingle) {config : Config}
    (window : '\n' ∉ config.window.toList) (depth : Nat) :
    ∀ line ∈ stmt.lines config depth, Trimmed line.text := by
  have trimmed := @Stmt.lines_trimmed { window := config.window } rfl window depth stmt
  rw [lines_eq_heading single] at trimmed ⊢
  exact trimmed

end Stmt

/-! ## Lines without line feeds -/

section

variable {config : Config}

mutual

/-- No line of a statement has a line feed in it if no comment has one. -/
theorem Stmt.lines_unbroken (window : '\n' ∉ config.window.toList) (depth : Nat) :
    ∀ stmt : Stmt, (∀ text, .comment text ∈ stmt.leaves → '\n' ∉ text.toList) →
      ∀ line ∈ stmt.lines config depth, '\n' ∉ line.text.toList
  | .loop range body, comments => by
      rw [Stmt.lines_loop, List.forall_mem_cons, List.forall_mem_append, List.forall_mem_singleton]
      refine ⟨?_, Stmt.linesAll_unbroken window (depth + 1) body comments,
        closing_trimmed.unbroken⟩
      simp [opening, LoopRange.text_unbroken window]
  | .comment text, comments => by
      have unbroken := comments text (by simp [Stmt.leaves])
      rw [Stmt.lines_comment]
      split
      next => simpa using unbroken
      next => nofun
  | .declareComponents .., _ | .declareStates _, _ | .declareSum, _ | .instantiate .., _
  | .wire .., _ | .constrain .., _ | .blank, _ => fun line member =>
      (Stmt.trimmed_of_single rfl window depth line member).unbroken

/-- No line of several statements has a line feed in it if no comment has one. -/
theorem Stmt.linesAll_unbroken (window : '\n' ∉ config.window.toList) (depth : Nat) :
    ∀ stmts : List Stmt, (∀ text, .comment text ∈ Stmt.leavesAll stmts → '\n' ∉ text.toList) →
      ∀ line ∈ Stmt.linesAll config depth stmts, '\n' ∉ line.text.toList
  | [], _ => nofun
  | stmt :: rest, comments => by
      rw [Stmt.linesAll_cons, List.forall_mem_append]
      exact ⟨Stmt.lines_unbroken window depth stmt fun text member =>
          comments text (by simp [Stmt.leavesAll, member]),
        Stmt.linesAll_unbroken window depth rest fun text member =>
          comments text (by simp [Stmt.leavesAll, member])⟩

end

end

/-! ## The lines around a program -/

theorem trimmed_iff {text : String} :
    '\n' ∉ text.toList ∧ text.toList.head?.all (fun char => !Text.isBlank char) ∧
        text.toList.getLast?.all (fun char => !Text.isBlank char) ↔ Trimmed text := by
  simp only [Option.all_eq_true, Bool.not_eq_true', ← Bool.not_eq_true]
  constructor
  · rintro ⟨unbroken, start, stop⟩
    exact ⟨unbroken, start, stop⟩
  · rintro ⟨unbroken, start, stop⟩
    exact ⟨unbroken, start, stop⟩

instance (text : String) : Decidable (Trimmed text) :=
  decidable_of_iff _ trimmed_iff

theorem templateHead_trimmed {name window : String} (nameUnbroken : '\n' ∉ name.toList)
    (unbroken : '\n' ∉ window.toList) :
    ∀ line ∈ templateHead name window, Trimmed line.text := by
  have helper : ∀ call ∈ multiOrHelper, Trimmed call.text := by decide +kernel
  have keyword : Begins "template " := ⟨'t', rfl, by decide⟩
  have header : Trimmed (opening ("template " ++ name ++ "(" ++ window ++ ")")) := by
    refine ((((keyword.append _).append _).append _).append _).trimmed ?_ rfl (by decide)
    simp [nameUnbroken, unbroken]
  have input : Trimmed ("signal input in" ++ subscript window ++ ";") := by
    refine Begins.trimmed ⟨'s', by simp, by decide⟩ ?_ rfl (by decide)
    simp [subscript, unbroken]
  have output : Trimmed "signal output out;" := by decide
  have empty : Trimmed "" := by decide
  rw [templateHead, forall_mem_linesOf, fileHead, List.forall_mem_append, List.forall_mem_append]
  refine ⟨⟨by decide +kernel, helper⟩, ?_⟩
  simp only [List.forall_mem_cons]
  exact ⟨empty, header, input, output, empty, List.forall_mem_nil _⟩

section

variable {config : Config} {program : Program}

/-- Where no comments are written, every line of a program is trimmed. -/
theorem Program.lines_trimmed (bare : config.annotate = false)
    (window : '\n' ∉ config.window.toList)
    (template : ∀ name ∈ config.template, '\n' ∉ name.toList) :
    ∀ line ∈ program.lines config, Trimmed line.text := by
  cases given : config.template with
  | none =>
      rw [program.lines_of_body given]
      exact Stmt.linesAll_trimmed bare window 0 program.statements
  | some name =>
      rw [program.lines_of_template given, List.forall_mem_append, List.forall_mem_append,
        List.forall_mem_singleton]
      exact ⟨⟨templateHead_trimmed (template name given) window,
        Stmt.linesAll_trimmed bare window 1 program.statements⟩, closing_trimmed⟩

/-- No line of a program has a line feed in it if no comment has one. -/
theorem Program.lines_unbroken (window : '\n' ∉ config.window.toList)
    (template : ∀ name ∈ config.template, '\n' ∉ name.toList)
    (comments : ∀ text, .comment text ∈ program.leaves → '\n' ∉ text.toList) :
    ∀ line ∈ program.lines config, '\n' ∉ line.text.toList := by
  cases given : config.template with
  | none =>
      rw [program.lines_of_body given]
      exact Stmt.linesAll_unbroken window 0 program.statements comments
  | some name =>
      rw [program.lines_of_template given, List.forall_mem_append, List.forall_mem_append,
        List.forall_mem_singleton]
      exact ⟨⟨fun line member =>
        (templateHead_trimmed (template name given) window line member).unbroken,
        Stmt.linesAll_unbroken window 1 program.statements comments⟩, closing_trimmed.unbroken⟩

end

/-! ## Programs that end in a constraint -/

/-- The last statement constrains a signal. -/
def Program.Concluded (program : Program) : Prop :=
  ∃ before target value, program.statements = before ++ [.constrain target value]

theorem ofAutomaton_concluded {automaton : Automaton} {program : Program} {counts : Counts}
    (emitted : ofAutomaton automaton = .ok (program, counts)) : program.Concluded := by
  obtain ⟨nodes, -, rfl, -⟩ := ofAutomaton_eq_ok.1 emitted
  have split (front : List Stmt) : front ++ reduction automaton.accept =
      (front ++ (reduction automaton.accept).dropLast) ++
        [.constrain .out (.signal (.sum .last))] := by
    rw [List.append_assoc]
    rfl
  exact ⟨_, _, _, split _⟩

section

variable {program : Program} (config : Config)

/-- The last line of such a program is not empty, and has no blank at its end. -/
theorem Program.Concluded.exists_last (concluded : program.Concluded)
    (window : '\n' ∉ config.window.toList) :
    ∃ front last, program.lines config = front ++ [last] ∧ Trimmed last.text ∧
      last.text ≠ "" := by
  cases given : config.template with
  | none =>
      obtain ⟨before, target, value, statements⟩ := concluded
      have trimmed : ∀ line ∈ (Stmt.constrain target value).lines config 0, Trimmed line.text :=
        Stmt.trimmed_of_single rfl window 0
      rw [Stmt.lines_of_calls rfl, List.forall_mem_singleton] at trimmed
      refine ⟨Stmt.linesAll config 0 before, _, ?_, trimmed, by simp [flow]⟩
      rw [program.lines_of_body given, statements, Stmt.linesAll_append, Stmt.linesAll_cons,
        Stmt.lines_of_calls rfl, Stmt.linesAll_nil, List.append_nil]
  | some name =>
      exact ⟨_, _, program.lines_of_template given, closing_trimmed, by simp [closing]⟩

/-- The text of such a program consists of the rows of all its lines. -/
theorem Program.Concluded.render_eq (concluded : program.Concluded)
    (window : '\n' ∉ config.window.toList) :
    program.render config =
      Text.ofLines ((program.lines config).map (Line.row config.indent) ++ [[]]) := by
  obtain ⟨front, last, lines, trimmed, written⟩ := concluded.exists_last config window
  rw [← ofList_joinLines, Program.render, Program.chars, lines,
    dropBlankEnd_joinLines trimmed written]

/-- Where no line has a line feed in it, these rows are the lines of the text. -/
theorem Program.Concluded.lines_render (concluded : program.Concluded)
    (window : '\n' ∉ config.window.toList) (margin : '\n' ∉ config.indent.toList)
    (unbroken : ∀ line ∈ program.lines config, '\n' ∉ line.text.toList) :
    Text.lines (program.render config) =
      (program.lines config).map (Line.row config.indent) ++ [[]] := by
  rw [concluded.render_eq config window, lines_of_rows margin unbroken]

end

end ScanCircuit.Circuit
