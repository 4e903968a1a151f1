import ScanCircuit.Proofs.Circuit.Layout

/-!
# Nesting

The text of a circuit is read line by line with a depth: a closing brace takes one away, and a
line that ends in an opening brace adds one for the lines after it.  Every line stands at its
depth, and the text ends at the depth at which it begins.

The reader's depth is the depth of the writer: each call of a writer leaves one line, whose
braces tell the reader what the call did to the depth.  The blanks that are dropped from the end
of the text are empty lines, which do not count.
-/

namespace ScanCircuit.Circuit

/-! ## Reading lines with a depth -/

/-- The depth of a line, from the depth in front of it. -/
def depthAt (depth : Int) (row : List Char) : Int :=
  if Text.content row = ['\x7d'] then depth - 1 else depth

/-- The depth behind a line, from the depth in front of it. -/
def depthAfter (depth : Int) (row : List Char) : Int :=
  if row.getLast? = some '\x7b' then depthAt depth row + 1 else depthAt depth row

/-- A line stands at a depth: it is empty, or it is so many units of indentation in front of a
character that is not blank. -/
structure StandsAt (indent : String) (depth : Int) (row : List Char) : Prop where
  nonneg : 0 ≤ depth
  margin : row ≠ [] → ∃ first text, ¬ Text.isBlank first ∧
    row = (List.replicate depth.toNat indent.toList).flatten ++ first :: text

/-- Reading the lines from one depth leads to the other, and every line stands at its depth. -/
inductive Nests (indent : String) : Int → List (List Char) → Int → Prop where
  | nil (depth : Int) : Nests indent depth [] depth
  | cons {start stop : Int} {row : List Char} {rows : List (List Char)} :
      StandsAt indent (depthAt start row) row →
        Nests indent (depthAfter start row) rows stop → Nests indent start (row :: rows) stop

section

variable {indent : String} {start middle stop : Int} {rows others : List (List Char)}

theorem Nests.append (first : Nests indent start rows middle)
    (second : Nests indent middle others stop) : Nests indent start (rows ++ others) stop := by
  induction first with
  | nil => exact second
  | cons stands _ ih => exact .cons stands (ih second)

theorem nests_empty (indent : String) {depth : Int} (nonneg : 0 ≤ depth) :
    Nests indent depth [[]] depth :=
  .cons ⟨nonneg, fun written => absurd rfl written⟩ (.nil depth)

/-- Empty lines leave the depth as it is. -/
theorem Nests.eq_of_empty (nests : Nests indent start rows stop) (empty : ∀ row ∈ rows, row = []) :
    start = stop := by
  induction nests with
  | nil => rfl
  | cons _ _ ih =>
      rw [List.forall_mem_cons] at empty
      obtain ⟨rfl, empty⟩ := empty
      exact ih empty

/-- One empty line does for all those at the end. -/
theorem Nests.collapse_end (nests : Nests indent start (rows ++ others) stop)
    (empty : ∀ row ∈ others, row = []) (nonneg : 0 ≤ stop) :
    Nests indent start (rows ++ [[]]) stop := by
  induction rows generalizing start with
  | nil =>
      cases nests.eq_of_empty empty
      exact nests_empty indent nonneg
  | cons row rows ih =>
      cases nests with
      | cons stands rest => exact .cons stands (ih rest)

end

/-! ## One line -/

namespace Line

variable {indent : String} {line : Line}

theorem depthAt_row (margin : ∀ char ∈ indent.toList, Text.isMargin char)
    (trimmed : Trimmed line.text) (depth : Int) :
    depthAt depth (line.row indent) = if line.text = closing then depth - 1 else depth := by
  have same : line.text.toList = ['\x7d'] ↔ line.text = closing := by
    rw [← String.toList_inj]
    rfl
  rw [depthAt, Line.content_row margin trimmed.start_not_margin]
  exact if_congr same rfl rfl

theorem getLast_row (indent : String) (line : Line) :
    (line.row indent).getLast? = line.text.toList.getLast? := by
  by_cases empty : line.text = ""
  · rw [Line.row_of_empty indent empty, empty]
    rfl
  · have written : line.text.toList ≠ [] := mt String.toList_eq_nil_iff.1 empty
    rw [Line.row_of_written indent empty, List.getLast?_append_of_ne_nil _ written]

theorem standsAt_row (trimmed : Trimmed line.text) :
    StandsAt indent line.depth (line.row indent) where
  nonneg := Int.natCast_nonneg line.depth
  margin written := by
    have nonempty : line.text ≠ "" := mt Line.row_eq_nil.2 written
    obtain ⟨first, text, chars⟩ :=
      List.exists_cons_of_ne_nil (mt String.toList_eq_nil_iff.1 nonempty)
    refine ⟨first, text, trimmed.start first (by rw [chars]; rfl), ?_⟩
    rw [Line.row_of_written indent nonempty, chars, Int.toNat_natCast]

/-- A line ends in a mark that tells what it does to the depth. -/
theorem nests_row (line : Line) (margin : ∀ char ∈ indent.toList, Text.isMargin char)
    (trimmed : Trimmed line.text) {start : Int}
    (stands : (if line.text = closing then start - 1 else start) = line.depth) :
    Nests indent start [line.row indent]
      (if line.text.toList.getLast? = some '\x7b' then line.depth + 1 else line.depth) := by
  rw [← depthAt_row margin trimmed] at stands
  apply Nests.cons
  · rw [stands]
    exact standsAt_row trimmed
  · rw [depthAfter, stands, getLast_row]
    exact .nil _

end Line

/-! ## The lines of calls -/

/-- A call whose line has braces only where the call opens or closes a block: any other line is
empty, or ends in a semicolon. -/
def Call.Plain : Call → Prop
  | .line text => text = "" ∨ Trimmed text ∧ text.toList.getLast? = some ';'
  | .enter header => Trimmed (opening header)
  | .leave => True

instance : DecidablePred Call.Plain
  | .line _ => inferInstanceAs (Decidable (_ ∨ _))
  | .enter header => inferInstanceAs (Decidable (Trimmed (opening header)))
  | .leave => inferInstanceAs (Decidable True)

section

variable {indent : String}

theorem nests_line (margin : ∀ char ∈ indent.toList, Text.isMargin char) {text : String}
    (plain : (Call.line text).Plain) (depth : Nat) :
    Nests indent depth [Line.row indent ⟨depth, text⟩] depth := by
  rcases plain with empty | ⟨trimmed, last⟩
  · rw [Line.row_of_empty indent empty]
    exact nests_empty indent (Int.natCast_nonneg depth)
  · have other : text ≠ closing := by
      intro same
      rw [same] at last
      cases last
    have nests := Line.nests_row ⟨depth, text⟩ margin trimmed (if_neg other)
    rw [last, if_neg (by decide)] at nests
    exact nests

theorem nests_opening (margin : ∀ char ∈ indent.toList, Text.isMargin char) {header : String}
    (trimmed : Trimmed (opening header)) (depth : Nat) :
    Nests indent depth [Line.row indent ⟨depth, opening header⟩] (depth + 1 : Nat) := by
  have last : (opening header).toList.getLast? = some '\x7b' := by simp [opening]
  have other : opening header ≠ closing := by
    intro same
    rw [same] at last
    cases last
  have nests := Line.nests_row ⟨depth, opening header⟩ margin trimmed (if_neg other)
  rw [if_pos last] at nests
  exact nests

theorem nests_closing (margin : ∀ char ∈ indent.toList, Text.isMargin char) (depth : Nat) :
    Nests indent (depth + 1 : Nat) [Line.row indent ⟨depth, closing⟩] depth := by
  have inside : (depth + 1 : Nat) - 1 = (depth : Int) := by omega
  have nests := Line.nests_row ⟨depth, closing⟩ margin closing_trimmed ((if_pos rfl).trans inside)
  have last : closing.toList.getLast? ≠ some '\x7b' := by decide
  rw [if_neg last] at nests
  exact nests

/-- Reading the lines of plain calls leads to the depth to which the calls lead the writer. -/
theorem Levels.nests (margin : ∀ char ∈ indent.toList, Text.isMargin char) {start stop : Nat}
    {calls : List Call} (levels : Levels start calls stop)
    (plain : ∀ call ∈ calls, call.Plain) :
    Nests indent start ((linesOf start calls).map (Line.row indent)) stop := by
  induction levels with
  | nil => exact .nil _
  | @line start _ _ _ _ ih =>
      rw [List.forall_mem_cons] at plain
      rw [linesOf_line, List.map_cons]
      exact (nests_line margin plain.1 start).append (ih plain.2)
  | @enter start _ _ _ _ ih =>
      rw [List.forall_mem_cons] at plain
      rw [linesOf_enter, List.map_cons]
      exact (nests_opening margin plain.1 start).append (ih plain.2)
  | @leave start _ _ _ ih =>
      rw [List.forall_mem_cons] at plain
      rw [linesOf_leave, List.map_cons, Nat.add_sub_cancel]
      exact (nests_closing margin start).append (ih plain.2)

end

/-! ## The calls of programs -/

theorem getLast_semicolon (text : String) : (text ++ ";").toList.getLast? = some ';' := by
  rw [String.toList_append]
  exact List.getLast?_concat

/-- A statement that takes one line ends in a semicolon, or it is empty. -/
theorem Stmt.heading_ends {config : Config} {stmt : Stmt} (single : stmt.isSingle) :
    stmt.heading config = "" ∨ (stmt.heading config).toList.getLast? = some ';' := by
  cases stmt with
  | loop | comment => cases single
  | blank => exact .inl rfl
  | declareComponents | declareStates | declareSum | instantiate | wire | constrain =>
      exact .inr (getLast_semicolon _)

section

variable {config : Config}

theorem Stmt.plain_of_single {stmt : Stmt} (single : stmt.isSingle)
    (window : '\n' ∉ config.window.toList) : ∀ call ∈ stmt.calls config, call.Plain := by
  have trimmed := Stmt.trimmed_of_single single window 0
  rw [Stmt.lines_eq_heading single, List.forall_mem_singleton] at trimmed
  rw [Stmt.calls_eq_heading single, List.forall_mem_singleton]
  exact (Stmt.heading_ends single).imp_right fun last => ⟨trimmed, last⟩

mutual

/-- The calls of a statement are plain where no comments are written. -/
theorem Stmt.calls_plain (bare : config.annotate = false) (window : '\n' ∉ config.window.toList) :
    ∀ stmt : Stmt, ∀ call ∈ stmt.calls config, call.Plain
  | .loop range body => by
      have trimmed := Stmt.lines_trimmed bare window 0 (.loop range body)
      rw [Stmt.lines_loop, List.forall_mem_cons] at trimmed
      rw [Stmt.calls, List.forall_mem_cons, List.forall_mem_append, List.forall_mem_singleton]
      exact ⟨trimmed.1, Stmt.callsAll_plain bare window body, trivial⟩
  | .comment text => by
      rw [Stmt.calls, bare]
      nofun
  | .declareComponents .. | .declareStates _ | .declareSum | .instantiate .. | .wire ..
  | .constrain .. | .blank => Stmt.plain_of_single rfl window

/-- The calls of several statements are plain where no comments are written. -/
theorem Stmt.callsAll_plain (bare : config.annotate = false)
    (window : '\n' ∉ config.window.toList) :
    ∀ stmts : List Stmt, ∀ call ∈ Stmt.callsAll config stmts, call.Plain
  | [] => nofun
  | stmt :: rest => by
      rw [Stmt.callsAll, List.forall_mem_append]
      exact ⟨Stmt.calls_plain bare window stmt, Stmt.callsAll_plain bare window rest⟩

end

end

theorem fileHead_plain {name window : String} (nameUnbroken : '\n' ∉ name.toList)
    (unbroken : '\n' ∉ window.toList) : ∀ call ∈ fileHead name window, call.Plain := by
  have trimmed := templateHead_trimmed nameUnbroken unbroken
  have helper : ∀ call ∈ multiOrHelper, call.Plain := by decide +kernel
  rw [templateHead, forall_mem_linesOf] at trimmed
  simp only [fileHead, List.forall_mem_append, List.forall_mem_cons] at trimmed
  obtain ⟨-, -, header, input, output, -, -⟩ := trimmed
  rw [fileHead, List.forall_mem_append, List.forall_mem_append]
  refine ⟨⟨by decide +kernel, helper⟩, ?_⟩
  simp only [List.forall_mem_cons]
  exact ⟨.inl rfl, header, .inr ⟨input, getLast_semicolon _⟩, .inr ⟨output, rfl⟩, .inl rfl,
    List.forall_mem_nil _⟩

theorem Program.calls_plain {config : Config} (bare : config.annotate = false)
    (window : '\n' ∉ config.window.toList)
    (template : ∀ name ∈ config.template, '\n' ∉ name.toList) (program : Program) :
    ∀ call ∈ program.calls config, call.Plain := by
  have body := Stmt.callsAll_plain bare window program.statements
  unfold Program.calls
  split
  next => exact body
  next name given =>
    rw [List.forall_mem_append, List.forall_mem_append, List.forall_mem_singleton]
    exact ⟨⟨fileHead_plain (template name given) window, body⟩, trivial⟩

/-! ## The end of a text -/

/-- Lines are all empty, or end in a line that is not with some empty ones after it. -/
theorem exists_last_written (lines : List Line) :
    (∀ line ∈ lines, line.text = "") ∨
      ∃ front last empty, lines = front ++ [last] ++ empty ∧ last.text ≠ "" ∧
        ∀ line ∈ empty, line.text = "" := by
  induction lines with
  | nil => exact .inl nofun
  | cons line lines ih =>
      rcases ih with empty | ⟨front, last, empty, rfl, written, restEmpty⟩
      · by_cases written : line.text = ""
        · exact .inl (List.forall_mem_cons.2 ⟨written, empty⟩)
        · exact .inr ⟨[], line, lines, rfl, written, empty⟩
      · exact .inr ⟨line :: front, last, empty, rfl, written, restEmpty⟩

/-- Empty lines at the end of a text are dropped. -/
theorem dropBlankEnd_empty (indent : String) (lines : List Line) {empty : List Line}
    (allEmpty : ∀ line ∈ empty, line.text = "") :
    Text.dropBlankEnd (joinLines indent (lines ++ empty)) =
      Text.dropBlankEnd (joinLines indent lines) := by
  have blank : ∀ char ∈ (empty.flatMap (Line.chars indent)).reverse, Text.isBlank char := by
    intro char member
    rw [List.mem_reverse] at member
    obtain ⟨line, among, inside⟩ := List.mem_flatMap.1 member
    rw [Line.chars_eq_row, Line.row_of_empty indent (allEmpty line among)] at inside
    cases List.mem_singleton.1 inside
    rfl
  rw [Text.dropBlankEnd, joinLines, List.flatMap_append, List.reverse_append,
    List.dropWhile_append_of_pos blank]
  rfl

theorem exists_joinLines_eq_append (indent : String) (lines : List Line) {line : Line}
    (trimmed : Trimmed line.text) (written : line.text ≠ "") :
    ∃ front last, ¬ Text.isBlank last ∧
      joinLines indent (lines ++ [line]) = front ++ [last, '\n'] := by
  obtain ⟨start, last, text⟩ :=
    (List.eq_nil_or_concat line.text.toList).resolve_left (mt String.toList_eq_nil_iff.1 written)
  rw [List.concat_eq_append] at text
  refine ⟨joinLines indent lines ++ ((List.replicate line.depth indent.toList).flatten ++ start),
    last, trimmed.stop last (by simp [text]), ?_⟩
  rw [joinLines, List.flatMap_append, List.flatMap_singleton, Line.chars_eq_row,
    Line.row_of_written _ written, text]
  simp [joinLines]

/-- The text of a program without comments is balanced, every line of it stands at its depth,
and it ends in one line feed after a character that is not blank. -/
theorem Program.render_nests (program : Program) {config : Config}
    (bare : config.annotate = false)
    (margin : ∀ char ∈ config.indent.toList, Text.isMargin char)
    (window : '\n' ∉ config.window.toList)
    (template : ∀ name ∈ config.template, '\n' ∉ name.toList) :
    Nests config.indent 0 (Text.lines (program.render config)) 0 ∧
      (program.render config = "\n" ∨
        ∃ front last, ¬ Text.isBlank last ∧
          (program.render config).toList = front ++ [last, '\n']) := by
  have trimmed : ∀ line ∈ program.lines config, Trimmed line.text :=
    Program.lines_trimmed bare window template
  have nests : Nests config.indent 0 ((program.lines config).map (Line.row config.indent)) 0 :=
    (program.calls_levels config).nests margin (program.calls_plain bare window template)
  rcases exists_last_written (program.lines config) with
    allEmpty | ⟨front, last, empty, lines, written, restEmpty⟩
  -- Without a line that is written, the text is the line feed at its end.
  · have text : program.render config = "\n" := by
      rw [Program.render, Program.chars, ← List.nil_append (program.lines config),
        dropBlankEnd_empty config.indent [] allEmpty]
      rfl
    have empty := nests_empty config.indent (le_refl 0)
    rw [text]
    exact ⟨empty.append empty, .inl rfl⟩
  -- Otherwise it ends in the last line that is written.
  · rw [lines] at trimmed nests
    have lastTrimmed : Trimmed last.text := trimmed last (by simp)
    have chars : program.chars config = joinLines config.indent (front ++ [last]) := by
      rw [Program.chars, lines, dropBlankEnd_empty config.indent _ restEmpty,
        dropBlankEnd_joinLines lastTrimmed written]
    constructor
    · rw [Program.render, chars, ofList_joinLines,
        lines_of_rows (Text.unbroken_of_isMargin margin) fun line member =>
          (trimmed line (List.mem_append_left _ member)).unbroken]
      rw [List.map_append] at nests
      apply nests.collapse_end _ (le_refl 0)
      rw [List.forall_mem_map]
      intro line member
      exact Line.row_of_empty _ (restEmpty line member)
    · obtain ⟨front, stop, fits, ends⟩ :=
        exists_joinLines_eq_append config.indent front lastTrimmed written
      refine .inr ⟨front, stop, fits, ?_⟩
      rw [Program.render, chars, String.toList_ofList, ends]

theorem Program.render_nests_loops :
    let program : Program :=
      { transitions := [.loop (.window 0)
          [.blank, .loop (.fixed 0 2) [.constrain (.sum .next) .byte, .blank]], .blank] }
    let config : Config := { template := some "Scan", indent := "  " }
    Nests "  " 0 (Text.lines (program.render config)) 0 ∧
      (program.render config = "\n" ∨
        ∃ front last, ¬ Text.isBlank last ∧
          (program.render config).toList = front ++ [last, '\n']) := by
  intro program config
  have margin : ∀ char ∈ config.indent.toList, Text.isMargin char :=
    List.all_eq_true.1 (by decide)
  have window : '\n' ∉ config.window.toList := by decide
  have template : ∀ name ∈ config.template, '\n' ∉ name.toList := by decide
  exact program.render_nests rfl margin window template

end ScanCircuit.Circuit
