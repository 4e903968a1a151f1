import ScanCircuit.Proofs.Circuit.Layout
import ScanCircuit.Proofs.Circuit.Transition

/-!
# Comments

A draft comments on its checks: there is one comment for each equality check, and one for the
two comparisons of a range check.  What a comment shows of a byte has no line feed in it, so a
comment takes exactly one line, and no other line looks like one.

`render_eq_without_comments` says that the text with comments differs from the text without
them in nothing but these lines.
-/

namespace ScanCircuit.Circuit

/-! ## What drafts comment on -/

/-- The text of a comment. -/
def Stmt.comment? : Stmt → Option String
  | .comment text => some text
  | _ => none

theorem mem_comments {text : String} {body : List Stmt} :
    text ∈ body.filterMap Stmt.comment? ↔ .comment text ∈ body := by
  rw [List.mem_filterMap]
  constructor
  · rintro ⟨stmt, member, equal⟩
    cases stmt with
    | comment other =>
        cases equal
        exact member
    | declareComponents | declareStates | declareSum | loop | instantiate | wire | constrain
    | blank => cases equal
  · intro member
    exact ⟨_, member, rfl⟩

theorem label_unbroken (charClass : CharClass) : '\n' ∉ charClass.label.toList := by
  cases charClass <;> decide

/-- A byte is shown by a printable character or by an escape. -/
theorem shownByte_unbroken (code : UInt8) : '\n' ∉ (shownByte code).toList := by
  have printable : ∀ value ≤ 0x7E, 0x20 ≤ value → Char.ofNat value ≠ '\n' := by decide +kernel
  have digit : ∀ value < 16, Nat.digitChar value ≠ '\n' := by decide
  have bound := code.toNat_lt
  unfold shownByte
  dsimp only
  split
  next shown => simpa using (printable code.toNat shown.2 shown.1).symm
  next =>
    split
    · decide
    · split
      · decide
      · split
        · decide
        · have high := digit (code.toNat / 16) (by omega)
          have low := digit (code.toNat % 16) (by omega)
          simp [high.symm, low.symm]

/-- Twice the number of comments on so many components. -/
def Counts.remarks (counts : Counts) : Nat :=
  2 * counts.eq + counts.lt

/-- A draft writes comments without line feeds, one for each check. -/
structure Remarks {α : Type} (draft : Draft α) : Prop where
  unbroken : ∀ counts, ∀ text ∈ (draft counts).body.filterMap Stmt.comment?, '\n' ∉ text.toList
  tally : ∀ counts, (draft counts).counts.remarks =
    counts.remarks + 2 * ((draft counts).body.filterMap Stmt.comment?).length

section

variable {α β : Type}

theorem remarks_pure (result : α) : Remarks (pure result : Draft α) where
  unbroken := nofun
  tally _ := rfl

theorem Remarks.bind {first : Draft α} {next : α → Draft β} (firstRemarks : Remarks first)
    (nextRemarks : ∀ result, Remarks (next result)) : Remarks (first >>= next) where
  unbroken counts := by
    rw [Draft.run_bind, List.filterMap_append, List.forall_mem_append]
    exact ⟨firstRemarks.unbroken counts, (nextRemarks _).unbroken _⟩
  tally counts := by
    have before := firstRemarks.tally counts
    have after := (nextRemarks (first counts).result).tally (first counts).counts
    simp only [Draft.run_bind, List.filterMap_append, List.length_append]
    omega

/-- Writing anything but a comment leaves the number of comments as it is. -/
theorem remarks_write {stmt : Stmt} (other : stmt.comment? = none) :
    Remarks (Draft.write stmt) where
  unbroken counts := by simp [Draft.write, other]
  tally counts := by simp [Draft.write, other]

theorem remarks_wire (component : Component) (pin : Pin) (value : Expr) :
    Remarks (Draft.wire component pin value) :=
  remarks_write rfl

/-- Gates that join outputs need no comment. -/
theorem remarks_instantiate {kind : Kind} (template : Template)
    (joins : kind = .and ∨ kind = .multiOr) : Remarks (Draft.instantiate kind template) where
  unbroken _ := nofun
  tally counts := by rcases joins with rfl | rfl <;> rfl

end

/-- What a comment says of a check. -/
def remark : Check → String
  | .range charClass => charClass.label
  | .equal code => shownByte code

theorem comments_draftCheck (check : Check) (counts : Counts) :
    (draftCheck check counts).body.filterMap Stmt.comment? = [remark check] := by
  cases check <;> rfl

theorem remarks_draftCheck (check : Check) : Remarks (draftCheck check) where
  unbroken counts := by
    rw [comments_draftCheck, List.forall_mem_singleton]
    cases check with
    | range charClass => exact label_unbroken charClass
    | equal code => exact shownByte_unbroken code
  tally counts := by
    rw [comments_draftCheck]
    cases check with
    | range charClass => rfl
    | equal code =>
        change 2 * (counts.eq + 1) + counts.lt = 2 * counts.eq + counts.lt + 2
        omega

theorem remarks_draftChecks (checks : List Check) : Remarks (draftChecks checks) := by
  induction checks with
  | nil => exact remarks_pure []
  | cons check rest ih =>
      apply (remarks_draftCheck check).bind
      intro first
      apply ih.bind
      intro others
      exact remarks_pure (first :: others)

theorem remarks_wireInputs (component : Component) (start : Nat) (terms : List Component) :
    Remarks (wireInputs component start terms) := by
  induction terms generalizing start with
  | nil => exact remarks_pure ()
  | cons term rest ih =>
      apply (remarks_wire component (.input start) (.output term)).bind
      intro _
      exact ih (start + 1)

theorem remarks_draftAny (terms : List Component) : Remarks (draftAny terms) := by
  unfold draftAny
  split
  next single => exact remarks_pure (Expr.output single)
  next =>
    apply (remarks_instantiate (.multiOr terms.length) (.inr rfl)).bind
    intro any
    apply (remarks_wireInputs any 0 terms).bind
    intro _
    exact remarks_pure (Expr.output any)

theorem remarks_draftEdge (edge : PlannedEdge) : Remarks (draftEdge edge) := by
  apply (remarks_draftChecks edge.checks).bind
  intro terms
  apply (remarks_instantiate .and (.inl rfl)).bind
  intro gate
  apply (remarks_wire gate .a (.state .current edge.source)).bind
  intro _
  apply (remarks_draftAny terms).bind
  intro condition
  apply (remarks_wire gate .b condition).bind
  intro _
  exact remarks_pure gate

theorem remarks_draftEdges (edges : List PlannedEdge) : Remarks (draftEdges edges) := by
  induction edges with
  | nil => exact remarks_pure []
  | cons edge rest ih =>
      apply (remarks_draftEdge edge).bind
      intro first
      apply ih.bind
      intro others
      exact remarks_pure (first :: others)

theorem remarks_draftNode (node : Nat) (edges : List PlannedEdge) :
    Remarks (draftNode node edges) := by
  cases edges with
  | nil => exact remarks_write rfl
  | cons edge rest =>
      apply (remarks_draftEdges (edge :: rest)).bind
      intro gates
      apply (remarks_draftAny gates).bind
      intro active
      exact remarks_write rfl

theorem remarks_draftNodes (nodes : List (Nat × List PlannedEdge)) :
    Remarks (draftNodes nodes) := by
  induction nodes with
  | nil => exact remarks_pure ()
  | cons node rest ih =>
      apply (remarks_draftNode node.1 node.2).bind
      intro _
      exact ih

/-! ## The comments of a circuit -/

/-- All comments of a circuit are in the body of its loop over the window. -/
theorem comments_assemble (nodes accept : Nat) {drafted : Drafted Unit}
    (plain : ∀ stmt ∈ drafted.body, stmt.Plain) :
    (assemble nodes accept drafted).leaves.filterMap Stmt.comment? =
      drafted.body.filterMap Stmt.comment? := by
  have declared (selected : List Kind) :
      (Stmt.leavesAll (selected.map fun kind =>
        .declareComponents kind (drafted.counts.get kind))).filterMap Stmt.comment? = [] := by
    induction selected with
    | nil => rfl
    | cons kind rest ih => exact ih
  simp only [Program.leaves, Program.statements, assemble, declarations, Stmt.leavesAll_append,
    leavesAll_loop plain, List.filterMap_append, declared, List.nil_append]
  exact List.append_nil _

/-- A circuit has a comment without line feed for each equality check and each range check. -/
theorem comments_ofAutomaton {automaton : Automaton} {program : Program} {counts : Counts}
    (emitted : ofAutomaton automaton = .ok (program, counts)) :
    (∀ text, .comment text ∈ program.leaves → '\n' ∉ text.toList) ∧
      (program.leaves.filterMap Stmt.comment?).length = counts.eq + counts.lt / 2 := by
  obtain ⟨nodes, planned, rfl, rfl⟩ := ofAutomaton_eq_ok.1 emitted
  have plain := (draftNodes_accounts
    (fun node member edge edgeMember => (planned.edge_fits member edgeMember).2) {}).plain
  have comments := comments_assemble automaton.size automaton.accept plain
  have remarks := remarks_draftNodes nodes
  constructor
  · intro text member
    rw [← mem_comments, comments] at member
    exact remarks.unbroken {} text member
  · have tally := remarks.tally {}
    rw [comments]
    simp only [Counts.remarks] at tally
    omega

/-! ## The lines of comments -/

/-- A line whose text begins with two slashes. -/
def Line.isComment (line : Line) : Bool :=
  ['/', '/'].isPrefixOf line.text.toList

/-- The first lines are the second ones with so many comments among them. -/
structure Commented (annotated bare : List Line) (comments : Nat) : Prop where
  others : (annotated.filter fun line => !line.isComment) = bare
  count : annotated.countP Line.isComment = comments

theorem Commented.append {annotated bare moreAnnotated moreBare : List Line}
    {comments moreComments : Nat} (first : Commented annotated bare comments)
    (second : Commented moreAnnotated moreBare moreComments) :
    Commented (annotated ++ moreAnnotated) (bare ++ moreBare) (comments + moreComments) where
  others := by rw [List.filter_append, first.others, second.others]
  count := by rw [List.countP_append, first.count, second.count]

theorem Commented.none {lines : List Line} (other : ∀ line ∈ lines, line.isComment = false) :
    Commented lines lines 0 where
  others := by
    rw [List.filter_eq_self]
    intro line member
    rw [other line member]
    rfl
  count := by
    rw [List.countP_eq_zero]
    intro line member
    rw [other line member]
    nofun

/-- Where no comments are written, no statement begins like a comment. -/
theorem Stmt.heading_not_comment (config : Config) (bare : config.annotate = false)
    (stmt : Stmt) : ['/', '/'].isPrefixOf (stmt.heading config).toList = false := by
  rw [Bool.eq_false_iff, Ne, List.isPrefixOf_iff_prefix]
  rintro ⟨rest, same⟩
  have sorts := Stmt.sortOf_heading bare stmt
  rw [← same] at sorts
  cases stmt <;> cases sorts

theorem closing_not_comment (depth : Nat) :
    ∀ line ∈ [(⟨depth, closing⟩ : Line)], line.isComment = false := by
  simp [Line.isComment, closing, List.isPrefixOf]

theorem Stmt.commented_of_single {stmt : Stmt} (single : stmt.isSingle) (config : Config)
    (depth : Nat) :
    Commented (stmt.lines { config with annotate := true } depth)
      (stmt.lines { config with annotate := false } depth)
      (stmt.leaves.filterMap Stmt.comment?).length := by
  have none : stmt.leaves.filterMap Stmt.comment? = [] := by
    cases stmt with
    | loop | comment => cases single
    | declareComponents | declareStates | declareSum | instantiate | wire | constrain | blank =>
        rfl
  rw [lines_eq_heading single, lines_eq_heading single, none]
  apply Commented.none
  rw [List.forall_mem_singleton]
  exact stmt.heading_not_comment _ rfl

section

variable (config : Config)

mutual

/-- With comments, a statement has one more line for each of them. -/
theorem Stmt.lines_commented (depth : Nat) : ∀ stmt : Stmt,
    Commented (stmt.lines { config with annotate := true } depth)
      (stmt.lines { config with annotate := false } depth)
      (stmt.leaves.filterMap Stmt.comment?).length
  | .loop range body => by
      have header : ∀ line ∈ [(⟨depth, opening (range.text config.window)⟩ : Line)],
          line.isComment = false := by
        rw [List.forall_mem_singleton]
        exact Stmt.heading_not_comment { window := config.window } rfl (.loop range body)
      have commented := ((Commented.none header).append
        (Stmt.linesAll_commented (depth + 1) body)).append
          (Commented.none (closing_not_comment depth))
      rw [Nat.zero_add, Nat.add_zero] at commented
      rw [Stmt.lines_loop, Stmt.lines_loop, Stmt.leaves]
      exact commented
  | .comment text => by
      rw [Stmt.lines_comment, Stmt.lines_comment, if_pos rfl, if_neg nofun]
      have slashes : Line.isComment ⟨depth, "//" ++ text⟩ = true := by
        simp [Line.isComment, String.toList_append]
      exact ⟨by simp [slashes], by simp [slashes, Stmt.leaves, Stmt.comment?]⟩
  | .declareComponents .. | .declareStates _ | .declareSum | .instantiate .. | .wire ..
  | .constrain .. | .blank => Stmt.commented_of_single rfl config depth

/-- With comments, several statements have one more line for each of them. -/
theorem Stmt.linesAll_commented (depth : Nat) : ∀ stmts : List Stmt,
    Commented (Stmt.linesAll { config with annotate := true } depth stmts)
      (Stmt.linesAll { config with annotate := false } depth stmts)
      ((Stmt.leavesAll stmts).filterMap Stmt.comment?).length
  | [] => ⟨rfl, rfl⟩
  | stmt :: rest => by
      rw [Stmt.linesAll_cons, Stmt.linesAll_cons, Stmt.leavesAll, List.filterMap_append,
        List.length_append]
      exact (Stmt.lines_commented depth stmt).append (Stmt.linesAll_commented depth rest)

end

end

theorem templateHead_not_comment (name window : String) :
    ∀ line ∈ templateHead name window, line.isComment = false := by
  let notComment (text : String) : Prop := ['/', '/'].isPrefixOf text.toList = false
  have helper : ∀ call ∈ multiOrHelper, notComment call.text := by decide +kernel
  have calls : ∀ call ∈ fileHead name window, notComment call.text := by
    rw [fileHead, List.forall_mem_append, List.forall_mem_append]
    refine ⟨⟨by decide +kernel, helper⟩, ?_⟩
    simp [notComment, Call.text, opening, List.isPrefixOf]
  exact (@forall_mem_linesOf notComment 0 _).2 calls

/-- With comments, a program has one more line for each of them. -/
theorem Program.lines_commented (config : Config) (program : Program) :
    Commented (program.lines { config with annotate := true })
      (program.lines { config with annotate := false })
      (program.leaves.filterMap Stmt.comment?).length := by
  obtain ⟨window, template, annotate, indent⟩ := config
  cases template with
  | none =>
      rw [program.lines_of_body rfl, program.lines_of_body rfl]
      exact Stmt.linesAll_commented _ 0 program.statements
  | some name =>
      have commented := ((Commented.none (templateHead_not_comment name window)).append
        (Stmt.linesAll_commented ⟨window, some name, annotate, indent⟩ 1
          program.statements)).append (Commented.none (closing_not_comment 0))
      rw [Nat.zero_add, Nat.add_zero] at commented
      rw [program.lines_of_template rfl, program.lines_of_template rfl]
      exact commented

/-! ## The text without comments -/

/-- A comment and a trimmed line both begin right after the margin. -/
theorem Line.isComment_row {indent : String} {line : Line}
    (margin : ∀ char ∈ indent.toList, Text.isMargin char)
    (begins : line.isComment ∨ Trimmed line.text) :
    Text.isComment (line.row indent) = line.isComment := by
  have start : ∀ char ∈ line.text.toList.head?, Text.isMargin char = false := by
    intro char first
    rcases begins with slashes | trimmed
    · obtain ⟨rest, text⟩ := List.isPrefixOf_iff_prefix.1 slashes
      rw [← text] at first
      cases first
      rfl
    · exact trimmed.start_not_margin char first
  rw [Text.isComment, Line.content_row margin start]
  rfl

/-- Without its lines of comments, the text of a circuit is the text that is written when
comments are not, and there is such a line for each equality check and each range check. -/
theorem render_eq_without_comments {automaton : Automaton} {compilation : Compilation}
    (compiled : Compilation.ofAutomaton automaton = .ok compilation) {config : Config}
    (margin : ∀ char ∈ config.indent.toList, Text.isMargin char)
    (window : '\n' ∉ config.window.toList)
    (template : ∀ name ∈ config.template, '\n' ∉ name.toList) :
    let annotated := Text.lines (compilation.render { config with annotate := true })
    Text.ofLines (annotated.filter fun line => !Text.isComment line) =
        compilation.render { config with annotate := false } ∧
      annotated.countP Text.isComment = compilation.counts.eq + compilation.counts.lt / 2 := by
  intro annotated
  obtain ⟨emitted, -⟩ := Compilation.ofAutomaton_eq_ok.1 compiled
  have concluded := ofAutomaton_concluded emitted
  obtain ⟨unbroken, tally⟩ := comments_ofAutomaton emitted
  obtain ⟨others, count⟩ := compilation.program.lines_commented config
  have feedless := Text.unbroken_of_isMargin margin
  have rows : annotated = _ := concluded.lines_render { config with annotate := true }
    window feedless (Program.lines_unbroken window template unbroken)
  have bareText : compilation.render { config with annotate := false } = _ :=
    concluded.render_eq { config with annotate := false } window
  have bareTrimmed : ∀ line ∈ compilation.program.lines { config with annotate := false },
      Trimmed line.text :=
    Program.lines_trimmed rfl window template
  -- Every line is a comment, or is written without comments too.
  have isComment : ∀ line ∈ compilation.program.lines { config with annotate := true },
      Text.isComment (line.row config.indent) = line.isComment := by
    intro line member
    apply Line.isComment_row margin
    by_cases comment : line.isComment
    · exact .inl comment
    · have kept : line ∈ compilation.program.lines { config with annotate := false } := by
        rw [← others, List.mem_filter]
        exact ⟨member, by simpa using comment⟩
      exact .inr (bareTrimmed line kept)
  constructor
  · have kept : (compilation.program.lines { config with annotate := true }).filter
        ((fun row => !Text.isComment row) ∘ Line.row config.indent) =
          compilation.program.lines { config with annotate := false } := by
      rw [← others]
      apply List.filter_congr
      intro line member
      rw [Function.comp_apply, isComment line member]
    rw [bareText, rows, List.filter_append, List.filter_map, kept]
    rfl
  · rw [rows, ← tally, ← count, List.countP_append, List.countP_map]
    apply List.countP_congr
    intro line member
    rw [Function.comp_apply, isComment line member]

theorem render_eq_without_comments_numerals :
    ∃ compilation, Compilation.ofAutomaton .numerals = .ok compilation ∧
      let config : Config := { window := "n", template := some "Scan", indent := "  " }
      let annotated := Text.lines (compilation.render { config with annotate := true })
      Text.ofLines (annotated.filter fun line => !Text.isComment line) =
          compilation.render { config with annotate := false } ∧
        annotated.countP Text.isComment = 4 := by
  obtain ⟨compilation, compiled, counts⟩ : ∃ compilation,
      Compilation.ofAutomaton .numerals = .ok compilation ∧
        compilation.counts.eq + compilation.counts.lt / 2 = 4 := ⟨_, rfl, rfl⟩
  refine ⟨compilation, compiled, ?_⟩
  rw [← counts]
  exact render_eq_without_comments compiled (List.all_eq_true.1 rfl) (by decide) (by decide)

end ScanCircuit.Circuit
