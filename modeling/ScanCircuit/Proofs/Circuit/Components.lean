import ScanCircuit.Proofs.Circuit.Coverage

/-!
# Components are well formed

The leaves of a program are its statements in order, with the bodies of loops in place of
the loops.  All components of a program are instantiated, wired and read in the body of
its loop over the window.  There they are numbered from zero for each kind, every input
is wired once, after the component is instantiated, and every output is read once, after
all inputs are wired.

The order of wires and reads is that of the schedule of the body at any one position.
-/

namespace ScanCircuit.Circuit

mutual

/-- The statements of a statement without loops. -/
def Stmt.leaves : Stmt → List Stmt
  | .loop _ body => Stmt.leavesAll body
  | .declareComponents kind count => [.declareComponents kind count]
  | .declareStates nodes => [.declareStates nodes]
  | .declareSum => [.declareSum]
  | .instantiate component template => [.instantiate component template]
  | .wire component pin value => [.wire component pin value]
  | .constrain target value => [.constrain target value]
  | .comment text => [.comment text]
  | .blank => [.blank]

/-- The leaves of several statements. -/
def Stmt.leavesAll : List Stmt → List Stmt
  | [] => []
  | stmt :: rest => Stmt.leaves stmt ++ Stmt.leavesAll rest

end

/-- The leaves of a program. -/
def Program.leaves (program : Program) : List Stmt :=
  Stmt.leavesAll program.statements

/-- The components that a statement declares. -/
def Stmt.declared? : Stmt → Option (Kind × Nat)
  | .declareComponents kind count => some (kind, count)
  | _ => none

/-- A statement that has nothing to do with components, apart from declaring them. -/
def Stmt.Detached (stmt : Stmt) : Prop :=
  stmt.instance? = none ∧ stmt.wired? = none ∧ stmt.reads = []

variable {window position : Nat} {body front back before after : List Stmt}

theorem Stmt.leavesAll_append (first rest : List Stmt) :
    Stmt.leavesAll (first ++ rest) = Stmt.leavesAll first ++ Stmt.leavesAll rest := by
  induction first with
  | nil => rfl
  | cons stmt first ih => rw [List.cons_append, Stmt.leavesAll, ih, Stmt.leavesAll,
      List.append_assoc]

/-- Plain statements are their own leaves. -/
theorem leavesAll_plain (plain : ∀ stmt ∈ body, stmt.Plain) : Stmt.leavesAll body = body := by
  induction body with
  | nil => rfl
  | cons stmt rest ih =>
      have leaf : stmt.leaves = [stmt] := by
        have allowed := plain stmt (by simp)
        cases stmt with
        | loop => exact allowed.elim
        | declareComponents | declareStates | declareSum | instantiate | wire | constrain
        | comment | blank => rfl
      rw [Stmt.leavesAll, leaf, ih fun other member => plain other (by simp [member])]
      rfl

theorem leavesAll_loop (plain : ∀ stmt ∈ body, stmt.Plain) (range : LoopRange) :
    Stmt.leavesAll [.loop range body] = body := by
  rw [Stmt.leavesAll, Stmt.leaves, leavesAll_plain plain, Stmt.leavesAll, List.append_nil]

/-- Around the body of the loop over the window, no leaf of a program has to do with
components. -/
theorem leaves_assemble (nodes accept : Nat) {drafted : Drafted Unit}
    (plain : ∀ stmt ∈ drafted.body, stmt.Plain) :
    ∃ front back, (∀ stmt ∈ front ++ back, stmt.Detached) ∧
      (assemble nodes accept drafted).leaves = front ++ drafted.body ++ back := by
  have declared (selected : List Kind) :
      Stmt.leavesAll
          (selected.map fun kind => .declareComponents kind (drafted.counts.get kind)) =
        selected.map fun kind => .declareComponents kind (drafted.counts.get kind) := by
    induction selected with
    | nil => rfl
    | cons kind rest ih => exact congrArg (List.cons _) ih
  have outer : ∀ stmt ∈ Stmt.leavesAll (boundary nodes) ++ Stmt.leavesAll (reduction accept),
      stmt.Detached := by
    simp [boundary, reduction, Stmt.leavesAll, Stmt.leaves, Stmt.Detached, Stmt.instance?,
      Stmt.wired?, Stmt.reads, Expr.components, Expr.state]
  refine ⟨Stmt.leavesAll (declarations drafted.counts nodes ++ boundary nodes),
    Stmt.leavesAll (reduction accept), ?_, ?_⟩
  · rw [declarations, Stmt.leavesAll_append, Stmt.leavesAll_append, declared]
    intro stmt member
    simp only [List.append_assoc, List.mem_append, List.mem_map] at member
    rcases member with ⟨kind, -, rfl⟩ | arrays | inBoundary | inReduction
    · exact ⟨rfl, rfl, rfl⟩
    · simp only [Stmt.leavesAll, Stmt.leaves, List.mem_append, List.mem_singleton,
        List.not_mem_nil, or_false] at arrays
      rcases arrays with rfl | rfl <;> exact ⟨rfl, rfl, rfl⟩
    · exact outer stmt (List.mem_append_left _ inBoundary)
    · exact outer stmt (List.mem_append_right _ inReduction)
  · simp only [Program.leaves, Program.statements, assemble, Stmt.leavesAll_append,
      leavesAll_loop plain]

/-- A leaf that has to do with components stands in the middle part. -/
theorem split_middle {stmt : Stmt} (split : front ++ body ++ back = before ++ stmt :: after)
    (outer : stmt ∉ front ++ back) :
    ∃ inner rest, body = inner ++ stmt :: rest ∧ before = front ++ inner := by
  induction front generalizing before with
  | nil =>
      rw [List.nil_append] at split outer
      rcases List.append_eq_append_iff.1 split with ⟨more, -, tail⟩ | ⟨more, equal, tail⟩
      · simp [tail] at outer
      · cases more with
        | nil =>
            rw [List.nil_append] at tail
            simp [← tail] at outer
        | cons first rest =>
            obtain ⟨rfl, -⟩ := List.cons.inj tail
            exact ⟨before, rest, equal, rfl⟩
  | cons first rest ih =>
      rw [List.cons_append, List.mem_cons, not_or] at outer
      cases before with
      | nil => exact absurd (List.cons.inj split).1.symm outer.1
      | cons other before =>
          obtain ⟨rfl, tail⟩ := List.cons.inj split
          obtain ⟨inner, rest, equal, rfl⟩ := ih tail outer.2
          exact ⟨inner, rest, equal, rfl⟩

/-- What is outside the middle part adds nothing to the components made, wired or read. -/
theorem detached_around (outer : ∀ stmt ∈ front ++ back, stmt.Detached) (body : List Stmt) :
    let whole := front ++ body ++ back
    whole.filterMap Stmt.instance? = body.filterMap Stmt.instance? ∧
      whole.filterMap Stmt.wired? = body.filterMap Stmt.wired? ∧
      whole.flatMap Stmt.reads = body.flatMap Stmt.reads := by
  have nothing (part : List Stmt) (detached : ∀ stmt ∈ part, stmt.Detached) :
      part.filterMap Stmt.instance? = [] ∧ part.filterMap Stmt.wired? = [] ∧
        part.flatMap Stmt.reads = [] := by
    simp only [List.filterMap_eq_nil_iff, List.flatMap_eq_nil_iff]
    exact ⟨fun stmt member => (detached stmt member).1,
      fun stmt member => (detached stmt member).2.1, fun stmt member => (detached stmt member).2.2⟩
  obtain ⟨frontMade, frontWired, frontRead⟩ :=
    nothing front fun stmt member => outer stmt (by simp [member])
  obtain ⟨backMade, backWired, backRead⟩ :=
    nothing back fun stmt member => outer stmt (by simp [member])
  simp [frontMade, frontWired, frontRead, backMade, backWired, backRead]

/-! ## Order in the body -/

/-- A value reads the outputs of the components of its expression. -/
theorem gates_resolve {expr : Expr} {value : Value}
    (resolved : expr.resolve window (some position) = some value) :
    value.gates = expr.components.map fun component => ⟨component, position⟩ := by
  induction expr generalizing value with
  | const | byte | output =>
      cases resolved
      rfl
  | signal cell =>
      obtain ⟨place, -, rfl⟩ := Option.map_eq_some_iff.1 resolved
      rfl
  | add left right leftIH rightIH =>
      simp only [Expr.resolve, Option.bind_eq_some_iff, Option.map_eq_some_iff] at resolved
      obtain ⟨leftValue, leftResolved, rightValue, rightResolved, rfl⟩ := resolved
      simp [Value.gates, Expr.components, leftIH leftResolved, rightIH rightResolved]

section Order

variable {ledger : Ledger} {inner rest : List Stmt} {component : Component} {pin : Pin}
variable {template : Template}

/-- A scheduled wire has a value that flows through it. -/
theorem exists_wire_step {expr : Expr}
    (scheduled : Scheduled window ledger
      (stepsAt window position (.wire component pin expr :: rest))) :
    ∃ value, expr.resolve window (some position) = some value ∧
      stepsAt window position (.wire component pin expr :: rest) =
        .wire ⟨component, position⟩ pin value :: stepsAt window position rest := by
  rw [stepsAt_wire] at scheduled ⊢
  cases resolved : expr.resolve window (some position) with
  | none =>
      rw [resolved] at scheduled
      exact scheduled.1.elim
  | some value => exact ⟨value, rfl, rfl⟩

/-- A scheduled constraint has a cell and a value. -/
theorem exists_constrain_step {target : Signal} {expr : Expr}
    (scheduled : Scheduled window ledger
      (stepsAt window position (.constrain target expr :: rest))) :
    ∃ cell value, expr.resolve window (some position) = some value ∧
      stepsAt window position (.constrain target expr :: rest) =
        .constrain cell value :: stepsAt window position rest := by
  rw [stepsAt_constrain] at scheduled ⊢
  cases place : target.resolve window (some position) with
  | none =>
      rw [place] at scheduled
      exact scheduled.1.elim
  | some cell =>
      cases resolved : expr.resolve window (some position) with
      | none =>
          rw [place, resolved] at scheduled
          exact scheduled.1.elim
      | some value => exact ⟨cell, value, rfl, rfl⟩

theorem mem_wiredPins :
    (component, pin) ∈ body.filterMap Stmt.wired? ↔ ∃ expr, .wire component pin expr ∈ body := by
  rw [List.mem_filterMap]
  constructor
  · rintro ⟨stmt, member, wired⟩
    cases stmt with
    | wire other otherPin expr =>
        cases wired
        exact ⟨expr, member⟩
    | declareComponents | declareStates | declareSum | loop | instantiate | constrain | comment
    | blank => cases wired
  · rintro ⟨expr, member⟩
    exact ⟨_, member, rfl⟩

/-- Before a statement reads an output, the component is complete. -/
theorem complete_of_reads {stmt : Stmt}
    (scheduled : Scheduled window ledger (stepsAt window position (inner ++ stmt :: rest)))
    (read : component ∈ stmt.reads) :
    (ledger.recordAll (stepsAt window position inner)).Complete ⟨component, position⟩ := by
  rw [stepsAt_append, scheduled_append] at scheduled
  obtain ⟨-, later⟩ := scheduled
  cases stmt with
  | wire target pin expr =>
      obtain ⟨value, resolved, steps⟩ := exists_wire_step later
      rw [steps] at later
      apply later.1.2.2.gates
      rw [gates_resolve resolved]
      exact List.mem_map_of_mem read
  | constrain target expr =>
      obtain ⟨cell, value, resolved, steps⟩ := exists_constrain_step later
      rw [steps] at later
      apply later.1.2.gates
      rw [gates_resolve resolved]
      exact List.mem_map_of_mem read
  | declareComponents | declareStates | declareSum | loop | instantiate | comment | blank =>
      cases read

/-- Before a statement wires an input, the component is instantiated with a template that
has the input. -/
theorem template_of_wire {expr : Expr}
    (scheduled : Scheduled window ledger
      (stepsAt window position (inner ++ .wire component pin expr :: rest))) :
    ∃ template, (ledger.recordAll (stepsAt window position inner)).template
      ⟨component, position⟩ = some template ∧ pin ∈ template.pins := by
  rw [stepsAt_append, scheduled_append] at scheduled
  obtain ⟨-, later⟩ := scheduled
  obtain ⟨value, -, steps⟩ := exists_wire_step later
  rw [steps] at later
  exact later.1.1

variable (plain : ∀ stmt ∈ body, stmt.Plain) (untouched : ∀ gate, ledger.Untouched gate)
variable (scheduled : Scheduled window ledger (stepsAt window position body))

include plain untouched scheduled

/-- The gates of the ledger are those of the components that the body instantiates. -/
theorem template_stepsAt :
    (ledger.recordAll (stepsAt window position body)).template ⟨component, position⟩ =
        some template ↔
      .instantiate component template ∈ body := by
  rw [scheduled.template_recordAll, (untouched _).1, instantiate_mem_stepsAt plain]
  simp

omit scheduled in
/-- An input that is wired in the ledger is wired by the body. -/
theorem wire_mem_of_wired
    (wired : (⟨component, position⟩, pin) ∈
      (ledger.recordAll (stepsAt window position body)).wired) :
    ∃ expr, .wire component pin expr ∈ body := by
  rcases Ledger.mem_wired_recordAll.1 wired with old | ⟨value, member⟩
  · exact ((untouched _).2 pin old).elim
  · rcases mem_stepsAt plain member with ⟨_, _, equal, -⟩ | ⟨_, _, expr, _, equal, listed, -⟩ |
      ⟨_, _, equal⟩ | equal <;> cases equal
    exact ⟨expr, listed⟩

omit untouched in
/-- The steps wire the inputs that the body wires, in the same order. -/
theorem wired_stepsAt :
    (stepsAt window position body).filterMap Step.wired? =
      (body.filterMap Stmt.wired?).map fun input => (⟨input.1, position⟩, input.2) := by
  induction body generalizing ledger with
  | nil => rfl
  | cons stmt rest ih =>
      have restPlain : ∀ other ∈ rest, other.Plain :=
        fun other member => plain other (by simp [member])
      have allowed := plain stmt (by simp)
      cases stmt with
      | comment text => exact ih restPlain scheduled
      | instantiate component template => exact ih restPlain scheduled.2
      | wire component pin expr =>
          obtain ⟨value, -, steps⟩ := exists_wire_step scheduled
          rw [steps] at scheduled ⊢
          exact congrArg (List.cons _) (ih restPlain scheduled.2)
      | constrain target expr =>
          obtain ⟨cell, value, -, steps⟩ := exists_constrain_step scheduled
          rw [steps] at scheduled ⊢
          exact ih restPlain scheduled.2
      | declareComponents | declareStates | declareSum | loop | blank => exact allowed.elim

/-- A component is instantiated before it is wired. -/
theorem made_before_wire {expr : Expr} (split : body = inner ++ .wire component pin expr :: rest) :
    ∃ template, .instantiate component template ∈ inner := by
  subst split
  have innerPlain : ∀ stmt ∈ inner, stmt.Plain :=
    fun stmt member => plain stmt (List.mem_append_left _ member)
  obtain ⟨template, known, -⟩ := template_of_wire scheduled
  rw [stepsAt_append, scheduled_append] at scheduled
  exact ⟨template, (template_stepsAt innerPlain untouched scheduled.1).1 known⟩

/-- A component is instantiated and wired at all its inputs before its output is read. -/
theorem wired_before_read {stmt : Stmt} (split : body = inner ++ stmt :: rest)
    (read : component ∈ stmt.reads) :
    ∃ template, .instantiate component template ∈ inner ∧
      ∀ pin ∈ template.pins, ∃ expr, .wire component pin expr ∈ inner := by
  subst split
  have innerPlain : ∀ stmt ∈ inner, stmt.Plain :=
    fun stmt member => plain stmt (List.mem_append_left _ member)
  obtain ⟨template, known, wired⟩ := complete_of_reads scheduled read
  rw [stepsAt_append, scheduled_append] at scheduled
  refine ⟨template, (template_stepsAt innerPlain untouched scheduled.1).1 known, ?_⟩
  intro pin member
  exact wire_mem_of_wired innerPlain untouched (wired pin member)

/-- If all inputs end up wired, each input of a component is wired once by the body, and
nothing else is wired to the component. -/
theorem count_wired (closed : (ledger.recordAll (stepsAt window position body)).Closed)
    (made : .instantiate component template ∈ body) (pin : Pin) :
    (body.filterMap Stmt.wired?).count (component, pin) = if pin ∈ template.pins then 1 else 0 := by
  have known := (template_stepsAt plain untouched scheduled).2 made
  have nodup : (body.filterMap Stmt.wired?).Nodup := by
    have steps := scheduled.nodup_wired.1
    rw [wired_stepsAt plain scheduled] at steps
    exact steps.of_map _
  have wired : (component, pin) ∈ body.filterMap Stmt.wired? ↔ pin ∈ template.pins := by
    rw [mem_wiredPins]
    constructor
    · rintro ⟨expr, member⟩
      obtain ⟨inner, rest, rfl⟩ := List.append_of_mem member
      obtain ⟨other, early, inside⟩ := template_of_wire scheduled
      have later := scheduled
      rw [stepsAt_append, scheduled_append] at later
      have same := later.2.grows.template early
      rw [← Ledger.recordAll_append, ← stepsAt_append, known] at same
      exact Option.some.inj same ▸ inside
    · intro inside
      exact wire_mem_of_wired plain untouched (closed _ _ known pin inside)
  rw [nodup.count]
  exact if_congr wired rfl rfl

end Order

/-! ## Well-formed components -/

/-- The components of a program are numbered in order, fit their kinds, have each input
wired once and each output read once, in an order in which nothing is used before it is
ready, and the declarations count them. -/
theorem components_wellFormed {automaton : Automaton} {program : Program} {counts : Counts}
    (emitted : ofAutomaton automaton = .ok (program, counts)) :
    let body := Stmt.leavesAll program.transitions
    let whole := program.leaves
    (∀ kind, (body.filterMap Stmt.instance?).filter (fun component => component.kind = kind) =
        (List.range (counts.get kind)).map (Component.mk kind)) ∧
      whole.filterMap Stmt.instance? = body.filterMap Stmt.instance? ∧
      (∀ component template, .instantiate component template ∈ whole →
        component.kind.Fits template ∧
          ∀ pin, (whole.filterMap Stmt.wired?).count (component, pin) =
            if pin ∈ template.pins then 1 else 0) ∧
      (∀ before component pin value after,
        whole = before ++ .wire component pin value :: after →
          ∃ template, .instantiate component template ∈ before) ∧
      (∀ component, (whole.flatMap Stmt.reads).count component =
        if component.index < counts.get component.kind then 1 else 0) ∧
      (∀ before stmt after component, whole = before ++ stmt :: after → component ∈ stmt.reads →
        ∃ template, .instantiate component template ∈ before ∧
          ∀ pin ∈ template.pins, ∃ value, .wire component pin value ∈ before) ∧
      program.declarations.filterMap Stmt.declared? =
        ([.eq, .lt, .and, .multiOr].filter fun kind => counts.get kind ≠ 0).map
          fun kind => (kind, counts.get kind) := by
  obtain ⟨planned, plan, rfl, rfl⟩ := ofAutomaton_eq_ok.1 emitted
  have accounts := draftNodes_accounts
    (fun node member edge edgeMember => (plan.edge_fits member edgeMember).2) {}
  obtain ⟨ledger, untouched, -, scheduled, closed⟩ := plan.scheduled Nat.zero_lt_one
  generalize draftNodes planned {} = drafted at accounts scheduled closed ⊢
  obtain ⟨front, back, outer, leaves⟩ :=
    leaves_assemble automaton.size automaton.accept accounts.plain
  obtain ⟨made, wired, read⟩ := detached_around outer drafted.body
  obtain ⟨ordered, once⟩ := accounts.made
  have body : Stmt.leavesAll (assemble automaton.size automaton.accept drafted).transitions =
      drafted.body := leavesAll_loop accounts.plain _
  have inside {stmt : Stmt} (attached : ¬stmt.Detached) : stmt ∉ front ++ back :=
    fun member => attached (outer stmt member)
  simp only [leaves, body, made, wired, read]
  refine ⟨ordered, trivial, ?_, ?_, ?_, ?_, ?_⟩
  · intro component template member
    have listed : .instantiate component template ∈ drafted.body := by
      obtain ⟨before, after, split⟩ := List.append_of_mem member
      obtain ⟨inner, rest, equal, -⟩ :=
        split_middle split (inside fun detached => nomatch detached.1)
      simp [equal]
    exact ⟨accounts.plain _ listed,
      count_wired accounts.plain untouched scheduled closed listed⟩
  · intro before component pin value after split
    obtain ⟨inner, rest, equal, rfl⟩ :=
      split_middle split (inside fun detached => nomatch detached.2.1)
    obtain ⟨template, member⟩ := made_before_wire accounts.plain untouched scheduled equal
    exact ⟨template, List.mem_append_right _ member⟩
  · intro component
    have balanced := accounts.balanced component
    rw [once, List.count_nil, Nat.add_zero, Nat.zero_add] at balanced
    exact balanced
  · intro before stmt after component split read
    have attached : ¬stmt.Detached := by
      intro detached
      simp [detached.2.2] at read
    obtain ⟨inner, rest, equal, rfl⟩ := split_middle split (inside attached)
    obtain ⟨template, member, wires⟩ :=
      wired_before_read accounts.plain untouched scheduled equal read
    refine ⟨template, List.mem_append_right _ member, ?_⟩
    intro pin pinMember
    obtain ⟨value, wire⟩ := wires pin pinMember
    exact ⟨value, List.mem_append_right _ wire⟩
  · simp only [assemble, declarations, List.filterMap_append, List.filterMap_map]
    have kinds (selected : List Kind) :
        selected.filterMap (Stmt.declared? ∘ fun kind =>
            .declareComponents kind (drafted.counts.get kind)) =
          selected.map fun kind => (kind, drafted.counts.get kind) := by
      induction selected with
      | nil => rfl
      | cons kind rest ih => exact congrArg (List.cons _) ih
    rw [kinds]
    exact List.append_nil _

theorem components_wellFormed_numerals :
    ∃ program counts, ofAutomaton .numerals = .ok (program, counts) ∧
      ∀ component, (program.leaves.flatMap Stmt.reads).count component =
        if component.index < counts.get component.kind then 1 else 0 := by
  obtain ⟨program, counts, emitted⟩ := emitted_numerals
  obtain ⟨-, -, -, -, read, -⟩ := components_wellFormed emitted
  exact ⟨program, counts, emitted, read⟩

end ScanCircuit.Circuit
