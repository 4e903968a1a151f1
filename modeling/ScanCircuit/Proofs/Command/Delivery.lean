import ScanCircuit.Proofs.Command.Outputs

/-!
# Delivery of a compilation

A compilation prepares its table and its circuit and then moves the circuit and the table
into place. Two things follow from that order. A table that is prepared but cannot be moved
leaves the circuit behind, and a table that is prepared at the destination of the circuit is
replaced by it. In all other cases a run that fails leaves the destinations as they were,
and a run that succeeds has delivered to each what belongs there.
-/

namespace ScanCircuit

open Command

/-- The circuit that is asked for. -/
def CompileArgs.circuit (args : CompileArgs) (compilation : Compilation) : String :=
  compilation.render
    { window := args.window, template := args.template, annotate := args.annotate }

namespace Machine

variable {machine after : Machine} {args : CompileArgs} {compilation : Compilation}

/-- Both outputs are prepared before the circuit and then the table are moved into place. -/
theorem deliver_ok {printed : String} (plain : machine.files.Plain)
    (ran : machine.execute (deliver args compilation) = (.ok printed, after)) :
    ∃ first second third,
      machine.execute (stageAny compilation.table.render args.lookup) =
        (.ok (args.lookup.map Staged.mk), first) ∧
      first.execute (stageAny (args.circuit compilation) args.output) =
        (.ok (args.output.map Staged.mk), second) ∧
      second.execute (commitAny (args.output.map Staged.mk)) = (.ok (), third) ∧
      third.execute (commitAny (args.lookup.map Staged.mk)) = (.ok (), after) ∧
      printed = if args.output.isSome then "" else args.circuit compilation := by
  unfold deliver at ran
  obtain ⟨lookup, first, stagedTable, ran⟩ := execute_bind_ok.1 ran
  obtain ⟨output, second, stagedCircuit, ran⟩ := execute_bind_ok.1 ran
  obtain ⟨_, third, movedCircuit, ran⟩ := execute_bind_ok.1 ran
  obtain ⟨_, fourth, movedTable, ran⟩ := execute_bind_ok.1 ran
  cases ran
  obtain ⟨rfl, _, plainFirst, _⟩ := stageAny_ok plain stagedTable
  obtain ⟨rfl, _, _, _⟩ := stageAny_ok plainFirst (guarding_ok stagedCircuit)
  exact ⟨first, second, third, stagedTable, guarding_ok stagedCircuit, guarding_ok movedCircuit,
    movedTable, rfl⟩

/-- The hidden files of the outputs. -/
def Prepares (machine : Machine) (args : CompileArgs) (place : Location) : Prop :=
  machine.StagesAt args.lookup place ∨ machine.StagesAt args.output place

/-- Both outputs can be prepared and the circuit can be moved into place, but the table cannot. -/
def Strands (machine : Machine) (args : CompileArgs) : Prop :=
  ∃ output ∈ args.output, ∃ lookup ∈ args.lookup,
    (machine.staging? lookup).isSome ∧ (machine.staging? output).isSome ∧
      (machine.target? output).isSome ∧ machine.target? lookup = none

/-- A delivery that fails has moved nothing into place, or it has moved the circuit and
cannot move the table. -/
theorem deliver_error {error : CommandError} (plain : machine.files.Plain)
    (ran : machine.execute (deliver args compilation) = (.error error, after)) :
    (Touches (machine.Prepares args) machine after ∧ ¬ machine.Strands args) ∨
      ∃ output ∈ args.output, ∃ lookup ∈ args.lookup, ∃ first second third,
        machine.execute (stageAny compilation.table.render (some lookup)) =
          (.ok (some ⟨lookup⟩), first) ∧
        first.execute (stageAny (args.circuit compilation) (some output)) =
          (.ok (some ⟨output⟩), second) ∧
        second.execute (commit ⟨output⟩) = (.ok (), third) ∧
        third.execute (commit ⟨lookup⟩) = (.error error, after) := by
  unfold deliver at ran
  obtain failed | ⟨lookup, first, stagedTable, ran⟩ := execute_bind_error.1 ran
  · left
    obtain ⟨rfl, lookup, isLookup, unavailable⟩ := stageAny_error plain failed
    refine ⟨.refl _ _, ?_⟩
    intro ⟨_, _, other, isOther, prepared, _⟩
    cases Option.mem_unique isOther isLookup
    simp [unavailable] at prepared
  obtain ⟨rfl, toFirst, plainFirst, _⟩ := stageAny_ok plain stagedTable
  have table : Touches (machine.Prepares args) machine first := toFirst.mono fun _ => .inl
  obtain failed | ⟨output, second, stagedCircuit, ran⟩ := execute_bind_error.1 ran
  · left
    obtain ⟨between, failed, withdrawn⟩ := guarding_error failed
    obtain ⟨rfl, output, isOutput, unavailable⟩ := stageAny_error plainFirst failed
    rw [toFirst.stagesAt] at withdrawn
    refine ⟨table.trans (withdrawn.mono fun _ => .inl), ?_⟩
    intro ⟨other, isOther, _, _, _, prepared, _⟩
    cases Option.mem_unique isOther isOutput
    simp [← toFirst.staging?, unavailable] at prepared
  have prepared := guarding_ok stagedCircuit
  obtain ⟨rfl, toSecond, _, waits⟩ := stageAny_ok plainFirst prepared
  rw [toFirst.stagesAt] at toSecond
  have both : Touches (machine.Prepares args) machine second :=
    table.trans (toSecond.mono fun _ => .inr)
  obtain failed | ⟨_, third, movedCircuit, ran⟩ := execute_bind_error.1 ran
  · left
    obtain ⟨between, failed, withdrawn⟩ := guarding_error failed
    obtain ⟨deleted, output, isOutput, failed⟩ := commitAny_error failed
    rw [both.stagesAt] at deleted
    have circuit := both.trans (deleted.mono fun _ => .inr)
    rw [circuit.stagesAt] at withdrawn
    refine ⟨circuit.trans (withdrawn.mono fun _ => .inl), ?_⟩
    obtain ⟨hidden, staging, found⟩ := waits output isOutput
    obtain ⟨_, _, blocked⟩ := commit_error failed
    have unavailable := blocked hidden _ (toSecond.staging?.trans staging) found
    intro ⟨other, isOther, _, _, _, _, target, _⟩
    cases Option.mem_unique isOther isOutput
    simp [← both.target?, unavailable] at target
  have moved := guarding_ok movedCircuit
  obtain failed | ⟨_, fourth, _, ran⟩ := execute_bind_error.1 ran
  · obtain ⟨deleted, lookup, isLookup, failed⟩ := commitAny_error failed
    cases isOutput : args.output with
    | none =>
        -- Without a circuit to move, the machine is still as it was when both were prepared.
        left
        rw [isOutput] at moved
        cases moved
        rw [both.stagesAt] at deleted
        exact ⟨both.trans (deleted.mono fun _ => .inl), by simp [Strands, isOutput]⟩
    | some output =>
        right
        rw [isLookup] at stagedTable
        rw [isOutput] at prepared moved
        exact ⟨output, rfl, lookup, isLookup, first, second, third, stagedTable, prepared, moved,
          failed⟩
  · cases ran

/-- An output that is prepared and moved into place is there. -/
theorem placed {dest content : String} {staged : Option Staged} {between : Machine}
    (plain : machine.files.Plain)
    (prepared : machine.execute (stageAny content (some dest)) = (.ok staged, between))
    (moved : between.execute (commit ⟨dest⟩) = (.ok (), after)) :
    ∃ hidden place, machine.staging? dest = some hidden ∧ machine.target? dest = some place ∧
      Touches (fun other => other = hidden ∨ other = place) machine after ∧
      after.files.find? place = some (.file (Text.Utf8.encode content)) := by
  obtain ⟨_, toBetween, _, waits⟩ := stageAny_ok plain prepared
  obtain ⟨hidden, staging, waiting⟩ := waits dest rfl
  obtain ⟨source, place, entry, leaving, target, found, toAfter, _, arrived⟩ := commit_ok moved
  rw [toBetween.staging?, staging] at leaving
  cases leaving
  rw [waiting] at found
  cases found
  rw [toBetween.target?] at target
  refine ⟨hidden, place, staging, target, ?_, arrived⟩
  refine (toBetween.mono ?_).trans toAfter
  intro other stages
  rw [stagesAt_some, staging] at stages
  exact .inl (Option.some.inj stages).symm

/-- Once the circuit is in place, the table still waits in its hidden file, unless the
circuit has taken that place or the destination of the table. -/
theorem table_waits {output lookup circuit table : String} {first second third : Machine}
    {stagedLookup stagedOutput : Option Staged} (plain : machine.files.Plain)
    (stagedTable : machine.execute (stageAny table (some lookup)) = (.ok stagedLookup, first))
    (stagedCircuit : first.execute (stageAny circuit (some output)) = (.ok stagedOutput, second))
    (moved : second.execute (commit ⟨output⟩) = (.ok (), third)) :
    ∃ hidden source place, machine.staging? lookup = some hidden ∧
      machine.staging? output = some source ∧ machine.target? output = some place ∧
      third.files.find? place = some (.file (Text.Utf8.encode circuit)) ∧
      Touches (fun other => other = hidden ∨ other = source ∨ other = place) machine third ∧
      ∀ target ∈ machine.target? lookup, target ≠ place → hidden ≠ place →
        third.files.find? hidden = some (.file (Text.Utf8.encode table)) := by
  obtain ⟨_, toFirst, plainFirst, waits⟩ := stageAny_ok plain stagedTable
  obtain ⟨hidden, staging, waiting⟩ := waits lookup rfl
  obtain ⟨source, place, leaving, target, toThird, arrived⟩ := placed plainFirst stagedCircuit moved
  rw [toFirst.staging?] at leaving
  rw [toFirst.target?] at target
  refine ⟨hidden, source, place, staging, leaving, target, arrived, ?_, ?_⟩
  · refine (toFirst.mono ?_).trans (toThird.mono fun _ => .inr)
    intro other stages
    rw [stagesAt_some, staging] at stages
    exact .inl (Option.some.inj stages).symm
  · intro aim lookupTarget different free
    rw [← waiting]
    symm
    apply toThird.files.elsewhere
    intro touched
    cases touched with
    | inl equal =>
        -- Outputs with the same hidden file would have the same destination.
        subst equal
        exact different (FileTree.spot?_eq_of_staging lookupTarget target staging leaving)
    | inr equal => exact free equal

/-- The outputs of a compilation do not get in each other's way. -/
structure Apart (machine : Machine) (output lookup : String) : Prop where
  targets : ∀ place ∈ machine.target? output, place ∉ machine.target? lookup
  table : ∀ place ∈ machine.staging? lookup, place ∉ machine.target? output
  circuit : ∀ place ∈ machine.staging? output, place ∉ machine.target? lookup

/-- No output is prepared at a destination. -/
theorem Prepares.not_mem_target? {dest : String} {place : Location}
    (prepares : machine.Prepares args place) (wanted : dest ∈ args.lookup ∨ dest ∈ args.output)
    (apart : ∀ output ∈ args.output, ∀ lookup ∈ args.lookup, machine.Apart output lookup) :
    place ∉ machine.target? dest := by
  intro target
  cases prepares with
  | inl stages =>
      obtain ⟨lookup, isLookup, staging⟩ := stages
      cases wanted with
      | inl same =>
          cases Option.mem_unique isLookup same
          exact staging?_ne_target? staging target rfl
      | inr output => exact (apart dest output lookup isLookup).table place staging target
  | inr stages =>
      obtain ⟨output, isOutput, staging⟩ := stages
      cases wanted with
      | inl lookup => exact (apart output isOutput dest lookup).circuit place staging target
      | inr same =>
          cases Option.mem_unique isOutput same
          exact staging?_ne_target? staging target rfl

/-- A table that cannot follow the circuit has no place to go to, and the circuit stays. -/
theorem circuit_stays {output lookup circuit table : String} {first second third : Machine}
    {stagedLookup stagedOutput : Option Staged} {error : CommandError} (plain : machine.files.Plain)
    (isOutput : output ∈ args.output) (isLookup : lookup ∈ args.lookup)
    (apart : machine.Apart output lookup)
    (stagedTable : machine.execute (stageAny table (some lookup)) = (.ok stagedLookup, first))
    (stagedCircuit : first.execute (stageAny circuit (some output)) = (.ok stagedOutput, second))
    (moved : second.execute (commit ⟨output⟩) = (.ok (), third))
    (failed : third.execute (commit ⟨lookup⟩) = (.error error, after)) :
    machine.Strands args ∧ (∃ reason, error = .write lookup reason) ∧
      after.stdout = machine.stdout ∧ after.held lookup = machine.held lookup ∧
      after.held output = some (.file (Text.Utf8.encode circuit)) := by
  obtain ⟨hidden, source, place, staging, leaving, target, arrived, toThird, waits⟩ :=
    table_waits plain stagedTable stagedCircuit moved
  obtain ⟨toAfter, reason, blocked⟩ := commit_error failed
  have free : hidden ≠ place := by
    intro equal
    exact apart.table hidden staging (equal ▸ target)
  have unavailable : machine.target? lookup = none := by
    apply Option.eq_none_iff_forall_ne_some.2
    intro aim lookupTarget
    have different : aim ≠ place := by
      intro equal
      exact apart.targets place target (equal ▸ lookupTarget)
    have missing := blocked hidden _ (toThird.staging?.trans staging)
      (waits aim lookupTarget different free)
    rw [toThird.target?, lookupTarget] at missing
    cases missing
  have strands : machine.Strands args :=
    ⟨output, isOutput, lookup, isLookup, by simp [staging, leaving, target, unavailable]⟩
  refine ⟨strands, reason, toAfter.stdout.trans toThird.stdout, ?_, ?_⟩
  · calc
      after.held lookup = third.held lookup := by
        apply toAfter.held
        simp [toThird.target?, unavailable]
      _ = machine.held lookup := by
        apply toThird.held
        simp [unavailable]
  · have stays : ¬ third.staging? lookup = some place := by
      rw [toThird.staging?, staging]
      simpa using free
    rw [held_eq_find? ((toAfter.target?.trans toThird.target?).trans target), ← arrived]
    exact (toAfter.files.elsewhere place stays).symm

/-- A delivery that fails changes no destination, except that the circuit stays in place where
the table can be prepared but not moved. -/
theorem deliver_failed {error : CommandError}
    (ran : machine.execute (deliver args compilation) = (.error error, after))
    (plain : machine.files.Plain)
    (apart : ∀ output ∈ args.output, ∀ lookup ∈ args.lookup, machine.Apart output lookup) :
    after.stdout = machine.stdout ∧
      (∀ lookup ∈ args.lookup, after.held lookup = machine.held lookup) ∧
      ∀ output ∈ args.output,
        (machine.Strands args →
          (∃ lookup ∈ args.lookup, ∃ reason, error = .write lookup reason) ∧
            after.held output = some (.file (Text.Utf8.encode (args.circuit compilation)))) ∧
        (¬ machine.Strands args → after.held output = machine.held output) := by
  cases deliver_error plain ran with
  | inl unmoved =>
      obtain ⟨change, notStranded⟩ := unmoved
      have kept {dest : String} (wanted : dest ∈ args.lookup ∨ dest ∈ args.output) :
          after.held dest = machine.held dest := by
        apply change.held
        intro place target prepares
        exact prepares.not_mem_target? wanted apart target
      exact ⟨change.stdout, fun _ wanted => kept (.inl wanted),
        fun _ wanted => ⟨fun strands => absurd strands notStranded, fun _ => kept (.inr wanted)⟩⟩
  | inr failed =>
      obtain ⟨output, isOutput, lookup, isLookup, first, second, third, stagedTable, stagedCircuit,
        moved, failed⟩ := failed
      obtain ⟨strands, reason, stdout, kept, placed⟩ :=
        circuit_stays plain isOutput isLookup (apart output isOutput lookup isLookup) stagedTable
          stagedCircuit moved failed
      refine ⟨stdout, ?_, ?_⟩
      · intro other wanted
        cases Option.mem_unique wanted isLookup
        exact kept
      · intro other wanted
        cases Option.mem_unique wanted isOutput
        exact ⟨fun _ => ⟨⟨lookup, isLookup, reason⟩, placed⟩,
          fun notStranded => absurd strands notStranded⟩

/-- An output that is moved into place alone. -/
theorem held_placed {dest content : String} {staged : Option Staged} {between : Machine}
    (plain : machine.files.Plain)
    (prepared : machine.execute (stageAny content (some dest)) = (.ok staged, between))
    (moved : between.execute (commit ⟨dest⟩) = (.ok (), after)) :
    after.stdout = machine.stdout ∧ after.held dest = some (.file (Text.Utf8.encode content)) := by
  obtain ⟨hidden, place, _, target, change, arrived⟩ := placed plain prepared moved
  rw [held_eq_find? (change.target?.trans target)]
  exact ⟨change.stdout, arrived⟩

/-- Two outputs for different files are both put into place, unless the table is prepared
at the destination of the circuit. Then the circuit is moved on as if it were the table. -/
theorem held_placed_both {output lookup circuit table : String} {first second third : Machine}
    {stagedLookup stagedOutput : Option Staged} (plain : machine.files.Plain)
    (different : ∀ place ∈ machine.target? output, place ∉ machine.target? lookup)
    (stagedTable : machine.execute (stageAny table (some lookup)) = (.ok stagedLookup, first))
    (stagedCircuit : first.execute (stageAny circuit (some output)) = (.ok stagedOutput, second))
    (movedCircuit : second.execute (commit ⟨output⟩) = (.ok (), third))
    (movedTable : third.execute (commit ⟨lookup⟩) = (.ok (), after)) :
    after.stdout = machine.stdout ∧ ∃ hidden place,
      machine.staging? lookup = some hidden ∧ machine.target? output = some place ∧
      (hidden ≠ place → after.held output = some (.file (Text.Utf8.encode circuit)) ∧
        after.held lookup = some (.file (Text.Utf8.encode table))) ∧
      (hidden = place → after.held output = none ∧
        after.held lookup = some (.file (Text.Utf8.encode circuit))) := by
  obtain ⟨hidden, _, place, staging, _, target, arrived, toThird, waits⟩ :=
    table_waits plain stagedTable stagedCircuit movedCircuit
  obtain ⟨source, aim, entry, leaving, lookupTarget, found, toAfter, left, reached⟩ :=
    commit_ok movedTable
  rw [toThird.staging?, staging] at leaving
  cases leaving
  rw [toThird.target?] at lookupTarget
  have apart : place ≠ aim := by
    intro equal
    exact different place target (equal ▸ lookupTarget)
  have heldOutput : after.held output = after.files.find? place :=
    held_eq_find? ((toAfter.target?.trans toThird.target?).trans target)
  have heldLookup : after.held lookup = some entry :=
    (held_eq_find? ((toAfter.target?.trans toThird.target?).trans lookupTarget)).trans reached
  refine ⟨toAfter.stdout.trans toThird.stdout, hidden, place, staging, target, ?_, ?_⟩
  · intro free
    rw [waits aim lookupTarget apart.symm free] at found
    cases found
    refine ⟨?_, heldLookup⟩
    rw [heldOutput, ← arrived]
    symm
    apply toAfter.files.elsewhere
    intro touched
    cases touched with
    | inl equal => exact free equal.symm
    | inr equal => exact apart equal
  · -- What is moved is the file at the hidden place, and that is the circuit now.
    intro equal
    subst equal
    rw [arrived] at found
    cases found
    exact ⟨heldOutput.trans left, heldLookup⟩

/-- The table is prepared at the destination of the circuit. -/
def Overlaps (machine : Machine) (args : CompileArgs) : Prop :=
  ∃ output ∈ args.output, ∃ lookup ∈ args.lookup,
    ∃ place ∈ machine.staging? lookup, place ∈ machine.target? output

/-- A delivery puts both outputs into place, except that a table which is prepared at the
destination of the circuit is lost, and the circuit is found at the destination of the table. -/
theorem deliver_delivered {printed : String}
    (ran : machine.execute (deliver args compilation) = (.ok printed, after))
    (plain : machine.files.Plain)
    (different : ∀ output ∈ args.output, ∀ lookup ∈ args.lookup,
      ∀ place ∈ machine.target? output, place ∉ machine.target? lookup) :
    after.stdout = machine.stdout ∧
      printed = (if args.output.isSome then "" else args.circuit compilation) ∧
      (¬ machine.Overlaps args →
        (∀ output ∈ args.output,
          after.held output = some (.file (Text.Utf8.encode (args.circuit compilation)))) ∧
        ∀ lookup ∈ args.lookup,
          after.held lookup = some (.file (Text.Utf8.encode compilation.table.render))) ∧
      (machine.Overlaps args →
        (∀ output ∈ args.output, after.held output = none) ∧
        ∀ lookup ∈ args.lookup,
          after.held lookup = some (.file (Text.Utf8.encode (args.circuit compilation)))) := by
  obtain ⟨first, second, third, stagedTable, stagedCircuit, movedCircuit, movedTable, printing⟩ :=
    deliver_ok plain ran
  cases isOutput : args.output with
  | none =>
      rw [isOutput] at stagedCircuit movedCircuit printing
      cases stagedCircuit
      cases movedCircuit
      cases isLookup : args.lookup with
      | none =>
          rw [isLookup] at stagedTable movedTable
          cases stagedTable
          cases movedTable
          simp [printing, Overlaps, isOutput]
      | some lookup =>
          rw [isLookup] at stagedTable movedTable
          have placed := held_placed plain stagedTable movedTable
          simp [printing, Overlaps, isOutput, placed]
  | some output =>
      cases isLookup : args.lookup with
      | none =>
          rw [isLookup] at stagedTable movedTable
          rw [isOutput] at stagedCircuit movedCircuit printing
          cases stagedTable
          cases movedTable
          have placed := held_placed plain stagedCircuit movedCircuit
          simp [printing, Overlaps, isLookup, placed]
      | some lookup =>
          rw [isLookup] at stagedTable movedTable
          rw [isOutput] at stagedCircuit movedCircuit printing
          obtain ⟨stdout, hidden, place, staging, target, apart, overlapping⟩ :=
            held_placed_both plain (different output isOutput lookup isLookup) stagedTable
              stagedCircuit movedCircuit movedTable
          have overlaps : machine.Overlaps args ↔ hidden = place := by
            simp [Overlaps, isOutput, isLookup, staging, target, eq_comm]
          refine ⟨stdout, printing, ?_, ?_⟩
          · intro free
            simpa using apart (mt overlaps.2 free)
          · intro overlap
            simpa using overlapping (overlaps.1 overlap)

/-- The input is loaded, and its automaton is compiled. -/
def Compiles (machine : Machine) (input : Input) (compilation : Compilation) : Prop :=
  ∃ automaton, (machine.execute (loadAutomaton input)).1 = .ok automaton ∧
    Compilation.ofAutomaton automaton = .ok compilation

theorem Compiles.unique {input : Input} {other : Compilation}
    (compiles : machine.Compiles input compilation) (compilesOther : machine.Compiles input other) :
    compilation = other := by
  obtain ⟨automaton, loaded, compiled⟩ := compiles
  obtain ⟨again, reloaded, recompiled⟩ := compilesOther
  cases loaded.symm.trans reloaded
  exact Except.ok.inj (compiled.symm.trans recompiled)

/-- A run fails before it touches any file, or delivers what it has compiled. -/
theorem execute_compile (quiet : machine.Quiet args.input) :
    ∃ stdin, ((∃ error, machine.execute (compile args) = (.error error, { machine with stdin })) ∧
        ∀ compilation, ¬ machine.Compiles args.input compilation) ∨
      ∃ compilation, machine.Compiles args.input compilation ∧
        machine.execute (compile args) =
          ({ machine with stdin } : Machine).execute (deliver args compilation) := by
  obtain ⟨stdin, reached⟩ := quiet.execute_loadAutomaton
  refine ⟨stdin, ?_⟩
  unfold compile Compiles
  rw [execute_bind]
  cases ran : machine.execute (loadAutomaton args.input) with
  | mk result loaded =>
      rw [ran] at reached
      cases reached
      cases result with
      | error error => exact .inl ⟨⟨error, rfl⟩, by simp⟩
      | ok automaton =>
          dsimp only
          rw [execute_bind, execute_attempt]
          cases compiled : Compilation.ofAutomaton automaton with
          | error error => exact .inl ⟨⟨.compile error, rfl⟩, by simp [compiled]⟩
          | ok compilation => exact .inr ⟨compilation, ⟨automaton, rfl, compiled⟩, rfl⟩

end Machine

namespace Command

open Machine

variable {machine after : Machine} {args : CompileArgs}

/-- A compilation that fails prints nothing and leaves the destination of the table as it was.
The destination of the circuit is as it was too, unless both outputs could be prepared and the
circuit moved into place but not the table: then the circuit stays. -/
theorem outputs_of_failed_compile {error : CommandError} (quiet : machine.Quiet args.input)
    (plain : machine.files.Plain)
    (apart : ∀ output ∈ args.output, ∀ lookup ∈ args.lookup, machine.Apart output lookup)
    (ran : machine.execute (compile args) = (.error error, after)) :
    after.stdout = machine.stdout ∧ (report (.error error)).stdout = "" ∧
      (∀ lookup ∈ args.lookup, after.held lookup = machine.held lookup) ∧
      ∀ output ∈ args.output,
        (∀ compilation, machine.Compiles args.input compilation → machine.Strands args →
          (∃ lookup ∈ args.lookup, ∃ reason, error = .write lookup reason) ∧
            after.held output = some (.file (Text.Utf8.encode (args.circuit compilation)))) ∧
        ((∀ compilation, machine.Compiles args.input compilation → ¬ machine.Strands args) →
          after.held output = machine.held output) := by
  obtain ⟨stdin, early | ⟨compilation, compiles, delivery⟩⟩ := execute_compile quiet
  · obtain ⟨⟨reason, failed⟩, uncompiled⟩ := early
    rw [failed] at ran
    cases ran
    exact ⟨rfl, rfl, fun _ _ => rfl, fun _ _ =>
      ⟨fun compilation compiles => absurd compiles (uncompiled compilation), fun _ => rfl⟩⟩
  · rw [delivery] at ran
    obtain ⟨stdout, lookups, outputs⟩ := deliver_failed ran plain fun _ isOutput _ isLookup =>
      have clear := apart _ isOutput _ isLookup
      ⟨clear.targets, clear.table, clear.circuit⟩
    refine ⟨stdout, rfl, lookups, ?_⟩
    intro output wanted
    obtain ⟨stays, kept⟩ := outputs output wanted
    constructor
    · intro other compilesOther strands
      cases compiles.unique compilesOther
      exact stays strands
    · intro unstranded
      exact kept (unstranded compilation compiles)

/-- A machine with no programs that works on the graph of a single edge. -/
def graphMachine (others : List (String × Entry)) : Machine where
  files.entries :=
    [(["tmp"], .directory), (FileTree.workplace, .directory),
      (FileTree.workplace ++ ["g.json"], .file (Text.Utf8.encode
        "[\x7b\"edges\":\x7b\"a\":1\x7d\x7d,\x7b\"type\":\"accept\"\x7d]"))] ++
      others.map fun (name, entry) => (FileTree.workplace ++ [name], entry)
  programs _ _ _ _ := .error .notFound

/-- Compile that graph. -/
def graphArgs (output lookup : String) : CompileArgs where
  input.graph := some "g.json"
  output := some output
  lookup := some lookup

theorem outputs_of_failed_compile_directory :
    let machine := graphMachine [("d", .directory), ("table", .file [0x30])]
    let run := machine.execute (compile (graphArgs "d" "table"))
    run.1 = .error (.write "d" .isDirectory) ∧ run.2.stdout = machine.stdout ∧
      run.2.held "table" = some (.file [0x30]) ∧ run.2.held "d" = some .directory := by
  intro machine run
  have failed : run.1 = .error (.write "d" .isDirectory) := by decide +kernel
  have ran : run = (.error (.write "d" .isDirectory), run.2) := by rw [← failed]
  have plain : machine.files.Plain := FileTree.plain_of_entries (by simp [machine, graphMachine])
  have apart : machine.Apart "d" "table" :=
    ⟨by decide +kernel, by decide +kernel, by decide +kernel⟩
  have unstranded : ¬ machine.Strands (graphArgs "d" "table") := by
    intro ⟨output, isOutput, lookup, isLookup, _, _, placed, _⟩
    cases isOutput
    revert placed
    decide +kernel
  obtain ⟨stdout, _, lookups, outputs⟩ :=
    outputs_of_failed_compile (quiet_of_unpatterned rfl) plain (by simpa [graphArgs] using apart)
      ran
  obtain ⟨_, kept⟩ := outputs "d" rfl
  refine ⟨failed, stdout, ?_, ?_⟩
  · rw [lookups "table" rfl]
    decide +kernel
  · rw [kept fun _ _ => unstranded]
    decide +kernel

/-- Nothing is moved where the table cannot even be prepared. -/
example :
    let machine := graphMachine []
    let run := machine.execute (compile (graphArgs "out.circom" "missing/table"))
    run.1 = .error (.write "missing/table" .notFound) ∧ run.2.held "out.circom" = none := by
  decide +kernel

/-- The circuit stays although the compilation fails. -/
theorem circuit_stays_without_table :
    let machine := graphMachine [("d", .directory)]
    let run := machine.execute (compile (graphArgs "out.circom" "d"))
    run.1 = .error (.write "d" .isDirectory) ∧ machine.held "out.circom" = none ∧
      run.2.held "out.circom" ≠ none := by
  decide +kernel

/-- A compilation that succeeds delivers both outputs, except that a table which is prepared at the
destination of the circuit is lost, and the circuit is found at the destination of the table. -/
theorem outputs_of_compile {printed : String} (quiet : machine.Quiet args.input)
    (plain : machine.files.Plain)
    (different : ∀ output ∈ args.output, ∀ lookup ∈ args.lookup,
      ∀ place ∈ machine.target? output, place ∉ machine.target? lookup)
    (ran : machine.execute (compile args) = (.ok printed, after)) :
    ∃ automaton compilation,
      (machine.execute (loadAutomaton args.input)).1 = .ok automaton ∧
      Compilation.ofAutomaton automaton = .ok compilation ∧
      after.stdout = machine.stdout ∧
      (report (.ok printed)).stdout =
        (if args.output.isSome then "" else args.circuit compilation) ∧
      (¬ machine.Overlaps args →
        (∀ output ∈ args.output,
          after.held output = some (.file (Text.Utf8.encode (args.circuit compilation)))) ∧
        ∀ lookup ∈ args.lookup,
          after.held lookup = some (.file (Text.Utf8.encode compilation.table.render))) ∧
      (machine.Overlaps args →
        (∀ output ∈ args.output, after.held output = none) ∧
        ∀ lookup ∈ args.lookup,
          after.held lookup = some (.file (Text.Utf8.encode (args.circuit compilation)))) := by
  obtain ⟨stdin, early | ⟨compilation, ⟨automaton, loaded, compiled⟩, delivery⟩⟩ :=
    execute_compile quiet
  · obtain ⟨⟨reason, failed⟩, _⟩ := early
    rw [failed] at ran
    cases ran
  · rw [delivery] at ran
    have delivered := deliver_delivered ran plain different
    exact ⟨automaton, compilation, loaded, compiled, delivered⟩

theorem outputs_of_compile_neighbours :
    let run := (graphMachine []).execute (compile (graphArgs "a" ".a.tmp"))
    run.1 = .ok "" ∧ ∃ compilation,
      run.2.held "a" =
        some (.file (Text.Utf8.encode ((graphArgs "a" ".a.tmp").circuit compilation))) ∧
      run.2.held ".a.tmp" = some (.file (Text.Utf8.encode compilation.table.render)) := by
  intro run
  have succeeded : run.1 = .ok "" := by decide +kernel
  have ran : run = (.ok "", run.2) := by rw [← succeeded]
  have plain : (graphMachine []).files.Plain :=
    FileTree.plain_of_entries (by simp [graphMachine])
  have different : ∀ place ∈ (graphMachine []).target? "a",
      place ∉ (graphMachine []).target? ".a.tmp" := by decide +kernel
  have free : ¬ (graphMachine []).Overlaps (graphArgs "a" ".a.tmp") := by
    intro overlaps
    obtain ⟨output, isOutput, lookup, isLookup, clash⟩ := overlaps
    cases isOutput
    cases isLookup
    revert clash
    decide +kernel
  obtain ⟨automaton, compilation, _, _, _, _, delivered, _⟩ :=
    outputs_of_compile (quiet_of_unpatterned rfl) plain (by simpa [graphArgs] using different) ran
  obtain ⟨outputs, lookups⟩ := delivered free
  exact ⟨succeeded, compilation, outputs "a" rfl, lookups ".a.tmp" rfl⟩

/-- The circuit is lost although the compilation succeeds. -/
theorem circuit_lost_to_table :
    let machine := graphMachine []
    let run := machine.execute (compile (graphArgs ".a.tmp" "a"))
    (∀ place ∈ machine.target? ".a.tmp", place ∉ machine.target? "a") ∧
      run.1 = .ok "" ∧ run.2.held ".a.tmp" = none := by
  decide +kernel

end Command

end ScanCircuit
