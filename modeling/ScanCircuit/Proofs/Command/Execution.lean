import ScanCircuit.Command.Run

/-!
# Running actions on a machine

The result of an action is taken apart along its sequence of steps. Loading an automaton
is the part of a command that only reads. The one thing in it that could change a file is
the generator, which runs if there is a pattern: every file stays in place as long as that
run leaves the files alone, and always if the automaton is read from a graph.
-/

namespace ScanCircuit

open Command

namespace Machine

variable {machine between after : Machine}

/-- What a command does on a machine. -/
abbrev Action (α : Type) := ExceptT CommandError (StateM Machine) α

/-- The result of an action on a machine, and the machine after it. -/
def execute {α : Type} (machine : Machine) (action : Action α) :
    Except CommandError α × Machine :=
  action.run.run machine

section Sequences

variable {α β : Type} {action : Action α}
  {next : α → Action β} {error : CommandError}

@[simp] theorem execute_attempt {ε : Type} (wrap : ε → CommandError) (result : Except ε α) :
    machine.execute (attempt wrap result) = (result.mapError wrap, machine) :=
  rfl

theorem execute_bind :
    machine.execute (action >>= next) =
      match machine.execute action with
      | (.ok value, between) => between.execute (next value)
      | (.error error, between) => (.error error, between) := by
  simp only [execute, ExceptT.run_bind, StateT.run_bind]
  rcases (action.run.run machine) with ⟨_ | _, _⟩ <;> rfl

/-- A sequence succeeds if both of its parts do. -/
theorem execute_bind_ok {value : β} :
    machine.execute (action >>= next) = (.ok value, after) ↔
      ∃ mid between, machine.execute action = (.ok mid, between) ∧
        between.execute (next mid) = (.ok value, after) := by
  rw [execute_bind]
  constructor
  · intro ran
    split at ran
    case h_1 mid between first => exact ⟨mid, between, first, ran⟩
    · cases ran
  · intro ⟨mid, between, first, rest⟩
    rw [first]
    exact rest

/-- A sequence fails in its first part, or in its second part after the first has succeeded. -/
theorem execute_bind_error :
    machine.execute (action >>= next) = (.error error, after) ↔
      machine.execute action = (.error error, after) ∨
        ∃ mid between, machine.execute action = (.ok mid, between) ∧
          between.execute (next mid) = (.error error, after) := by
  rw [execute_bind]
  constructor
  · intro ran
    split at ran
    case h_1 mid between first => exact .inr ⟨mid, between, first, ran⟩
    case h_2 reason between first =>
      cases ran
      exact .inl first
  · intro ran
    cases ran with
    | inl failed => rw [failed]
    | inr passed =>
        obtain ⟨mid, between, first, rest⟩ := passed
        rw [first]
        exact rest

theorem execute_map (change : α → β) :
    machine.execute (change <$> action) =
      ((machine.execute action).1.map change, (machine.execute action).2) := by
  rw [← bind_pure_comp, execute_bind]
  rcases machine.execute action with ⟨_ | _, _⟩ <;> rfl

/-- An action that asks something of the machine goes on with the answer. -/
theorem execute_lift {step : StateM Machine α} {answer : α}
    (stepped : step.run machine = (answer, between)) :
    machine.execute ((liftM step : Action α) >>= next) =
      between.execute (next answer) := by
  have lifted : machine.execute (liftM step : Action α) = (.ok answer, between) := by
    have unfolded : machine.execute (liftM step : Action α) =
        (.ok (step.run machine).1, (step.run machine).2) := rfl
    rw [unfolded, stepped]
  rw [execute_bind, lifted]

end Sequences

/-! ## Loading -/

section Loading

variable {α β : Type}

/-- The action changes nothing but the standard input. -/
def OnlyReads (action : Action α) : Prop :=
  ∀ machine : Machine, ∃ stdin, (machine.execute action).2 = { machine with stdin }

theorem onlyReads_throw (error : CommandError) : OnlyReads (throw error : Action α) :=
  fun machine => ⟨machine.stdin, rfl⟩

theorem onlyReads_attempt {ε : Type} (wrap : ε → CommandError) (result : Except ε α) :
    OnlyReads (attempt wrap result) :=
  fun machine => ⟨machine.stdin, rfl⟩

theorem onlyReads_stdin : OnlyReads (liftM (Host.stdin : StateM Machine _) : Action _) :=
  fun _ => ⟨[], rfl⟩

theorem onlyReads_read (path : Path) :
    OnlyReads (liftM (Host.read path : StateM Machine _) : Action _) := by
  intro machine
  have stepped : (machine.execute (liftM (Host.read path : StateM Machine _) : Action _)).2 =
      (Machine.read path machine).2 := rfl
  rw [stepped, Machine.read]
  split
  · exact ⟨machine.stdin, rfl⟩
  · exact ⟨machine.stdin, rfl⟩
  · exact ⟨[], rfl⟩
  · exact ⟨machine.stdin, rfl⟩

theorem OnlyReads.bind {action : Action α} {next : α → Action β} (first : OnlyReads action)
    (rest : ∀ value, OnlyReads (next value)) : OnlyReads (action >>= next) := by
  intro machine
  obtain ⟨stdin, between⟩ := first machine
  rw [execute_bind]
  cases ran : machine.execute action with
  | mk result reached =>
      rw [ran] at between
      cases between
      cases result with
      | error error => exact ⟨stdin, rfl⟩
      | ok value => exact rest value _

theorem onlyReads_loadGraph (path : String) : OnlyReads (loadGraph path : Action Automaton) := by
  have text {ε : Type} (wrap : ε → CommandError) (result : Except ε String) :
      OnlyReads (attempt wrap result >>= fun text => attempt .load (Automaton.load text)) :=
    (onlyReads_attempt wrap result).bind fun _ => onlyReads_attempt _ _
  unfold loadGraph
  dsimp only
  split
  · exact onlyReads_stdin.bind fun _ => text _ _
  · exact (onlyReads_read _).bind fun _ => text _ _

/-- The run of the generator that the input asks for leaves the files as they are. -/
def Quiet (machine : Machine) (input : Input) : Prop :=
  ∀ pattern ∈ input.pattern, ∀ generator ∈ input.generator.bind Generator.ofCommand?,
    ∀ spawned after,
      machine.programs machine.files machine.here generator.program
          (generator.args ++ [pattern]) = .ok (spawned, after) →
        after = machine.files

/-- Without a pattern no program is run: the automaton comes from a file or from the standard
input. -/
theorem quiet_of_unpatterned {input : Input} (unpatterned : input.pattern = none) :
    machine.Quiet input := by
  intro pattern patterned
  rw [unpatterned] at patterned
  cases patterned

/-- A run that leaves the files as they are changes nothing at all. -/
theorem run_spawn_of_quiet {program : String} {args : List String}
    (quiet : ∀ spawned after,
      machine.programs machine.files machine.here program args = .ok (spawned, after) →
        after = machine.files) :
    ∃ answer, (Host.spawn program args : StateM Machine _).run machine = (answer, machine) := by
  rw [run_spawn, spawn]
  split
  next error _ => exact ⟨.error error, rfl⟩
  next spawned files ended =>
    rw [quiet spawned files ended]
    exact ⟨.ok spawned, rfl⟩

/-- Loading an automaton changes nothing but the standard input. -/
theorem Quiet.execute_loadAutomaton {input : Input} (quiet : machine.Quiet input) :
    ∃ stdin, (machine.execute (loadAutomaton input)).2 = { machine with stdin } := by
  unfold loadAutomaton
  split
  next pattern patterned =>
    split
    next generator named =>
      obtain ⟨answer, ran⟩ := run_spawn_of_quiet (quiet pattern patterned generator named)
      rw [loadPattern, execute_lift ran]
      exact onlyReads_attempt _ _ machine
    next => exact onlyReads_throw _ machine
  next =>
    split
    next path _ => exact onlyReads_loadGraph path machine
    next => exact onlyReads_throw _ machine

end Loading

end Machine

end ScanCircuit
