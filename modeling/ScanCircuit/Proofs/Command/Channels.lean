import ScanCircuit.Proofs.Command.Execution
import ScanCircuit.Proofs.Text.Decoding

/-!
# The channels of an automaton

The bytes of a graph reach a command through a file, on the standard input, or as what a
generator prints. A file and the standard input are read alike, and only if their bytes are
well-formed. What a generator prints is loaded as well if it is not, with replacement
characters; on well-formed bytes the three channels load the same automaton.
-/

namespace ScanCircuit

open Command

namespace Machine

/-- The ways in which the bytes of a graph reach a command. -/
inductive Channel where
  | file
  | stdin
  | generator
  deriving DecidableEq, Repr

/-- The input of a command makes it take the bytes from the machine through a channel. -/
inductive Supplies (bytes : List UInt8) : Channel → Machine → Input → Prop where
  /-- The graph is a file with these bytes. -/
  | file {machine : Machine} {input : Input} {path : String} (unpatterned : input.pattern = none)
      (graph : input.graph = some path) (named : path ≠ "-")
      (content : machine.files.read machine.here (Path.ofString path) = .ok (.bytes bytes)) :
      Supplies bytes .file machine input
  /-- The bytes are on the standard input, which stands for the graph. -/
  | stdin {machine : Machine} {input : Input} (unpatterned : input.pattern = none)
      (graph : input.graph = some "-") (waiting : machine.stdin = bytes) :
      Supplies bytes .stdin machine input
  /-- The generator prints the bytes for the pattern, and succeeds. -/
  | generator {machine : Machine} {input : Input} {pattern : String} {generator : Generator}
      {spawned : Spawned} {after : FileTree} (patterned : input.pattern = some pattern)
      (named : input.generator.bind Generator.ofCommand? = some generator)
      (ended : machine.programs machine.files machine.here generator.program
        (generator.args ++ [pattern]) = .ok (spawned, after))
      (success : spawned.status = 0) (printed : spawned.stdout = bytes) :
      Supplies bytes .generator machine input

/-- A command with this input gets the automaton. -/
def Loads (machine : Machine) (input : Input) (automaton : Automaton) : Prop :=
  (machine.execute (loadAutomaton input)).1 = .ok automaton

variable {machine : Machine} {input : Input} {bytes : List UInt8} {automaton : Automaton}

/-! ## Single channels -/

@[simp] theorem mapError_eq_ok {ε δ α : Type} {wrap : ε → δ} {result : Except ε α} {value : α} :
    result.mapError wrap = .ok value ↔ result = .ok value := by
  cases result <;> simp [Except.mapError]

/-- Strict reading goes on with the text whose bytes these are. -/
theorem execute_strictText (wrap : ReadError → CommandError) :
    (machine.execute (attempt wrap (strictText bytes) >>= fun text =>
        attempt .load (Automaton.load text))).1 = .ok automaton ↔
      ∃ text, Text.Utf8.encode text = bytes ∧ Automaton.load text = .ok automaton := by
  rw [execute_bind, execute_attempt]
  simp only [← Text.Utf8.decode?_eq_some_iff]
  unfold strictText
  cases Text.Utf8.decode? bytes with
  | none => simp [Except.mapError]
  | some text =>
      have passed : (Except.ok text : Except ReadError String).mapError wrap = .ok text := rfl
      simp [passed]

/-- A file and the standard input are loaded if their bytes are those of a text that is. -/
theorem loads_strict {channel : Channel} (supplied : Supplies bytes channel machine input)
    (strict : channel ≠ .generator) :
    machine.Loads input automaton ↔
      ∃ text, Text.Utf8.encode text = bytes ∧ Automaton.load text = .ok automaton := by
  cases supplied with
  | file unpatterned graph named content =>
      simp only [Loads, loadAutomaton, unpatterned, graph, loadGraph, if_neg named]
      rw [execute_lift (by rw [run_read, Machine.read, content])]
      exact execute_strictText _
  | stdin unpatterned graph waiting =>
      simp only [Loads, loadAutomaton, unpatterned, graph, loadGraph, if_true]
      rw [execute_lift (run_stdin machine), waiting]
      exact execute_strictText _
  | generator => exact absurd rfl strict

/-- What a generator prints is loaded with replacement characters. -/
theorem loads_generator (supplied : Supplies bytes .generator machine input) :
    machine.Loads input automaton ↔
      Automaton.load (Text.Utf8.decodeLossy bytes) = .ok automaton := by
  cases supplied with
  | generator patterned named ended success printed =>
      simp only [Loads, loadAutomaton, patterned, named, loadPattern]
      rw [execute_lift (by rw [run_spawn, Machine.spawn, ended])]
      simp [generated, success, printed]

/-! ## All channels -/

/-- A file and the standard input load the same automata from the same bytes. A generator loads
these as well, and on ill-formed bytes, where the others fail, what the bytes stand for with
replacement characters. -/
theorem loads_through_channels {fileMachine stdinMachine generatorMachine : Machine}
    {fileInput stdinInput generatorInput : Input}
    (file : Supplies bytes .file fileMachine fileInput)
    (stdin : Supplies bytes .stdin stdinMachine stdinInput)
    (generator : Supplies bytes .generator generatorMachine generatorInput)
    (automaton : Automaton) :
    (fileMachine.Loads fileInput automaton ↔ stdinMachine.Loads stdinInput automaton) ∧
      (fileMachine.Loads fileInput automaton ↔
        generatorMachine.Loads generatorInput automaton ∧ ∃ text, Text.Utf8.encode text = bytes) ∧
      (generatorMachine.Loads generatorInput automaton ↔
        Automaton.load (Text.Utf8.decodeLossy bytes) = .ok automaton) := by
  rw [loads_strict file (by simp), loads_strict stdin (by simp), loads_generator generator]
  refine ⟨Iff.rfl, ?_, Iff.rfl⟩
  constructor
  · rintro ⟨text, rfl, loaded⟩
    rw [Text.Utf8.decodeLossy_encode]
    exact ⟨loaded, text, rfl⟩
  · rintro ⟨loaded, text, rfl⟩
    rw [Text.Utf8.decodeLossy_encode] at loaded
    exact ⟨text, rfl, loaded⟩

/-- A machine that has the bytes in a file and on its standard input. Its programs print the
file that is their last argument. -/
def offering (bytes : List UInt8) : Machine where
  files.entries :=
    [(["tmp"], .directory), (FileTree.workplace, .directory),
      (FileTree.workplace ++ ["g.json"], .file bytes)]
  stdin := bytes
  programs files here _ args :=
    match files.read here (Path.ofString (args.getLastD "")) with
    | .ok (.bytes content) => .ok (⟨0, content, []⟩, files)
    | _ => .ok (⟨1, [], []⟩, files)

/-- Take the bytes that are offered through a channel. -/
def offered : Channel → Input
  | .file => { graph := some "g.json" }
  | .stdin => { graph := some "-" }
  | .generator => { pattern := some "g.json", generator := some "cat" }

theorem supplies_offering (bytes : List UInt8) (channel : Channel) :
    Supplies bytes channel (offering bytes) (offered channel) := by
  cases channel with
  | file => exact .file rfl rfl (by decide) rfl
  | stdin => exact .stdin rfl rfl rfl
  | generator =>
      have named : Generator.ofCommand? "cat" = some ⟨"cat", []⟩ := by decide +kernel
      exact .generator rfl named rfl rfl rfl

theorem exists_of_isOk {ε α : Type} {result : Except ε α} (succeeded : result.isOk) :
    ∃ value, result = .ok value := by
  cases result with
  | error reason => cases succeeded
  | ok value => exact ⟨value, rfl⟩

theorem loads_through_channels_accented :
    let bytes := Text.Utf8.encode "[\x7b\"edges\":\x7b\"é\":1\x7d\x7d,\x7b\"type\":\"accept\"\x7d]"
    ∃ automaton, ∀ channel, (offering bytes).Loads (offered channel) automaton := by
  intro bytes
  have succeeded : ((offering bytes).execute (loadAutomaton (offered .file))).1.isOk := by
    decide +kernel
  obtain ⟨automaton, loaded⟩ := exists_of_isOk succeeded
  obtain ⟨stdin, generator, _⟩ := loads_through_channels (supplies_offering bytes .file)
    (supplies_offering bytes .stdin) (supplies_offering bytes .generator) automaton
  refine ⟨automaton, fun channel => ?_⟩
  cases channel with
  | file => exact loaded
  | stdin => exact stdin.1 loaded
  | generator => exact (generator.1 loaded).1

/-- A byte that is in no text, in a member that is ignored: the generator alone is loaded. -/
theorem loads_from_generator_only :
    let bytes := Text.Utf8.encode "[\x7b\"x\":\"" ++ [0xFF] ++
      Text.Utf8.encode "\",\"edges\":\x7b\"a\":1\x7d\x7d,\x7b\"type\":\"accept\"\x7d]"
    let load (channel : Channel) := ((offering bytes).execute (loadAutomaton (offered channel))).1
    (∀ channel, Supplies bytes channel (offering bytes) (offered channel)) ∧
      load .file = .error (.readGraph "g.json" .notUtf8) ∧
      load .stdin = .error (.readStdin .notUtf8) ∧
      ∃ automaton, load .generator = .ok automaton := by
  intro bytes load
  have succeeded : (load .generator).isOk := by decide +kernel
  exact ⟨supplies_offering bytes, by decide +kernel, by decide +kernel, exists_of_isOk succeeded⟩

end Machine

end ScanCircuit
