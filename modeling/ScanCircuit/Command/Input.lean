import ScanCircuit.Command.Error
import ScanCircuit.Files.Host
import ScanCircuit.Invocation
import ScanCircuit.Text.Utf8

/-!
# Where the automaton comes from

A command gets its automaton from a file, from the standard input, or from a generator
that is run on a pattern. Files and the standard input have to be well-formed UTF-8;
the output of a generator is decoded with replacement characters.
-/

namespace ScanCircuit.Command

variable {m : Type → Type} [Monad m] [Host m]

/-- Go on with a result, or fail with its error as that of a command. -/
def attempt {ε α : Type} (wrap : ε → CommandError) (result : Except ε α) :
    ExceptT CommandError m α :=
  ExceptT.mk (pure (result.mapError wrap))

/-- The text of bytes that have to be well-formed. -/
def strictText (bytes : List UInt8) : Except ReadError String :=
  match Text.Utf8.decode? bytes with
  | some text => .ok text
  | none => .error .notUtf8

/-- The text of a file or of the standard input. -/
def readText : Except OsError (List UInt8) → Except ReadError String
  | .ok bytes => strictText bytes
  | .error error => .error (.os error)

/-- What a generator that failed is reported with: its status, and what it complained. -/
def failureDetail (spawned : Spawned) : String :=
  let complaint := Text.trim (Text.Utf8.decodeLossy spawned.stderr)
  let status := "exit status: " ++ spawned.status.repr
  if complaint = "" then status else status ++ ": " ++ complaint

/-- The automaton that a generator has printed. -/
def generated : Except OsError Spawned → Except SourceError Automaton
  | .error error => .error (.io error.message)
  | .ok spawned =>
      if spawned.status ≠ 0 then .error (.generator (failureDetail spawned))
      else (Automaton.load (Text.Utf8.decodeLossy spawned.stdout)).mapError .load

/-- Run a generator on a pattern. -/
def loadPattern (generator : Generator) (pattern : String) :
    ExceptT CommandError m Automaton := do
  let spawned ← (Host.spawn generator.program (generator.args ++ [pattern]) : m _)
  attempt .source (generated spawned)

/-- Load a graph from a file, or from the standard input if its path is `-`. -/
def loadGraph (path : String) : ExceptT CommandError m Automaton := do
  let text ←
    if path = "-" then do
      let bytes ← (Host.stdin : m _)
      attempt .readStdin (readText (.ok bytes))
    else do
      let bytes ← (Host.read (Path.ofString path) : m _)
      attempt (.readGraph path) (readText bytes)
  attempt .load (Automaton.load text)

/-- The automaton of a command. A pattern counts before a graph. -/
def loadAutomaton (input : Input) : ExceptT CommandError m Automaton :=
  match input.pattern with
  | some pattern =>
      match input.generator.bind Generator.ofCommand? with
      | some generator => loadPattern generator pattern
      | none => throw .needsGenerator
  | none =>
      match input.graph with
      | some path => loadGraph path
      | none => throw .needsInput

end ScanCircuit.Command
