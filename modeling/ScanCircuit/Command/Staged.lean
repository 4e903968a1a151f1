import ScanCircuit.Command.Error
import ScanCircuit.Files.Host
import ScanCircuit.Text.Utf8

/-!
# Staged outputs

An output is first written to a hidden file beside its destination and later moved into
place. An output that is not moved into place is deleted again.
-/

namespace ScanCircuit.Command

variable {m : Type → Type} [Monad m] [Host m]

/-- An output that waits beside its destination. -/
structure Staged where
  dest : String
  deriving DecidableEq, Repr

/-- The hidden file that holds the output. -/
def Staged.path (staged : Staged) : Path :=
  (Path.ofString staged.dest).staging

/-- Prepare an output. -/
def stage (dest content : String) : ExceptT CommandError m Staged := do
  let staged : Staged := ⟨dest⟩
  match ← (Host.write staged.path (Text.Utf8.encode content) : m _) with
  | .ok () => return staged
  | .error error => throw (.write dest error)

/-- Delete an output that is not wanted any more; whether that works does not matter. -/
def withdraw (staged : Staged) : m Unit := do
  let _ ← Host.remove staged.path
  return ()

/-- Delete an output, if there is one. -/
def withdrawAny (staged : Option Staged) : m Unit :=
  match staged with
  | some staged => withdraw staged
  | none => return ()

/-- Move an output into place, or delete it. -/
def commit (staged : Staged) : ExceptT CommandError m Unit := do
  match ← (Host.rename staged.path (Path.ofString staged.dest) : m _) with
  | .ok () => return ()
  | .error error =>
      (withdraw staged : m Unit)
      throw (.write staged.dest error)

/-- Prepare an output, if there is a destination for it. -/
def stageAny (content : String) : Option String → ExceptT CommandError m (Option Staged)
  | some dest => some <$> stage dest content
  | none => return none

/-- Move an output into place, if there is one. -/
def commitAny : Option Staged → ExceptT CommandError m Unit
  | some staged => commit staged
  | none => return ()

/-- Do something, and delete an output if it fails. -/
def guarding {α : Type} (staged : Option Staged) (action : ExceptT CommandError m α) :
    ExceptT CommandError m α :=
  tryCatch action fun error => do
    (withdrawAny staged : m Unit)
    throw error

end ScanCircuit.Command
