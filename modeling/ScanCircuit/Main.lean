import ScanCircuit.Command.Run
import ScanCircuit.Shell.Programs

/-!
# The command line

The commands run on the files and the standard input of the process. Generators run inside
the process: they get a copy of the working directory, and what they change in it is
written back.
-/

namespace ScanCircuit

/-- The failure with a number. -/
def OsError.ofNumber (number : Nat) : OsError :=
  [badDescriptor, permissionDenied, busy, alreadyExists, notDirectory, isDirectory, noSpace,
    nameTooLong, notEmpty].find? (·.number = number) |>.getD notFound

/-- The failure of an operation on files. -/
def OsError.ofIO : IO.Error → OsError
  | .alreadyExists _ code _ | .resourceBusy code _ | .invalidArgument _ code _
  | .permissionDenied _ code _ | .resourceExhausted _ code _ | .inappropriateType _ code _
  | .unsatisfiedConstraints code _ | .otherError code _ => ofNumber code.toNat
  | _ => .notFound

/-- Do something with files and keep its failure. -/
def catchingOs {α : Type} (action : IO α) : IO (Except OsError α) := do
  match ← action.toBaseIO with
  | .ok value => return .ok value
  | .error error => return .error (OsError.ofIO error)

/-- The bytes of a file. -/
def readBytes (path : Path) : IO (Except OsError (List UInt8)) :=
  catchingOs do return (← IO.FS.readBinFile path.toString).data.toList

/-- The path of a location below the working directory. -/
def relativePath (location : Location) : String :=
  "/".intercalate ("." :: location)

/-- What lies below a place in the working directory, to a depth. -/
def snapshot : Nat → Location → IO (List (Location × Entry))
  | 0, _ => return []
  | depth + 1, here => do
      let mut entries := []
      for found in ← (← IO.FS.realPath (relativePath here)).readDir do
        let place := here ++ [found.fileName]
        if ← found.path.isDir then
          let below ← snapshot depth place
          entries := (place, .directory) :: below ++ entries
        else
          match ← readBytes (Path.ofString (relativePath place)) with
          | .ok content => entries := (place, .file content) :: entries
          | .error _ => pure ()
      return entries

/-- Write what lies at a place. -/
def restoreEntry (location : Location) (entry : Entry) : IO Unit := do
  match entry with
  | .directory => IO.FS.createDirAll (relativePath location)
  | .file content => IO.FS.writeBinFile (relativePath location) ⟨content.toArray⟩
  | _ => return ()

/-- Run a program on a copy of the working directory, and write back what it changes. -/
def spawnInside (program : String) (args : List String) : IO (Except OsError Spawned) := do
  let before ← snapshot 32 []
  let files := before.foldl
    (fun tree (location, entry) => tree.put (FileTree.workplace ++ location) entry)
    (FileTree.system Shell.programNames)
  match Shell.programs files FileTree.workplace program args with
  | .error error => return .error error
  | .ok (spawned, after) =>
      for (location, entry) in after.entries do
        if FileTree.workplace.isPrefixOf location then
          let place := location.drop FileTree.workplace.length
          if place ≠ [] ∧ before.lookup place ≠ some entry then restoreEntry place entry
      for (place, entry) in before do
        if (after.find? (FileTree.workplace ++ place)).isNone ∧ entry ≠ .directory then
          IO.FS.removeFile (relativePath place)
      return .ok spawned

instance : Host IO where
  read := readBytes
  write path content := catchingOs (IO.FS.writeBinFile path.toString ⟨content.toArray⟩)
  rename source dest := catchingOs (IO.FS.rename source.toString dest.toString)
  remove path := catchingOs (IO.FS.removeFile path.toString)
  stdin := do return (← (← IO.getStdin).readBinToEnd).data.toList
  spawn := spawnInside

/-- Run a command line and print what it shows. -/
def runProcess (args : List String) : IO UInt32 := do
  let outcome ← Command.run args
  (← IO.getStdout).putStr outcome.stdout
  (← IO.getStderr).putStr outcome.stderr
  return UInt32.ofNat outcome.exit

end ScanCircuit

def main (args : List String) : IO UInt32 :=
  ScanCircuit.runProcess args
