import ScanCircuit.Files.Host
import ScanCircuit.Shell.Run

/-!
# Programs

The programs that a machine has: shells and tools. They are started with nothing on their
standard input, and what they print is collected.

This is a part of the shell that a generator may run in. It serves to run generators from
the command line only; no theorem depends on it.
-/

namespace ScanCircuit.Shell

/-- The names of the programs. -/
def programNames : List String :=
  ["dash", "sh"] ++ Tool.shelf.map Prod.fst

/-- The variables of the environment that programs are started with. -/
def startEnvironment : List (Bytes × Bytes) :=
  [("HOME", "/root"), ("LC_ALL", "C"),
   ("PATH", "/usr/local/sbin:/usr/local/bin:/usr/sbin:/usr/bin:/sbin:/bin")].map
    fun (name, value) => (name.toList, value.toList)

/-- The program that a name or a path leads to. A name without a slash is looked for in the
directories of programs. -/
def findProgram (files : FileTree) (here : Location) (name : String) : Except OsError String :=
  if name.contains '/' then
    match files.entryAt here (Path.ofString name) with
    | .ok (location, .program) => .ok (location.getLast?.getD "")
    | .ok _ => .error .permissionDenied
    | .error error => .error error
  else if name.utf8ByteSize > FileTree.maxName then .error .nameTooLong
  else if name = "." ∨ name = ".." then .error .permissionDenied
  else
    let found := FileTree.programDirectories.any fun directory =>
      files.find? (directory ++ [name]) = some .program
    if found then .ok name else .error .notFound

/-- Run a program to its end. -/
def programs : Programs := fun files here name args => do
  let program ← findProgram files here name
  let world : World := { files, opened := #[.null, .sink [], .sink []] }
  let process : Process :=
    { world, here
      descriptors := [(0, 0), (1, 1), (2, 2)]
      name := Bytes.ofText name
      bindings := startBindings 0 startEnvironment }
  let running := runProgram (runner maxDepth) program (Bytes.ofText name) (args.map Bytes.ofText)
  let (_, process) := running.run.run process
  let spawned : Spawned :=
    { status := process.status % 256
      stdout := Bytes.toRaw (process.world.collected 1)
      stderr := Bytes.toRaw (process.world.collected 2) }
  return (spawned, process.world.files)

end ScanCircuit.Shell
