import ScanCircuit.Files.System

/-!
# Hosts

A host is what a command may ask of the system it runs on: files, the standard input,
and other programs. `Machine` is a host that is a plain value, so that what a command
does to it can be stated and computed.
-/

namespace ScanCircuit

/-- What a program that has ended leaves behind. -/
structure Spawned where
  status : Nat
  stdout : List UInt8
  stderr : List UInt8
  deriving DecidableEq

/-- The operations that commands ask of the system. -/
class Host (m : Type → Type) where
  read (path : Path) : m (Except OsError (List UInt8))
  write (path : Path) (content : List UInt8) : m (Except OsError Unit)
  rename (source dest : Path) : m (Except OsError Unit)
  remove (path : Path) : m (Except OsError Unit)
  /-- All of the standard input. -/
  stdin : m (List UInt8)
  /-- Run a program to its end, with nothing on its standard input. -/
  spawn (program : String) (args : List String) : m (Except OsError Spawned)

/-- How the programs of a machine behave, given its files and the directory that they
are started in. A program may change the files. -/
abbrev Programs :=
  FileTree → Location → String → List String → Except OsError (Spawned × FileTree)

/-- A system as a value. -/
structure Machine where
  files : FileTree
  /-- The directory that the command works in. -/
  here : Location := FileTree.workplace
  stdin : List UInt8 := []
  /-- What has been written to the standard output as a file. -/
  stdout : List UInt8 := []
  /-- What has been written to the standard error as a file. -/
  stderr : List UInt8 := []
  programs : Programs

namespace Machine

/-- Change the files of a machine, unless the change fails. -/
def update (change : FileTree → Except OsError FileTree) : StateM Machine (Except OsError Unit) :=
  fun machine =>
    match change machine.files with
    | .ok files => (.ok (), { machine with files })
    | .error error => (.error error, machine)

/-- Read a file. The standard input is read to its end; the other streams have nothing
to read. -/
def read (path : Path) : StateM Machine (Except OsError (List UInt8)) := fun machine =>
  match machine.files.read machine.here path with
  | .error error => (.error error, machine)
  | .ok (.bytes content) => (.ok content, machine)
  | .ok (.stream 0) => (.ok machine.stdin, { machine with stdin := [] })
  | .ok (.stream _) => (.ok [], machine)

/-- Write a file, or to a standard stream. -/
def write (path : Path) (content : List UInt8) : StateM Machine (Except OsError Unit) :=
  fun machine =>
    match machine.files.write machine.here path content with
    | .error error => (.error error, machine)
    | .ok (.stored files) => (.ok (), { machine with files })
    | .ok (.stream 1) => (.ok (), { machine with stdout := machine.stdout ++ content })
    | .ok (.stream 2) => (.ok (), { machine with stderr := machine.stderr ++ content })
    | .ok (.stream _) => (.ok (), machine)

/-- Run a program, which may change the files. -/
def spawn (program : String) (args : List String) : StateM Machine (Except OsError Spawned) :=
  fun machine =>
    match machine.programs machine.files machine.here program args with
    | .error error => (.error error, machine)
    | .ok (spawned, files) => (.ok spawned, { machine with files })

instance : Host (StateM Machine) where
  read := read
  write := write
  rename source dest := fun machine =>
    update (fun files => files.rename machine.here source dest) machine
  remove path := fun machine => update (fun files => files.remove machine.here path) machine
  stdin := fun machine => (machine.stdin, { machine with stdin := [] })
  spawn := spawn

@[simp] theorem run_read (path : Path) (machine : Machine) :
    (Host.read path : StateM Machine _).run machine = read path machine := rfl

@[simp] theorem run_stdin (machine : Machine) :
    (Host.stdin : StateM Machine _).run machine =
      (machine.stdin, { machine with stdin := [] }) := rfl

@[simp] theorem run_spawn (program : String) (args : List String) (machine : Machine) :
    (Host.spawn program args : StateM Machine _).run machine = spawn program args machine := rfl

@[simp] theorem run_write (path : Path) (content : List UInt8) (machine : Machine) :
    (Host.write path content : StateM Machine _).run machine = write path content machine := rfl

@[simp] theorem run_rename (source dest : Path) (machine : Machine) :
    (Host.rename source dest : StateM Machine _).run machine =
      update (fun files => files.rename machine.here source dest) machine := rfl

@[simp] theorem run_remove (path : Path) (machine : Machine) :
    (Host.remove path : StateM Machine _).run machine =
      update (fun files => files.remove machine.here path) machine := rfl

end Machine

end ScanCircuit
