import ScanCircuit.Files.System
import ScanCircuit.Shell.Bytes

/-!
# Open files

The processes of a run share the files of the system and the files that they have open.
A process knows an open file by a descriptor; several descriptors, also of several
processes, may lead to one open file and then share its position.

This is a part of the shell that a generator may run in. It serves to run generators from
the command line only; no theorem depends on it.
-/

namespace ScanCircuit.Shell

/-- A file that is open. -/
inductive OpenFile where
  /-- Holds nothing and takes everything. -/
  | null
  /-- Takes nothing. -/
  | full
  /-- Takes bytes and keeps them, last piece first. -/
  | sink (pieces : List Bytes)
  /-- Holds bytes that have not been read yet. -/
  | source (rest : Bytes)
  | file (location : Location) (position : Nat) (append readable writable : Bool)
  | directory
  deriving DecidableEq

/-- What processes share: files, open files, and the signals that they send each other. -/
structure World where
  files : FileTree
  opened : Array OpenFile := #[]
  /-- The number of the process that has been started last. -/
  started : Nat := 1
  /-- The signals that have not been answered, each after the process that it was sent to. -/
  signals : List (Nat × Nat) := []
  deriving DecidableEq

/-- The path that a byte string names. -/
def pathOf (bytes : Bytes) : Path :=
  Path.ofString (Bytes.toText bytes)

/-- The descriptor that a path is another name of. -/
def streamOf? (path : Path) : Option Nat :=
  if !path.absolute || path.slash then none
  else
    match path.names.filter (· ≠ ".") with
    | ["dev", "stdin"] => some 0
    | ["dev", "stdout"] => some 1
    | ["dev", "stderr"] => some 2
    | ["dev", "fd", number] | ["proc", "self", "fd", number] =>
        (List.range 10).find? (·.repr = number)
    | _ => none

namespace World

/-- Start a process. -/
def start (world : World) : World :=
  { world with started := world.started + 1 }

/-- Add an open file and return its number. -/
def add (world : World) (openFile : OpenFile) : Nat × World :=
  (world.opened.size, { world with opened := world.opened.push openFile })

/-- Change an open file. -/
def setOpened (world : World) (number : Nat) (openFile : OpenFile) : World :=
  { world with opened := world.opened.setIfInBounds number openFile }

/-- The content of a stored file. -/
def contentAt (world : World) (location : Location) : Bytes :=
  match world.files.find? location with
  | some (.file content) => Bytes.ofRaw content
  | some .program => Bytes.ofRaw FileTree.programContent
  | _ => []

/-- Bytes with others written over them from a position on. -/
def overwrite (content : Bytes) (position : Nat) (bytes : Bytes) : Bytes :=
  content.take position ++ List.replicate (position - content.length) '\x00' ++ bytes ++
    content.drop (position + bytes.length)

/-- Write bytes to an open file. -/
def write (world : World) (number : Nat) (bytes : Bytes) : Except OsError World :=
  match world.opened[number]? with
  | some .null => .ok world
  | some .full => if bytes = [] then .ok world else .error .noSpace
  | some (.sink pieces) => .ok (world.setOpened number (.sink (bytes :: pieces)))
  | some (.file location position append readable true) =>
      let content := world.contentAt location
      let position := if append then content.length else position
      let files :=
        match world.files.find? location with
        | some (.file _) =>
            world.files.put location (.file (Bytes.toRaw (overwrite content position bytes)))
        | _ => world.files
      .ok ({ world with files }.setOpened number
        (.file location (position + bytes.length) append readable true))
  | _ => .error .badDescriptor

/-- The bytes of an open file that have not been read. -/
def unread (world : World) (number : Nat) : Except OsError Bytes :=
  match world.opened[number]? with
  | some .null | some .full => .ok []
  | some (.source rest) => .ok rest
  | some (.file location position _ true _) => .ok ((world.contentAt location).drop position)
  | some .directory => .error .isDirectory
  | _ => .error .badDescriptor

/-- Go on behind so many bytes that have been read. -/
def skip (world : World) (number count : Nat) : World :=
  match world.opened[number]? with
  | some (.source rest) => world.setOpened number (.source (rest.drop count))
  | some (.file location position append readable writable) =>
      world.setOpened number (.file location (position + count) append readable writable)
  | _ => world

/-- What a sink has taken. -/
def collected (world : World) (number : Nat) : Bytes :=
  match world.opened[number]? with
  | some (.sink pieces) => pieces.reverse.flatten
  | _ => []

/-- The stored file that an open file leads to. -/
def locationOf? (world : World) (number : Nat) : Option Location :=
  match world.opened[number]? with
  | some (.file location _ _ _ _) => some location
  | _ => none

/-- What an open file leads to. What is not stored is a stream by some number. -/
def entryOf (world : World) (stream number : Nat) : Option (Location × Entry) :=
  match world.opened[number]? with
  | some (.file location _ _ _ _) => (world.files.find? location).map (location, ·)
  | some .null => some (["dev", "null"], .device .null)
  | some .full => some (["dev", "full"], .device .full)
  | some .directory => some (["dev", "fd", stream.repr], .directory)
  | some _ => some (["dev", "fd", stream.repr], .device (.stream stream))
  | none => none

end World

end ScanCircuit.Shell
