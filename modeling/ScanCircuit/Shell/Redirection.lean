import ScanCircuit.Shell.Expand

/-!
# Redirections

A redirection leads a descriptor to a file, to where another descriptor leads, to the text
of a here-document, or nowhere. All redirections of a command are expanded before the
first of them takes effect, but for here-documents, which are expanded in their turn.

This is a part of the shell that a generator may run in. It serves to run generators from
the command line only; no theorem depends on it.
-/

namespace ScanCircuit.Shell

/-- An expanded redirection. -/
inductive Target where
  | file (fd : Nat) (mode : OpenMode) (path : Bytes)
  | duplicate (fd source : Nat)
  | close (fd : Nat)
  | document (fd : Nat) (word : Word)

/-- The descriptor that a redirection changes. None is changed by leading it to itself. -/
def Target.changes? : Target → Option Nat
  | .file fd _ _ | .close fd | .document fd _ => some fd
  | .duplicate fd source => if fd = source then none else some fd

section Expanding

variable (substitute : Command → Step Bytes)

/-- Expand a redirection. -/
def expandRedirect : Redirect → Step Target
  | .file fd mode path => return .file fd mode (← expandText substitute path)
  | .duplicate fd source => do
      match ← expandText substitute source with
      | ['-'] => return .close fd
      | [digit] =>
          if digit.isDigit then return .duplicate fd (digit.toNat - '0'.toNat) else badNumber
      | _ => badNumber
  | .document fd id => do
      return .document fd (((← get).documents.lookup id).getD [])
where
  /-- The target is no descriptor. -/
  badNumber : Step Target := do
    setLine (← get).reached
    fault "Syntax error: Bad fd number".toList

/-- Expand redirections. -/
def expandRedirects : List Redirect → Step (List Target)
  | [] => return []
  | redirect :: rest => do
      let first ← expandRedirect substitute redirect
      let others ← expandRedirects rest
      return first :: others

end Expanding

/-- What is said about a file that cannot be opened. -/
def openFailure (mode : OpenMode) (path : Bytes) (error : OsError) : Bytes :=
  let action := if mode = .read then "cannot open " else "cannot create "
  let reason :=
    if error = .notFound ∨ error = .notDirectory then
      if mode = .read then "No such file" else "Directory nonexistent"
    else error.words
  action.toList ++ path ++ ": ".toList ++ reason.toList

/-- Open a device. -/
def Process.openDevice (process : Process) (fd : Nat) : Device → Except OsError Process
  | .null => .ok (process.opening fd .null)
  | .full => .ok (process.opening fd .full)
  | .stream source =>
      match process.descriptors.lookup source with
      | some number => .ok (process.withDescriptor fd number)
      | none => .error .notFound

/-- The path that leads to the file that a path leads to. A stream of the process that is a
stored file is opened anew by its path. -/
def Process.followed (process : Process) (path : Bytes) : Path :=
  let stored := do
    let number ← process.descriptors.lookup (← streamOf? (pathOf path))
    process.world.locationOf? number
  match stored with
  | some location => ⟨"" :: location⟩
  | none => pathOf path

/-- Open a file for reading. -/
def Process.openInput (process : Process) (fd : Nat) (path : Bytes) : Except OsError Process := do
  let path := process.followed path
  match streamOf? path with
  | some source => process.openDevice fd (.stream source)
  | none =>
      match ← process.world.files.entryAt process.here path with
      | (_, .directory) => return process.opening fd .directory
      | (_, .device device) => process.openDevice fd device
      | (location, _) => return process.opening fd (.file location 0 false true false)

/-- Open a file for writing. -/
def Process.openOutput (process : Process) (fd : Nat) (mode : OpenMode) (path : Bytes) :
    Except OsError Process := do
  let path := process.followed path
  match streamOf? path with
  | some source => process.openDevice fd (.stream source)
  | none =>
      let files := process.world.files
      let (location, entry) ← files.spotAt process.here path
      let create (content : List UInt8) : Process :=
        { process with
          world := { process.world with files := files.put location (.file content) } }
      let openFile : OpenFile :=
        .file location 0 (mode = .append) (mode = .update) true
      match entry with
      | some (.device device) => process.openDevice fd device
      | some (.file content) =>
          if mode = .write ∧ process.has 'C' then .error .alreadyExists
          else if mode = .append ∨ mode = .update then return process.opening fd openFile
          else if content = [] then return process.opening fd openFile
          else return (create []).opening fd openFile
      | some _ => .error .permissionDenied
      | none => return (create []).opening fd openFile

/-- A descriptor that scripts do not use. -/
def spareDescriptor : Nat := 10

/-- What can be read at a path, and whether that is what is left on the standard input. -/
def Process.readAt (process : Process) (path : Bytes) : Except OsError Bytes × Bool :=
  match process.openInput spareDescriptor path with
  | .error error => (.error error, false)
  | .ok opened =>
      (opened.unread spareDescriptor,
        opened.descriptors.lookup spareDescriptor = process.descriptors.lookup 0)

/-- Lead descriptors back to where they led before. -/
def Process.leadBack (before : List (Nat × Nat)) (changed : List Nat) (process : Process) :
    Process :=
  changed.foldl (fun process fd =>
    match before.lookup fd with
    | some number => process.withDescriptor fd number
    | none => process.withoutDescriptor fd) process

section Redirecting

variable (substitute : Command → Step Bytes)

/-- Let a redirection take effect, or return what is said if it cannot. -/
def redirect : Target → Step (Option Bytes)
  | .file fd mode path => do
      let process ← get
      let opened :=
        if mode = .read then process.openInput fd path else process.openOutput fd mode path
      match opened with
      | .ok process =>
          set process
          return none
      | .error error => return some (openFailure mode path error)
  | .duplicate fd source => do
      let process ← get
      if fd = source then return none
      match process.descriptors.lookup source with
      | some number =>
          set (process.withDescriptor fd number)
          return none
      | none =>
          return some
            (Bytes.ofNat source ++ ": ".toList ++ OsError.badDescriptor.words.toList)
  | .close fd => do
      modify (·.withoutDescriptor fd)
      return none
  | .document fd word => do
      let pieces ← expandParts substitute {} word
      modify (·.opening fd (.source (glyphBytes (joinedGlyphs pieces))))
      return none

/-- Let redirections take effect, and say whether all have. The first that fails is complained
about. If descriptors are kept to be led back, one that is to lead to where another leads is
closed first, so that a complaint may be lost; `changed` are those that have been kept. -/
def redirectAll (keeping : Bool) (changed : List Nat) : List Target → Step Bool
  | [] => return true
  | target :: rest => do
      match ← redirect substitute target with
      | none => redirectAll keeping (changed ++ target.changes?.toList) rest
      | some message =>
          match target with
          | .duplicate fd _ =>
              if keeping ∧ ¬changed.contains fd then modify (·.withoutDescriptor fd)
          | _ => pure ()
          warn message
          return false

/-- Do something with redirections in effect, and lead the descriptors back that they change,
also if the shell is about to end. `body` is told whether the redirections have succeeded,
which they have not if something goes wrong in a here-document. -/
def redirected {α : Type} (targets : List Target) (body : Bool → Step α) : Step α := do
  let before := (← get).descriptors
  let failing (stop : Stop) : Step Bool := if stop = .fault then return false else throw stop
  leaving (Process.leadBack before (targets.filterMap Target.changes?)) do
    body (← tryCatch (redirectAll substitute true [] targets) failing)

end Redirecting

end ScanCircuit.Shell
