import ScanCircuit.Files.Path

/-!
# File trees

A file tree says what lies at each place below the root directory. Operations follow a
path name by name, from the root or from the directory that a process works in, and fail
the way an operating system does: every name but the last has to lead through a directory,
a path that ends with a slash has to be a directory itself, and names and paths must not
be too long.
-/

namespace ScanCircuit

/-- The ways in which an operation on files fails. -/
inductive OsError where
  | notFound
  | badDescriptor
  | permissionDenied
  | busy
  | alreadyExists
  | notDirectory
  | isDirectory
  | noSpace
  | nameTooLong
  | notEmpty
  deriving DecidableEq, Repr

namespace OsError

/-- The number of a failure. -/
def number : OsError → Nat
  | notFound => 2
  | badDescriptor => 9
  | permissionDenied => 13
  | busy => 16
  | alreadyExists => 17
  | notDirectory => 20
  | isDirectory => 21
  | noSpace => 28
  | nameTooLong => 36
  | notEmpty => 39

/-- The words for a failure. -/
def words : OsError → String
  | notFound => "No such file or directory"
  | badDescriptor => "Bad file descriptor"
  | permissionDenied => "Permission denied"
  | busy => "Device or resource busy"
  | alreadyExists => "File exists"
  | notDirectory => "Not a directory"
  | isDirectory => "Is a directory"
  | noSpace => "No space left on device"
  | nameTooLong => "File name too long"
  | notEmpty => "Directory not empty"

/-- The words for a failure, with its number. -/
def message (error : OsError) : String :=
  error.words ++ " (os error " ++ error.number.repr ++ ")"

end OsError

/-- A file that is not stored but stands for something else. -/
inductive Device where
  /-- Holds nothing and takes everything. -/
  | null
  /-- Takes nothing. -/
  | full
  /-- A standard stream of the process that opens it, by its number. -/
  | stream (number : Nat)
  deriving DecidableEq, Repr

/-- What lies at a place. -/
inductive Entry where
  | file (content : List UInt8)
  | directory
  | device (device : Device)
  /-- A file that can be executed. -/
  | program
  deriving DecidableEq

/-- A place: the names that lead there from the root, without `.` and `..`. -/
abbrev Location := List String

/-- What lies at which place. -/
structure FileTree where
  entries : List (Location × Entry) := []
  deriving DecidableEq

namespace FileTree

/-- What lies at a location. The root directory always exists. -/
def find? (tree : FileTree) (location : Location) : Option Entry :=
  if location = [] then some .directory else tree.entries.lookup location

/-- The tree without what lies at a location. -/
def erase (tree : FileTree) (location : Location) : FileTree :=
  ⟨tree.entries.filter fun entry => entry.1 ≠ location⟩

/-- The tree with an entry at a location, in the place of what was there. -/
def put (tree : FileTree) (location : Location) (entry : Entry) : FileTree :=
  ⟨(tree.erase location).entries ++ [(location, entry)]⟩

/-- Nothing but the erased location changes. -/
theorem find?_erase (tree : FileTree) {location : Location} (below : location ≠ [])
    (other : Location) :
    (tree.erase location).find? other = if other = location then none else tree.find? other := by
  unfold find? erase
  by_cases root : other = []
  · subst root
    simp [below.symm]
  · simp only [root, if_false]
    induction tree.entries with
    | nil => simp
    | cons first rest ih =>
        obtain ⟨place, entry⟩ := first
        by_cases erased : place = location
        · subst erased
          by_cases equal : other = place
          · simpa [List.filter_cons, equal] using ih
          · have different : (other == place) = false := by simp [equal]
            simpa [List.filter_cons, List.lookup_cons, equal, different] using ih
        · by_cases equal : other = place
          · subst equal
            simp [erased]
          · have different : (other == place) = false := by simp [equal]
            simpa [List.filter_cons, List.lookup_cons, erased, different] using ih

/-- Nothing but the given location changes, and that holds the new entry. -/
theorem find?_put (tree : FileTree) {location : Location} (below : location ≠ [])
    (entry : Entry) (other : Location) :
    (tree.put location entry).find? other =
      if other = location then some entry else tree.find? other := by
  have erased := tree.find?_erase below other
  unfold put
  by_cases equal : other = location
  · subst equal
    simp only [find?, below, if_false, if_true] at erased ⊢
    rw [List.lookup_append, erased]
    simp
  · simp only [equal, if_false] at erased ⊢
    rw [← erased]
    by_cases root : other = []
    · simp [find?, root]
    · have different : (other == location) = false := by simp [equal]
      simp [find?, root, List.lookup_append, List.lookup_cons, different]

/-- The names of what lies in a directory. -/
def children (tree : FileTree) (location : Location) : List String :=
  tree.entries.filterMap fun (place, _) =>
    match place.getLast? with
    | some name => if place.dropLast = location then some name else none
    | none => none

/-- The most bytes of a name. -/
def maxName : Nat := 255

/-- The number of bytes that a path must not reach. -/
def maxPath : Nat := 4096

/-- What lies under a name in a directory. -/
def child? (tree : FileTree) (here : Location) (name : String) :
    Except OsError (Option Entry) :=
  if name.utf8ByteSize > maxName then .error .nameTooLong
  else .ok (tree.find? (here ++ [name]))

/-- Follow names through directories. The root directory lies in itself. -/
def walk (tree : FileTree) (here : Location) : List String → Except OsError Location
  | [] => .ok here
  | name :: rest =>
      if name = "." then walk tree here rest
      else if name = ".." then walk tree here.dropLast rest
      else
        match tree.child? here name with
        | .error error => .error error
        | .ok none => .error .notFound
        | .ok (some .directory) => walk tree (here ++ [name]) rest
        | .ok (some _) => .error .notDirectory

/-- Where a path ends. -/
inductive Place where
  /-- At a name in a directory, which may or may not exist. -/
  | named (parent : Location) (name : String) (slash : Bool)
  /-- At a directory itself, by `.`, `..` or a slash alone. -/
  | directory (location : Location)
  deriving DecidableEq, Repr

/-- Follow a path to its last name, from a directory. -/
def locate (tree : FileTree) (here : Location) (path : Path) : Except OsError Place := do
  if path.size ≥ maxPath then .error .nameTooLong
  let start := if path.absolute then [] else here
  match path.names.getLast? with
  | none => if path.absolute then return .directory [] else .error .notFound
  | some name =>
      let parent ← walk tree start path.names.dropLast
      if name = "." then return .directory parent
      else if name = ".." then return .directory parent.dropLast
      else return .named parent name path.slash

/-- What a path leads to, with its location. -/
def entryAt (tree : FileTree) (here : Location) (path : Path) :
    Except OsError (Location × Entry) := do
  match ← tree.locate here path with
  | .directory location => return (location, .directory)
  | .named parent name slash =>
      match ← tree.child? parent name with
      | none => .error .notFound
      | some .directory => return (parent ++ [name], .directory)
      | some entry =>
          if slash then .error .notDirectory else return (parent ++ [name], entry)

/-- The place of a file to be written, with what lies there. It may be new. -/
def spotAt (tree : FileTree) (here : Location) (path : Path) :
    Except OsError (Location × Option Entry) := do
  match ← tree.locate here path with
  | .directory _ => .error .isDirectory
  | .named parent name slash =>
      if slash then .error .isDirectory
      match ← tree.child? parent name with
      | some .directory => .error .isDirectory
      | found => return (parent ++ [name], found)

/-- What a program file starts with. It is no text. -/
def programContent : List UInt8 := [0x7F, 0x45, 0x4C, 0x46, 0xFF]

/-- Where the bytes of a file that is read come from. -/
inductive Supply where
  | bytes (content : List UInt8)
  | stream (number : Nat)
  deriving DecidableEq

/-- Open the file at a path for reading. -/
def read (tree : FileTree) (here : Location) (path : Path) : Except OsError Supply := do
  match ← tree.entryAt here path with
  | (_, .directory) => .error .isDirectory
  | (_, .file content) => return .bytes content
  | (_, .program) => return .bytes programContent
  | (_, .device (.stream number)) => return .stream number
  | (_, .device _) => return .bytes []

/-- What has become of written bytes. -/
inductive Written where
  | stored (tree : FileTree)
  /-- The bytes belong to a standard stream. -/
  | stream (number : Nat)
  deriving DecidableEq

/-- Write a file, new or in the place of an old one. -/
def write (tree : FileTree) (here : Location) (path : Path) (content : List UInt8) :
    Except OsError Written := do
  match ← tree.spotAt here path with
  | (_, some (.device .null)) => return .stored tree
  | (_, some (.device .full)) => if content = [] then return .stored tree else .error .noSpace
  | (_, some (.device (.stream number))) => return .stream number
  | (location, _) => return .stored (tree.put location (.file content))

/-- Move a file to another path, in the place of the file that was there. -/
def rename (tree : FileTree) (here : Location) (source dest : Path) :
    Except OsError FileTree := do
  if dest.size ≥ maxPath then .error .nameTooLong
  match ← tree.locate here source, ← tree.locate here dest with
  | .named oldParent oldName oldSlash, .named newParent newName newSlash =>
      match ← tree.child? oldParent oldName, tree.child? newParent newName with
      | none, _ => .error .notFound
      | some _, .error error => .error error
      | some .directory, .ok _ => .error .isDirectory
      | some entry, .ok replaced =>
          if oldSlash ∨ newSlash then .error .notDirectory
          else if replaced = some .directory then .error .isDirectory
          else
            let old := oldParent ++ [oldName]
            let new := newParent ++ [newName]
            if old = new then return tree else return (tree.erase old).put new entry
  | _, _ => .error .busy

/-- Delete a file. -/
def remove (tree : FileTree) (here : Location) (path : Path) : Except OsError FileTree := do
  match ← tree.entryAt here path with
  | (_, .directory) => .error .isDirectory
  | (location, _) => return tree.erase location

end FileTree

end ScanCircuit
