/-!
# Paths

A path is the segments between its slashes. Empty segments do not count when the path
is followed; `.` and `..` keep their special meaning until then. The segments are kept
as they are written, because systems limit the length of a path as a text.
-/

namespace ScanCircuit

/-- A path, taken apart at its slashes. -/
structure Path where
  segments : List String
  deriving DecidableEq, Repr

namespace Path

/-- The segments of the remaining characters, given the segment being collected, last
character first. -/
def splitFrom (collected : List Char) : List Char → List String
  | [] => [String.ofList collected.reverse]
  | char :: rest =>
      if char = '/' then String.ofList collected.reverse :: splitFrom [] rest
      else splitFrom (char :: collected) rest

/-- The path that a text spells. -/
def ofString (text : String) : Path where
  segments := splitFrom [] text.toList

/-- The path as text. -/
def toString (path : Path) : String :=
  "/".intercalate path.segments

/-- The names that lead along the path. -/
def names (path : Path) : List String :=
  path.segments.filter (· ≠ "")

/-- Whether the path starts with a slash. -/
def absolute (path : Path) : Bool :=
  path.segments.length ≠ 1 && path.segments.head? = some ""

/-- Whether the path ends with a slash. -/
def slash (path : Path) : Bool :=
  path.segments.length ≠ 1 && path.segments.getLast? = some ""

/-- The number of bytes that the path is written with. -/
def size (path : Path) : Nat :=
  path.toString.utf8ByteSize

/-- The name of the hidden file in which the content of a file is prepared. -/
def stagingName (name : String) : String := "." ++ name ++ ".tmp"

/-- The segments without those at the end that lead nowhere. The first segment stays. -/
def trimmed : List String → List String
  | [] => []
  | first :: rest =>
      first :: (rest.reverse.dropWhile fun segment => segment = "" || segment = ".").reverse

/-- The last name of the path, unless the path ends at a directory itself. -/
def fileName? (path : Path) : Option String :=
  (trimmed path.segments).getLast?.filter fun name => name ≠ "" && name ≠ "." && name ≠ ".."

/-- The hidden file beside a path, in which its content is prepared. A path that names
no file of its own has it inside. -/
def staging (path : Path) : Path :=
  match path.fileName? with
  | some name => ⟨trimmed (trimmed path.segments).dropLast ++ [stagingName name]⟩
  | none =>
      let ended := path.segments.getLast? = some ""
      ⟨(if ended then path.segments.dropLast else path.segments) ++ [stagingName ""]⟩

end Path

end ScanCircuit
