import ScanCircuit.Files.Tree
import ScanCircuit.Shell.Bytes

/-!
# Patterns

A pattern matches whole byte strings: `*` any of them, `?` any byte, and a bracket any of
its bytes. Bytes that are quoted match themselves only. A field with a pattern in it can
be replaced by the paths that match.

This is a part of the shell that a generator may run in. It serves to run generators from
the command line only; no theorem depends on it.
-/

namespace ScanCircuit.Shell

/-- A byte of a field and whether it is quoted. -/
structure Glyph where
  char : Char
  quoted : Bool
  deriving DecidableEq, Repr

/-- What a bracket holds. -/
inductive Member where
  | range (low high : Char)
  /-- A class of bytes by its name. -/
  | named (name : Bytes)
  deriving DecidableEq, Repr

/-- A piece of a pattern. -/
inductive Matcher where
  | exactly (char : Char)
  | anyByte
  | anything
  | oneOf (negated : Bool) (members : List Member)
  deriving DecidableEq, Repr

/-- Whether a byte belongs to a class. -/
def inClass (name : Bytes) (char : Char) : Bool :=
  let printable := 32 < char.toNat && char.toNat < 127
  match Bytes.key name with
  | "alpha" => char.isAlpha
  | "digit" => char.isDigit
  | "alnum" => char.isAlphanum
  | "upper" => char.isUpper
  | "lower" => char.isLower
  | "space" => Bytes.isSpace char
  | "blank" => char = ' ' || char = '\t'
  | "punct" => printable && !char.isAlphanum
  | "print" => printable || char = ' '
  | "graph" => printable
  | "cntrl" => char.toNat < 32 || char.toNat = 127
  | "xdigit" => (Bytes.digit? 16 char).isSome
  | _ => false

/-- Whether a byte is what a member of a bracket stands for. -/
def Member.holds (char : Char) : Member → Bool
  | range low high => low.toNat ≤ char.toNat && char.toNat ≤ high.toNat
  | named name => inClass name char

/-- Whether a byte is what a piece stands for. -/
def Matcher.holds (char : Char) : Matcher → Bool
  | exactly wanted => char = wanted
  | anyByte | anything => true
  | oneOf negated members => (members.any (·.holds char)) != negated

/-- The name of a class at the front, and what is left. -/
def className? (glyphs : List Glyph) : Option (Bytes × List Glyph) :=
  match glyphs with
  | ⟨'[', false⟩ :: ⟨':', _⟩ :: rest =>
      let name := (rest.map Glyph.char).takeWhile Char.isAlpha
      match rest.drop name.length with
      | ⟨':', _⟩ :: ⟨']', _⟩ :: after => some (name, after)
      | _ => none
  | _ => none

/-- The members of a bracket and what is left after it, if it is closed. -/
def bracket? (first : Bool) (members : List Member) :
    Nat → List Glyph → Option (List Member × List Glyph)
  | 0, _ => none
  | _ + 1, [] => none
  | fuel + 1, glyph :: rest =>
      if glyph.char = ']' ∧ ¬glyph.quoted ∧ ¬first then some (members.reverse, rest)
      else
        match className? (glyph :: rest) with
        | some (name, after) => bracket? false (.named name :: members) fuel after
        | none =>
            match rest with
            | ⟨'-', false⟩ :: high :: after =>
                if high.char = ']' ∧ ¬high.quoted then
                  bracket? false (.range glyph.char glyph.char :: members) fuel rest
                else bracket? false (.range glyph.char high.char :: members) fuel after
            | _ => bracket? false (.range glyph.char glyph.char :: members) fuel rest

/-- The pattern that glyphs spell. -/
def pattern : Nat → List Glyph → List Matcher
  | 0, _ => []
  | _ + 1, [] => []
  | fuel + 1, glyph :: rest =>
      if glyph.quoted then .exactly glyph.char :: pattern fuel rest
      else if glyph.char = '*' then .anything :: pattern fuel rest
      else if glyph.char = '?' then .anyByte :: pattern fuel rest
      else if glyph.char = '\\' then
        match rest with
        | escaped :: after => .exactly escaped.char :: pattern fuel after
        | [] => [.exactly '\\']
      else if glyph.char = '[' then
        let negated := rest.head? = some ⟨'!', false⟩
        match bracket? true [] (rest.length + 1) (if negated then rest.drop 1 else rest) with
        | some (members, after) => .oneOf negated members :: pattern fuel after
        | none => .exactly '[' :: pattern fuel rest
      else .exactly glyph.char :: pattern fuel rest

/-- The pattern of a field. -/
def patternOf (glyphs : List Glyph) : List Matcher :=
  pattern (glyphs.length + 1) glyphs

/-- The ends of a byte string, longest first. -/
def ends : Bytes → List Bytes
  | [] => [[]]
  | char :: rest => (char :: rest) :: ends rest

/-- Whether a pattern matches a byte string. -/
def fits : List Matcher → Bytes → Bool
  | [], text => text.isEmpty
  | .anything :: rest, text => (ends text).any (fits rest)
  | _ :: _, [] => false
  | matcher :: rest, char :: text => matcher.holds char && fits rest text

/-- Leave out the shortest or longest end or beginning that a pattern matches. A zero byte
stands between separate texts: what is matched does not go beyond the next one, and the longest
end starts in the first text. -/
def trimMatch (fromEnd longest : Bool) (matchers : List Matcher) (text : Bytes) : Bytes :=
  let sizes := List.range (text.length + 1)
  let sizes := if longest then sizes.reverse else sizes
  let matched (part : Bytes) : Bool := fits matchers (part.takeWhile (· ≠ '\x00'))
  if fromEnd then
    let least := if longest then (text.dropWhile (· ≠ '\x00')).length else 0
    match sizes.find? fun size => least ≤ size && matched (text.drop (text.length - size)) with
    | some size => text.take (text.length - size)
    | none => text
  else
    match sizes.find? fun size => matched (text.take size) with
    | some size => text.drop size
    | none => text

/-- Whether a field may match other paths than the one it spells. -/
def hasPattern (glyphs : List Glyph) : Bool :=
  glyphs.any fun glyph =>
    !glyph.quoted && (glyph.char = '*' || glyph.char = '?' || glyph.char = '[')

/-- The segments of a field between its slashes. -/
def fieldSegments (collected : List Glyph) : List Glyph → List (List Glyph)
  | [] => [collected.reverse]
  | glyph :: rest =>
      if glyph.char = '/' then collected.reverse :: fieldSegments [] rest
      else fieldSegments (glyph :: collected) rest

/-- Put a name into a sorted list. -/
def insertSorted (name : Bytes) : List Bytes → List Bytes
  | [] => [name]
  | first :: rest =>
      if Bytes.precedes name first then name :: first :: rest
      else first :: insertSorted name rest

/-- Names in order. -/
def sortNames (names : List Bytes) : List Bytes :=
  names.foldl (fun sorted name => insertSorted name sorted) []

/-- The names in a directory that a segment matches. -/
def matchingNames (files : FileTree) (location : Location) (segment : List Glyph) : List Bytes :=
  let hidden := segment.head?.map Glyph.char = some '.'
  let names := (files.children location).map Bytes.ofText
  let names := if hidden then [['.'], ['.', '.']] ++ names else names
  names.filter fun name =>
    (hidden || name.head? ≠ some '.') && fits (patternOf segment) name

/-- The paths that the remaining segments match, after a beginning that leads to a
directory. -/
def matchingPaths (files : FileTree) (here : Location) (beginning : Bytes) :
    List (List Glyph) → List Bytes
  | [] => [beginning]
  | segment :: rest =>
      let place : Except OsError (Location × Entry) :=
        if beginning = [] then .ok (here, .directory)
        else files.entryAt here (Path.ofString (Bytes.toText beginning))
      match place with
      | .ok (location, .directory) =>
          let names :=
            if hasPattern segment then matchingNames files location segment
            else [segment.map Glyph.char]
          let slash : Bytes := if rest = [] then [] else ['/']
          names.flatMap fun name =>
            matchingPaths files here (beginning ++ name ++ slash) rest
      | _ => []

/-- The existing paths that a field matches, in order. -/
def expandPaths (files : FileTree) (here : Location) (glyphs : List Glyph) : List Bytes :=
  sortNames <| (matchingPaths files here [] (fieldSegments [] glyphs)).filter fun path =>
    match files.entryAt here (Path.ofString (Bytes.toText path)) with
    | .ok _ => true
    | .error _ => false

end ScanCircuit.Shell
