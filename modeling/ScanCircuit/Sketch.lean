import ScanCircuit.Json.Value

/-!
# Sketches of a graph

A sketch is a graph as a JSON value writes it down, before its names are read. Two
layouts are in use: a list of nodes, whose positions are the ids, and an object
whose keys are the ids. A node is an object with the optional members `type` and
`edges`, or a list with those two in this order, either of which may be missing
from the end.

Where a key of an object is repeated, the last value counts and the first place.
-/

namespace ScanCircuit

/-- A node as it is written: a word for its kind and destinations by label. -/
structure NodeSketch where
  kind : String := ""
  edges : List (String × Nat) := []
  deriving DecidableEq, Repr

/-- A graph as it is written, in either layout. -/
inductive GraphSketch where
  | list (nodes : List NodeSketch)
  | keyed (nodes : List (String × NodeSketch))
  deriving DecidableEq, Repr

namespace Sketch

variable {α : Type}

/-- Give a key a value: in its old place if it is there, else at the end. -/
def assign (key : String) (value : α) : List (String × α) → List (String × α)
  | [] => [(key, value)]
  | (other, old) :: rest =>
      if other = key then (key, value) :: rest else (other, old) :: assign key value rest

/-- Give several keys their values in turn. -/
def assignAll (entries : List (String × α)) : List (String × α) :=
  entries.foldl (fun assigned entry => assign entry.1 entry.2 assigned) []

/-- Decode the value of every member, keeping keys and order. -/
def decodeMembers (decode : Json.Value → Option α) :
    List (String × Json.Value) → Option (List (String × α))
  | [] => some []
  | (key, value) :: rest => do
      let decoded ← decode value
      let others ← decodeMembers decode rest
      return (key, decoded) :: others

/-- An object whose values are all decoded alike. -/
def decodeObject (decode : Json.Value → Option α) : Json.Value → Option (List (String × α))
  | .object members => (decodeMembers decode members).map assignAll
  | _ => none

/-- A text. -/
def decodeText : Json.Value → Option String
  | .string text => some text
  | _ => none

/-- A natural number. -/
def decodeNatural : Json.Value → Option Nat
  | .natural value => some value
  | _ => none

/-- The edges of a node: destinations by label. -/
def decodeEdges : Json.Value → Option (List (String × Nat)) :=
  decodeObject decodeNatural

/-- A member of an object that may be missing but not repeated. -/
def decodeMember (name : String) (default : α) (decode : Json.Value → Option α)
    (members : List (String × Json.Value)) : Option α :=
  match members.filter fun entry => entry.1 = name with
  | [] => some default
  | [(_, value)] => decode value
  | _ => none

/-- A node in either of its two forms. -/
def decodeNode : Json.Value → Option NodeSketch
  | .array [] => some {}
  | .array [kind] => do return { kind := ← decodeText kind }
  | .array [kind, edges] => do
      return { kind := ← decodeText kind, edges := ← decodeEdges edges }
  | .object members => do
      let kind ← decodeMember "type" "" decodeText members
      let edges ← decodeMember "edges" [] decodeEdges members
      return { kind, edges }
  | _ => none

/-- A graph in either of its two layouts. -/
def decodeGraph : Json.Value → Option GraphSketch
  | .array nodes => (nodes.mapM decodeNode).map .list
  | .object members => (decodeObject decodeNode (.object members)).map .keyed
  | _ => none

end Sketch

end ScanCircuit
