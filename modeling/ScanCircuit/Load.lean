import ScanCircuit.Automaton
import ScanCircuit.Sketch
import ScanCircuit.Json.Reader

/-!
# Loading an automaton

An automaton is loaded from JSON text in stages: the text is read as one value, the
value is matched against the layouts of a graph, nothing but blanks may follow it,
the names in the sketch are read, and the nodes are validated. The first stage that
fails decides the error.
-/

namespace ScanCircuit

/-- Why a text does not load as an automaton. -/
inductive LoadError where
  /-- The text is not JSON. -/
  | text (fault : Json.Fault) (source : List Char)
  /-- The value has neither layout of a graph. -/
  | layout
  /-- The graph breaks a rule. -/
  | invalid (defect : Defect)
  deriving DecidableEq, Repr

namespace LoadError

/-- The sentence that says what went wrong. -/
def message : LoadError → String
  | text fault source => "invalid automaton JSON: " ++ fault.message source
  | layout =>
      "invalid automaton JSON: data did not match any variant of untagged enum RawGraph"
  | invalid defect => "invalid automaton: " ++ defect.message

end LoadError

namespace Load

/-- The only character of a text, if it has exactly one. -/
def singleChar? (text : String) : Option Char :=
  match text.toList with
  | [char] => some char
  | _ => none

/-- The characters of an array of one-character texts. -/
def singleChars? : Json.Value → Option (List Char)
  | .array elements =>
      elements.mapM fun element => Sketch.decodeText element >>= singleChar?
  | _ => none

/-- The label that a key stands for: a bare character, or the characters of a JSON
array of one-character texts. -/
def label? (key : String) : Option CharSet :=
  match singleChar? key with
  | some char => some (CharSet.ofList [char])
  | none =>
      match Json.read key.toList with
      | .ok value => (singleChars? value).map CharSet.ofList
      | .error _ => none

/-- The kind that a word stands for. -/
def kind? (word : String) : Option NodeKind :=
  if word = "accept" then some .accept
  else if word = "normal" ∨ word = "" ∨ word = "start" then some .normal
  else none

/-- The edges of node `id`, up to the first label that cannot be read. -/
def edges (id : Nat) : List (String × Nat) → Except Defect (List Edge)
  | [] => .ok []
  | (key, dest) :: rest =>
      match label? key with
      | none => .error (.malformedLabel id key)
      | some label => do
          let others ← edges id rest
          return ⟨label, dest⟩ :: others

/-- The node that a sketch stands for; its kind is read before its labels. -/
def node (id : Nat) (sketch : NodeSketch) : Except Defect Node :=
  match kind? sketch.kind with
  | none => .error (.unknownKind id sketch.kind)
  | some kind => do
      let edges ← edges id sketch.edges
      return { id, kind, edges }

/-- The nodes that numbered sketches stand for. -/
def nodes : List (Nat × NodeSketch) → Except Defect (List Node)
  | [] => .ok []
  | (id, sketch) :: rest => do
      let first ← node id sketch
      let others ← nodes rest
      return first :: others

/-- The number that a list of decimal digits denotes. -/
def digitsValue (digits : List Char) : Nat :=
  digits.foldl (fun value digit => value * 10 + (digit.toNat - '0'.toNat)) 0

/-- The id that a key denotes: decimal digits after an optional plus sign, below `2 ^ 64`. -/
def id? (key : String) : Option Nat :=
  let digits :=
    match key.toList with
    | '+' :: rest => rest
    | all => all
  if digits ≠ [] ∧ digits.all Char.isDigit ∧ digitsValue digits < Json.naturalBound then
    some (digitsValue digits)
  else none

/-- Read the keys as ids, up to the first that is none. -/
def number : List (String × NodeSketch) → Except Defect (List (Nat × NodeSketch))
  | [] => .ok []
  | (key, sketch) :: rest =>
      match id? key with
      | none => .error (.invalidNodeId key)
      | some id => do
          let others ← number rest
          return (id, sketch) :: others

/-- Put an entry before the first one with a greater or equal id. -/
def placeById (entry : Nat × NodeSketch) : List (Nat × NodeSketch) → List (Nat × NodeSketch)
  | [] => [entry]
  | first :: rest =>
      if entry.1 ≤ first.1 then entry :: first :: rest else first :: placeById entry rest

/-- Sort entries by id; entries with the same id keep their order. -/
def sortById (entries : List (Nat × NodeSketch)) : List (Nat × NodeSketch) :=
  entries.foldr placeById []

/-- Number the nodes of a list by position. -/
def enumerate (start : Nat) : List NodeSketch → List (Nat × NodeSketch)
  | [] => []
  | sketch :: rest => (start, sketch) :: enumerate (start + 1) rest

/-- The numbered nodes of a sketch in ascending order. -/
def numbered : GraphSketch → Except Defect (List (Nat × NodeSketch))
  | .list sketches => .ok (enumerate 0 sketches)
  | .keyed entries => (number entries).map sortById

/-- The automaton that a sketch stands for. -/
def ofSketch (sketch : GraphSketch) : Except Defect Automaton := do
  Automaton.ofNodes (← nodes (← numbered sketch))

/-- The sketch that a text writes down. -/
def sketch (text : List Char) : Except LoadError GraphSketch :=
  match Json.readValue text with
  | .error fault => .error (.text fault text)
  | .ok reading =>
      match Sketch.decodeGraph reading.value with
      | none => .error .layout
      | some sketch =>
          match Json.checkRest reading.offset reading.rest with
          | .error fault => .error (.text fault text)
          | .ok () => .ok sketch

end Load

/-- Load an automaton from JSON text. -/
def Automaton.load (text : String) : Except LoadError Automaton := do
  let sketch ← Load.sketch text.toList
  match Load.ofSketch sketch with
  | .ok automaton => .ok automaton
  | .error defect => .error (.invalid defect)

end ScanCircuit
