import Mathlib.Data.List.Forall2
import ScanCircuit.Load
import ScanCircuit.Proofs.Json.Grammar

/-!
# Spellings of an automaton

The same automaton can be written down as JSON in many ways: as a list or by ids, with the
kinds of its nodes in several words or left out, and with labels as bare characters or as
lists of characters inside a string.  `Automaton.Spells` gathers these spellings.
-/

namespace ScanCircuit

open Json (Value Document)

/-! ## Spellings -/

/-- A key that stands for a label: its only character, or the text of a list of its
characters in any order and with any repetition. -/
inductive SpellsLabel (label : CharSet) (key : String) : Prop where
  | bare {char : Char} :
      label.toList = [char] → key = String.singleton char → SpellsLabel label key
  | listed {chars : List Char} :
      (∀ char, char ∈ chars ↔ char ∈ label) →
      Document (.array (chars.map fun char => .string (String.singleton char))) key.toList →
      SpellsLabel label key

/-- A key that stands for an id: decimal digits, perhaps with zeros or a plus in front. -/
inductive SpellsId (id : Nat) (key : String) : Prop where
  | digits : Json.Decimal id key.toList → SpellsId id key
  | signed {digits : List Char} :
      Json.Decimal id digits → key.toList = '+' :: digits → SpellsId id key

/-- The member for the kind of a node, if there is one. -/
inductive SpellsKind : NodeKind → List (String × Value) → Prop where
  | accept : SpellsKind .accept [("type", .string "accept")]
  | normal {word : String} :
      word ∈ ["", "normal", "start"] → SpellsKind .normal [("type", .string word)]
  | omitted : SpellsKind .normal []

/-- The member for an edge. -/
def SpellsEdge (edge : Edge) (member : String × Value) : Prop :=
  SpellsLabel edge.label member.1 ∧ member.2 = .natural edge.dest

/-- The member for the edges of a node, if there is one.  No key stands there twice. -/
inductive SpellsEdges : List Edge → List (String × Value) → Prop where
  | listed {edges : List Edge} {members : List (String × Value)} :
      List.Forall₂ SpellsEdge edges members → (members.map Prod.fst).Nodup →
      SpellsEdges edges [("edges", .object members)]
  | omitted : SpellsEdges [] []

/-- A node is an object with its kind and its edges, in either order. -/
inductive SpellsNode (node : Node) : Value → Prop where
  | object {kind edges members : List (String × Value)} :
      SpellsKind node.kind kind → SpellsEdges node.edges edges →
      members.Perm (kind ++ edges) → SpellsNode node (.object members)

/-- A graph is a list of its nodes, or an object with its nodes by id in any order. -/
inductive SpellsGraph (automaton : Automaton) : Value → Prop where
  | list {values : List Value} :
      List.Forall₂ SpellsNode automaton.nodes values → SpellsGraph automaton (.array values)
  | keyed {nodes : List Node} {members : List (String × Value)} :
      nodes.Perm automaton.nodes →
      List.Forall₂ (fun node member => SpellsId node.id member.1 ∧ SpellsNode node member.2)
        nodes members →
      SpellsGraph automaton (.object members)

/-- A text writes an automaton down. -/
def Automaton.Spells (automaton : Automaton) (text : String) : Prop :=
  ∃ value, SpellsGraph automaton value ∧ Document value text.toList

/-! ## A spelling -/

namespace Json

theorem blank_nil : Blank [] := nofun

/-- A text in quotes, with a backslash in front of each quote and backslash in it. -/
def quoted (text : String) : List Char :=
  '"' :: (text.toList.flatMap fun char =>
    if char = '"' ∨ char = '\\' then ['\\', char] else [char]) ++ ['"']

/-- A text has no control characters, as a check that runs through it. -/
def printable (text : String) : Bool :=
  text.toList.all fun char => 0x20 ≤ char.toNat

theorem spellsText_quoted {text : String} (checked : printable text) :
    SpellsText text (quoted text) := by
  have printable : ∀ char ∈ text.toList, 0x20 ≤ char.toNat := by
    simpa [printable] using checked
  refine .quoted ?_
  clear checked
  generalize text.toList = chars at printable
  induction chars with
  | nil => exact .nil
  | cons char rest ih =>
      rw [List.flatMap_cons]
      refine .cons ?_ (ih fun other member => printable other (by simp [member]))
      split
      next special =>
        rcases special with rfl | rfl
        · exact .short (by decide)
        · exact .short (by decide)
      next plain =>
        rw [not_or] at plain
        exact .plain plain.1 plain.2 (printable char (by simp))

/-- A member without blanks. -/
def Member.compact (key : String) (value : Value) (core : List Char) : Member :=
  { key, name := quoted key, element := { value, core } }

theorem written_compact {depth : Nat} (entries : List (String × Value × List Char))
    (checked : ∀ entry ∈ entries, printable entry.1)
    (written : ∀ entry ∈ entries, Written depth entry.2.1 entry.2.2) :
    Written (depth + 1) (.object (entries.map fun entry => (entry.1, entry.2.1)))
      ('\x7b' :: commas (entries.map fun entry => quoted entry.1 ++ ':' :: entry.2.2) ++
        ['\x7d']) := by
  have spaced (entry : String × Value × List Char) (listed : entry ∈ entries) :
      (Member.compact entry.1 entry.2.1 entry.2.2).Spaced :=
    ⟨blank_nil, spellsText_quoted (checked entry listed), blank_nil, blank_nil, blank_nil⟩
  have object :=
    Written.object blank_nil (List.forall_mem_map.2 spaced) (List.forall_mem_map.2 written)
  simpa [Function.comp_def, Member.compact, Member.entry, Member.text, Element.text] using object

end Json

section

open Json

/-- An automaton for one of three characters. -/
def Automaton.oneOf : Automaton where
  nodes :=
    [⟨0, .normal, [⟨{ toList := ['a', 'b'] }, 1⟩, ⟨{ toList := ['['] }, 1⟩]⟩, ⟨1, .accept, []⟩]
  accept := 1
  wellFormed :=
    { dense := rfl
      edgesFit := edgesDefect_eq_none.1 (by decide)
      onlyAccept := rfl
      acceptNotStart := by decide }

/-- Its nodes by id, the accepting one first, and a label with an escape inside a string. -/
def oneOfText : String :=
  "\x7b\"01\":\x7b\"type\":\"accept\"\x7d,\"+0\":\x7b\"edges\":\x7b" ++
    "\"[\\\"b\\\",\\\"\\\\u0061\\\", \\\"b\\\"]\":1,\"[\":1\x7d,\"type\":\"start\"\x7d\x7d\n"

theorem spellsLabel_oneOf :
    SpellsLabel { toList := ['a', 'b'] } "[\"b\",\"\\u0061\", \"b\"]" := by
  have zero : HexDigit 0 '0' := .lower (by decide)
  have code : HexCode 'a'.toNat ['0', '0', '6', '1'] :=
    .digits zero zero (.lower (by decide) : HexDigit 6 '6') (.lower (by decide) : HexDigit 1 '1')
  have escape : SpellsChars "a".toList ['\\', 'u', '0', '0', '6', '1'] := .cons (.code code) .nil
  have elements : ∀ element ∈ ([
      { value := .string "b", core := quoted "b" },
      { value := .string "a", core := ['"', '\\', 'u', '0', '0', '6', '1', '"'] },
      { before := [' '], value := .string "b", core := quoted "b" }] : List Element),
      element.Spaced ∧ Written 126 element.value element.core := by
    simp only [List.forall_mem_cons]
    exact ⟨⟨⟨nofun, nofun⟩, .string (spellsText_quoted (by decide))⟩,
      ⟨⟨nofun, nofun⟩, .string (.quoted escape)⟩,
      ⟨⟨by simp [Blank], nofun⟩, .string (spellsText_quoted (by decide))⟩, nofun⟩
  have written := Written.array blank_nil (fun element member => (elements element member).1)
    fun element member => (elements element member).2
  have same : ∀ char, char ∈ ['b', 'a', 'b'] ↔ char ∈ ({ toList := ['a', 'b'] } : CharSet) := by
    simp [CharSet.mem_iff, or_comm]
  have document := Document.spaced blank_nil written blank_nil
  exact .listed same document

/-- The value that the text writes down. -/
def oneOfValue : Value :=
  .object
    [("01", .object [("type", .string "accept")]),
     ("+0", .object
       [("edges", .object [("[\"b\",\"\\u0061\", \"b\"]", .natural 1), ("[", .natural 1)]),
        ("type", .string "start")])]

theorem spellsGraph_oneOf : SpellsGraph .oneOf oneOfValue := by
  have first : SpellsId 1 "01" := .digits ⟨by decide, List.all_eq_true.1 (by decide), by decide⟩
  have second : SpellsId 0 "+0" :=
    .signed ⟨by decide, List.all_eq_true.1 (by decide), by decide⟩ rfl
  refine .keyed (.swap _ _ _) (.cons ⟨first, .object .accept .omitted (.refl _)⟩
    (.cons ⟨second, .object (.normal (by decide)) (.listed ?_ (by decide)) (.swap _ _ _)⟩ .nil))
  exact .cons ⟨spellsLabel_oneOf, rfl⟩ (.cons ⟨.bare rfl rfl, rfl⟩ .nil)

theorem document_oneOf : Document oneOfValue oneOfText.toList := by
  have both {α : Type} {holds : α → Prop} {first second : α} (left : holds first)
      (right : holds second) : ∀ item ∈ [first, second], holds item := by
    simp [left, right]
  have accept : Written 125 (.string "accept") (quoted "accept") :=
    .string (spellsText_quoted (by decide))
  have start : Written 125 (.string "start") (quoted "start") :=
    .string (spellsText_quoted (by decide))
  have number : Written 124 (.natural 1) ['1'] :=
    .natural (by decide) ⟨⟨by decide, List.all_eq_true.1 (by decide), by decide⟩, by decide⟩
  have edges := written_compact
    [("[\"b\",\"\\u0061\", \"b\"]", _, _), ("[", _, _)] (by decide) (both number number)
  have second := written_compact [("edges", _, _), ("type", _, _)] (by decide) (both edges start)
  have first := written_compact [("type", _, _)] (by decide) (List.forall_mem_singleton.2 accept)
  have graph := written_compact [("01", _, _), ("+0", _, _)] (by decide) (both first second)
  exact Document.spaced blank_nil graph (by simp [Blank] : Blank ['\n'])

end

end ScanCircuit
