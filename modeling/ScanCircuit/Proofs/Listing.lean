import ScanCircuit.Proofs.Text.Lines
import ScanCircuit.Proofs.Encoding
import ScanCircuit.Proofs.Circuit.Tally

/-!
# Tables as listings

The text of a table is read back as the accepting node and a list of triples of numbers, so
different tables have different texts.

The triples of an automaton come from its letters: each character of each edge, in the order of
the edges.  `listing_faithful` puts the two together.
-/

namespace ScanCircuit

/-! ## Reading a text -/

/-- The number that is written in decimal digits. -/
def readDecimal? (chars : List Char) : Option Nat :=
  if chars ≠ [] ∧ chars.all Char.isDigit then some (Nat.ofDigitChars 10 chars 0) else none

/-- Three numbers with a space between each two. -/
def readTriple? (row : List Char) : Option (Nat × Nat × Nat) :=
  match row.splitOn ' ' with
  | [source, dest, code] => do
      return (← readDecimal? source, ← readDecimal? dest, ← readDecimal? code)
  | _ => none

/-- A number and a list of triples. -/
structure Readout where
  accept : Nat
  triples : List (Nat × Nat × Nat)
  deriving DecidableEq, Repr

/-- A number on the first line and a triple on every other, each line ended by a line feed. -/
def Readout.read? (text : String) : Option Readout :=
  match Text.lines text with
  | [] => none
  | first :: rest =>
      if rest.getLast? = some [] then do
        return ⟨← readDecimal? first, ← rest.dropLast.mapM readTriple?⟩
      else none

theorem isDigit_of_mem_decimal {number : Nat} {char : Char} (member : char ∈ decimal number) :
    char.isDigit :=
  Nat.isDigit_of_mem_toDigits (by decide) (by decide) member

theorem not_mem_decimal {char : Char} (other : char.isDigit = false) (number : Nat) :
    char ∉ decimal number := by
  intro member
  rw [isDigit_of_mem_decimal member] at other
  cases other

theorem readDecimal?_decimal (number : Nat) : readDecimal? (decimal number) = some number := by
  have digits : decimal number ≠ [] ∧ (decimal number).all Char.isDigit :=
    ⟨Nat.toDigits_ne_nil, List.all_eq_true.2 fun _ member => isDigit_of_mem_decimal member⟩
  rw [readDecimal?, if_pos digits, decimal, Nat.ofDigitChars_ten_toDigits]

/-! ## The text of a table -/

namespace Transition

/-- The numbers of a transition. -/
def triple (transition : Transition) : Nat × Nat × Nat :=
  (transition.source, transition.dest, transition.code.toNat)

theorem triple_injective : Function.Injective triple := by
  rintro ⟨source, dest, code⟩ ⟨otherSource, otherDest, otherCode⟩ same
  simp only [triple, Prod.mk.injEq] at same
  obtain ⟨rfl, rfl, codes⟩ := same
  rw [UInt8.toNat_inj.1 codes]

/-- The line of a transition, without the line feed. -/
def row (transition : Transition) : List Char :=
  [' '].intercalate
    [decimal transition.source, decimal transition.dest, decimal transition.code.toNat]

theorem chars_eq_row (transition : Transition) :
    transition.chars = transition.row ++ ['\n'] := by
  simp [chars, row, List.intercalate]

theorem row_unbroken (transition : Transition) : '\n' ∉ transition.row := by
  simp [row, List.intercalate, not_mem_decimal]

theorem readTriple?_row (transition : Transition) :
    readTriple? transition.row = some transition.triple := by
  have numerals : ∀ numeral ∈ [decimal transition.source, decimal transition.dest,
      decimal transition.code.toNat], ' ' ∉ numeral := by
    simp [not_mem_decimal]
  rw [readTriple?, row, List.splitOn_intercalate _ numerals (by simp)]
  simp only [readDecimal?_decimal]
  rfl

end Transition

namespace Table

/-- The numbers of a table. -/
def readout (table : Table) : Readout :=
  ⟨table.accept, table.transitions.map Transition.triple⟩

theorem readout_injective : Function.Injective readout := by
  rintro ⟨accept, transitions⟩ ⟨otherAccept, otherTransitions⟩ same
  simp only [readout, Readout.mk.injEq] at same
  obtain ⟨rfl, triples⟩ := same
  rw [Transition.triple_injective.list_map triples]

theorem lines_render (table : Table) :
    Text.lines table.render =
      decimal table.accept :: (table.transitions.map Transition.row ++ [[]]) := by
  have rows : table.render =
      Text.ofLines (decimal table.accept :: table.transitions.map Transition.row ++ [[]]) := by
    have chars : Transition.chars = fun transition => transition.row ++ ['\n'] :=
      funext Transition.chars_eq_row
    rw [Text.ofLines_concat_nil, List.flatMap_cons, List.flatMap_map, render, Table.chars, chars]
  rw [rows]
  apply Text.lines_ofLines
  · rw [List.forall_mem_append, List.forall_mem_cons, List.forall_mem_map,
      List.forall_mem_singleton]
    exact ⟨⟨not_mem_decimal rfl table.accept, fun transition _ => transition.row_unbroken⟩,
      List.not_mem_nil⟩
  · simp

/-- The text of a table is read back as its numbers. -/
theorem read?_render (table : Table) : Readout.read? table.render = some table.readout := by
  have triples : (table.transitions.map Transition.row).mapM readTriple? =
      some (table.transitions.map Transition.triple) := by
    induction table.transitions with
    | nil => rfl
    | cons transition rest ih =>
        rw [List.map_cons, List.mapM_cons, transition.readTriple?_row, ih]
        rfl
  rw [Readout.read?, lines_render]
  simp only [List.getLast?_concat, List.dropLast_concat, readDecimal?_decimal, triples]
  rfl

theorem render_injective : Function.Injective render := by
  intro left right same
  apply readout_injective
  rw [← Option.some_inj, ← read?_render, ← read?_render, same]

end Table

/-! ## The letters of an automaton -/

/-- A character of an edge in its place. -/
structure Letter where
  arc : Arc
  char : Char

namespace Letter

/-- Sources ascending, then in declaration order, then codes ascending. -/
def Before (left right : Letter) : Prop :=
  left.arc.BySource right.arc ∨ left.arc = right.arc ∧ left.char.toNat < right.char.toNat

/-- The numbers of the transition on a letter. -/
def triple (letter : Letter) : Nat × Nat × Nat :=
  (letter.arc.source, letter.arc.edge.dest, letter.char.toNat)

end Letter

/-- The letters of an arc, ascending. -/
def Arc.letters (arc : Arc) : List Letter :=
  arc.edge.label.toList.map (Letter.mk arc)

namespace Automaton

variable {automaton : Automaton}

/-- All letters, in the order of their arcs. -/
def letters (automaton : Automaton) : List Letter :=
  automaton.arcs.flatMap Arc.letters

theorem mem_letters {letter : Letter} :
    letter ∈ automaton.letters ↔
      automaton.HasArc letter.arc ∧ letter.char ∈ letter.arc.edge.label := by
  obtain ⟨arc, char⟩ := letter
  simp only [letters, Arc.letters, List.mem_flatMap, List.mem_map, Letter.mk.injEq, mem_arcs]
  constructor
  · rintro ⟨_, has, _, member, rfl, rfl⟩
    exact ⟨has, member⟩
  · rintro ⟨has, member⟩
    exact ⟨arc, has, char, member, rfl, rfl⟩

theorem letters_ordered : automaton.letters.Pairwise Letter.Before := by
  rw [letters, List.pairwise_flatMap]
  constructor
  · intro arc _
    rw [Arc.letters, List.pairwise_map]
    exact arc.edge.label.ascending.imp fun below => .inr ⟨rfl, below⟩
  · apply arcs_ordered.imp
    intro earlier later before left leftMember right rightMember
    obtain ⟨_, -, rfl⟩ := List.mem_map.1 leftMember
    obtain ⟨_, -, rfl⟩ := List.mem_map.1 rightMember
    exact .inl before

end Automaton

/-! ## The triples of an automaton -/

/-- Whether the character with a code is in the set. -/
def CharSet.hasCode (set : CharSet) (code : Nat) : Bool :=
  set.toList.any fun char => char.toNat = code

/-- The triples of an edge that leaves a node. -/
def Edge.triples (source : Nat) (edge : Edge) : List (Nat × Nat × Nat) :=
  edge.label.toList.map fun char => (source, edge.dest, char.toNat)

/-- A triple occurs once on an edge whose ends and character it names, and otherwise not. -/
theorem Edge.count_triples (start : Nat) (edge : Edge) (source dest code : Nat) :
    (edge.triples start).count (source, dest, code) =
      if start = source ∧ edge.dest = dest ∧ edge.label.hasCode code then 1 else 0 := by
  have nodup : (edge.triples start).Nodup := by
    rw [triples, List.Nodup, List.pairwise_map]
    apply edge.label.ascending.imp
    intro left right below same
    simp only [Prod.mk.injEq, true_and] at same
    exact Nat.ne_of_lt below same
  have member : (source, dest, code) ∈ edge.triples start ↔
      start = source ∧ edge.dest = dest ∧ edge.label.hasCode code := by
    simp only [triples, CharSet.hasCode, List.mem_map, Prod.mk.injEq, List.any_eq_true,
      decide_eq_true_eq]
    constructor
    · rintro ⟨char, inside, starts, ends, coded⟩
      exact ⟨starts, ends, char, inside, coded⟩
    · rintro ⟨starts, ends, char, inside, coded⟩
      exact ⟨char, inside, starts, ends, coded⟩
  rw [nodup.count]
  exact if_congr member rfl rfl

theorem Automaton.triples_letters (automaton : Automaton) :
    automaton.letters.map Letter.triple =
      automaton.arcs.flatMap fun arc => arc.edge.triples arc.source := by
  have each (arc : Arc) : arc.letters.map Letter.triple = arc.edge.triples arc.source := by
    rw [Arc.letters, List.map_map]
    rfl
  simp only [letters, List.map_flatMap, each]

theorem Node.triples_arcs (node : Node) :
    (node.arcs.flatMap fun arc => arc.edge.triples arc.source) =
      node.edges.flatMap (Edge.triples node.id) := by
  have edges : node.edges = node.edges.zipIdx.map Prod.fst := (List.zipIdx_map_fst 0 _).symm
  rw [Node.arcs, List.flatMap_map]
  conv_rhs => rw [edges, List.flatMap_map]

theorem Table.triples_edgesTransitions {source : Nat} {edges : List Edge}
    {listed : List Transition} (built : edgesTransitions source edges = .ok listed) :
    listed.map Transition.triple = edges.flatMap (Edge.triples source) := by
  induction edges generalizing listed with
  | nil =>
      cases built
      rfl
  | cons edge rest ih =>
      simp only [edgesTransitions, edgeTransitions, bind_eq_ok, byteCodes_eq_ok, pure,
        Except.pure, Except.ok.injEq] at built
      obtain ⟨_, ⟨codes, coded, rfl⟩, others, othersBuilt, rfl⟩ := built
      rw [List.map_append, List.flatMap_cons, ih othersBuilt, Edge.triples, ← coded,
        List.map_map, List.map_map]
      rfl

theorem Table.triples_nodesTransitions {nodes : List Node} {listed : List Transition}
    (built : nodesTransitions nodes = .ok listed) :
    listed.map Transition.triple =
      nodes.flatMap fun node => node.edges.flatMap (Edge.triples node.id) := by
  induction nodes generalizing listed with
  | nil =>
      cases built
      rfl
  | cons node rest ih =>
      simp only [nodesTransitions, bind_eq_ok, pure, Except.pure, Except.ok.injEq] at built
      obtain ⟨first, firstBuilt, others, othersBuilt, rfl⟩ := built
      rw [List.map_append, List.flatMap_cons, triples_edgesTransitions firstBuilt,
        ih othersBuilt]

/-- The table of an automaton lists its letters. -/
theorem Table.readout_ofAutomaton {automaton : Automaton} {table : Table}
    (built : ofAutomaton automaton = .ok table) :
    table.readout = ⟨automaton.accept, automaton.letters.map Letter.triple⟩ := by
  simp only [ofAutomaton, bind_eq_ok, pure, Except.pure, Except.ok.injEq] at built
  obtain ⟨listed, listedBuilt, rfl⟩ := built
  rw [readout, triples_nodesTransitions listedBuilt, automaton.triples_letters, Automaton.arcs,
    List.flatMap_assoc]
  simp only [Node.triples_arcs]

theorem Automaton.count_letters (automaton : Automaton) (source dest code : Nat) :
    (automaton.letters.map Letter.triple).count (source, dest, code) =
      (automaton.edgesBetween source dest).countP fun edge => edge.label.hasCode code := by
  have arcs : (automaton.letters.map Letter.triple).count (source, dest, code) =
      automaton.arcs.countP fun arc =>
        arc.source = source ∧ arc.edge.dest = dest ∧ arc.edge.label.hasCode code := by
    have chosen := Circuit.sum_map_indicator (fun arc : Arc =>
      arc.source = source ∧ arc.edge.dest = dest ∧ arc.edge.label.hasCode code) 1 automaton.arcs
    simp only [decide_eq_true_eq, Nat.one_mul] at chosen
    rw [automaton.triples_letters, List.count_flatMap, ← chosen]
    simp only [Function.comp_def, Edge.count_triples]
  -- The edges between two nodes are found among those that arrive at the second.
  have between : (automaton.edgesBetween source dest).countP (fun edge => edge.label.hasCode code) =
      (IncomingIndex.arrivalsFrom automaton dest source).countP fun edge =>
        edge.label.hasCode code := by
    rw [IncomingIndex.arrivalsFrom, List.countP_map]
    rfl
  rw [arcs, between, ← IncomingIndex.filter_incoming, incoming_eq_arcs, List.filter_map,
    List.countP_map, List.countP_filter, List.countP_filter]
  apply List.countP_congr
  intro arc _
  simp [and_comm, and_left_comm]

/-! ## The listing -/

/-- The text of a table lists the transitions of the automaton, each as often as there is an
edge for it, in the order of the edges, and no other table has that text. -/
theorem listing_faithful {automaton : Automaton} {table : Table}
    (built : Table.ofAutomaton automaton = .ok table) :
    (∃ triples, Readout.read? table.render = some ⟨automaton.accept, triples⟩ ∧
      (∀ source dest code, triples.count (source, dest, code) =
        (automaton.edgesBetween source dest).countP fun edge => edge.label.hasCode code) ∧
      triples.length =
        ((automaton.nodes.flatMap Node.edges).map fun edge => edge.label.size).sum ∧
      ∃ letters : List Letter, triples = letters.map Letter.triple ∧
        letters.Pairwise Letter.Before ∧
        ∀ letter, letter ∈ letters ↔
          automaton.HasArc letter.arc ∧ letter.char ∈ letter.arc.edge.label) ∧
    ∀ left right : Table, left ≠ right → left.render ≠ right.render := by
  have readout := Table.readout_ofAutomaton built
  constructor
  · refine ⟨automaton.letters.map Letter.triple, ?_, automaton.count_letters, ?_,
      automaton.letters, rfl, Automaton.letters_ordered, fun _ => Automaton.mem_letters⟩
    · rw [table.read?_render, readout]
    · rw [← Circuit.size_table built, Table.size, ← List.length_map Transition.triple]
      exact (congrArg (fun readout => readout.triples.length) readout).symm
  · intro left right different
    exact mt (@Table.render_injective left right) different

theorem listing_faithful_numerals :
    ∃ table, Table.ofAutomaton .numerals = .ok table ∧
      ∃ triples, Readout.read? table.render = some ⟨1, triples⟩ ∧
        triples.count (1, 1, 95) = 1 ∧ triples.count (0, 1, 95) = 0 ∧ triples.length = 22 := by
  obtain ⟨table, built⟩ : ∃ table, Table.ofAutomaton .numerals = .ok table := ⟨_, rfl⟩
  obtain ⟨⟨triples, read, count, length, -⟩, -⟩ := listing_faithful built
  exact ⟨table, built, triples, read, count 1 1 95, count 0 1 95, length⟩

end ScanCircuit
