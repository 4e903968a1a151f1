import Mathlib.Data.List.Nodup
import Mathlib.Data.List.Perm.Basic
import ScanCircuit.Proofs.Json.Reading
import ScanCircuit.Proofs.Movement
import ScanCircuit.Proofs.Related
import ScanCircuit.Proofs.Spelling
import ScanCircuit.Proofs.Validation

/-!
# Loading a spelled automaton

Every text that writes an automaton down is loaded as that automaton, with its nodes,
labels and destinations, and with its edges in their order.
-/

namespace ScanCircuit

open Json (Value Document)

/-! ## Labels -/

/-- The text of a list has its two brackets. -/
theorem two_le_length_of_document {elements : List Value} {text : List Char}
    (document : Document (.array elements) text) : 2 ≤ text.length := by
  cases document with
  | spaced _ written _ =>
      cases written with
      | array => simp; omega

theorem singleChars?_listed (chars : List Char) :
    Load.singleChars? (.array (chars.map fun char => .string (String.singleton char))) =
      some chars := by
  rw [Load.singleChars?, mapM_eq_some, List.forall₂_map_left_iff, List.forall₂_same]
  intro char _
  simp [Sketch.decodeText, Load.singleChar?]

/-- A label is read from each of its keys. -/
theorem SpellsLabel.label? {label : CharSet} {key : String} (spells : SpellsLabel label key) :
    Load.label? key = some label := by
  cases spells with
  | @bare char only equal =>
      subst equal
      have single : Load.singleChar? (String.singleton char) = some char := by
        simp [Load.singleChar?]
      rw [Load.label?, single]
      apply congrArg some
      apply CharSet.ext
      rw [only]
      rfl
  | @listed chars same document =>
      have several : Load.singleChar? key = none := by
        have length := two_le_length_of_document document
        unfold Load.singleChar?
        split
        next char equal => simp [equal] at length
        next => rfl
      rw [Load.label?, several]
      simp only [document.read, singleChars?_listed, Option.map_some]
      apply congrArg some
      apply CharSet.ext_mem
      intro char
      rw [CharSet.mem_ofList, same]

/-! ## Nodes -/

/-- An entry of a sketch says what an edge is. -/
def SketchesEdge (edge : Edge) (entry : String × Nat) : Prop :=
  Load.label? entry.1 = some edge.label ∧ entry.2 = edge.dest

/-- A sketch says what a node is. -/
structure Sketches (node : Node) (sketch : NodeSketch) : Prop where
  kind : Load.kind? sketch.kind = some node.kind
  edges : List.Forall₂ SketchesEdge node.edges sketch.edges

theorem assign_of_notMem {α : Type} {key : String} {entries : List (String × α)}
    (new : key ∉ entries.map Prod.fst) (value : α) :
    Sketch.assign key value entries = entries ++ [(key, value)] := by
  induction entries with
  | nil => rfl
  | cons entry rest ih =>
      have different : entry.1 ≠ key := fun equal => new (by simp [equal])
      have others : key ∉ rest.map Prod.fst := fun member => new (by simp [member])
      rw [Sketch.assign, if_neg different, ih others, List.cons_append]

/-- Keys that are all different stay where they are. -/
theorem assignAll_of_nodup {α : Type} {entries : List (String × α)}
    (distinct : (entries.map Prod.fst).Nodup) : Sketch.assignAll entries = entries := by
  -- What has been assigned so far is a part of the entries in front of the remaining ones.
  have assigned (before after : List (String × α))
      (distinct : ((before ++ after).map Prod.fst).Nodup) :
      after.foldl (fun assigned entry => Sketch.assign entry.1 entry.2 assigned) before =
        before ++ after := by
    induction after generalizing before with
    | nil => simp
    | cons entry rest ih =>
        have new : entry.1 ∉ before.map Prod.fst := by
          rw [List.map_append, List.nodup_append] at distinct
          exact fun member => distinct.2.2 _ member _ (by simp) rfl
        rw [List.foldl_cons, assign_of_notMem new, ih _ (by simpa using distinct)]
        simp
  exact assigned [] entries distinct

theorem decodeMembers_eq_some {α : Type} {decode : Value → Option α}
    {members : List (String × Value)} {decoded : List (String × α)}
    (each : List.Forall₂ (fun member entry => member.1 = entry.1 ∧ decode member.2 = some entry.2)
      members decoded) :
    Sketch.decodeMembers decode members = some decoded := by
  induction each with
  | nil => rfl
  | @cons member entry _ _ first _ ih =>
      obtain ⟨key, value⟩ := member
      obtain ⟨rfl, present⟩ := first
      simp [Sketch.decodeMembers, present, ih]

/-- An object whose keys are all different is decoded member by member. -/
theorem decodeObject_eq_some {α : Type} {decode : Value → Option α}
    {members : List (String × Value)} {decoded : List (String × α)}
    (each : List.Forall₂ (fun member entry => member.1 = entry.1 ∧ decode member.2 = some entry.2)
      members decoded) (distinct : (members.map Prod.fst).Nodup) :
    Sketch.decodeObject decode (.object members) = some decoded := by
  have keys : members.map Prod.fst = decoded.map Prod.fst :=
    map_eq_of_forall₂ each fun _ _ => And.left
  rw [Sketch.decodeObject, decodeMembers_eq_some each, Option.map_some,
    assignAll_of_nodup (keys ▸ distinct)]

/-- The edges of a node are decoded one by one. -/
theorem decodeEdges_of_spells {edges : List Edge} {members : List (String × Value)}
    (spells : List.Forall₂ SpellsEdge edges members) (distinct : (members.map Prod.fst).Nodup) :
    ∃ entries, Sketch.decodeEdges (.object members) = some entries ∧
      List.Forall₂ SketchesEdge edges entries := by
  have each (edge : Edge) (member : String × Value) (spelled : SpellsEdge edge member) :
      ∃ entry : String × Nat, (member.1 = entry.1 ∧ Sketch.decodeNatural member.2 = some entry.2) ∧
        SketchesEdge edge entry :=
    ⟨(member.1, edge.dest), ⟨rfl, by rw [spelled.2, Sketch.decodeNatural]⟩, spelled.1.label?, rfl⟩
  obtain ⟨entries, decoded, sketched⟩ := exists_forall₂ spells each
  exact ⟨entries, decodeObject_eq_some decoded distinct, sketched⟩

/-- The member with a name is found wherever it stands. -/
theorem filter_of_perm {members found others : List (String × Value)} {name : String}
    (order : members.Perm others) (named : (others.filter fun member => member.1 = name) = found)
    (short : found.length ≤ 1) : (members.filter fun member => member.1 = name) = found := by
  subst named
  have perm := order.filter fun member => member.1 = name
  generalize others.filter _ = found at perm short
  match found, short with
  | [], _ => exact perm.eq_nil
  | [member], _ => exact perm.eq_singleton

/-- A node is decoded to a sketch of it. -/
theorem SpellsNode.decode {node : Node} {value : Value} (spells : SpellsNode node value) :
    ∃ sketch, Sketch.decodeNode value = some sketch ∧ Sketches node sketch := by
  obtain ⟨id, sort, outgoing⟩ := node
  cases spells with
  | @object kind edges members spelledKind spelledEdges order =>
      have kindNamed : (members.filter fun member => member.1 = "type") = kind := by
        apply filter_of_perm order
        · cases spelledKind <;> cases spelledEdges <;> rfl
        · cases spelledKind <;> simp
      have edgesNamed : (members.filter fun member => member.1 = "edges") = edges := by
        apply filter_of_perm order
        · cases spelledKind <;> cases spelledEdges <;> rfl
        · cases spelledEdges <;> simp
      obtain ⟨word, wordDecoded, isKind⟩ : ∃ word,
          Sketch.decodeMember "type" "" Sketch.decodeText members = some word ∧
            Load.kind? word = some sort := by
        rw [Sketch.decodeMember, kindNamed]
        cases spelledKind with
        | accept => exact ⟨"accept", rfl, rfl⟩
        | @normal word allowed =>
            refine ⟨word, rfl, ?_⟩
            simp only [List.mem_cons, List.not_mem_nil, or_false] at allowed
            rcases allowed with rfl | rfl | rfl <;> rfl
        | omitted => exact ⟨"", rfl, rfl⟩
      obtain ⟨entries, entriesDecoded, areEdges⟩ : ∃ entries,
          Sketch.decodeMember "edges" [] Sketch.decodeEdges members = some entries ∧
            List.Forall₂ SketchesEdge outgoing entries := by
        rw [Sketch.decodeMember, edgesNamed]
        cases spelledEdges with
        | listed spelled distinct => exact decodeEdges_of_spells spelled distinct
        | omitted => exact ⟨[], rfl, .nil⟩
      refine ⟨⟨word, entries⟩, ?_, isKind, areEdges⟩
      simp [Sketch.decodeNode, wordDecoded, entriesDecoded]

theorem edges_of_sketches {id : Nat} {edges : List Edge} {entries : List (String × Nat)}
    (sketched : List.Forall₂ SketchesEdge edges entries) : Load.edges id entries = .ok edges := by
  induction sketched with
  | nil => rfl
  | @cons edge entry _ _ first _ ih =>
      obtain ⟨key, dest⟩ := entry
      obtain ⟨label, rfl⟩ := first
      simp [Load.edges, label, ih, bind, Except.bind, pure, Except.pure]

theorem Sketches.node {node : Node} {sketch : NodeSketch} (sketches : Sketches node sketch) :
    Load.node node.id sketch = .ok node := by
  simp [Load.node, sketches.kind, edges_of_sketches sketches.edges, bind, Except.bind, pure,
    Except.pure]

/-! ## Graphs -/

/-- A numbered sketch says what a node is. -/
def Numbers (node : Node) (entry : Nat × NodeSketch) : Prop :=
  entry.1 = node.id ∧ Sketches node entry.2

theorem nodes_of_numbers {nodes : List Node} {entries : List (Nat × NodeSketch)}
    (numbered : List.Forall₂ Numbers nodes entries) : Load.nodes entries = .ok nodes := by
  induction numbered with
  | nil => rfl
  | @cons node entry _ _ first _ ih =>
      obtain ⟨id, sketch⟩ := entry
      obtain ⟨rfl, sketches⟩ := first
      simp [Load.nodes, sketches.node, ih, bind, Except.bind, pure, Except.pure]

theorem enumerate_numbers {nodes : List Node} {sketches : List NodeSketch} {start : Nat}
    (sketched : List.Forall₂ Sketches nodes sketches)
    (dense : nodes.map Node.id = List.range' start nodes.length) :
    List.Forall₂ Numbers nodes (Load.enumerate start sketches) := by
  induction sketched generalizing start with
  | nil => exact .nil
  | cons first _ ih =>
      simp only [List.map_cons, List.length_cons, List.range'_succ, List.cons.injEq] at dense
      exact .cons ⟨dense.1.symm, first⟩ (ih dense.2)

/-! ## Ids -/

theorem digitsValue_eq (digits : List Char) :
    Load.digitsValue digits = Nat.ofDigitChars 10 digits 0 := by
  rw [Load.digitsValue, Nat.ofDigitChars]
  simp only [Nat.mul_comm]

/-- An id is read from each of its keys. -/
theorem SpellsId.id? {id : Nat} {key : String} (spells : SpellsId id key)
    (bounded : id < Json.naturalBound) : Load.id? key = some id := by
  have read (digits : List Char) (decimal : Json.Decimal id digits) :
      digits ≠ [] ∧ digits.all Char.isDigit ∧ Load.digitsValue digits < Json.naturalBound := by
    refine ⟨decimal.nonempty, List.all_eq_true.2 decimal.isDigit, ?_⟩
    rw [digitsValue_eq, decimal.denotes]
    exact bounded
  cases spells with
  | digits decimal =>
      unfold Load.id?
      extract_lets chosen
      have unsigned : chosen = key.toList := by
        unfold chosen
        split
        next rest equal =>
          have digit := decimal.isDigit '+' (by simp [equal])
          cases digit
        next => rfl
      have accepted := read key.toList decimal
      rw [← unsigned] at accepted
      rw [if_pos accepted, unsigned, digitsValue_eq, decimal.denotes]
  | @signed digits decimal equal =>
      simp only [Load.id?, equal]
      rw [if_pos (read digits decimal), digitsValue_eq, decimal.denotes]

theorem number_eq_ok {entries : List (String × NodeSketch)} {numbered : List (Nat × NodeSketch)}
    (each : List.Forall₂ (fun entry result => Load.id? entry.1 = some result.1 ∧
      entry.2 = result.2) entries numbered) :
    Load.number entries = .ok numbered := by
  induction each with
  | nil => rfl
  | @cons entry result _ _ first _ ih =>
      obtain ⟨key, sketch⟩ := entry
      obtain ⟨read, rfl⟩ := first
      simp [Load.number, read, ih, bind, Except.bind, pure, Except.pure]

/-! ## Sorting by id -/

theorem placeById_perm (entry : Nat × NodeSketch) (entries : List (Nat × NodeSketch)) :
    (Load.placeById entry entries).Perm (entry :: entries) := by
  induction entries with
  | nil => exact .refl _
  | cons first rest ih =>
      rw [Load.placeById]
      split
      next => exact .refl _
      next => exact (ih.cons first).trans (.swap entry first rest)

theorem sortById_perm (entries : List (Nat × NodeSketch)) :
    (Load.sortById entries).Perm entries := by
  induction entries with
  | nil => exact .refl _
  | cons entry rest ih => exact (placeById_perm entry _).trans (ih.cons entry)

theorem placeById_sorted (entry : Nat × NodeSketch) {entries : List (Nat × NodeSketch)}
    (sorted : entries.Pairwise fun left right => left.1 ≤ right.1) :
    (Load.placeById entry entries).Pairwise fun left right => left.1 ≤ right.1 := by
  induction entries with
  | nil => simp [Load.placeById]
  | cons first rest ih =>
      have above := (List.pairwise_cons.1 sorted).1
      rw [Load.placeById]
      split
      next before =>
        refine List.pairwise_cons.2 ⟨?_, sorted⟩
        intro other member
        rcases List.mem_cons.1 member with rfl | member
        · exact before
        · exact before.trans (above other member)
      next after =>
        refine List.pairwise_cons.2 ⟨?_, ih (List.pairwise_cons.1 sorted).2⟩
        intro other member
        rcases List.mem_cons.1 ((placeById_perm entry rest).mem_iff.1 member) with rfl | member
        · exact Nat.le_of_not_le after
        · exact above other member

theorem sortById_sorted (entries : List (Nat × NodeSketch)) :
    (Load.sortById entries).Pairwise fun left right => left.1 ≤ right.1 := by
  induction entries with
  | nil => exact .nil
  | cons entry rest ih => exact placeById_sorted entry ih

/-- Entries with different ids, in any order, are sorted to the only order that ascends. -/
theorem sortById_of_perm {entries inOrder : List (Nat × NodeSketch)}
    (shuffled : entries.Perm inOrder)
    (ascending : inOrder.Pairwise fun left right => left.1 ≤ right.1)
    (distinct : (inOrder.map Prod.fst).Nodup) : Load.sortById entries = inOrder := by
  have perm : (Load.sortById entries).Perm inOrder := (sortById_perm entries).trans shuffled
  apply List.Perm.eq_of_pairwise _ (sortById_sorted entries) ascending perm
  intro left right leftMember rightMember below above
  exact List.inj_on_of_nodup_map distinct (perm.mem_iff.1 leftMember) rightMember
    (Nat.le_antisymm below above)

/-- Entries for the nodes of an automaton, in any order, are sorted to the order of the nodes. -/
theorem sortById_numbers {automaton : Automaton} {nodes : List Node}
    {entries : List (Nat × NodeSketch)} (order : nodes.Perm automaton.nodes)
    (numbered : List.Forall₂ Numbers nodes entries) :
    List.Forall₂ Numbers automaton.nodes (Load.sortById entries) := by
  obtain ⟨inOrder, matched, shuffled⟩ := List.perm_comp_forall₂ order.symm numbered
  have ids : inOrder.map Prod.fst = List.range automaton.nodes.length := by
    rw [← automaton.wellFormed.dense]
    exact map_eq_of_forall₂ matched.flip fun _ _ numbers => numbers.1
  have distinct : (inOrder.map Prod.fst).Nodup := ids ▸ List.nodup_range
  have ascending : inOrder.Pairwise fun left right => left.1 ≤ right.1 :=
    List.pairwise_map.1 (ids ▸ List.pairwise_le_range)
  rw [sortById_of_perm shuffled.symm ascending distinct]
  exact matched

/-! ## Loading -/

/-- A member for a node is decoded to a sketch of it under the same key. -/
theorem decodes_member (node : Node) (member : String × Value)
    (spelled : node.id < Json.naturalBound ∧ SpellsId node.id member.1 ∧
      SpellsNode node member.2) :
    ∃ entry : String × NodeSketch,
      (member.1 = entry.1 ∧ Sketch.decodeNode member.2 = some entry.2) ∧
        Load.id? entry.1 = some node.id ∧ Sketches node entry.2 := by
  obtain ⟨small, spelledId, spelledNode⟩ := spelled
  obtain ⟨sketch, decoded, sketches⟩ := spelledNode.decode
  exact ⟨(member.1, sketch), ⟨rfl, decoded⟩, spelledId.id? small, sketches⟩

/-- Keys that are read as different ids are different. -/
theorem nodup_of_ids {keys : List String} {ids : List Nat}
    (read : keys.map Load.id? = ids.map some) (distinct : ids.Nodup) : keys.Nodup := by
  apply List.Nodup.of_map Load.id?
  rw [read]
  exact distinct.map (Option.some_injective Nat)

/-- Keys of different nodes are different. -/
theorem nodup_keys {automaton : Automaton} {nodes : List Node} {members : List (String × Value)}
    (order : nodes.Perm automaton.nodes)
    (spelled : List.Forall₂ (fun node member => node.id < Json.naturalBound ∧
      SpellsId node.id member.1 ∧ SpellsNode node member.2) nodes members) :
    (members.map Prod.fst).Nodup := by
  have ids : (members.map Prod.fst).map Load.id? = (nodes.map Node.id).map some := by
    rw [List.map_map, List.map_map]
    exact map_eq_of_forall₂ spelled.flip fun _ _ known => known.2.1.id? known.1
  have distinct : (nodes.map Node.id).Nodup := by
    rw [(order.map Node.id).nodup_iff, automaton.wellFormed.dense]
    exact List.nodup_range
  exact nodup_of_ids ids distinct

/-- A graph is decoded to a sketch that stands for its automaton. -/
theorem SpellsGraph.ofSketch {automaton : Automaton} (bounded : automaton.size ≤ Json.naturalBound)
    {value : Value} (spells : SpellsGraph automaton value) :
    ∃ sketch, Sketch.decodeGraph value = some sketch ∧
      Load.ofSketch sketch = .ok automaton := by
  have validated {sketch : GraphSketch} {entries : List (Nat × NodeSketch)}
      (numbered : Load.numbered sketch = .ok entries)
      (numbers : List.Forall₂ Numbers automaton.nodes entries) :
      Load.ofSketch sketch = .ok automaton := by
    simp [Load.ofSketch, numbered, nodes_of_numbers numbers, Automaton.ofNodes_nodes, bind,
      Except.bind]
  cases spells with
  | @list values spelled =>
      obtain ⟨sketches, decoded, sketched⟩ := exists_forall₂ spelled fun _ _ => SpellsNode.decode
      refine ⟨.list sketches, ?_, validated rfl ?_⟩
      · rw [Sketch.decodeGraph, mapM_eq_some.2 decoded, Option.map_some]
      · exact enumerate_numbers sketched
          (automaton.wellFormed.dense.trans (List.range_eq_range' ..))
  | @keyed nodes members order spelled =>
      have small : ∀ node ∈ nodes, node.id < Json.naturalBound := by
        intro node member
        exact Nat.lt_of_lt_of_le (Automaton.id_lt_size (order.mem_iff.1 member)) bounded
      have known := (List.forall₂_and_left _ _).2 ⟨small, spelled⟩
      obtain ⟨entries, decoded, sketched⟩ := exists_forall₂ known decodes_member
      have numbered (node : Node) (entry : String × NodeSketch)
          (known : Load.id? entry.1 = some node.id ∧ Sketches node entry.2) :
          ∃ result : Nat × NodeSketch,
            (Load.id? entry.1 = some result.1 ∧ entry.2 = result.2) ∧ Numbers node result :=
        ⟨(node.id, entry.2), ⟨known.1, rfl⟩, rfl, known.2⟩
      obtain ⟨results, read, numbers⟩ := exists_forall₂ sketched numbered
      refine ⟨.keyed entries, ?_, validated ?_ (sortById_numbers order numbers)⟩
      · rw [Sketch.decodeGraph, decodeObject_eq_some decoded (nodup_keys order known),
          Option.map_some]
      · rw [Load.numbered, number_eq_ok read, Except.map]

/-- Every text that writes an automaton down is loaded as that automaton. -/
theorem load_of_spells {automaton : Automaton} (bounded : automaton.size ≤ Json.naturalBound)
    {text : String} (spells : automaton.Spells text) : Automaton.load text = .ok automaton := by
  obtain ⟨value, graph, document⟩ := spells
  obtain ⟨offset, rest, read, clear⟩ := document.readValue
  obtain ⟨sketch, decoded, stands⟩ := graph.ofSketch bounded
  have sketched : Load.sketch text.toList = .ok sketch := by
    simp [Load.sketch, read, decoded, clear offset]
  simp [Automaton.load, sketched, stands, bind, Except.bind]

theorem load_of_spells_oneOf :
    Automaton.oneOf.size ≤ Json.naturalBound ∧ Automaton.oneOf.Spells oneOfText ∧
      Automaton.load oneOfText = .ok .oneOf := by
  have small : Automaton.oneOf.size ≤ Json.naturalBound := by decide
  have spells : Automaton.oneOf.Spells oneOfText := ⟨_, spellsGraph_oneOf, document_oneOf⟩
  exact ⟨small, spells, load_of_spells small spells⟩

end ScanCircuit
