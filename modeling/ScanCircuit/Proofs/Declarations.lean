import Mathlib.Data.List.Dedup
import Mathlib.Data.List.Induction
import ScanCircuit.Proofs.Layouts

/-!
# What is kept of the declarations in a text

A text declares nodes, and each node declares edges by their keys.  Where a key is given again,
only the last value under it survives, without a complaint.  Different keys that denote the same
id are refused.

`Represents` compares an automaton with the declarations that count, either all of them as they
are written or only the survivors.  `declarations_of_load` says that the survivors are kept, and
that all declarations are kept exactly when no key is given twice.
-/

namespace ScanCircuit

open Json (Value)

/-! ## Declarations -/

/-- The members of an object as they are written; no other value has members. -/
def Json.Value.members : Value → List (String × Value)
  | .object members => members
  | _ => []

/-- The edges that a node declares, as they are written. -/
def declaredEdges : Value → List (String × Value)
  | .array [_, edges] => edges.members
  | .object members =>
      (members.filter fun member => member.1 = "edges").flatMap fun member => member.2.members
  | _ => []

/-- The entries whose keys are not given again after them. -/
def survivors {α : Type} : List (String × α) → List (String × α)
  | [] => []
  | entry :: rest =>
      if entry.1 ∈ rest.map Prod.fst then survivors rest else entry :: survivors rest

/-- A member says on which label an edge leads where. -/
def DeclaresEdge (edge : Edge) (member : String × Value) : Prop :=
  Load.label? member.1 = some edge.label ∧ member.2 = .natural edge.dest

/-- A node has exactly one edge for each member, in any order. -/
def HasEdges (node : Node) (members : List (String × Value)) : Prop :=
  ∃ inOrder, inOrder.Perm members ∧ List.Forall₂ DeclaresEdge node.edges inOrder

/-- An automaton has a node for each declared node that counts, and each of its nodes has an edge
for each declared edge that counts. -/
inductive Represents (counted : List (String × Value) → List (String × Value))
    (automaton : Automaton) : Value → Prop where
  | list {entries : List Value} :
      List.Forall₂ (fun node entry => HasEdges node (counted (declaredEdges entry)))
        automaton.nodes entries →
      Represents counted automaton (.array entries)
  | keyed {members inOrder : List (String × Value)} :
      inOrder.Perm (counted members) →
      List.Forall₂ (fun node member => Load.id? member.1 = some node.id ∧
        HasEdges node (counted (declaredEdges member.2))) automaton.nodes inOrder →
      Represents counted automaton (.object members)

/-- No key is given twice, neither for a node nor for an edge of one node. -/
inductive Unrepeated : Value → Prop where
  | list {entries : List Value} :
      (∀ entry ∈ entries, ((declaredEdges entry).map Prod.fst).Nodup) →
      Unrepeated (.array entries)
  | keyed {members : List (String × Value)} :
      (members.map Prod.fst).Nodup →
      (∀ member ∈ members, ((declaredEdges member.2).map Prod.fst).Nodup) →
      Unrepeated (.object members)

/-! ## Survivors -/

section Survivors

variable {α β : Type} {entries : List (String × α)}

theorem survivors_keys (entries : List (String × α)) :
    (survivors entries).map Prod.fst = (entries.map Prod.fst).dedup := by
  induction entries with
  | nil => rfl
  | cons entry rest ih =>
      rw [survivors, List.map_cons]
      split
      next again => rw [List.dedup_cons_of_mem again, ih]
      next last => rw [List.dedup_cons_of_notMem last, List.map_cons, ih]

theorem survivors_sublist (entries : List (String × α)) :
    (survivors entries).Sublist entries := by
  induction entries with
  | nil => exact .slnil
  | cons entry rest ih =>
      rw [survivors]
      split
      next => exact ih.cons entry
      next => exact ih.cons_cons entry

/-- All entries survive exactly when no key is given twice. -/
theorem length_survivors_eq_iff :
    (survivors entries).length = entries.length ↔ (entries.map Prod.fst).Nodup := by
  have lengths : (survivors entries).length = (entries.map Prod.fst).dedup.length := by
    rw [← survivors_keys, List.length_map]
  rw [lengths]
  constructor
  · intro same
    apply List.dedup_eq_self.1
    apply (List.dedup_sublist _).eq_of_length
    rw [same, List.length_map]
  · intro nodup
    rw [nodup.dedup, List.length_map]

theorem survivors_eq_self (nodup : (entries.map Prod.fst).Nodup) : survivors entries = entries :=
  (survivors_sublist entries).eq_of_length (length_survivors_eq_iff.2 nodup)

/-- A last entry survives, and those under its key do not. -/
theorem survivors_concat (entries : List (String × α)) (last : String × α) :
    survivors (entries ++ [last]) =
      ((survivors entries).filter fun entry => entry.1 ≠ last.1) ++ [last] := by
  induction entries with
  | nil => rfl
  | cons entry rest ih =>
      rw [List.cons_append, survivors, survivors, ih]
      -- The last entry matters to one that would have survived only if it has the same key.
      by_cases again : entry.1 ∈ rest.map Prod.fst
      · have later : entry.1 ∈ (rest ++ [last]).map Prod.fst := by
          rw [List.map_append]
          exact List.mem_append_left _ again
        rw [if_pos later, if_pos again]
      · by_cases same : entry.1 = last.1
        · have later : entry.1 ∈ (rest ++ [last]).map Prod.fst := by simp [same]
          rw [if_pos later, if_neg again, List.filter_cons_of_neg (by simpa using same)]
        · have never : entry.1 ∉ (rest ++ [last]).map Prod.fst := by
            rw [List.map_append, List.mem_append]
            exact not_or.2 ⟨again, by simpa using same⟩
          rw [if_neg never, if_neg again, List.filter_cons_of_pos (by simpa using same)]
          rfl

/-- Assigning a key replaces the entry under it. -/
theorem assign_perm {key : String} {value : α} (nodup : (entries.map Prod.fst).Nodup) :
    (Sketch.assign key value entries).Perm
      ((entries.filter fun entry => entry.1 ≠ key) ++ [(key, value)]) := by
  induction entries with
  | nil => exact .refl _
  | cons entry rest ih =>
      obtain ⟨new, nodup⟩ := List.nodup_cons.1 nodup
      rw [Sketch.assign]
      split
      next same =>
        have others : (rest.filter fun entry => entry.1 ≠ key) = rest := by
          rw [List.filter_eq_self]
          intro other member
          have different : other.1 ≠ key := by
            intro equal
            apply new
            rw [same, ← equal]
            exact List.mem_map_of_mem member
          simpa using different
        rw [List.filter_cons_of_neg (by simpa using same), others]
        exact (List.perm_append_singleton _ rest).symm
      next different =>
        rw [List.filter_cons_of_pos (by simpa using different), List.cons_append]
        exact (ih nodup).cons entry

/-- Assigning entries in turn leaves the survivors. -/
theorem assignAll_perm (entries : List (String × α)) :
    (Sketch.assignAll entries).Perm (survivors entries) := by
  induction entries using List.reverseRecOn with
  | nil => exact .refl _
  | append_singleton entries last ih =>
      have nodup : ((Sketch.assignAll entries).map Prod.fst).Nodup := by
        rw [(ih.map Prod.fst).nodup_iff, survivors_keys]
        exact List.nodup_dedup _
      have assigned : Sketch.assignAll (entries ++ [last]) =
          Sketch.assign last.1 last.2 (Sketch.assignAll entries) := by
        simp only [Sketch.assignAll, List.foldl_append, List.foldl_cons, List.foldl_nil]
      rw [assigned, survivors_concat]
      exact (assign_perm nodup).trans ((ih.filter _).append_right _)

/-- Entries that are related under the same keys survive together. -/
theorem survivors_forall₂ {relation : String × α → String × β → Prop}
    {others : List (String × β)} (keys : ∀ entry other, relation entry other → entry.1 = other.1)
    (related : List.Forall₂ relation entries others) :
    List.Forall₂ relation (survivors entries) (survivors others) := by
  induction related with
  | nil => exact .nil
  | @cons entry other rest more here there ih =>
      have same : rest.map Prod.fst = more.map Prod.fst := map_eq_of_forall₂ there keys
      rw [survivors, survivors, same, keys entry other here]
      split
      next => exact ih
      next => exact .cons here ih

end Survivors

/-! ## Decoding -/

theorem forall₂_of_decodeMembers {α : Type} {decode : Value → Option α}
    {members : List (String × Value)} {decoded : List (String × α)}
    (found : Sketch.decodeMembers decode members = some decoded) :
    List.Forall₂ (fun member entry => member.1 = entry.1 ∧ decode member.2 = some entry.2)
      members decoded := by
  induction members generalizing decoded with
  | nil =>
      cases found
      exact .nil
  | cons member rest ih =>
      simp only [Sketch.decodeMembers, Option.bind_eq_bind, Option.bind_eq_some_iff,
        Option.pure_def, Option.some.injEq] at found
      obtain ⟨value, here, others, there, rfl⟩ := found
      exact .cons ⟨rfl, here⟩ (ih there)

/-- Entries are decoded from the members that survive, in any order. -/
def DecodedFrom {α : Type} (decode : Value → Option α) (members : List (String × Value))
    (entries : List (String × α)) : Prop :=
  ∃ inOrder, inOrder.Perm (survivors members) ∧
    List.Forall₂ (fun member entry => member.1 = entry.1 ∧ decode member.2 = some entry.2)
      inOrder entries

theorem decodedFrom_of_decodeObject {α : Type} {decode : Value → Option α} {value : Value}
    {entries : List (String × α)} (found : Sketch.decodeObject decode value = some entries) :
    DecodedFrom decode value.members entries := by
  cases value with
  | object members =>
      obtain ⟨decoded, decodes, rfl⟩ := Option.map_eq_some_iff.1 found
      have survive := survivors_forall₂ (fun _ _ same => same.1) (forall₂_of_decodeMembers decodes)
      obtain ⟨inOrder, related, order⟩ :=
        List.perm_comp_forall₂ (assignAll_perm decoded) survive.flip
      exact ⟨inOrder, order, related.flip⟩
  | null | bool | natural | number | string | array => cases found

theorem decodedFrom_nil {α : Type} (decode : Value → Option α) : DecodedFrom decode [] [] :=
  ⟨[], .refl _, .nil⟩

theorem decodedFrom_of_decodeMember {members : List (String × Value)}
    {entries : List (String × Nat)}
    (found : Sketch.decodeMember "edges" [] Sketch.decodeEdges members = some entries) :
    DecodedFrom Sketch.decodeNatural (declaredEdges (.object members)) entries := by
  rw [declaredEdges]
  unfold Sketch.decodeMember at found
  split at found
  next absent =>
    cases found
    rw [absent]
    exact decodedFrom_nil _
  next _ edges only =>
    rw [only, List.flatMap_singleton]
    exact decodedFrom_of_decodeObject found
  next => cases found

/-- The edges of a node are decoded from those that survive. -/
theorem decodedFrom_of_decodeNode {value : Value} {sketch : NodeSketch}
    (found : Sketch.decodeNode value = some sketch) :
    DecodedFrom Sketch.decodeNatural (declaredEdges value) sketch.edges := by
  unfold Sketch.decodeNode at found
  simp only [Option.bind_eq_bind, Option.pure_def] at found
  split at found
  next =>
    cases found
    exact decodedFrom_nil _
  next =>
    simp only [Option.bind_eq_some_iff, Option.some.injEq] at found
    obtain ⟨_, _, rfl⟩ := found
    exact decodedFrom_nil _
  next =>
    simp only [Option.bind_eq_some_iff, Option.some.injEq] at found
    obtain ⟨_, _, edges, decoded, rfl⟩ := found
    exact decodedFrom_of_decodeObject decoded
  next =>
    simp only [Option.bind_eq_some_iff, Option.some.injEq] at found
    obtain ⟨_, _, edges, decoded, rfl⟩ := found
    exact decodedFrom_of_decodeMember decoded
  next => cases found

/-! ## Reading names -/

theorem sketchesEdge_of_edges {id : Nat} {entries : List (String × Nat)} {edges : List Edge}
    (read : Load.edges id entries = .ok edges) : List.Forall₂ SketchesEdge edges entries := by
  induction entries generalizing edges with
  | nil =>
      cases read
      exact .nil
  | cons entry rest ih =>
      rw [Load.edges] at read
      split at read
      next => cases read
      next label found =>
        simp only [bind_eq_ok, pure, Except.pure, Except.ok.injEq] at read
        obtain ⟨others, there, rfl⟩ := read
        exact .cons ⟨found, rfl⟩ (ih there)

theorem numbers_of_node {entry : Nat × NodeSketch} {node : Node}
    (read : Load.node entry.1 entry.2 = .ok node) : Numbers node entry := by
  rw [Load.node] at read
  split at read
  next => cases read
  next kind found =>
    simp only [bind_eq_ok, pure, Except.pure, Except.ok.injEq] at read
    obtain ⟨edges, there, rfl⟩ := read
    exact ⟨rfl, found, sketchesEdge_of_edges there⟩

/-- Nodes are read from sketches of them. -/
theorem numbers_of_nodes {entries : List (Nat × NodeSketch)} {nodes : List Node}
    (read : Load.nodes entries = .ok nodes) : List.Forall₂ Numbers nodes entries := by
  induction entries generalizing nodes with
  | nil =>
      cases read
      exact .nil
  | cons entry rest ih =>
      simp only [Load.nodes, bind_eq_ok, pure, Except.pure, Except.ok.injEq] at read
      obtain ⟨first, here, others, there, rfl⟩ := read
      exact .cons (numbers_of_node here) (ih there)

theorem numbers_of_ofSketch {sketch : GraphSketch} {automaton : Automaton}
    (loaded : Load.ofSketch sketch = .ok automaton) :
    ∃ entries, Load.numbered sketch = .ok entries ∧
      List.Forall₂ Numbers automaton.nodes entries := by
  simp only [Load.ofSketch, bind_eq_ok] at loaded
  obtain ⟨entries, numbered, nodes, read, accepted⟩ := loaded
  rw [Automaton.nodes_of_ofNodes accepted]
  exact ⟨entries, numbered, numbers_of_nodes read⟩

theorem forall₂_of_number {entries : List (String × NodeSketch)}
    {numbered : List (Nat × NodeSketch)} (read : Load.number entries = .ok numbered) :
    List.Forall₂ (fun entry result => Load.id? entry.1 = some result.1 ∧ entry.2 = result.2)
      entries numbered := by
  induction entries generalizing numbered with
  | nil =>
      cases read
      exact .nil
  | cons entry rest ih =>
      rw [Load.number] at read
      split at read
      next => cases read
      next id found =>
        simp only [bind_eq_ok, pure, Except.pure, Except.ok.injEq] at read
        obtain ⟨others, there, rfl⟩ := read
        exact .cons ⟨found, rfl⟩ (ih there)

/-! ## The survivors are kept -/

theorem hasEdges_of_sketches {node : Node} {sketch : NodeSketch} {value : Value}
    (sketches : Sketches node sketch) (decoded : Sketch.decodeNode value = some sketch) :
    HasEdges node (survivors (declaredEdges value)) := by
  obtain ⟨inOrder, order, related⟩ := decodedFrom_of_decodeNode decoded
  refine ⟨inOrder, order, forall₂_trans sketches.edges related.flip ?_⟩
  intro edge entry member sketched declared
  obtain ⟨key, value⟩ := member
  obtain ⟨rfl, natural⟩ := declared
  refine ⟨sketched.1, ?_⟩
  cases value with
  | natural dest =>
      cases natural
      rw [← sketched.2]
  | null | bool | number | string | array | object => cases natural

theorem sketches_of_enumerate {nodes : List Node} {sketches : List NodeSketch} {start : Nat}
    (numbered : List.Forall₂ Numbers nodes (Load.enumerate start sketches)) :
    List.Forall₂ Sketches nodes sketches := by
  induction sketches generalizing nodes start with
  | nil =>
      cases numbered
      exact .nil
  | cons sketch rest ih =>
      cases numbered with
      | cons here others => exact .cons here.2 (ih others)

/-- An object of nodes is numbered by the keys of its survivors, and then put in order. -/
theorem decodes_of_numbered {members : List (String × Value)}
    {keyed : List (String × NodeSketch)} {entries : List (Nat × NodeSketch)}
    (decoded : Sketch.decodeObject Sketch.decodeNode (.object members) = some keyed)
    (numbered : Load.numbered (.keyed keyed) = .ok entries) :
    ∃ inOrder, inOrder.Perm (survivors members) ∧ List.Forall₂ Decodes inOrder entries := by
  obtain ⟨kept, survive, related⟩ := decodedFrom_of_decodeObject decoded
  obtain ⟨listed, read, rfl⟩ : ∃ listed, Load.number keyed = .ok listed ∧
      Load.sortById listed = entries := by
    cases read : Load.number keyed with
    | error defect =>
        simp only [Load.numbered, read, Except.map] at numbered
        cases numbered
    | ok listed =>
        simp only [Load.numbered, read, Except.map, Except.ok.injEq] at numbered
        exact ⟨listed, rfl, numbered⟩
  have decodes : List.Forall₂ Decodes kept listed := by
    apply forall₂_trans related (forall₂_of_number read)
    intro member entry result same found
    exact ⟨same.1 ▸ found.1, found.2 ▸ same.2⟩
  obtain ⟨inOrder, sorted, order⟩ :=
    List.perm_comp_forall₂ (sortById_perm listed) decodes.flip
  exact ⟨inOrder, order.trans survive, sorted.flip⟩

/-- What is loaded from a value represents the declarations that survive. -/
theorem represents_of_ofValue {value : Value} {automaton : Automaton}
    (loaded : Load.ofValue value = .ok automaton) : Represents survivors automaton value := by
  unfold Load.ofValue at loaded
  split at loaded
  next => cases loaded
  next sketch decoded =>
    split at loaded
    next found accepted =>
      cases loaded
      obtain ⟨entries, numbered, related⟩ := numbers_of_ofSketch accepted
      cases value with
      | array values =>
          obtain ⟨sketches, each, rfl⟩ := Option.map_eq_some_iff.1 decoded
          cases numbered
          apply Represents.list
          apply forall₂_trans (sketches_of_enumerate related) (mapM_eq_some.1 each).flip
          intro node sketch value
          exact hasEdges_of_sketches
      | object members =>
          obtain ⟨keyed, each, rfl⟩ := Option.map_eq_some_iff.1 decoded
          obtain ⟨inOrder, order, decodes⟩ := decodes_of_numbered each numbered
          apply Represents.keyed order
          apply forall₂_trans related decodes.flip
          intro node entry member numbers here
          exact ⟨numbers.1 ▸ here.1, hasEdges_of_sketches numbers.2 here.2⟩
      | null | bool | natural | number | string => cases decoded
    next => cases loaded

/-! ## Whether all declarations are kept -/

theorem HasEdges.length_eq {node : Node} {members : List (String × Value)}
    (has : HasEdges node members) : node.edges.length = members.length := by
  obtain ⟨inOrder, order, related⟩ := has
  rw [related.length_eq, order.length_eq]

/-- A node has all declared edges besides the survivors only if no key is given twice. -/
theorem nodup_of_hasEdges {node : Node} {value : Value}
    (kept : HasEdges node (survivors (declaredEdges value)))
    (all : HasEdges node (declaredEdges value)) : ((declaredEdges value).map Prod.fst).Nodup :=
  length_survivors_eq_iff.1 (kept.length_eq.symm.trans all.length_eq)

theorem unrepeated_of_represents {automaton : Automaton} {value : Value}
    (kept : Represents survivors automaton value) (all : Represents id automaton value) :
    Unrepeated value := by
  cases kept with
  | list kept =>
      cases all with
      | list all =>
          apply Unrepeated.list
          intro entry listed
          have both := kept.mp (fun _ _ => nodup_of_hasEdges) all
          obtain ⟨_, _, nodup⟩ := exists_left_of_forall₂ both listed
          exact nodup
  | @keyed members _ keptOrder kept =>
      cases all with
      | keyed allOrder all =>
          have lengths : (survivors members).length = members.length := by
            rw [← keptOrder.length_eq, ← kept.length_eq, all.length_eq, allOrder.length_eq, id]
          have nodup := length_survivors_eq_iff.1 lengths
          apply Unrepeated.keyed nodup
          intro member listed
          have survives : member ∈ survivors members := by rwa [survivors_eq_self nodup]
          obtain ⟨node, here, read, keptEdges⟩ :=
            exists_left_of_forall₂ kept (keptOrder.mem_iff.2 survives)
          obtain ⟨other, there, again, allEdges⟩ :=
            exists_left_of_forall₂ all (allOrder.mem_iff.2 listed)
          -- Both nodes have the id that the key denotes.
          have equal : other.id = node.id := Option.some.inj (again.symm.trans read)
          cases automaton.valid_nodes.dense.eq_of_id there here equal
          exact nodup_of_hasEdges keptEdges allEdges

theorem represents_of_unrepeated {automaton : Automaton} {value : Value}
    (kept : Represents survivors automaton value) (unrepeated : Unrepeated value) :
    Represents id automaton value := by
  cases unrepeated with
  | list each =>
      cases kept with
      | list kept =>
          apply Represents.list
          apply (forall₂_and_right each kept).imp
          intro node entry here
          exact survivors_eq_self here.1 ▸ here.2
  | keyed nodup each =>
      cases kept with
      | keyed order kept =>
          rw [survivors_eq_self nodup] at order
          apply Represents.keyed order
          have inOrder := fun member listed => each member (order.mem_iff.1 listed)
          apply (forall₂_and_right inOrder kept).imp
          intro node member here
          exact ⟨here.2.1, survivors_eq_self here.1 ▸ here.2.2⟩

/-- Different keys of an object of nodes denote different ids. -/
theorem eq_of_id?_eq {automaton : Automaton} {value : Value}
    (kept : Represents survivors automaton value) {member other : String × Value}
    (first : member ∈ value.members) (second : other ∈ value.members)
    (same : Load.id? member.1 = Load.id? other.1) : member.1 = other.1 := by
  cases kept with
  | list => cases first
  | @keyed members inOrder order kept =>
      have keys : (inOrder.map Prod.fst).Perm (members.map Prod.fst).dedup :=
        survivors_keys members ▸ order.map Prod.fst
      have ids : (inOrder.map Prod.fst).map Load.id? =
          (automaton.nodes.map Node.id).map some := by
        rw [List.map_map, List.map_map]
        exact map_eq_of_forall₂ kept.flip fun _ _ here => here.1
      have distinct : ((inOrder.map Prod.fst).map Load.id?).Nodup := by
        rw [ids, automaton.wellFormed.dense]
        exact (List.nodup_range).map (Option.some_injective _)
      have listed {entry : String × Value} (declared : entry ∈ members) :
          entry.1 ∈ inOrder.map Prod.fst := by
        rw [keys.mem_iff, List.mem_dedup]
        exact List.mem_map_of_mem declared
      exact List.inj_on_of_nodup_map distinct (listed first) (listed second) same

/-! ## Texts -/

theorem exists_read_of_load {text : String} {automaton : Automaton}
    (loaded : Automaton.load text = .ok automaton) :
    ∃ value, Json.read text.toList = .ok value ∧ Load.ofValue value = .ok automaton := by
  obtain ⟨value, read⟩ : ∃ value, Json.read text.toList = .ok value := by
    simp only [Automaton.load, bind_eq_ok] at loaded
    obtain ⟨sketch, found, _⟩ := loaded
    unfold Load.sketch at found
    split at found
    next => cases found
    next reading isValue =>
      split at found
      next => cases found
      next =>
        split at found
        next => cases found
        next clear =>
          refine ⟨reading.value, ?_⟩
          simp only [Json.read, bind_eq_ok, pure, Except.pure, Except.ok.injEq]
          exact ⟨reading, isValue, (), clear, rfl⟩
  exact ⟨value, read, load_of_read read ▸ loaded⟩

/-- An automaton that is loaded from a text has the nodes and edges that the text declares last
under each key.  These are all that it declares exactly when no key is given twice.  Different
keys of nodes denote different ids. -/
theorem declarations_of_load {text : String} {automaton : Automaton}
    (loaded : Automaton.load text = .ok automaton) :
    ∃ value, Json.read text.toList = .ok value ∧
      Represents survivors automaton value ∧
      (Represents id automaton value ↔ Unrepeated value) ∧
      ∀ member ∈ value.members, ∀ other ∈ value.members,
        Load.id? member.1 = Load.id? other.1 → member.1 = other.1 := by
  obtain ⟨value, read, ofValue⟩ := exists_read_of_load loaded
  have kept := represents_of_ofValue ofValue
  refine ⟨value, read, kept, ⟨?_, ?_⟩, ?_⟩
  · exact unrepeated_of_represents kept
  · exact represents_of_unrepeated kept
  · intro member first other second
    exact eq_of_id?_eq kept first second

/-- A text that gives the key of its accepting node twice. -/
def repeatedNode : String :=
  "\x7b\"0\":\x7b\"edges\":\x7b\"a\":1\x7d\x7d," ++
    "\"1\":\x7b\"type\":\"accept\"\x7d,\"1\":\x7b\"type\":\"accept\"\x7d\x7d"

theorem declarations_of_load_repeatedNode :
    ∃ automaton value, Automaton.load repeatedNode = .ok automaton ∧
      Json.read repeatedNode.toList = .ok value ∧
      Represents survivors automaton value ∧ ¬ Represents id automaton value := by
  obtain ⟨automaton, loaded⟩ : ∃ automaton, Automaton.load repeatedNode = .ok automaton :=
    ⟨_, rfl⟩
  obtain ⟨value, read, kept, all, _⟩ := declarations_of_load loaded
  refine ⟨automaton, value, loaded, read, kept, ?_⟩
  rw [all]
  intro unrepeated
  cases read
  cases unrepeated with
  | keyed nodup =>
      revert nodup
      decide

/-- A text that gives the key of an edge twice, with different destinations. -/
def repeatedEdge : String :=
  "[\x7b\"edges\":\x7b\"a\":1,\"a\":2\x7d\x7d,\x7b\"edges\":\x7b\"b\":2\x7d\x7d," ++
    "\x7b\"type\":\"accept\"\x7d]"

/-- An edge can be lost: only the last of two under the same key is kept. -/
theorem edge_lost_to_repeated_key :
    ∃ automaton entries, Automaton.load repeatedEdge = .ok automaton ∧
      Json.read repeatedEdge.toList = .ok (.array entries) ∧
      (entries.map fun entry => (declaredEdges entry).length) = [2, 1, 0] ∧
      (automaton.nodes.map fun node => node.edges.length) = [1, 1, 0] ∧
      ¬ Represents id automaton (.array entries) := by
  refine ⟨_, _, rfl, rfl, rfl, rfl, ?_⟩
  intro all
  cases all with
  | list each =>
      cases each with
      | cons first _ => cases first.length_eq

end ScanCircuit
