import ScanCircuit.Proofs.Loading

/-!
# The two layouts of a graph

A list of nodes and an object that has the same nodes by id are loaded alike, whether or not
they make an automaton.  The object is put in order before any of its nodes is looked at, so
even the first error is the same.

A text is taken as what the reader makes of it: both texts may have any blanks and escapes.
-/

namespace ScanCircuit

open Json (Value)

/-- A member holds a value under a key that spells its index. -/
structure HoldsAt (indexed : Value × Nat) (member : String × Value) : Prop where
  value : member.2 = indexed.1
  spells : SpellsId indexed.2 member.1
  bounded : indexed.2 < Json.naturalBound

/-- An object has exactly one member for each index of a list, with the value there.  The members
may come in any order. -/
def Indexes (values : List Value) (members : List (String × Value)) : Prop :=
  ∃ inOrder, members.Perm inOrder ∧ List.Forall₂ HoldsAt values.zipIdx inOrder

namespace Load

/-- What is loaded from a value. -/
def ofValue (value : Value) : Except LoadError Automaton :=
  match Sketch.decodeGraph value with
  | none => .error .layout
  | some sketch =>
      match ofSketch sketch with
      | .ok automaton => .ok automaton
      | .error defect => .error (.invalid defect)

/-- A value that has been read gives an automaton, a broken rule or an unknown layout. -/
theorem ofValue_cases (value : Value) :
    (∃ automaton, ofValue value = .ok automaton) ∨
      (∃ defect, ofValue value = .error (.invalid defect)) ∨ ofValue value = .error .layout := by
  unfold ofValue
  split
  next => exact .inr (.inr rfl)
  next =>
    split
    next automaton _ => exact .inl ⟨automaton, rfl⟩
    next defect _ => exact .inr (.inl ⟨defect, rfl⟩)

end Load

/-- A text is loaded as its value. -/
theorem load_of_read {text : String} {value : Value}
    (read : Json.read text.toList = .ok value) : Automaton.load text = Load.ofValue value := by
  simp only [Json.read, bind_eq_ok, pure, Except.pure, Except.ok.injEq] at read
  obtain ⟨reading, found, _, clear, rfl⟩ := read
  simp only [Automaton.load, Load.sketch, found, Load.ofValue]
  cases decoded : Sketch.decodeGraph reading.value with
  | none => rfl
  | some sketch =>
      simp only [clear]
      rfl

/-! ## Decoding the nodes -/

/-- A member says what node a number stands for. -/
def Decodes (member : String × Value) (entry : Nat × NodeSketch) : Prop :=
  Load.id? member.1 = some entry.1 ∧ Sketch.decodeNode member.2 = some entry.2

theorem decodes_enumerate {values : List Value} {sketches : List NodeSketch} {start : Nat}
    {inOrder : List (String × Value)}
    (decoded : List.Forall₂ (fun value sketch => Sketch.decodeNode value = some sketch)
      values sketches)
    (indexed : List.Forall₂ HoldsAt (values.zipIdx start) inOrder) :
    List.Forall₂ Decodes inOrder (Load.enumerate start sketches) := by
  induction decoded generalizing start inOrder with
  | nil =>
      cases indexed
      exact .nil
  | cons first _ ih =>
      cases indexed with
      | cons here rest =>
          exact .cons ⟨here.spells.id? here.bounded, here.value ▸ first⟩ (ih rest)

/-- An object whose members stand for different numbers is numbered member by member. -/
theorem decodeGraph_of_decodes {members : List (String × Value)}
    {entries : List (Nat × NodeSketch)} (decodes : List.Forall₂ Decodes members entries)
    (distinct : (entries.map Prod.fst).Nodup) :
    ∃ keyed, Sketch.decodeGraph (.object members) = some (.keyed keyed) ∧
      Load.number keyed = .ok entries := by
  have each (member : String × Value) (entry : Nat × NodeSketch) (found : Decodes member entry) :
      ∃ named : String × NodeSketch,
        (Load.id? named.1 = some entry.1 ∧ named.2 = entry.2) ∧
          member.1 = named.1 ∧ Sketch.decodeNode member.2 = some named.2 :=
    ⟨(member.1, entry.2), ⟨found.1, rfl⟩, rfl, found.2⟩
  obtain ⟨keyed, numbered, decoded⟩ := exists_forall₂ decodes each
  have ids : (members.map Prod.fst).map Load.id? = (entries.map Prod.fst).map some := by
    rw [List.map_map, List.map_map]
    exact map_eq_of_forall₂ decodes fun _ _ found => found.1
  refine ⟨keyed, ?_, number_eq_ok numbered.flip⟩
  rw [Sketch.decodeGraph, decodeObject_eq_some decoded (nodup_of_ids ids distinct),
    Option.map_some]

/-! ## Putting the nodes in order -/

theorem enumerate_ids (start : Nat) (sketches : List NodeSketch) :
    (Load.enumerate start sketches).map Prod.fst = List.range' start sketches.length := by
  induction sketches generalizing start with
  | nil => rfl
  | cons _ _ ih => rw [Load.enumerate, List.map_cons, ih, List.length_cons, List.range'_succ]

/-- Nodes that can be decoded are numbered alike in both layouts. -/
theorem numbered_of_indexes {values : List Value} {members : List (String × Value)}
    {sketches : List NodeSketch} (indexes : Indexes values members)
    (decoded : values.mapM Sketch.decodeNode = some sketches) :
    ∃ keyed, Sketch.decodeGraph (.object members) = some (.keyed keyed) ∧
      Load.numbered (.keyed keyed) = Load.numbered (.list sketches) := by
  obtain ⟨inOrder, shuffled, indexed⟩ := indexes
  have decodes := decodes_enumerate (mapM_eq_some.1 decoded) indexed
  obtain ⟨entries, listed, order⟩ := List.perm_comp_forall₂ shuffled decodes
  have ids := enumerate_ids 0 sketches
  have distinct : ((Load.enumerate 0 sketches).map Prod.fst).Nodup := ids ▸ List.nodup_range'
  have ascending : (Load.enumerate 0 sketches).Pairwise fun left right => left.1 ≤ right.1 :=
    List.pairwise_map.1 (ids ▸ List.pairwise_le_range')
  obtain ⟨keyed, isKeyed, numbered⟩ :=
    decodeGraph_of_decodes listed ((order.map Prod.fst).nodup_iff.2 distinct)
  refine ⟨keyed, isKeyed, ?_⟩
  simp only [Load.numbered, numbered, Except.map, sortById_of_perm order ascending distinct]

theorem exists_undecoded {α β : Type} {decode : α → Option β} {items : List α}
    (undecoded : items.mapM decode = none) : ∃ item ∈ items, decode item = none := by
  induction items with
  | nil => cases undecoded
  | cons item rest ih =>
      cases here : decode item with
      | none => exact ⟨item, by simp, here⟩
      | some first =>
          cases others : rest.mapM decode with
          | none =>
              obtain ⟨other, member, bad⟩ := ih others
              exact ⟨other, by simp [member], bad⟩
          | some decoded => simp [here, others] at undecoded

theorem decodeMembers_eq_none {α : Type} {decode : Value → Option α}
    {members : List (String × Value)} {member : String × Value} (listed : member ∈ members)
    (undecoded : decode member.2 = none) : Sketch.decodeMembers decode members = none := by
  induction listed with
  | head => simp [Sketch.decodeMembers, undecoded]
  | tail first _ ih => simp [Sketch.decodeMembers, ih]

theorem Indexes.perm {values : List Value} {members : List (String × Value)}
    (indexes : Indexes values members) : (members.map Prod.snd).Perm values := by
  obtain ⟨inOrder, shuffled, indexed⟩ := indexes
  have inOrderValues : inOrder.map Prod.snd = values := by
    rw [← List.zipIdx_map_fst 0 values]
    exact map_eq_of_forall₂ indexed.flip fun _ _ here => here.value
  exact inOrderValues ▸ shuffled.map Prod.snd

/-- A node that cannot be decoded spoils the object as it does the list. -/
theorem decodeGraph_of_indexes {values : List Value} {members : List (String × Value)}
    (indexes : Indexes values members) (undecoded : values.mapM Sketch.decodeNode = none) :
    Sketch.decodeGraph (.object members) = none := by
  obtain ⟨value, present, bad⟩ := exists_undecoded undecoded
  obtain ⟨member, listed, rfl⟩ := List.mem_map.1 (indexes.perm.mem_iff.2 present)
  rw [Sketch.decodeGraph, Sketch.decodeObject, decodeMembers_eq_none listed bad, Option.map_none,
    Option.map_none]

/-! ## The two layouts -/

theorem ofValue_of_indexes {values : List Value} {members : List (String × Value)}
    (indexes : Indexes values members) :
    Load.ofValue (.array values) = Load.ofValue (.object members) := by
  have list : Sketch.decodeGraph (.array values) =
      (values.mapM Sketch.decodeNode).map .list := rfl
  cases decoded : values.mapM Sketch.decodeNode with
  | none =>
      rw [decoded, Option.map_none] at list
      simp only [Load.ofValue, list, decodeGraph_of_indexes indexes decoded]
  | some sketches =>
      rw [decoded, Option.map_some] at list
      obtain ⟨keyed, isKeyed, alike⟩ := numbered_of_indexes indexes decoded
      simp only [Load.ofValue, list, isKeyed, Load.ofSketch, alike]

/-- A list of nodes and an object with the same nodes by id load alike: to the same automaton,
to the same broken rule or to no layout at all.

This is about texts that are read as a list and as an object. A text that the reader refuses, such
as one with a number out of range or with the escape of half a surrogate pair, spells neither and
is outside the statement. -/
theorem load_layouts_agree {list keyed : String} {values : List Value}
    {members : List (String × Value)} (isList : Json.read list.toList = .ok (.array values))
    (isKeyed : Json.read keyed.toList = .ok (.object members))
    (indexes : Indexes values members) :
    Automaton.load list = Automaton.load keyed ∧
      ((∃ automaton, Automaton.load keyed = .ok automaton) ∨
        (∃ defect, Automaton.load keyed = .error (.invalid defect)) ∨
          Automaton.load keyed = .error .layout) := by
  rw [load_of_read isList, load_of_read isKeyed]
  exact ⟨ofValue_of_indexes indexes, Load.ofValue_cases _⟩

/-- Two faulty nodes: a label of two characters, and an unknown kind. -/
def faultyList : String :=
  "[[\"accept\",\x7b\"ab\":0\x7d],[\"loop\"]]"

/-- The same nodes by id, the second one first. -/
def faultyKeyed : String :=
  "\x7b\"01\":[\"loop\"], \"+0\":[\"accept\",\x7b\"ab\":0\x7d]\x7d"

theorem load_layouts_agree_faulty :
    Automaton.load faultyList = Automaton.load faultyKeyed ∧
      Automaton.load faultyKeyed = .error (.invalid (.malformedLabel 0 "ab")) := by
  have zero : SpellsId 0 "+0" := .signed ⟨by decide, List.all_eq_true.1 (by decide), by decide⟩ rfl
  have one : SpellsId 1 "01" := .digits ⟨by decide, List.all_eq_true.1 (by decide), by decide⟩
  have indexes : Indexes
      [.array [.string "accept", .object [("ab", .natural 0)]], .array [.string "loop"]]
      [("01", .array [.string "loop"]),
        ("+0", .array [.string "accept", .object [("ab", .natural 0)]])] :=
    ⟨_, .swap _ _ _, .cons ⟨rfl, zero, by decide⟩ (.cons ⟨rfl, one, by decide⟩ .nil)⟩
  exact ⟨(load_layouts_agree rfl rfl indexes).1, rfl⟩

end ScanCircuit
