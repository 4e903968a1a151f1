import Mathlib.Data.List.Nodup
import ScanCircuit.Proofs.Circuit.Schedule

/-!
# Drafted steps are scheduled

Drafting numbers components as it creates them, so a new gate is never in the ledger.
Between drafts every gate has all its inputs wired, with one exception: the gate of an
edge stays open while the condition of the edge is drafted.  `Ledger.Tidy` states both
for a ledger, the counts so far and the gates that may be open.

Each draft is laid on top of a tidy ledger: its steps are scheduled there, and the ledger
that they leave is tidy again.
-/

namespace ScanCircuit.Circuit

variable {α β : Type} {window position : Nat} {counts : Counts} {opened : Set Gate}
variable {ledger before after : Ledger} {kind : Kind} {template : Template}

namespace Ledger

/-- A gate that no step has touched. -/
def Untouched (ledger : Ledger) (gate : Gate) : Prop :=
  ledger.template gate = none ∧ ∀ pin, (gate, pin) ∉ ledger.wired

/-- A gate that is still to be numbered, at this position or a later one. -/
def Ahead (position : Nat) (counts : Counts) (gate : Gate) : Prop :=
  position < gate.position ∨
    gate.position = position ∧ counts.get gate.component.kind ≤ gate.component.index

/-- Nothing is known of gates that are still to be numbered, and all other gates that are
not open are complete. -/
structure Tidy (position : Nat) (counts : Counts) (opened : Set Gate) (ledger : Ledger) :
    Prop where
  fresh : ∀ gate, Ahead position counts gate → ledger.Untouched gate
  closed : ∀ gate template, ledger.template gate = some template → gate ∉ opened →
    ∀ pin ∈ template.pins, (gate, pin) ∈ ledger.wired

/-- Components have been drafted between two ledgers. -/
structure Advances (position : Nat) (opened : Set Gate) (before : Ledger) (counts : Counts)
    (after : Ledger) : Prop where
  tidy : after.Tidy position counts opened
  cells : after.cells = before.cells
  grows : before.Grows after
  /-- No gate of before has been wired. -/
  kept : ∀ {gate template pin}, before.template gate = some template →
    (gate, pin) ∈ after.wired → (gate, pin) ∈ before.wired

theorem Grows.trans {last : Ledger} (first : before.Grows after) (second : after.Grows last) :
    before.Grows last where
  cells _ member := second.cells (first.cells member)
  template known := second.template (first.template known)
  wired _ member := second.wired (first.wired member)

theorem Advances.trans {last : Ledger} {middle : Counts}
    (first : before.Advances position opened middle after)
    (second : after.Advances position opened counts last) :
    before.Advances position opened counts last where
  tidy := second.tidy
  cells := second.cells.trans first.cells
  grows := first.grows.trans second.grows
  kept known wired := first.kept known (second.kept (first.grows.template known) wired)

end Ledger

/-! ## Values that are ready -/

namespace Value

@[simp] theorem ready_const (value : Nat) : (Value.const value).Ready window ledger :=
  ⟨by simp [Value.cells], by simp [Value.bytes], by simp [Value.gates]⟩

@[simp] theorem ready_byte {place : Nat} :
    (Value.byte place).Ready window ledger ↔ place < window :=
  ⟨fun ready => ready.bytes place (by simp [Value.bytes]),
    fun bound => ⟨by simp [Value.cells], by simpa [Value.bytes], by simp [Value.gates]⟩⟩

@[simp] theorem ready_cell {place : Cell} :
    (Value.cell place).Ready window ledger ↔ place ∈ ledger.cells :=
  ⟨fun ready => ready.cells place (by simp [Value.cells]),
    fun known => ⟨by simpa [Value.cells], by simp [Value.bytes], by simp [Value.gates]⟩⟩

@[simp] theorem ready_output {gate : Gate} :
    (Value.output gate).Ready window ledger ↔ ledger.Complete gate :=
  ⟨fun ready => ready.gates gate (by simp [Value.gates]),
    fun complete => ⟨by simp [Value.cells], by simp [Value.bytes], by simpa [Value.gates]⟩⟩

theorem ready_add {left right : Value} :
    (Value.add left right).Ready window ledger ↔
      left.Ready window ledger ∧ right.Ready window ledger := by
  constructor
  · intro ready
    exact ⟨ready.left, ready.right⟩
  · rintro ⟨left, right⟩
    constructor
    · intro cell member
      exact (List.mem_append.1 member).elim (left.cells cell) (right.cells cell)
    · intro place member
      exact (List.mem_append.1 member).elim (left.bytes place) (right.bytes place)
    · intro gate member
      exact (List.mem_append.1 member).elim (left.gates gate) (right.gates gate)

/-- A value stays ready as the ledger grows. -/
theorem Ready.grows {value : Value} (ready : value.Ready window before)
    (grows : before.Grows after) : value.Ready window after where
  cells cell member := grows.cells (ready.cells cell member)
  bytes := ready.bytes
  gates gate member := grows.complete (ready.gates gate member)

end Value

/-! ## Instantiating and wiring a gate -/

/-- Steps are scheduled on a ledger and leave one that meets a condition. -/
def Leaves (window : Nat) (ledger : Ledger) (steps : List Step) (post : Ledger → Prop) : Prop :=
  Scheduled window ledger steps ∧ post (ledger.recordAll steps)

theorem Leaves.append {first rest : List Step} {middle post : Ledger → Prop}
    (firstLeaves : Leaves window ledger first middle)
    (restLeaves : ∀ ledger, middle ledger → Leaves window ledger rest post) :
    Leaves window ledger (first ++ rest) post := by
  obtain ⟨scheduled, met⟩ := firstLeaves
  obtain ⟨restScheduled, meets⟩ := restLeaves _ met
  exact ⟨scheduled_append.2 ⟨scheduled, restScheduled⟩, by simpa using meets⟩

theorem Template.pins_nodup (template : Template) : template.pins.Nodup := by
  cases template with
  | isEqual | lessThan | and => simp [Template.pins]
  | multiOr width =>
      apply List.nodup_range.map
      intro left right equal
      exact Pin.input.inj equal

/-- The next gate of a kind. -/
def nextGate (counts : Counts) (kind : Kind) (position : Nat) : Gate :=
  ⟨⟨kind, counts.get kind⟩, position⟩

/-- The steps that wire inputs of a gate. -/
def wiring (gate : Gate) (connections : List (Pin × Value)) : List Step :=
  connections.map fun connection => .wire gate connection.1 connection.2

theorem ahead_nextGate : Ledger.Ahead position counts (nextGate counts kind position) :=
  .inr ⟨rfl, Nat.le_refl _⟩

theorem ahead_of_bump {gate : Gate}
    (ahead : Ledger.Ahead position (counts.bump kind) gate) :
    Ledger.Ahead position counts gate ∧ gate ≠ nextGate counts kind position := by
  obtain later | ⟨here, bound⟩ := ahead
  · refine ⟨.inl later, ?_⟩
    rintro rfl
    exact Nat.lt_irrefl position later
  · rw [Counts.get_bump] at bound
    refine ⟨.inr ⟨here, by omega⟩, ?_⟩
    rintro rfl
    simp only [nextGate, if_pos] at bound
    omega

/-- The next gate of a kind can be instantiated, and is open afterwards. -/
theorem instantiate_tidy (window : Nat) (tidy : ledger.Tidy position counts opened)
    (kind : Kind) (template : Template) :
    let gate := nextGate counts kind position
    (Step.instantiate gate template).Ready window ledger ∧
      (ledger.record (.instantiate gate template)).Tidy position (counts.bump kind)
        (insert gate opened) := by
  refine ⟨(tidy.fresh _ ahead_nextGate).1, ?_, ?_⟩
  · intro gate ahead
    obtain ⟨ahead, different⟩ := ahead_of_bump ahead
    obtain ⟨unknown, unwired⟩ := tidy.fresh gate ahead
    exact ⟨by simpa [Ledger.record, different] using unknown, unwired⟩
  · intro gate template known notOpen
    rw [Set.mem_insert_iff, not_or] at notOpen
    exact tidy.closed gate template (by simpa [Ledger.record, notOpen.1] using known) notOpen.2

section Wiring

variable {gate : Gate} {connections : List (Pin × Value)}

theorem mem_wiring {other : Gate} {pin : Pin} :
    (∃ value, .wire other pin value ∈ wiring gate connections) ↔
      other = gate ∧ pin ∈ connections.map Prod.fst := by
  simp only [wiring, List.mem_map, Step.wire.injEq]
  constructor
  · rintro ⟨value, connection, member, rfl, rfl, rfl⟩
    exact ⟨rfl, connection, member, rfl⟩
  · rintro ⟨rfl, connection, member, rfl⟩
    exact ⟨connection.2, connection, member, rfl, rfl, rfl⟩

@[simp] theorem template_wiring :
    (ledger.recordAll (wiring gate connections)).template = ledger.template := by
  induction connections generalizing ledger with
  | nil => rfl
  | cons connection rest ih => exact ih

@[simp] theorem cells_wiring :
    (ledger.recordAll (wiring gate connections)).cells = ledger.cells := by
  induction connections generalizing ledger with
  | nil => rfl
  | cons connection rest ih => exact ih

/-- Different inputs of a gate that are not wired yet can be wired to values that are
ready. -/
theorem wiring_scheduled (known : ledger.template gate = some template)
    (nodup : (connections.map Prod.fst).Nodup)
    (inside : ∀ connection ∈ connections, connection.1 ∈ template.pins)
    (unwired : ∀ connection ∈ connections, (gate, connection.1) ∉ ledger.wired)
    (ready : ∀ connection ∈ connections, connection.2.Ready window ledger) :
    Scheduled window ledger (wiring gate connections) := by
  induction connections generalizing ledger with
  | nil => trivial
  | cons connection rest ih =>
      have first : (Step.wire gate connection.1 connection.2).Ready window ledger :=
        ⟨⟨template, known, inside connection (by simp)⟩, unwired connection (by simp),
          ready connection (by simp)⟩
      rw [List.map_cons, List.nodup_cons] at nodup
      refine ⟨first, ih known nodup.2 ?_ ?_ ?_⟩
      · intro other member
        exact inside other (by simp [member])
      · intro other member wired
        rcases Set.mem_insert_iff.1 wired with same | wired
        · exact nodup.1 ((Prod.mk.inj same).2 ▸ List.mem_map_of_mem member)
        · exact unwired other (by simp [member]) wired
      · intro other member
        exact (ready other (by simp [member])).grows (Scheduled.grows_record first)

/-- Wiring an instantiated gate keeps a ledger tidy. -/
theorem Ledger.Tidy.wiring (tidy : ledger.Tidy position counts opened)
    (known : ledger.template gate = some template) :
    (ledger.recordAll (wiring gate connections)).Tidy position counts opened := by
  constructor
  · intro other ahead
    obtain ⟨unknown, unwired⟩ := tidy.fresh other ahead
    refine ⟨by simpa using unknown, ?_⟩
    intro pin wired
    rcases Ledger.mem_wired_recordAll.1 wired with wired | wired
    · exact unwired pin wired
    · obtain ⟨rfl, -⟩ := mem_wiring.1 wired
      simp [unknown] at known
  · intro other otherTemplate otherKnown notOpen pin member
    rw [template_wiring] at otherKnown
    exact Ledger.mem_wired_recordAll.2
      (.inl (tidy.closed other otherTemplate otherKnown notOpen pin member))

/-- A gate whose inputs are all wired need not be open. -/
theorem Ledger.Tidy.close (tidy : ledger.Tidy position counts (insert gate opened))
    (complete : ledger.Complete gate) : ledger.Tidy position counts opened := by
  refine ⟨tidy.fresh, ?_⟩
  intro other otherTemplate known notOpen
  by_cases equal : other = gate
  · subst equal
    obtain ⟨template, stored, wired⟩ := complete
    have same : template = otherTemplate := Option.some.inj (stored.symm.trans known)
    exact same ▸ wired
  · exact tidy.closed other otherTemplate known (by simp [equal, notOpen])

/-- A new gate has been instantiated and wired at some of its inputs. -/
structure Opens (position : Nat) (opened : Set Gate) (before : Ledger) (gate : Gate)
    (template : Template) (pins : List Pin) (counts : Counts) (after : Ledger) : Prop where
  here : gate.position = position
  advances : before.Advances position (insert gate opened) counts after
  unknown : before.template gate = none
  known : after.template gate = some template
  wired : ∀ pin, (gate, pin) ∈ after.wired ↔ pin ∈ pins

/-- The next gate of a kind can be instantiated and wired at some of its inputs. -/
theorem open_leaves (window : Nat) (tidy : ledger.Tidy position counts opened) (kind : Kind)
    (template : Template) (connections : List (Pin × Value))
    (nodup : (connections.map Prod.fst).Nodup)
    (inside : ∀ connection ∈ connections, connection.1 ∈ template.pins)
    (ready : ∀ connection ∈ connections, connection.2.Ready window ledger) :
    let gate := nextGate counts kind position
    Leaves window ledger (.instantiate gate template :: wiring gate connections)
      (Opens position opened ledger gate template (connections.map Prod.fst)
        (counts.bump kind)) := by
  intro gate
  obtain ⟨made, isOpen⟩ := instantiate_tidy window tidy kind template
  obtain ⟨unknown, unwired⟩ := tidy.fresh gate ahead_nextGate
  have known : (ledger.record (.instantiate gate template)).template gate = some template := by
    simp [Ledger.record]
  have wires : Scheduled window (ledger.record (.instantiate gate template))
      (wiring gate connections) := by
    apply wiring_scheduled known nodup inside
    · intro connection member
      exact unwired connection.1
    · intro connection member
      exact (ready connection member).grows (Scheduled.grows_record made)
  have scheduled : Scheduled window ledger
      (.instantiate gate template :: wiring gate connections) := ⟨made, wires⟩
  refine ⟨scheduled, rfl,
    ⟨isOpen.wiring known, by simp [Ledger.record], scheduled.grows, ?_⟩,
    unknown, by simpa using known, ?_⟩
  · intro other otherTemplate pin otherKnown wired
    rw [Ledger.recordAll_cons] at wired
    rcases Ledger.mem_wired_recordAll.1 wired with wired | wired
    · exact wired
    · obtain ⟨rfl, -⟩ := mem_wiring.1 wired
      simp [unknown] at otherKnown
  · intro pin
    rw [Ledger.recordAll_cons, Ledger.mem_wired_recordAll, mem_wiring]
    exact ⟨fun wired => (wired.resolve_left (unwired pin)).2, fun member => .inr ⟨rfl, member⟩⟩

/-- Components have been drafted, and a component that was returned is complete. -/
def Delivers (position : Nat) (opened : Set Gate) (before : Ledger) (component : Component)
    (counts : Counts) (after : Ledger) : Prop :=
  before.Advances position opened counts after ∧ after.Complete ⟨component, position⟩

/-- A gate stays open while other components are drafted. -/
theorem Opens.advance {pins : List Pin} {middle : Counts}
    (opens : Opens position opened before gate template pins middle ledger)
    (advances : ledger.Advances position (insert gate opened) counts after) :
    Opens position opened before gate template pins counts after where
  here := opens.here
  advances := opens.advances.trans advances
  unknown := opens.unknown
  known := advances.grows.template opens.known
  wired pin :=
    ⟨fun wired => (opens.wired pin).1 (advances.kept opens.known wired),
      fun member => advances.grows.wired ((opens.wired pin).2 member)⟩

/-- An open gate can be wired at its other inputs, which makes it complete. -/
theorem Opens.close_leaves {pins : List Pin}
    (opens : Opens position opened before gate template pins counts ledger)
    (connections : List (Pin × Value)) (all : pins ++ connections.map Prod.fst = template.pins)
    (ready : ∀ connection ∈ connections, connection.2.Ready window ledger) :
    Leaves window ledger (wiring gate connections)
      (Delivers position opened before gate.component counts) := by
  have nodup := List.nodup_append.1 (all ▸ template.pins_nodup)
  have scheduled : Scheduled window ledger (wiring gate connections) := by
    refine wiring_scheduled opens.known nodup.2.1 ?_ ?_ ready
    · intro connection member
      rw [← all]
      exact List.mem_append_right _ (List.mem_map_of_mem member)
    · intro connection member wired
      exact nodup.2.2 connection.1 ((opens.wired _).1 wired) connection.1
        (List.mem_map_of_mem member) rfl
  have complete : (ledger.recordAll (wiring gate connections)).Complete gate := by
    refine ⟨template, by simpa using opens.known, ?_⟩
    intro pin member
    rw [← all, List.mem_append] at member
    rw [Ledger.mem_wired_recordAll, mem_wiring, opens.wired]
    exact member.imp_right fun member => ⟨rfl, member⟩
  refine ⟨scheduled, ⟨(opens.advances.tidy.wiring opens.known).close complete,
    by simpa using opens.advances.cells, opens.advances.grows.trans scheduled.grows, ?_⟩,
    by simpa [← opens.here] using complete⟩
  intro other otherTemplate pin known wired
  rcases Ledger.mem_wired_recordAll.1 wired with wired | wired
  · exact opens.advances.kept known wired
  · obtain ⟨rfl, -⟩ := mem_wiring.1 wired
    simp [opens.unknown] at known

/-- The next gate of a kind can be instantiated and wired at all its inputs at once. -/
theorem block_leaves (window : Nat) (tidy : ledger.Tidy position counts opened)
    (kind : Kind) (template : Template) (connections : List (Pin × Value))
    (pins : connections.map Prod.fst = template.pins)
    (ready : ∀ connection ∈ connections, connection.2.Ready window ledger) :
    let gate := nextGate counts kind position
    Leaves window ledger (.instantiate gate template :: wiring gate connections)
      (Delivers position opened ledger gate.component (counts.bump kind)) := by
  intro gate
  have inside : ∀ connection ∈ connections, connection.1 ∈ template.pins := by
    intro connection member
    exact pins ▸ List.mem_map_of_mem member
  obtain ⟨scheduled, opens⟩ := open_leaves window tidy kind template connections
    (pins ▸ template.pins_nodup) inside ready
  have closes : Leaves window _ (wiring gate []) _ :=
    opens.close_leaves [] (by simpa using pins) (by simp)
  exact ⟨scheduled, closes.2⟩

end Wiring

/-! ## What drafts write -/

theorem draftEqual_eq (code : UInt8) (counts : Counts) :
    let equal : Component := ⟨.eq, counts.get .eq⟩
    draftEqual code counts =
      ⟨equal,
        [.comment (shownByte code), .instantiate equal .isEqual, .wire equal (.input 0) .byte,
          .wire equal (.input 1) (.const code.toNat)],
        counts.bump .eq⟩ := rfl

theorem draftRange_eq (charClass : CharClass) (counts : Counts) :
    let above : Component := ⟨.lt, counts.get .lt⟩
    let below : Component := ⟨.lt, (counts.bump .lt).get .lt⟩
    let both : Component := ⟨.and, counts.get .and⟩
    draftRange charClass counts =
      ⟨both,
        [.comment charClass.label, .instantiate above (.lessThan 8),
          .wire above (.input 0) (.const charClass.lower), .wire above (.input 1) .byte,
          .instantiate below (.lessThan 8), .wire below (.input 0) .byte,
          .wire below (.input 1) (.const charClass.upper), .instantiate both .and,
          .wire both .a (.output above), .wire both .b (.output below)],
        ((counts.bump .lt).bump .lt).bump .and⟩ := rfl

theorem draftChecks_cons (check : Check) (rest : List Check) (counts : Counts) :
    let first := draftCheck check counts
    let others := draftChecks rest first.counts
    draftChecks (check :: rest) counts =
      ⟨first.result :: others.result, first.body ++ others.body, others.counts⟩ := by
  simp [draftChecks]

/-- Wiring a list of outputs writes one statement for each of them. -/
theorem wireInputs_eq (component : Component) (start : Nat) (terms : List Component)
    (counts : Counts) :
    wireInputs component start terms counts =
      ⟨(), (terms.zipIdx start).map fun term =>
        .wire component (.input term.2) (.output term.1), counts⟩ := by
  induction terms generalizing start with
  | nil => rfl
  | cons term rest ih =>
      simp only [wireInputs, Draft.run_bind, Draft.wire, Draft.write, ih]
      rfl

/-- Unless there is exactly one output, a component joins all of them. -/
theorem draftAny_eq (terms : List Component) (several : terms.length ≠ 1) (counts : Counts) :
    draftAny terms counts =
      ⟨.output ⟨.multiOr, counts.multiOr⟩,
        .instantiate ⟨.multiOr, counts.multiOr⟩ (.multiOr terms.length) ::
          terms.zipIdx.map fun term =>
            .wire ⟨.multiOr, counts.multiOr⟩ (.input term.2) (.output term.1),
        counts.bump .multiOr⟩ := by
  unfold draftAny
  split
  next => simp at several
  next =>
    simp only [Draft.run_bind, Draft.instantiate, wireInputs_eq, Draft.run_pure]
    simp [Counts.get]

/-- The gate of an edge is instantiated and wired to its source before the condition of the
edge is drafted, and wired to the condition after it. -/
theorem draftEdge_eq (edge : PlannedEdge) (counts : Counts) :
    let checked := draftChecks edge.checks counts
    let gate : Component := ⟨.and, checked.counts.and⟩
    let condition := draftAny checked.result (checked.counts.bump .and)
    draftEdge edge counts =
      ⟨gate,
        checked.body ++ ([.instantiate gate .and, .wire gate .a (.state .current edge.source)] ++
          (condition.body ++ [.wire gate .b condition.result])),
        condition.counts⟩ := rfl

theorem draftEdges_cons (edge : PlannedEdge) (rest : List PlannedEdge) (counts : Counts) :
    let first := draftEdge edge counts
    let others := draftEdges rest first.counts
    draftEdges (edge :: rest) counts =
      ⟨first.result :: others.result, first.body ++ others.body, others.counts⟩ := by
  simp [draftEdges]

theorem draftNode_cons (node : Nat) (edge : PlannedEdge) (rest : List PlannedEdge)
    (counts : Counts) :
    let gates := draftEdges (edge :: rest) counts
    let active := draftAny gates.result gates.counts
    draftNode node (edge :: rest) counts =
      ⟨(), gates.body ++ (active.body ++ [.constrain (.state .next (.node node)) active.result]),
        active.counts⟩ := rfl

/-! ## Drafts on a tidy ledger -/

/-- The steps of a draft are scheduled on a ledger, and leave a result, counts and a ledger
that meet a condition. -/
def Laid (window position : Nat) (ledger : Ledger) (drafted : Drafted α)
    (post : α → Counts → Ledger → Prop) : Prop :=
  Leaves window ledger (stepsAt window position drafted.body)
    (post drafted.result drafted.counts)

theorem laid_pure {result : α} {post : α → Counts → Ledger → Prop}
    (meets : post result counts ledger) :
    Laid window position ledger ((pure result : Draft α) counts) post :=
  ⟨trivial, meets⟩

/-- A draft after another is laid on the ledger that the first one leaves. -/
theorem Laid.bind {first : Draft α} {next : α → Draft β}
    {middle : α → Counts → Ledger → Prop} {post : β → Counts → Ledger → Prop}
    (firstLaid : Laid window position ledger (first counts) middle)
    (nextLaid : ∀ result counts ledger, middle result counts ledger →
      Laid window position ledger (next result counts) post) :
    Laid window position ledger ((first >>= next) counts) post := by
  simp only [Laid, Draft.run_bind, stepsAt_append]
  exact firstLaid.append fun ledger met => nextLaid _ _ ledger met

/-- Components have been drafted, and the components that were returned are complete. -/
def DeliversAll (position : Nat) (opened : Set Gate) (before : Ledger)
    (components : List Component) (counts : Counts) (after : Ledger) : Prop :=
  before.Advances position opened counts after ∧
    ∀ component ∈ components, after.Complete ⟨component, position⟩

theorem Delivers.cons {middle : Ledger} {first : Component} {others : List Component}
    {firstCounts : Counts}
    (firstDelivers : Delivers position opened before first firstCounts middle)
    (othersDelivered : DeliversAll position opened middle others counts after) :
    DeliversAll position opened before (first :: others) counts after := by
  obtain ⟨advances, complete⟩ := othersDelivered
  refine ⟨firstDelivers.1.trans advances, ?_⟩
  intro component member
  rcases List.mem_cons.1 member with rfl | member
  · exact advances.grows.complete firstDelivers.2
  · exact complete component member

theorem Ledger.Tidy.advances (tidy : ledger.Tidy position counts opened) :
    ledger.Advances position opened counts ledger :=
  ⟨tidy, rfl, ⟨fun _ member => member, fun known => known, fun _ member => member⟩,
    fun _ wired => wired⟩

theorem draftEqual_laid (tidy : ledger.Tidy position counts opened) (inside : position < window)
    (code : UInt8) :
    Laid window position ledger (draftEqual code counts) (Delivers position opened ledger) :=
  block_leaves window tidy .eq .isEqual
    [(.input 0, .byte position), (.input 1, .const code.toNat)] rfl (by simp [inside])

theorem draftRange_laid (tidy : ledger.Tidy position counts opened) (inside : position < window)
    (charClass : CharClass) :
    Laid window position ledger (draftRange charClass counts)
      (Delivers position opened ledger) := by
  have above := block_leaves window tidy .lt (.lessThan 8)
    [(.input 0, .const charClass.lower), (.input 1, .byte position)] rfl (by simp [inside])
  apply above.append
  rintro aboveLedger ⟨aboveAdvances, aboveComplete⟩
  have below := block_leaves window aboveAdvances.tidy .lt (.lessThan 8)
    [(.input 0, .byte position), (.input 1, .const charClass.upper)] rfl (by simp [inside])
  apply below.append
  rintro belowLedger ⟨belowAdvances, belowComplete⟩
  have aboveStill := belowAdvances.grows.complete aboveComplete
  obtain ⟨scheduled, advances, complete⟩ :=
    block_leaves window belowAdvances.tidy .and .and
      [(.a, .output (nextGate counts .lt position)),
        (.b, .output (nextGate (counts.bump .lt) .lt position))] rfl
      (by simpa using ⟨aboveStill, belowComplete⟩)
  exact ⟨scheduled, (aboveAdvances.trans belowAdvances).trans advances, complete⟩

theorem draftCheck_laid (tidy : ledger.Tidy position counts opened) (inside : position < window)
    (check : Check) :
    Laid window position ledger (draftCheck check counts) (Delivers position opened ledger) := by
  cases check with
  | range charClass => exact draftRange_laid tidy inside charClass
  | equal code => exact draftEqual_laid tidy inside code

theorem draftChecks_laid (tidy : ledger.Tidy position counts opened) (inside : position < window)
    (checks : List Check) :
    Laid window position ledger (draftChecks checks counts)
      (DeliversAll position opened ledger) := by
  induction checks generalizing counts ledger with
  | nil => exact laid_pure ⟨tidy.advances, by simp⟩
  | cons check rest ih =>
      apply (draftCheck_laid tidy inside check).bind
      intro first firstCounts firstLedger firstDelivers
      apply (ih firstDelivers.1.tidy).bind
      intro others counts last othersDelivered
      exact laid_pure (firstDelivers.cons othersDelivered)

theorem draftAny_laid (tidy : ledger.Tidy position counts opened) (terms : List Component)
    (complete : ∀ term ∈ terms, ledger.Complete ⟨term, position⟩) :
    Laid window position ledger (draftAny terms counts) fun value counts after =>
      ∃ component, value = .output component ∧
        Delivers position opened ledger component counts after := by
  by_cases single : terms.length = 1
  · obtain ⟨term, rfl⟩ := List.length_eq_one_iff.1 single
    exact laid_pure ⟨term, rfl, tidy.advances, complete term (by simp)⟩
  · rw [draftAny_eq terms single]
    let connections : List (Pin × Value) :=
      terms.zipIdx.map fun term => (.input term.2, .output ⟨term.1, position⟩)
    have pins : connections.map Prod.fst = (Template.multiOr terms.length).pins := by
      simp only [connections, List.map_map, Template.pins, List.range_eq_range',
        ← List.zipIdx_map_snd 0 terms]
      rfl
    have ready : ∀ connection ∈ connections, connection.2.Ready window ledger := by
      intro connection member
      obtain ⟨term, listed, rfl⟩ := List.mem_map.1 member
      exact Value.ready_output.2 (complete term.1 (List.fst_mem_of_mem_zipIdx listed))
    have steps : stepsAt window position (terms.zipIdx.map fun term =>
          .wire ⟨.multiOr, counts.multiOr⟩ (.input term.2) (.output term.1)) =
        wiring (nextGate counts .multiOr position) connections := by
      simp only [connections, wiring, List.map_map]
      induction terms.zipIdx with
      | nil => rfl
      | cons term rest ih => exact congrArg (List.cons _) ih
    have laid := block_leaves window tidy .multiOr (.multiOr terms.length) connections pins ready
    simp only [Laid, stepsAt_instantiate, steps]
    exact ⟨laid.1, _, rfl, laid.2⟩

theorem draftEdge_laid (tidy : ledger.Tidy position counts opened) (inside : position < window)
    (edge : PlannedEdge) (source : .state position edge.source ∈ ledger.cells) :
    Laid window position ledger (draftEdge edge counts) (Delivers position opened ledger) := by
  rw [draftEdge_eq]
  simp only [Laid, stepsAt_append]
  apply (draftChecks_laid tidy inside edge.checks).append
  generalize draftChecks edge.checks counts = drafted
  rintro checked ⟨checkedAdvances, termsComplete⟩
  have current : ∀ connection ∈ [(Pin.a, Value.cell (.state position edge.source))],
      connection.2.Ready window checked := by
    simp [checkedAdvances.cells, source]
  apply (open_leaves window checkedAdvances.tidy .and .and _ (by simp) (by simp [Template.pins])
    current).append
  intro opening opens
  have termsStill : ∀ term ∈ drafted.result, opening.Complete ⟨term, position⟩ :=
    fun term member => opens.advances.grows.complete (termsComplete term member)
  apply (draftAny_laid opens.advances.tidy drafted.result termsStill).append
  rintro last ⟨condition, equal, advances, complete⟩
  rw [equal]
  have closes : Leaves window last
      (wiring (nextGate drafted.counts .and position) [(.b, .output ⟨condition, position⟩)]) _ :=
    (opens.advance advances).close_leaves _ rfl (by simpa using complete)
  exact ⟨closes.1, checkedAdvances.trans closes.2.1, closes.2.2⟩

theorem draftEdges_laid (tidy : ledger.Tidy position counts opened) (inside : position < window)
    (edges : List PlannedEdge)
    (sources : ∀ edge ∈ edges, .state position edge.source ∈ ledger.cells) :
    Laid window position ledger (draftEdges edges counts)
      (DeliversAll position opened ledger) := by
  induction edges generalizing counts ledger with
  | nil => exact laid_pure ⟨tidy.advances, by simp⟩
  | cons edge rest ih =>
      apply (draftEdge_laid tidy inside edge (sources edge (by simp))).bind
      intro first firstCounts firstLedger firstDelivers
      have restSources : ∀ edge ∈ rest, .state position edge.source ∈ firstLedger.cells := by
        intro other member
        rw [firstDelivers.1.cells]
        exact sources other (by simp [member])
      apply (ih firstDelivers.1.tidy restSources).bind
      intro others counts last othersDelivered
      exact laid_pure (firstDelivers.cons othersDelivered)

/-- A cell that is not constrained yet can be constrained to a value that is ready. -/
theorem constrain_leaves (tidy : ledger.Tidy position counts opened) {target : Cell}
    (fresh : target ∉ ledger.cells) {value : Value} (ready : value.Ready window ledger) :
    Leaves window ledger [.constrain target value] fun after =>
      after.Tidy position counts opened ∧ after.cells = insert target ledger.cells :=
  ⟨⟨⟨fresh, ready⟩, trivial⟩, ⟨tidy.fresh, tidy.closed⟩, rfl⟩

theorem draftNode_laid (tidy : ledger.Tidy position counts opened) (inside : position < window)
    (node : Nat) (edges : List PlannedEdge)
    (fresh : .state (position + 1) node ∉ ledger.cells)
    (sources : ∀ edge ∈ edges, .state position edge.source ∈ ledger.cells) :
    Laid window position ledger (draftNode node edges counts) fun _ counts after =>
      after.Tidy position counts opened ∧
        after.cells = insert (.state (position + 1) node) ledger.cells := by
  cases edges with
  | nil => exact constrain_leaves tidy fresh (Value.ready_const 0)
  | cons edge rest =>
      apply (draftEdges_laid tidy inside (edge :: rest) sources).bind
      rintro gates counts drafted ⟨draftedAdvances, gatesComplete⟩
      apply (draftAny_laid draftedAdvances.tidy gates gatesComplete).bind
      rintro active counts last ⟨component, rfl, advances, complete⟩
      have cells := (draftedAdvances.trans advances).cells
      rw [← cells] at fresh ⊢
      exact constrain_leaves advances.tidy fresh (Value.ready_output.2 complete)

theorem draftNodes_laid (tidy : ledger.Tidy position counts opened) (inside : position < window)
    (nodes : List (Nat × List PlannedEdge)) (nodup : (nodes.map Prod.fst).Nodup)
    (fresh : ∀ node ∈ nodes, .state (position + 1) node.1 ∉ ledger.cells)
    (sources : ∀ node ∈ nodes, ∀ edge ∈ node.2, .state position edge.source ∈ ledger.cells) :
    Laid window position ledger (draftNodes nodes counts) fun _ counts after =>
      after.Tidy position counts opened ∧
        ∀ cell, cell ∈ after.cells ↔
          cell ∈ ledger.cells ∨ ∃ node ∈ nodes, cell = .state (position + 1) node.1 := by
  induction nodes generalizing counts ledger with
  | nil => exact laid_pure ⟨tidy, by simp⟩
  | cons node rest ih =>
      rw [List.map_cons, List.nodup_cons] at nodup
      apply (draftNode_laid tidy inside node.1 node.2 (fresh node (by simp))
        (sources node (by simp))).bind
      rintro - counts first ⟨firstTidy, firstCells⟩
      have restFresh : ∀ other ∈ rest, .state (position + 1) other.1 ∉ first.cells := by
        intro other member known
        rw [firstCells, Set.mem_insert_iff] at known
        rcases known with same | known
        · exact nodup.1 ((Cell.state.inj same).2 ▸ List.mem_map_of_mem member)
        · exact fresh other (by simp [member]) known
      have restSources : ∀ other ∈ rest, ∀ edge ∈ other.2,
          .state position edge.source ∈ first.cells := by
        intro other member edge edgeMember
        rw [firstCells]
        exact Set.mem_insert_of_mem _ (sources other (by simp [member]) edge edgeMember)
      obtain ⟨scheduled, lastTidy, lastCells⟩ := ih firstTidy nodup.2 restFresh restSources
      refine ⟨scheduled, lastTidy, ?_⟩
      intro cell
      rw [lastCells, firstCells, Set.mem_insert_iff]
      simp only [List.mem_cons, or_and_right, exists_or, exists_eq_left, or_assoc, or_left_comm]

end ScanCircuit.Circuit
