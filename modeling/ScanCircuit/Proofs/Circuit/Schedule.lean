import Mathlib.Data.Set.Insert
import Mathlib.Logic.Function.Basic
import ScanCircuit.Proofs.Circuit.Expansion

/-!
# Schedules

A ledger records what the steps of a circuit have done so far: the cells that are
constrained, the gates that are instantiated and the inputs that are wired.  Steps are
scheduled when each of them does something that the ledger does not have yet and reads
only what the ledger has.

A scheduled list therefore constrains no cell and wires no input twice, never reads a
cell before it is constrained, and never reads the output of a gate before all inputs
of the gate are wired.
-/

namespace ScanCircuit.Circuit

namespace Value

/-- The cells that a value reads. -/
def cells : Value → List Cell
  | .cell place => [place]
  | .add left right => left.cells ++ right.cells
  | .const _ | .byte _ | .output _ => []

/-- The positions of the input bytes that a value reads. -/
def bytes : Value → List Nat
  | .byte position => [position]
  | .add left right => left.bytes ++ right.bytes
  | .const _ | .cell _ | .output _ => []

/-- The gates whose outputs a value reads. -/
def gates : Value → List Gate
  | .output gate => [gate]
  | .add left right => left.gates ++ right.gates
  | .const _ | .byte _ | .cell _ => []

end Value

/-- What some steps have done. -/
structure Ledger where
  /-- The cells that are constrained. -/
  cells : Set Cell
  /-- The template of each gate that is instantiated. -/
  template : Gate → Option Template
  /-- The inputs that are wired. -/
  wired : Set (Gate × Pin)

namespace Ledger

/-- Nothing has been done. -/
def empty : Ledger := ⟨∅, fun _ => none, ∅⟩

/-- All inputs of a gate are wired. -/
def Complete (ledger : Ledger) (gate : Gate) : Prop :=
  ∃ template, ledger.template gate = some template ∧
    ∀ pin ∈ template.pins, (gate, pin) ∈ ledger.wired

/-- The later ledger has everything that the earlier one has. -/
structure Grows (before after : Ledger) : Prop where
  cells : before.cells ⊆ after.cells
  template : ∀ {gate template}, before.template gate = some template →
    after.template gate = some template
  wired : before.wired ⊆ after.wired

/-- The ledger after a step. -/
def record (ledger : Ledger) : Step → Ledger
  | .instantiate gate template =>
      { ledger with template := Function.update ledger.template gate (some template) }
  | .wire gate pin _ => { ledger with wired := insert (gate, pin) ledger.wired }
  | .constrain target _ => { ledger with cells := insert target ledger.cells }
  | .components .. | .states .. | .sums _ | .fault => ledger

/-- The ledger after several steps. -/
def recordAll (ledger : Ledger) (steps : List Step) : Ledger :=
  steps.foldl record ledger

end Ledger

/-- A value reads only what the ledger has, and only bytes of the window. -/
structure Value.Ready (window : Nat) (ledger : Ledger) (value : Value) : Prop where
  cells : ∀ cell ∈ value.cells, cell ∈ ledger.cells
  bytes : ∀ position ∈ value.bytes, position < window
  gates : ∀ gate ∈ value.gates, ledger.Complete gate

namespace Value.Ready

variable {window : Nat} {ledger : Ledger} {first second : Value}

theorem left (ready : (Value.add first second).Ready window ledger) :
    first.Ready window ledger where
  cells cell member := ready.cells cell (List.mem_append_left _ member)
  bytes position member := ready.bytes position (List.mem_append_left _ member)
  gates gate member := ready.gates gate (List.mem_append_left _ member)

theorem right (ready : (Value.add first second).Ready window ledger) :
    second.Ready window ledger where
  cells cell member := ready.cells cell (List.mem_append_right _ member)
  bytes position member := ready.bytes position (List.mem_append_right _ member)
  gates gate member := ready.gates gate (List.mem_append_right _ member)

end Value.Ready

/-- A step does something new and reads only what the ledger has. -/
def Step.Ready (window : Nat) (ledger : Ledger) : Step → Prop
  | .instantiate gate _ => ledger.template gate = none
  | .wire gate pin value =>
      (∃ template, ledger.template gate = some template ∧ pin ∈ template.pins) ∧
        (gate, pin) ∉ ledger.wired ∧ value.Ready window ledger
  | .constrain target value => target ∉ ledger.cells ∧ value.Ready window ledger
  | .components .. | .states .. | .sums _ => True
  | .fault => False

/-- The cell that a step constrains. -/
def Step.target? : Step → Option Cell
  | .constrain target _ => some target
  | _ => none

/-- The input that a step wires. -/
def Step.wired? : Step → Option (Gate × Pin)
  | .wire gate pin _ => some (gate, pin)
  | _ => none

/-- Every step is ready when its turn comes. -/
def Scheduled (window : Nat) : Ledger → List Step → Prop
  | _, [] => True
  | ledger, step :: rest =>
      step.Ready window ledger ∧ Scheduled window (ledger.record step) rest

variable {window : Nat} {ledger : Ledger} {step : Step} {steps first rest : List Step}

/-! ## Ledgers of several steps -/

namespace Ledger

@[simp] theorem recordAll_nil : ledger.recordAll [] = ledger := rfl

@[simp] theorem recordAll_cons :
    ledger.recordAll (step :: rest) = (ledger.record step).recordAll rest := rfl

@[simp] theorem recordAll_append :
    ledger.recordAll (first ++ rest) = (ledger.recordAll first).recordAll rest := by
  simp [recordAll]

/-- The constrained cells are those of before and the targets of the steps. -/
theorem mem_cells_recordAll {cell : Cell} :
    cell ∈ (ledger.recordAll steps).cells ↔
      cell ∈ ledger.cells ∨ ∃ value, .constrain cell value ∈ steps := by
  induction steps generalizing ledger with
  | nil => simp
  | cons step rest ih =>
      rw [recordAll_cons, ih]
      cases step <;> simp [record, or_assoc, or_left_comm, exists_or]

/-- The wired inputs are those of before and the inputs wired by the steps. -/
theorem mem_wired_recordAll {gate : Gate} {pin : Pin} :
    (gate, pin) ∈ (ledger.recordAll steps).wired ↔
      (gate, pin) ∈ ledger.wired ∨ ∃ value, .wire gate pin value ∈ steps := by
  induction steps generalizing ledger with
  | nil => simp
  | cons step rest ih =>
      rw [recordAll_cons, ih]
      cases step <;> simp [record, or_assoc, or_left_comm, exists_or]

/-- A complete gate stays complete. -/
theorem Grows.complete {after : Ledger} (grows : ledger.Grows after) {gate : Gate}
    (complete : ledger.Complete gate) : after.Complete gate := by
  obtain ⟨template, known, wired⟩ := complete
  exact ⟨template, grows.template known, fun pin member => grows.wired (wired pin member)⟩

end Ledger

/-! ## What a schedule says -/

@[simp] theorem scheduled_nil : Scheduled window ledger [] := trivial

@[simp] theorem scheduled_cons :
    Scheduled window ledger (step :: rest) ↔
      step.Ready window ledger ∧ Scheduled window (ledger.record step) rest := Iff.rfl

@[simp] theorem scheduled_append :
    Scheduled window ledger (first ++ rest) ↔
      Scheduled window ledger first ∧ Scheduled window (ledger.recordAll first) rest := by
  induction first generalizing ledger with
  | nil => simp
  | cons step first ih => simp [ih, and_assoc]

namespace Scheduled

/-- A step is ready in the ledger of the steps before it. -/
theorem ready (scheduled : Scheduled window ledger steps) {before after : List Step}
    (split : steps = before ++ step :: after) :
    step.Ready window (ledger.recordAll before) := by
  subst split
  rw [scheduled_append, scheduled_cons] at scheduled
  exact scheduled.2.1

/-- A gate has the template of the ledger before, or of the step that instantiates it. -/
theorem template_recordAll (scheduled : Scheduled window ledger steps) {gate : Gate}
    {template : Template} :
    (ledger.recordAll steps).template gate = some template ↔
      ledger.template gate = some template ∨ .instantiate gate template ∈ steps := by
  induction steps generalizing ledger with
  | nil => simp
  | cons step rest ih =>
      obtain ⟨ready, scheduled⟩ := scheduled
      rw [Ledger.recordAll_cons, ih scheduled, List.mem_cons, ← or_assoc]
      refine or_congr_left ?_
      cases step with
      | instantiate made other =>
          by_cases equal : gate = made
          · subst equal
            have unknown : ledger.template gate = none := ready
            simp [Ledger.record, unknown, eq_comm]
          · simp [Ledger.record, equal]
      | components | states | sums | wire | constrain | fault => simp [Ledger.record]

/-- Scheduled steps take nothing away. -/
theorem grows (scheduled : Scheduled window ledger steps) :
    ledger.Grows (ledger.recordAll steps) where
  cells _ member := Ledger.mem_cells_recordAll.2 (.inl member)
  template known := scheduled.template_recordAll.2 (.inl known)
  wired _ member := Ledger.mem_wired_recordAll.2 (.inl member)

/-- A step that is ready takes nothing away. -/
theorem grows_record (ready : step.Ready window ledger) :
    ledger.Grows (ledger.record step) := by
  have alone : Scheduled window ledger [step] := ⟨ready, trivial⟩
  exact alone.grows

/-- What a ledger keeps of the steps is never done twice, nor again if the ledger had it
before. -/
theorem nodup_filterMap {κ : Type} (kept : Ledger → Set κ) (done? : Step → Option κ)
    (fresh : ∀ {ledger step item}, step.Ready window ledger → done? step = some item →
      item ∉ kept ledger)
    (grows : ∀ ledger step item, item ∈ kept (ledger.record step) ↔
      item ∈ kept ledger ∨ done? step = some item)
    (scheduled : Scheduled window ledger steps) :
    (steps.filterMap done?).Nodup ∧ ∀ item ∈ steps.filterMap done?, item ∉ kept ledger := by
  induction steps generalizing ledger with
  | nil => simp
  | cons step rest ih =>
      obtain ⟨ready, scheduled⟩ := scheduled
      obtain ⟨nodup, later⟩ := ih scheduled
      have outside : ∀ item ∈ rest.filterMap done?, item ∉ kept ledger := by
        intro item member old
        exact later item member ((grows ..).2 (.inl old))
      cases done : done? step with
      | none => simpa [List.filterMap_cons, done] using ⟨nodup, by simpa using outside⟩
      | some item =>
          have notLater : item ∉ rest.filterMap done? := by
            intro member
            exact later item member ((grows ..).2 (.inr done))
          rw [List.filterMap_cons_some done]
          refine ⟨List.nodup_cons.2 ⟨notLater, nodup⟩, ?_⟩
          intro other member
          rcases List.mem_cons.1 member with rfl | member
          · exact fresh ready done
          · exact outside other member

/-- No cell is constrained twice, nor one that the ledger has. -/
theorem nodup_targets (scheduled : Scheduled window ledger steps) :
    (steps.filterMap Step.target?).Nodup ∧
      ∀ cell ∈ steps.filterMap Step.target?, cell ∉ ledger.cells := by
  refine nodup_filterMap Ledger.cells Step.target? ?_ ?_ scheduled
  · intro ledger step cell ready target
    cases step <;> simp_all [Step.target?, Step.Ready]
  · intro ledger step cell
    cases step <;> simp [Ledger.record, Step.target?, or_comm, eq_comm]

/-- No input is wired twice, nor one that the ledger has. -/
theorem nodup_wired (scheduled : Scheduled window ledger steps) :
    (steps.filterMap Step.wired?).Nodup ∧
      ∀ input ∈ steps.filterMap Step.wired?, input ∉ ledger.wired := by
  refine nodup_filterMap Ledger.wired Step.wired? ?_ ?_ scheduled
  · intro ledger step input ready wired
    cases step <;> simp_all [Step.wired?, Step.Ready]
  · intro ledger step input
    cases step <;> simp [Ledger.record, Step.wired?, or_comm, eq_comm]

end Scheduled

theorem mem_targets {cell : Cell} :
    cell ∈ steps.filterMap Step.target? ↔ ∃ value, .constrain cell value ∈ steps := by
  rw [List.mem_filterMap]
  constructor
  · rintro ⟨step, member, target⟩
    cases step <;> simp [Step.target?] at target
    subst target
    exact ⟨_, member⟩
  · rintro ⟨value, member⟩
    exact ⟨_, member, rfl⟩

theorem mem_wired {gate : Gate} {pin : Pin} :
    (gate, pin) ∈ steps.filterMap Step.wired? ↔ ∃ value, .wire gate pin value ∈ steps := by
  rw [List.mem_filterMap]
  constructor
  · rintro ⟨step, member, wired⟩
    cases step <;> simp [Step.wired?] at wired
    obtain ⟨rfl, rfl⟩ := wired
    exact ⟨_, member⟩
  · rintro ⟨value, member⟩
    exact ⟨_, member, rfl⟩

end ScanCircuit.Circuit
