import ScanCircuit.Proofs.Circuit.Schedule

/-!
# Valuations

A valuation gives every net a number.  Read as a constraint system, an expanded circuit
equates each wired input and each constrained cell with the value that flows into it,
and relates the output of each gate to its inputs as the template of the gate demands.

The templates are not part of a circuit.  A gate library says which outputs a template
accepts; all that is assumed of it is that, within the range of the template, it accepts
exactly one.

Scheduled steps have exactly one solution that extends what was known before them.
-/

namespace ScanCircuit.Circuit

/-- The output of a component in terms of its inputs. -/
def Template.output : Template → (Pin → Nat) → Nat
  | .isEqual, pins => if pins (.input 0) = pins (.input 1) then 1 else 0
  | .lessThan _, pins => if pins (.input 0) < pins (.input 1) then 1 else 0
  | .and, pins => pins .a * pins .b
  | .multiOr width, pins => if ∃ index < width, pins (.input index) ≠ 0 then 1 else 0

/-- The inputs on which a component is known to work: a comparison is only used on
bytes. -/
def Template.InRange : Template → (Pin → Nat) → Prop
  | .lessThan bits, pins => bits = 8 ∧ pins (.input 0) < 256 ∧ pins (.input 1) < 256
  | .isEqual, _ | .and, _ | .multiOr _, _ => True

/-- The output depends on the inputs of the template alone. -/
theorem Template.output_congr {template : Template} {left right : Pin → Nat}
    (equal : ∀ pin ∈ template.pins, left pin = right pin) :
    template.output left = template.output right := by
  cases template with
  | isEqual | lessThan bits | and => simp_all [Template.pins, Template.output]
  | multiOr width =>
      have inputs : ∀ index < width, left (.input index) = right (.input index) := by
        intro index bound
        exact equal _ (List.mem_map_of_mem (List.mem_range.2 bound))
      have same : (∃ index < width, left (.input index) ≠ 0) ↔
          ∃ index < width, right (.input index) ≠ 0 := by
        refine exists_congr fun index => and_congr_right fun bound => ?_
        rw [inputs index bound]
      simp only [Template.output, same]

/-- Which outputs the templates accept for given inputs. -/
structure GateLibrary where
  accepts : Template → (Pin → Nat) → Nat → Prop
  accepts_iff : ∀ {template pins output}, template.InRange pins →
    (accepts template pins output ↔ output = template.output pins)

/-- The library that computes every output, in range or not. -/
def GateLibrary.standard : GateLibrary where
  accepts template pins output := output = template.output pins
  accepts_iff _ := Iff.rfl

@[simp] theorem GateLibrary.standard_accepts {template : Template} {pins : Pin → Nat}
    {output : Nat} : standard.accepts template pins output ↔ output = template.output pins :=
  Iff.rfl

/-- A number for every net. -/
abbrev Valuation := Net → Nat

/-- The numbers at the inputs of a gate. -/
def Valuation.pins (valuation : Valuation) (gate : Gate) : Pin → Nat :=
  fun pin => valuation (.input gate pin)

/-- The number that a value stands for, if the bytes it reads exist. -/
def Value.eval (bytes : List UInt8) (valuation : Valuation) : Value → Option Nat
  | .const value => some value
  | .byte position => bytes[position]?.map UInt8.toNat
  | .cell place => some (valuation (.cell place))
  | .output gate => some (valuation (.output gate))
  | .add left right =>
      (left.eval bytes valuation).bind fun left =>
        (right.eval bytes valuation).map (left + ·)

/-- A step read as an equation. -/
def Step.Holds (library : GateLibrary) (bytes : List UInt8) (valuation : Valuation) :
    Step → Prop
  | .instantiate gate template =>
      library.accepts template (valuation.pins gate) (valuation (.output gate))
  | .wire gate pin value => value.eval bytes valuation = some (valuation (.input gate pin))
  | .constrain target value => value.eval bytes valuation = some (valuation (.cell target))
  | .components .. | .states .. | .sums _ => True
  | .fault => False

/-- All steps hold. -/
def Satisfies (library : GateLibrary) (bytes : List UInt8) (steps : List Step)
    (valuation : Valuation) : Prop :=
  ∀ step ∈ steps, step.Holds library bytes valuation

/-- The nets that some step is the equation of. -/
def Assigns (steps : List Step) : Net → Prop
  | .cell cell => ∃ value, .constrain cell value ∈ steps
  | .input gate pin => ∃ value, .wire gate pin value ∈ steps
  | .output gate => ∃ template, .instantiate gate template ∈ steps

/-- The nets that steps declare: the entries of the declared arrays, the output of the
circuit, and the inputs and outputs of the gates. -/
def Declares (steps : List Step) : Net → Prop
  | .cell (.state row node) =>
      ∃ rows columns, .states rows columns ∈ steps ∧ row < rows ∧ node < columns
  | .cell (.sum row) => ∃ rows, .sums rows ∈ steps ∧ row < rows
  | .cell .out => True
  | .input gate pin =>
      ∃ template, .instantiate gate template ∈ steps ∧ pin ∈ template.pins
  | .output gate => ∃ template, .instantiate gate template ∈ steps

/-- A satisfying assignment of the nets that a program declares for a window. -/
structure Program.Solution (program : Program) (library : GateLibrary) (bytes : List UInt8)
    (valuation : Valuation) : Prop where
  satisfies : Satisfies library bytes (program.expand bytes.length) valuation
  /-- There is nothing else to assign. -/
  confined : ∀ net, ¬Declares (program.expand bytes.length) net → valuation net = 0

/-- Evaluating steps on a base: the steps hold, and only the nets that they are equations of
may have changed. -/
structure Evaluates (library : GateLibrary) (bytes : List UInt8) (steps : List Step)
    (base valuation : Valuation) : Prop where
  satisfies : Satisfies library bytes steps valuation
  kept : ∀ net, ¬Assigns steps net → valuation net = base net

variable {library : GateLibrary} {bytes : List UInt8} {window : Nat}
variable {valuation left right : Valuation} {ledger : Ledger} {steps first rest : List Step}

@[simp] theorem satisfies_nil : Satisfies library bytes [] valuation := by
  simp [Satisfies]

@[simp] theorem satisfies_cons {step : Step} :
    Satisfies library bytes (step :: rest) valuation ↔
      step.Holds library bytes valuation ∧ Satisfies library bytes rest valuation := by
  simp [Satisfies]

@[simp] theorem satisfies_append :
    Satisfies library bytes (first ++ rest) valuation ↔
      Satisfies library bytes first valuation ∧ Satisfies library bytes rest valuation := by
  simp [Satisfies, or_imp, forall_and]

/-! ## Agreement on what a ledger has -/

/-- The output of every gate in the ledger is the one its template computes. -/
def GatesHold (ledger : Ledger) (valuation : Valuation) : Prop :=
  ∀ gate template, ledger.template gate = some template →
    valuation (.output gate) = template.output (valuation.pins gate)

/-- Two valuations agree on the cells and the wired inputs of a ledger. -/
structure Agree (ledger : Ledger) (left right : Valuation) : Prop where
  cells : ∀ cell ∈ ledger.cells, left (.cell cell) = right (.cell cell)
  inputs : ∀ gate pin, (gate, pin) ∈ ledger.wired →
    left (.input gate pin) = right (.input gate pin)

/-- Valuations that agree on its inputs agree on the output of a complete gate. -/
theorem Agree.output (agree : Agree ledger left right) (leftHolds : GatesHold ledger left)
    (rightHolds : GatesHold ledger right) {gate : Gate} (complete : ledger.Complete gate) :
    left (.output gate) = right (.output gate) := by
  obtain ⟨template, known, wired⟩ := complete
  rw [leftHolds gate template known, rightHolds gate template known]
  apply Template.output_congr
  intro pin member
  exact agree.inputs gate pin (wired pin member)

/-- A value that is ready has the same number in valuations that agree on what it
reads. -/
theorem Value.eval_congr {value : Value} (ready : value.Ready window ledger)
    (cells : ∀ cell ∈ ledger.cells, left (.cell cell) = right (.cell cell))
    (outputs : ∀ gate, ledger.Complete gate → left (.output gate) = right (.output gate)) :
    value.eval bytes left = value.eval bytes right := by
  induction value with
  | const | byte => rfl
  | cell place =>
      simp only [Value.eval, cells place (ready.cells place (by simp [Value.cells]))]
  | output gate =>
      simp only [Value.eval, outputs gate (ready.gates gate (by simp [Value.gates]))]
  | add leftValue rightValue leftIH rightIH =>
      simp only [Value.eval, leftIH ready.left, rightIH ready.right]

/-- A step that holds keeps the gates of the ledger right. -/
theorem GatesHold.record (gates : GatesHold ledger valuation) {step : Step}
    (holds : step.Holds .standard bytes valuation) : GatesHold (ledger.record step) valuation := by
  intro gate template known
  cases step with
  | instantiate made other =>
      by_cases equal : gate = made
      · subst equal
        have same : other = template := by simpa [Ledger.record] using known
        subst same
        exact holds
      · exact gates gate template (by simpa [Ledger.record, equal] using known)
  | components | states | sums | wire | constrain | fault => exact gates gate template known

/-! ## At most one solution -/

/-- A step that is ready and holds in two valuations extends their agreement. -/
theorem Agree.record (agree : Agree ledger left right) {step : Step}
    (ready : step.Ready window ledger)
    (leftGates : GatesHold ledger left) (rightGates : GatesHold ledger right)
    (leftHolds : step.Holds .standard bytes left)
    (rightHolds : step.Holds .standard bytes right) :
    Agree (ledger.record step) left right := by
  have outputs : ∀ gate, ledger.Complete gate → left (.output gate) = right (.output gate) :=
    fun gate complete => agree.output leftGates rightGates complete
  cases step with
  | wire gate pin value =>
      have equal : left (.input gate pin) = right (.input gate pin) := by
        apply Option.some.inj
        rw [← leftHolds, ← rightHolds]
        exact Value.eval_congr ready.2.2 agree.cells outputs
      refine ⟨agree.cells, ?_⟩
      intro other otherPin member
      rcases Set.mem_insert_iff.1 member with same | member
      · cases same
        exact equal
      · exact agree.inputs other otherPin member
  | constrain target value =>
      have equal : left (.cell target) = right (.cell target) := by
        apply Option.some.inj
        rw [← leftHolds, ← rightHolds]
        exact Value.eval_congr ready.2 agree.cells outputs
      refine ⟨?_, agree.inputs⟩
      intro cell member
      rcases Set.mem_insert_iff.1 member with rfl | member
      · exact equal
      · exact agree.cells cell member
  | instantiate | components | states | sums | fault => exact ⟨agree.cells, agree.inputs⟩

/-- Two valuations that satisfy scheduled steps and agree before them agree after them. -/
theorem Scheduled.agree (scheduled : Scheduled window ledger steps)
    (leftGates : GatesHold ledger left) (rightGates : GatesHold ledger right)
    (leftHolds : Satisfies .standard bytes steps left)
    (rightHolds : Satisfies .standard bytes steps right)
    (agree : Agree ledger left right) :
    Agree (ledger.recordAll steps) left right ∧
      GatesHold (ledger.recordAll steps) left ∧ GatesHold (ledger.recordAll steps) right := by
  induction steps generalizing ledger with
  | nil => exact ⟨agree, leftGates, rightGates⟩
  | cons step rest ih =>
      rw [satisfies_cons] at leftHolds rightHolds
      exact ih scheduled.2 (leftGates.record leftHolds.1) (rightGates.record rightHolds.1)
        leftHolds.2 rightHolds.2
        (agree.record scheduled.1 leftGates rightGates leftHolds.1 rightHolds.1)

/-! ## At least one solution -/

open Function (update)

/-- Evaluate a step: give a number to the net that it is the equation of, and keep the
output of a gate in line with its inputs. -/
def Valuation.settle (bytes : List UInt8) (ledger : Ledger) (valuation : Valuation) :
    Step → Valuation
  | .instantiate gate template =>
      update valuation (.output gate) (template.output (valuation.pins gate))
  | .wire gate pin value =>
      let wired : Valuation :=
        update valuation (.input gate pin) ((value.eval bytes valuation).getD 0)
      update wired (.output gate)
        (((ledger.template gate).map fun template => template.output (wired.pins gate)).getD 0)
  | .constrain target value =>
      update valuation (.cell target) ((value.eval bytes valuation).getD 0)
  | .components .. | .states .. | .sums _ | .fault => valuation

/-- Evaluate steps in order. -/
def Valuation.settleAll (bytes : List UInt8) : Ledger → Valuation → List Step → Valuation
  | _, valuation, [] => valuation
  | ledger, valuation, step :: rest =>
      settleAll bytes (ledger.record step) (valuation.settle bytes ledger step) rest

/-- A value that is ready has a number. -/
theorem Value.exists_eval {value : Value} (ready : value.Ready bytes.length ledger)
    (valuation : Valuation) : ∃ number, value.eval bytes valuation = some number := by
  induction value with
  | const value => exact ⟨value, rfl⟩
  | byte position =>
      have bound := ready.bytes position (by simp [Value.bytes])
      exact ⟨bytes[position].toNat, by simp [Value.eval, bound]⟩
  | cell place => exact ⟨_, rfl⟩
  | output gate => exact ⟨_, rfl⟩
  | add leftValue rightValue leftIH rightIH =>
      obtain ⟨left, leftEval⟩ := leftIH ready.left
      obtain ⟨right, rightEval⟩ := rightIH ready.right
      exact ⟨left + right, by simp [Value.eval, leftEval, rightEval]⟩

/-- Evaluating a step that is ready changes nothing that the ledger has. -/
theorem agree_settle (bytes : List UInt8) {step : Step} (ready : step.Ready window ledger)
    (valuation : Valuation) :
    Agree ledger (valuation.settle bytes ledger step) valuation := by
  constructor
  · intro cell member
    cases step with
    | constrain target value =>
        have different : cell ≠ target := by
          rintro rfl
          exact ready.1 member
        simp [Valuation.settle, different]
    | instantiate | wire | components | states | sums | fault => simp [Valuation.settle]
  · intro gate pin member
    cases step with
    | wire other otherPin value =>
        have different : ¬(gate = other ∧ pin = otherPin) := by
          rintro ⟨rfl, rfl⟩
          exact ready.2.1 member
        simp [Valuation.settle, different]
    | instantiate | constrain | components | states | sums | fault => simp [Valuation.settle]

/-- Evaluating a step that is ready keeps the gates of the ledger right. -/
theorem gatesHold_settle (bytes : List UInt8) (gates : GatesHold ledger valuation)
    {step : Step} (ready : step.Ready window ledger) :
    GatesHold (ledger.record step) (valuation.settle bytes ledger step) := by
  intro gate template known
  cases step with
  | instantiate made other =>
      have pins : (valuation.settle bytes ledger (.instantiate made other)).pins gate =
          valuation.pins gate := by
        funext pin
        simp [Valuation.pins, Valuation.settle]
      rw [pins]
      by_cases equal : gate = made
      · subst equal
        have same : other = template := by simpa [Ledger.record] using known
        simp [Valuation.settle, same]
      · have before := gates gate template (by simpa [Ledger.record, equal] using known)
        simpa [Valuation.settle, equal] using before
  | wire other otherPin value =>
      have before := gates gate template known
      by_cases equal : gate = other
      · subst equal
        have stored : ledger.template gate = some template := known
        simp only [Valuation.settle, stored, Option.map_some, Option.getD_some,
          Function.update_self]
        rfl
      · have pins : (valuation.settle bytes ledger (.wire other otherPin value)).pins gate =
            valuation.pins gate := by
          funext pin
          simp [Valuation.pins, Valuation.settle, equal]
        rw [pins, ← before]
        simp [Valuation.settle, equal]
  | constrain target value =>
      have pins : (valuation.settle bytes ledger (.constrain target value)).pins gate =
          valuation.pins gate := by
        funext pin
        simp [Valuation.pins, Valuation.settle]
      rw [pins, ← gates gate template known]
      simp [Valuation.settle]
  | components | states | sums | fault => exact gates gate template known

theorem GatesHold.of_grows {after : Ledger} (gates : GatesHold after valuation)
    (grows : ledger.Grows after) : GatesHold ledger valuation :=
  fun gate template known => gates gate template (grows.template known)

theorem Agree.of_grows {after : Ledger} (agree : Agree after left right)
    (grows : ledger.Grows after) : Agree ledger left right where
  cells cell member := agree.cells cell (grows.cells member)
  inputs gate pin member := agree.inputs gate pin (grows.wired member)

/-- A step that is ready holds in a valuation if it holds in another that agrees with it
on what the ledger has after the step. -/
theorem Step.holds_of_agree {step : Step} (ready : step.Ready window ledger)
    (leftGates : GatesHold (ledger.record step) left)
    (rightGates : GatesHold (ledger.record step) right)
    (agree : Agree (ledger.record step) left right)
    (holds : step.Holds .standard bytes right) : step.Holds .standard bytes left := by
  have grows := Scheduled.grows_record ready
  have before := agree.of_grows grows
  have outputs : ∀ gate, ledger.Complete gate → left (.output gate) = right (.output gate) :=
    fun gate complete =>
      before.output (leftGates.of_grows grows) (rightGates.of_grows grows) complete
  cases step with
  | instantiate gate template =>
      exact leftGates gate template (by simp [Ledger.record])
  | wire gate pin value =>
      simp only [Step.Holds] at holds ⊢
      rw [agree.inputs gate pin (Set.mem_insert _ _), ← holds]
      exact Value.eval_congr ready.2.2 before.cells outputs
  | constrain target value =>
      simp only [Step.Holds] at holds ⊢
      rw [agree.cells target (Set.mem_insert _ _), ← holds]
      exact Value.eval_congr ready.2 before.cells outputs
  | components | states | sums => trivial
  | fault => exact ready

/-- A step that is ready holds once it is evaluated. -/
theorem holds_settle (gates : GatesHold ledger valuation) {step : Step}
    (ready : step.Ready bytes.length ledger) :
    step.Holds .standard bytes (valuation.settle bytes ledger step) := by
  have settled := gatesHold_settle bytes gates ready
  have grows := Scheduled.grows_record ready
  have agree := agree_settle bytes ready valuation
  have outputs : ∀ gate, ledger.Complete gate →
      valuation.settle bytes ledger step (.output gate) = valuation (.output gate) :=
    fun gate complete => agree.output (settled.of_grows grows) gates complete
  cases step with
  | instantiate gate template => exact settled gate template (by simp [Ledger.record])
  | wire gate pin value =>
      obtain ⟨number, evaluated⟩ := value.exists_eval ready.2.2 valuation
      simp only [Step.Holds]
      rw [Value.eval_congr ready.2.2 agree.cells outputs, evaluated]
      simp [Valuation.settle, evaluated]
  | constrain target value =>
      obtain ⟨number, evaluated⟩ := value.exists_eval ready.2 valuation
      simp only [Step.Holds]
      rw [Value.eval_congr ready.2 agree.cells outputs, evaluated]
      simp [Valuation.settle, evaluated]
  | components | states | sums => trivial
  | fault => exact ready

/-- Evaluating scheduled steps satisfies them and changes nothing that was there before. -/
theorem Scheduled.settleAll (scheduled : Scheduled bytes.length ledger steps)
    (gates : GatesHold ledger valuation) :
    Satisfies .standard bytes steps (valuation.settleAll bytes ledger steps) ∧
      GatesHold (ledger.recordAll steps) (valuation.settleAll bytes ledger steps) ∧
      Agree ledger (valuation.settleAll bytes ledger steps) valuation := by
  induction steps generalizing ledger valuation with
  | nil => exact ⟨satisfies_nil, gates, fun _ _ => rfl, fun _ _ _ => rfl⟩
  | cons step rest ih =>
      obtain ⟨ready, scheduled⟩ := scheduled
      have settled := gatesHold_settle bytes gates ready
      obtain ⟨restHolds, gatesAfter, agree⟩ := ih scheduled settled
      have grows : ledger.Grows (ledger.record step) :=
        Scheduled.grows_record ready
      have before := agree_settle bytes ready valuation
      have after := agree.of_grows grows
      refine ⟨satisfies_cons.2 ⟨?_, restHolds⟩, gatesAfter, ?_, ?_⟩
      · exact Step.holds_of_agree ready (gatesAfter.of_grows scheduled.grows) settled agree
          (holds_settle gates ready)
      · intro cell member
        exact (after.cells cell member).trans (before.cells cell member)
      · intro gate pin member
        exact (after.inputs gate pin member).trans (before.inputs gate pin member)

/-- Evaluating a step that is ready leaves alone what it is no equation of, apart from the
outputs of gates in the ledger. -/
theorem settle_of_not_assigns {step : Step} (ready : step.Ready window ledger) {net : Net}
    (unassigned : ¬Assigns [step] net)
    (unknown : ∀ gate, net = .output gate → ledger.template gate = none) :
    valuation.settle bytes ledger step net = valuation net := by
  cases step with
  | instantiate gate template =>
      have different : net ≠ .output gate := by
        rintro rfl
        exact unassigned ⟨template, by simp⟩
      simp [Valuation.settle, different]
  | wire gate pin value =>
      obtain ⟨⟨template, known, -⟩, -, -⟩ := ready
      have notInput : net ≠ .input gate pin := by
        rintro rfl
        exact unassigned ⟨value, by simp⟩
      have notOutput : net ≠ .output gate := by
        intro equal
        simp [unknown gate equal] at known
      simp [Valuation.settle, notInput, notOutput]
  | constrain target value =>
      have different : net ≠ .cell target := by
        rintro rfl
        exact unassigned ⟨value, by simp⟩
      simp [Valuation.settle, different]
  | components | states | sums | fault => rfl

theorem Assigns.append {net : Net} :
    Assigns (first ++ rest) net ↔ Assigns first net ∨ Assigns rest net := by
  cases net <;> simp [Assigns, exists_or]

theorem Scheduled.settleAll_of_not_assigns (scheduled : Scheduled window ledger steps)
    {net : Net} (unassigned : ¬Assigns steps net)
    (unknown : ∀ gate, net = .output gate → ledger.template gate = none) :
    valuation.settleAll bytes ledger steps net = valuation net := by
  induction steps generalizing ledger valuation with
  | nil => rfl
  | cons step rest ih =>
      obtain ⟨ready, scheduled⟩ := scheduled
      rw [← List.singleton_append, Assigns.append, not_or] at unassigned
      rw [Valuation.settleAll, ih scheduled unassigned.2,
        settle_of_not_assigns ready unassigned.1 unknown]
      rintro gate rfl
      have alone : Scheduled window ledger [step] := ⟨ready, trivial⟩
      rw [Option.eq_none_iff_forall_ne_some]
      intro template known
      rcases alone.template_recordAll.1 known with known | made
      · simp [unknown gate rfl] at known
      · exact unassigned.1 ⟨template, made⟩

/-! ## Exactly one solution -/

/-- Scheduled steps over a ledger without gates have exactly one solution that extends a
given valuation of the other nets. -/
theorem Scheduled.existsUnique (scheduled : Scheduled bytes.length ledger steps)
    (bare : ∀ gate, ledger.template gate = none) (base : Valuation) :
    ∃! valuation, Evaluates .standard bytes steps base valuation := by
  have gates (valuation : Valuation) : GatesHold ledger valuation := by
    intro gate template known
    simp [bare gate] at known
  refine ⟨base.settleAll bytes ledger steps, ⟨(scheduled.settleAll (gates base)).1, ?_⟩, ?_⟩
  · intro net unassigned
    exact scheduled.settleAll_of_not_assigns unassigned fun gate _ => bare gate
  · rintro other ⟨holds, kept⟩
    obtain ⟨settledHolds, -, settledAgree⟩ := scheduled.settleAll (gates base)
    have settledKept (net : Net) (unassigned : ¬Assigns steps net) :
        base.settleAll bytes ledger steps net = base net :=
      scheduled.settleAll_of_not_assigns unassigned fun gate _ => bare gate
    have before : Agree ledger other (base.settleAll bytes ledger steps) := by
      constructor
      · intro cell member
        have unassigned : ¬Assigns steps (.cell cell) := fun assigned =>
          scheduled.nodup_targets.2 cell (mem_targets.2 assigned) member
        rw [kept _ unassigned, settledKept _ unassigned]
      · intro gate pin member
        have unassigned : ¬Assigns steps (.input gate pin) := fun assigned =>
          scheduled.nodup_wired.2 (gate, pin) (mem_wired.2 assigned) member
        rw [kept _ unassigned, settledKept _ unassigned]
    obtain ⟨agree, otherGates, settledGates⟩ :=
      scheduled.agree (gates other) (gates _) holds settledHolds before
    have inputs (gate : Gate) :
        other.pins gate = Valuation.pins (base.settleAll bytes ledger steps) gate := by
      funext pin
      by_cases assigned : Assigns steps (.input gate pin)
      · exact agree.inputs gate pin (Ledger.mem_wired_recordAll.2 (.inr assigned))
      · exact (kept _ assigned).trans (settledKept _ assigned).symm
    funext net
    by_cases assigned : Assigns steps net
    · cases net with
      | cell cell => exact agree.cells cell (Ledger.mem_cells_recordAll.2 (.inr assigned))
      | input gate pin => exact congrFun (inputs gate) pin
      | output gate =>
          obtain ⟨template, made⟩ := assigned
          have known := scheduled.template_recordAll.2 (.inr made)
          rw [otherGates gate template known, settledGates gate template known, inputs]
    · rw [kept net assigned, settledKept net assigned]

end ScanCircuit.Circuit
