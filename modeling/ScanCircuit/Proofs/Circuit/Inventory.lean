import Mathlib.Data.List.Count
import ScanCircuit.Proofs.Planning
import ScanCircuit.Proofs.Circuit.Drafting

/-!
# The components of a draft

A draft numbers the components of each kind one after the other, instantiates each of
them with a template of its kind, and reads the output of every component once, unless it
returns the component for a later statement to read.

`Accounts` states this for a list of statements.  It holds of single statements, and of
two lists in a row if it holds of both; what the first one returns and the second one
takes is then cancelled.
-/

namespace ScanCircuit.Circuit

/-- The templates of each kind of component. -/
def Kind.Fits : Kind → Template → Prop
  | .eq, .isEqual => True
  | .lt, .lessThan bits => bits = 8
  | .and, .and => True
  | .multiOr, .multiOr width => 2 ≤ width
  | _, _ => False

/-- A comparison is of kind `lt` and has eight bits. -/
theorem Kind.fits_lessThan {kind : Kind} {bits : Nat} (fits : kind.Fits (.lessThan bits)) :
    kind = .lt ∧ bits = 8 := by
  cases kind with
  | lt => exact ⟨rfl, fits⟩
  | eq | and | multiOr => exact fits.elim

/-- The components whose outputs an expression reads. -/
def Expr.components : Expr → List Component
  | .output component => [component]
  | .add left right => left.components ++ right.components
  | .const _ | .byte | .signal _ => []

/-- An expression that is known to be below 256. -/
def Expr.FitsByte : Expr → Prop
  | .const value => value < 256
  | .byte => True
  | .signal _ | .output _ | .add .. => False

namespace Stmt

/-- The component that a statement instantiates. -/
def instance? : Stmt → Option Component
  | .instantiate component _ => some component
  | _ => none

/-- The input that a statement wires. -/
def wired? : Stmt → Option (Component × Pin)
  | .wire component pin _ => some (component, pin)
  | _ => none

/-- The components whose outputs a statement reads. -/
def reads : Stmt → List Component
  | .wire _ _ value | .constrain _ value => value.components
  | _ => []

/-- A statement that a draft may write: templates fit their kinds, and comparisons are of
bytes. -/
def Plain : Stmt → Prop
  | .comment _ | .constrain .. => True
  | .instantiate component template => component.kind.Fits template
  | .wire component _ value => component.kind = .lt → value.FitsByte
  | .declareComponents .. | .declareStates _ | .declareSum | .loop .. | .blank => False

end Stmt

/-- Statements number new components from the counts before to the counts after, take
components whose outputs are still to be read, and return others. -/
structure Accounts (before : Counts) (taken : List Component) (body : List Stmt)
    (after : Counts) (returned : List Component) : Prop where
  plain : ∀ stmt ∈ body, stmt.Plain
  numbered : ∀ kind, ∃ made, after.get kind = before.get kind + made ∧
    (body.filterMap Stmt.instance?).filter (fun component => component.kind = kind) =
      (List.range' (before.get kind) made).map (Component.mk kind)
  /-- What is taken or made is read once or returned. -/
  balanced : ∀ component,
    (body.flatMap Stmt.reads).count component + returned.count component =
      taken.count component + (body.filterMap Stmt.instance?).count component

namespace Accounts

variable {before middle after : Counts} {taken otherTaken returned otherReturned : List Component}
variable {body rest : List Stmt}

theorem nil (counts : Counts) (components : List Component) :
    Accounts counts components [] counts components where
  plain := by simp
  numbered _ := ⟨0, rfl, rfl⟩
  balanced := by simp

/-- Statements in a row take and return what each of them does. -/
theorem append (first : Accounts before taken body middle returned)
    (second : Accounts middle otherTaken rest after otherReturned) :
    Accounts before (taken ++ otherTaken) (body ++ rest) after (returned ++ otherReturned) where
  plain stmt member := (List.mem_append.1 member).elim (first.plain stmt) (second.plain stmt)
  numbered kind := by
    obtain ⟨made, firstCounts, firstMade⟩ := first.numbered kind
    obtain ⟨more, secondCounts, secondMade⟩ := second.numbered kind
    refine ⟨made + more, by omega, ?_⟩
    rw [List.filterMap_append, List.filter_append, firstMade, secondMade, firstCounts,
      ← List.map_append, List.range'_append_1]
  balanced component := by
    have firstBalance := first.balanced component
    have secondBalance := second.balanced component
    simp only [List.flatMap_append, List.filterMap_append, List.count_append]
    omega

/-- What is both taken and returned may be left out or added. -/
theorem rebalance (accounts : Accounts before taken body after returned)
    (same : ∀ component, returned.count component + otherTaken.count component =
      taken.count component + otherReturned.count component) :
    Accounts before otherTaken body after otherReturned where
  plain := accounts.plain
  numbered := accounts.numbered
  balanced component := by
    have balance := accounts.balanced component
    have same := same component
    omega

/-- A statement that instantiates nothing takes what it reads. -/
theorem single (counts : Counts) (stmt : Stmt) (plain : stmt.Plain)
    (none : stmt.instance? = none) : Accounts counts stmt.reads [stmt] counts [] where
  plain := by simpa using plain
  numbered _ := ⟨0, rfl, by simp [none]⟩
  balanced := by simp [none]

theorem comment (counts : Counts) (text : String) :
    Accounts counts [] [.comment text] counts [] :=
  single counts (.comment text) trivial rfl

theorem wire (counts : Counts) (component : Component) (pin : Pin) (value : Expr)
    (fits : component.kind = .lt → value.FitsByte) :
    Accounts counts value.components [.wire component pin value] counts [] :=
  single counts (.wire component pin value) fits rfl

theorem constrain (counts : Counts) (target : Signal) (value : Expr) :
    Accounts counts value.components [.constrain target value] counts [] :=
  single counts (.constrain target value) trivial rfl

/-- The next component of a kind is returned by the statement that instantiates it. -/
theorem instantiate (counts : Counts) (kind : Kind) (template : Template)
    (fits : kind.Fits template) :
    Accounts counts [] [.instantiate ⟨kind, counts.get kind⟩ template] (counts.bump kind)
      [⟨kind, counts.get kind⟩] where
  plain := by simpa [Stmt.Plain] using fits
  numbered other := by
    refine ⟨if other = kind then 1 else 0, Counts.get_bump .., ?_⟩
    by_cases same : kind = other
    · subst same
      simp [Stmt.instance?]
    · simp [Stmt.instance?, same, Ne.symm same]
  balanced := by simp [Stmt.reads, Stmt.instance?]

/-- A component with two inputs takes what flows into them. -/
theorem binary (counts : Counts) (kind : Kind) (template : Template) (fits : kind.Fits template)
    (firstPin : Pin) (first : Expr) (secondPin : Pin) (second : Expr)
    (firstFits : kind = .lt → first.FitsByte) (secondFits : kind = .lt → second.FitsByte) :
    let component : Component := ⟨kind, counts.get kind⟩
    Accounts counts (first.components ++ second.components)
      [.instantiate component template, .wire component firstPin first,
        .wire component secondPin second]
      (counts.bump kind) [component] := by
  intro component
  exact (instantiate counts kind template fits).append
    ((wire _ component firstPin first firstFits).append
      (wire _ component secondPin second secondFits))

/-- Starting from no components, exactly those below the counts are made, each once. -/
theorem made (accounts : Accounts {} taken body after returned) :
    (∀ kind, (body.filterMap Stmt.instance?).filter (fun component => component.kind = kind) =
        (List.range (after.get kind)).map (Component.mk kind)) ∧
      ∀ component, (body.filterMap Stmt.instance?).count component =
        if component.index < after.get component.kind then 1 else 0 := by
  have ordered (kind : Kind) :
      (body.filterMap Stmt.instance?).filter (fun component => component.kind = kind) =
        (List.range (after.get kind)).map (Component.mk kind) := by
    have start : Counts.get {} kind = 0 := by cases kind <;> rfl
    obtain ⟨made, total, numbered⟩ := accounts.numbered kind
    rw [start, Nat.zero_add] at total
    rw [numbered, start, total, List.range_eq_range']
  refine ⟨ordered, ?_⟩
  rintro ⟨kind, index⟩
  have nodup : ((List.range (after.get kind)).map (Component.mk kind)).Nodup :=
    List.nodup_range.map fun left right equal => (Component.mk.inj equal).2
  have selected : decide ((Component.mk kind index).kind = kind) = true := by simp
  rw [← List.count_filter (p := fun component => decide (component.kind = kind)) selected,
    ordered, nodup.count]
  refine if_congr ?_ rfl rfl
  simp

end Accounts

/-! ## What drafts account for -/

/-- A draft returns the components that it made and did not read. -/
theorem draftEqual_accounts (code : UInt8) (counts : Counts) :
    let drafted := draftEqual code counts
    Accounts counts [] drafted.body drafted.counts [drafted.result] :=
  (Accounts.comment counts (shownByte code)).append
    (.binary counts .eq .isEqual trivial (.input 0) .byte (.input 1) (.const code.toNat)
      nofun nofun)

theorem draftRange_accounts (charClass : CharClass) (counts : Counts) :
    let drafted := draftRange charClass counts
    Accounts counts [] drafted.body drafted.counts [drafted.result] := by
  have above := Accounts.binary counts .lt (.lessThan 8) rfl
    (.input 0) (.const charClass.lower) (.input 1) .byte
    (fun _ => charClass.bounds_lt.1) (fun _ => trivial)
  have below := Accounts.binary (counts.bump .lt) .lt (.lessThan 8) rfl
    (.input 0) .byte (.input 1) (.const charClass.upper)
    (fun _ => trivial) (fun _ => charClass.bounds_lt.2)
  have both := Accounts.binary ((counts.bump .lt).bump .lt) .and .and trivial
    .a (.output ⟨.lt, counts.get .lt⟩) .b (.output ⟨.lt, (counts.bump .lt).get .lt⟩) nofun nofun
  have accounts :=
    (Accounts.comment counts charClass.label).append (above.append (below.append both))
  have result : (draftRange charClass counts).result =
      ⟨.and, ((counts.bump .lt).bump .lt).get .and⟩ := rfl
  apply accounts.rebalance
  intro component
  simp only [result, Expr.components, List.count_append, List.count_nil]
  omega

theorem draftCheck_accounts (check : Check) (counts : Counts) :
    let drafted := draftCheck check counts
    Accounts counts [] drafted.body drafted.counts [drafted.result] := by
  cases check with
  | range charClass => exact draftRange_accounts charClass counts
  | equal code => exact draftEqual_accounts code counts

/-- Drafting several checks returns a component for each of them. -/
theorem draftChecks_accounts (checks : List Check) (counts : Counts) :
    let drafted := draftChecks checks counts
    Accounts counts [] drafted.body drafted.counts drafted.result ∧
      drafted.result.length = checks.length := by
  induction checks generalizing counts with
  | nil => exact ⟨.nil counts [], rfl⟩
  | cons check rest ih =>
      have first := draftCheck_accounts check counts
      obtain ⟨others, length⟩ := ih (draftCheck check counts).counts
      rw [draftChecks_cons]
      exact ⟨first.append others, congrArg (· + 1) length⟩

theorem wireInputs_accounts (index start : Nat) (terms : List Component) (counts : Counts) :
    let component : Component := ⟨.multiOr, index⟩
    Accounts counts terms
      ((terms.zipIdx start).map fun term => .wire component (.input term.2) (.output term.1))
      counts [] := by
  induction terms generalizing start with
  | nil => exact .nil counts []
  | cons term rest ih =>
      exact (Accounts.wire counts ⟨.multiOr, index⟩ (.input start) (.output term) nofun).append
        (ih (start + 1))

/-- Unless there are no outputs, one component says whether one of them is set. -/
theorem draftAny_accounts {terms : List Component} (some : terms ≠ []) (counts : Counts) :
    let drafted := draftAny terms counts
    ∃ component, drafted.result = .output component ∧
      Accounts counts terms drafted.body drafted.counts [component] := by
  by_cases single : terms.length = 1
  · obtain ⟨term, rfl⟩ := List.length_eq_one_iff.1 single
    exact ⟨term, rfl, .nil counts [term]⟩
  · have positive := List.length_pos_iff.2 some
    have several : 2 ≤ terms.length := by omega
    rw [draftAny_eq terms single]
    exact ⟨_, rfl, (Accounts.instantiate counts .multiOr (.multiOr terms.length) several).append
      (wireInputs_accounts _ 0 terms _)⟩

theorem draftEdge_accounts {edge : PlannedEdge} (some : edge.checks ≠ []) (counts : Counts) :
    let drafted := draftEdge edge counts
    Accounts counts [] drafted.body drafted.counts [drafted.result] := by
  rw [draftEdge_eq]
  obtain ⟨checks, length⟩ := draftChecks_accounts edge.checks counts
  generalize draftChecks edge.checks counts = checked at checks length ⊢
  have terms : checked.result ≠ [] := by
    intro empty
    rw [empty] at length
    exact some (List.length_eq_zero_iff.1 length.symm)
  obtain ⟨condition, equal, any⟩ := draftAny_accounts terms (checked.counts.bump .and)
  have gate := Accounts.instantiate checked.counts .and .and trivial
  have source := Accounts.wire (checked.counts.bump .and) ⟨.and, checked.counts.get .and⟩ .a
    (.state .current edge.source) nofun
  have close := Accounts.wire (draftAny checked.result (checked.counts.bump .and)).counts
    ⟨.and, checked.counts.get .and⟩ .b (.output condition) nofun
  rw [← equal] at close
  have accounts := checks.append ((gate.append source).append (any.append close))
  apply accounts.rebalance
  intro component
  simp only [equal, Expr.components, Expr.state, List.count_append, List.count_nil, Counts.get]
  omega

theorem draftEdges_accounts {edges : List PlannedEdge}
    (some : ∀ edge ∈ edges, edge.checks ≠ []) (counts : Counts) :
    let drafted := draftEdges edges counts
    Accounts counts [] drafted.body drafted.counts drafted.result ∧
      drafted.result.length = edges.length := by
  induction edges generalizing counts with
  | nil => exact ⟨.nil counts [], rfl⟩
  | cons edge rest ih =>
      have first := draftEdge_accounts (some edge (by simp)) counts
      obtain ⟨others, length⟩ :=
        ih (fun other member => some other (by simp [member])) (draftEdge edge counts).counts
      rw [draftEdges_cons]
      exact ⟨first.append others, congrArg (· + 1) length⟩

theorem draftNode_accounts (node : Nat) {edges : List PlannedEdge}
    (some : ∀ edge ∈ edges, edge.checks ≠ []) (counts : Counts) :
    let drafted := draftNode node edges counts
    Accounts counts [] drafted.body drafted.counts [] := by
  cases edges with
  | nil => exact .constrain counts (.state .next (.node node)) (.const 0)
  | cons edge rest =>
      rw [draftNode_cons]
      obtain ⟨drafted, length⟩ := draftEdges_accounts some counts
      generalize draftEdges (edge :: rest) counts = gates at drafted length ⊢
      have terms : gates.result ≠ [] := by
        intro empty
        simp [empty] at length
      obtain ⟨active, equal, any⟩ := draftAny_accounts terms gates.counts
      have last := Accounts.constrain (draftAny gates.result gates.counts).counts
        (.state .next (.node node)) (.output active)
      rw [← equal] at last
      apply (drafted.append (any.append last)).rebalance
      intro component
      simp only [equal, Expr.components, List.count_append, List.count_nil]
      omega

/-- Drafting nodes reads the output of every component that it makes. -/
theorem draftNodes_accounts {nodes : List (Nat × List PlannedEdge)}
    (some : ∀ node ∈ nodes, ∀ edge ∈ node.2, edge.checks ≠ []) (counts : Counts) :
    let drafted := draftNodes nodes counts
    Accounts counts [] drafted.body drafted.counts [] := by
  induction nodes generalizing counts with
  | nil => exact .nil counts []
  | cons node rest ih =>
      have first := draftNode_accounts node.1 (some node (by simp)) counts
      exact first.append (ih (fun other member => some other (by simp [member])) _)

/-! ## The steps of plain statements -/

/-- A step of plain statements instantiates or wires the gate of a component as one of the
statements does, constrains a cell, or is a fault. -/
theorem mem_stepsAt {window position : Nat} {body : List Stmt}
    (plain : ∀ stmt ∈ body, stmt.Plain) {step : Step}
    (member : step ∈ stepsAt window position body) :
    (∃ component template, step = .instantiate ⟨component, position⟩ template ∧
        .instantiate component template ∈ body) ∨
      (∃ component pin expr value, step = .wire ⟨component, position⟩ pin value ∧
        .wire component pin expr ∈ body ∧ expr.resolve window (some position) = some value) ∨
      (∃ target value, step = .constrain target value) ∨ step = .fault := by
  rw [stepsAt, Stmt.expandAll_eq_flatMap, List.mem_flatMap] at member
  obtain ⟨stmt, listed, expanded⟩ := member
  have allowed := plain stmt listed
  cases stmt with
  | comment => cases expanded
  | instantiate component template =>
      exact .inl ⟨component, template, List.mem_singleton.1 expanded, listed⟩
  | wire component pin expr =>
      have equal := List.mem_singleton.1 expanded
      cases resolved : expr.resolve window (some position) with
      | none =>
          right; right; right
          simpa [resolved] using equal
      | some value =>
          right; left
          exact ⟨component, pin, expr, value, by simpa [resolved] using equal, listed, resolved⟩
  | constrain target expr =>
      have equal := List.mem_singleton.1 expanded
      right; right
      cases place : target.resolve window (some position) with
      | none =>
          right
          simpa [place] using equal
      | some target =>
          cases resolved : expr.resolve window (some position) with
          | none =>
              right
              simpa [place, resolved] using equal
          | some value =>
              left
              exact ⟨target, value, by simpa [place, resolved] using equal⟩
  | declareComponents | declareStates | declareSum | loop | blank => exact allowed.elim

/-- A gate that plain statements instantiate is at the position and belongs to a component
that one of them instantiates. -/
theorem instantiate_mem_stepsAt {window position : Nat} {body : List Stmt}
    (plain : ∀ stmt ∈ body, stmt.Plain) {gate : Gate} {template : Template} :
    .instantiate gate template ∈ stepsAt window position body ↔
      gate.position = position ∧ .instantiate gate.component template ∈ body := by
  constructor
  · intro member
    rcases mem_stepsAt plain member with ⟨component, _, equal, listed⟩ | ⟨_, _, _, _, equal, -⟩ |
      ⟨_, _, equal⟩ | equal
    · cases equal
      exact ⟨rfl, listed⟩
    · cases equal
    · cases equal
    · cases equal
  · rintro ⟨rfl, member⟩
    rw [stepsAt, Stmt.expandAll_eq_flatMap, List.mem_flatMap]
    exact ⟨_, member, List.mem_singleton.2 rfl⟩

end ScanCircuit.Circuit
