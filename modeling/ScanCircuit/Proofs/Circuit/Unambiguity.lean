import ScanCircuit.Proofs.Circuit.Components
import ScanCircuit.Proofs.Circuit.Wording

/-!
# The text of a circuit is unambiguous

The statements of a circuit can be read back from its text.  A line tells which statement it
is, a loop ends at the brace that closes it, and the depth of a line adds nothing to that.
Sums are written without parentheses, so statements are determined up to the grouping of
their sums.

`Program.render_eq_iff_regrouped` says that nothing else is lost.
-/

namespace ScanCircuit.Circuit

/-! ## Grouping of sums -/

/-- Values that differ only in how their sums are grouped. -/
inductive Expr.Regrouped : Expr → Expr → Prop where
  | refl (value : Expr) : Regrouped value value
  | symm {one other : Expr} : Regrouped one other → Regrouped other one
  | trans {one other third : Expr} : Regrouped one other → Regrouped other third →
      Regrouped one third
  | add {left right otherLeft otherRight : Expr} : Regrouped left otherLeft →
      Regrouped right otherRight → Regrouped (.add left right) (.add otherLeft otherRight)
  | assoc (left middle right : Expr) :
      Regrouped (.add (.add left middle) right) (.add left (.add middle right))

mutual

/-- Statements that differ only in how the sums in them are grouped. -/
inductive Stmt.Regrouped : Stmt → Stmt → Prop where
  | refl (stmt : Stmt) : Regrouped stmt stmt
  | wire (component : Component) (pin : Pin) {value other : Expr} : value.Regrouped other →
      Regrouped (.wire component pin value) (.wire component pin other)
  | constrain (target : Signal) {value other : Expr} : value.Regrouped other →
      Regrouped (.constrain target value) (.constrain target other)
  | loop (range : LoopRange) {body others : List Stmt} : Stmt.RegroupedAll body others →
      Regrouped (.loop range body) (.loop range others)

/-- Lists of such statements. -/
inductive Stmt.RegroupedAll : List Stmt → List Stmt → Prop where
  | nil : RegroupedAll [] []
  | cons {stmt other : Stmt} {stmts others : List Stmt} : Stmt.Regrouped stmt other →
      Stmt.RegroupedAll stmts others → RegroupedAll (stmt :: stmts) (other :: others)

end

namespace Expr

theorem terms_ne_nil (value : Expr) : value.terms ≠ [] := by
  induction value with
  | const | byte | signal | output => simp [terms]
  | add left right leftTerms _ => simp [terms, leftTerms]

/-- Terms can be added one after another. -/
theorem regrouped_foldl (base value : Expr) :
    (base.add value).Regrouped (value.terms.foldl .add base) := by
  induction value generalizing base with
  | const | byte | signal | output => exact .refl _
  | add left right leftFolds rightFolds =>
      rw [terms, List.foldl_append]
      have regrouped : (base.add (left.add right)).Regrouped ((base.add left).add right) :=
        (Regrouped.assoc base left right).symm
      exact regrouped.trans (((leftFolds base).add (.refl right)).trans (rightFolds _))

/-- A value is regrouped to its terms, added from the left. -/
theorem regrouped_of_terms {value first : Expr} {others : List Expr}
    (equal : value.terms = first :: others) : value.Regrouped (others.foldl .add first) := by
  induction value generalizing first others with
  | const | byte | signal | output =>
      obtain ⟨rfl, rfl⟩ := List.cons.inj equal
      exact .refl _
  | add left right leftFolds _ =>
      cases leftTerms : left.terms with
      | nil => exact absurd leftTerms left.terms_ne_nil
      | cons leftFirst leftOthers =>
          rw [terms, leftTerms, List.cons_append] at equal
          obtain ⟨rfl, rfl⟩ := List.cons.inj equal
          rw [List.foldl_append]
          exact ((leftFolds leftTerms).add (.refl right)).trans (regrouped_foldl _ right)

/-- Values with the same terms are regrouped to each other. -/
theorem regrouped_of_terms_eq {value other : Expr} (equal : value.terms = other.terms) :
    value.Regrouped other := by
  cases terms : other.terms with
  | nil => exact absurd terms other.terms_ne_nil
  | cons first others =>
      exact (regrouped_of_terms (equal.trans terms)).trans (regrouped_of_terms terms).symm

theorem Regrouped.text_eq {value other : Expr} (regrouped : value.Regrouped other)
    (window : String) : value.text window = other.text window := by
  induction regrouped with
  | refl => rfl
  | symm _ ih => exact ih.symm
  | trans _ _ first second => exact first.trans second
  | add _ _ left right => rw [text, left, right, text]
  | assoc left middle right => simp only [text, String.append_assoc]

end Expr

mutual

/-- Regrouped statements have the same lines. -/
theorem Stmt.Regrouped.lines_eq (config : Config) (depth : Nat) :
    ∀ {stmt other : Stmt}, stmt.Regrouped other →
      stmt.lines config depth = other.lines config depth
  | _, _, .refl _ => rfl
  | _, _, .wire component pin values => by
      rw [Stmt.lines_of_calls rfl, Stmt.lines_of_calls rfl, values.text_eq]
  | _, _, .constrain target values => by
      rw [Stmt.lines_of_calls rfl, Stmt.lines_of_calls rfl, values.text_eq]
  | _, _, .loop range bodies => by
      rw [Stmt.lines_loop, Stmt.lines_loop, Stmt.RegroupedAll.linesAll_eq config (depth + 1) bodies]

theorem Stmt.RegroupedAll.linesAll_eq (config : Config) (depth : Nat) :
    ∀ {stmts others : List Stmt}, Stmt.RegroupedAll stmts others →
      Stmt.linesAll config depth stmts = Stmt.linesAll config depth others
  | _, _, .nil => rfl
  | _, _, .cons first rest => by
      rw [Stmt.linesAll_cons, Stmt.linesAll_cons, Stmt.Regrouped.lines_eq config depth first,
        Stmt.RegroupedAll.linesAll_eq config depth rest]

end

/-! ## First lines -/

/-- Only the body of a template is written, without comments and with blank margins, and the
window has a name of its own. -/
structure Config.Legible (config : Config) : Prop where
  body : config.template = none
  bare : config.annotate = false
  margin : ∀ char ∈ config.indent.toList, char = ' ' ∨ char = '\t'
  window : isName config.window
  notVariable : config.window ≠ "i"

namespace Stmt

variable {config : Config} {depth : Nat}

/-- The text of the first line of a statement. -/
def heading (config : Config) (stmt : Stmt) : String :=
  ((stmt.calls config).head?.map Call.text).getD ""

/-- The texts of the other lines. -/
def inner (config : Config) (depth : Nat) : Stmt → List String
  | .loop _ body => (Stmt.linesAll config (depth + 1) body).map Line.text ++ [closing]
  | _ => []

/-- The sorts of lines: those that begin with a keyword, with a signal or with a component,
and those without words. -/
inductive LineSort where
  | component
  | signal
  | loop
  | constrained
  | connected
  | empty
  | brace

/-- The sort of a line, by its first characters. -/
def sortOf : List Char → LineSort
  | 'c' :: _ => .component
  | 's' :: 'i' :: _ => .signal
  | 'f' :: 'o' :: _ => .loop
  | 's' :: 't' :: _ | 'f' :: 'i' :: _ | 'o' :: _ => .constrained
  | 'e' :: _ | 'l' :: _ | 'a' :: _ | 'm' :: _ => .connected
  | [] => .empty
  | _ => .brace

/-- The sort of the first line of a statement. -/
def sort : Stmt → LineSort
  | .declareComponents .. => .component
  | .declareStates _ | .declareSum => .signal
  | .loop .. => .loop
  | .constrain .. => .constrained
  | .instantiate .. | .wire .. => .connected
  | .comment _ | .blank => .empty

theorem sortOf_heading (bare : config.annotate = false) (stmt : Stmt) :
    sortOf (stmt.heading config).toList = stmt.sort := by
  cases stmt with
  | declareComponents | declareStates | declareSum => simp [heading, calls, Call.text, sort, sortOf]
  | loop =>
      simp only [heading, calls, Call.text, opening, List.head?_cons, Option.map_some,
        Option.getD_some]
      unfold LoopRange.text
      simp [sort, sortOf]
  | instantiate component | wire component =>
      obtain ⟨kind, index⟩ := component
      cases kind <;> simp [heading, calls, Call.text, sort, sortOf, flow, Component.text, Kind.array]
  | constrain target =>
      cases target <;> simp [heading, calls, Call.text, sort, sortOf, flow, Signal.text]
  | comment => simp [heading, calls, sort, sortOf, bare]
  | blank => simp [heading, calls, Call.text, sort, sortOf]

theorem texts_eq_cons {stmt : Stmt} (written : ∀ text, stmt ≠ .comment text) :
    (stmt.lines config depth).map Line.text = stmt.heading config :: stmt.inner config depth := by
  cases stmt with
  | comment text => exact absurd rfl (written text)
  | loop range body => simp [lines_loop, heading, calls, Call.text, inner]
  | declareComponents | declareStates | declareSum | instantiate | wire | constrain | blank =>
      simp [lines, calls, heading, Call.text, inner]

/-- Statements with the same first line. -/
inductive Alike : Stmt → Stmt → Prop where
  | refl (stmt : Stmt) : Alike stmt stmt
  | loop (range : LoopRange) (body others : List Stmt) :
      Alike (.loop range body) (.loop range others)
  | wire (component : Component) (pin : Pin) {value other : Expr} : value.Regrouped other →
      Alike (.wire component pin value) (.wire component pin other)
  | constrain (target : Signal) {value other : Expr} : value.Regrouped other →
      Alike (.constrain target value) (.constrain target other)

theorem heading_inj (legible : config.Legible) {one other : Stmt}
    (written : ∀ text, one ≠ .comment text) (otherWritten : ∀ text, other ≠ .comment text)
    (same : one.heading config = other.heading config) : Alike one other := by
  have sorts : one.sort = other.sort := by
    rw [← sortOf_heading legible.bare one, same, sortOf_heading legible.bare other]
  have chars := congrArg String.toList same
  cases one <;> cases other <;> cases sorts <;>
    simp only [heading, calls, Call.text, opening, flow, List.head?_cons, Option.map_some,
      Option.getD_some, String.toList_append, List.append_assoc] at chars
  case comment.comment text _ | comment.blank text => exact absurd rfl (written text)
  case blank.comment text => exact absurd rfl (otherWritten text)
  case blank.blank => exact .refl _
  case declareComponents.declareComponents =>
    obtain ⟨rfl, counted⟩ := Kind.distinct_array (stops_subscript _ _) (stops_subscript _ _)
      (List.append_cancel_left chars)
    obtain ⟨rfl, -⟩ := subscript_repr_inj counted
    exact .refl _
  case declareStates.declareStates =>
    obtain ⟨rfl, -⟩ :=
      subscript_repr_inj (List.append_cancel_left (List.append_cancel_left chars))
    exact .refl _
  case declareStates.declareSum | declareSum.declareStates => simp at chars
  case declareSum.declareSum => exact .refl _
  case loop.loop =>
    obtain ⟨rfl, -⟩ := LoopRange.distinct_text legible.window rfl rfl chars
    exact .loop ..
  case instantiate.instantiate =>
    obtain ⟨rfl, made⟩ := Component.distinct_text rfl rfl chars
    obtain ⟨rfl, -⟩ := Template.distinct_text rfl rfl (List.append_cancel_left made)
    exact .refl _
  case instantiate.wire | wire.instantiate =>
    obtain ⟨rfl, differ⟩ := Component.distinct_text rfl rfl chars
    simp at differ
  case wire.wire =>
    obtain ⟨rfl, wired⟩ := Component.distinct_text rfl rfl chars
    obtain ⟨rfl, valued⟩ := Pin.distinct_text rfl rfl (List.append_cancel_left wired)
    have terms := Expr.terms_eq_of_text legible.window legible.notVariable
      (List.append_cancel_left valued)
    exact .wire _ _ (Expr.regrouped_of_terms_eq terms)
  case constrain.constrain =>
    obtain ⟨rfl, valued⟩ :=
      Signal.distinct_text legible.window legible.notVariable rfl rfl chars
    have terms := Expr.terms_eq_of_text legible.window legible.notVariable
      (List.append_cancel_left valued)
    exact .constrain _ (Expr.regrouped_of_terms_eq terms)

theorem heading_ne_closing (bare : config.annotate = false) (stmt : Stmt) :
    stmt.heading config ≠ closing := by
  intro same
  have sorts := sortOf_heading bare stmt
  rw [same] at sorts
  cases stmt <;> cases sorts

/-! ## Statements -/

/-- No comment is left anywhere in a statement. -/
def Uncommented (stmt : Stmt) : Prop :=
  ∀ text, .comment text ∉ stmt.leaves

/-- No comment is left anywhere in several statements. -/
def UncommentedAll (stmts : List Stmt) : Prop :=
  ∀ text, .comment text ∉ leavesAll stmts

theorem Uncommented.written {stmt : Stmt} (uncommented : stmt.Uncommented) (text : String) :
    stmt ≠ .comment text := by
  rintro rfl
  exact uncommented text (by simp [leaves])

theorem uncommentedAll_cons {stmt : Stmt} {stmts : List Stmt} :
    UncommentedAll (stmt :: stmts) ↔ stmt.Uncommented ∧ UncommentedAll stmts := by
  simp [UncommentedAll, Uncommented, leavesAll, forall_and]

/-- Nothing follows, or the end of a block. -/
def Closes (rest : List String) : Prop :=
  ∀ text ∈ rest.head?, text = closing

/-- A statement is read back, up to grouping, from lines that begin with its own. -/
def ReadBack (config : Config) (stmt : Stmt) : Prop :=
  ∀ ⦃depth : Nat⦄ ⦃other : Stmt⦄ ⦃rest tail : List String⦄, stmt.Uncommented →
    other.Uncommented →
    (stmt.lines config depth).map Line.text ++ rest =
      (other.lines config depth).map Line.text ++ tail →
    stmt.Regrouped other ∧ rest = tail

/-- Statements are read back, up to grouping, from their lines up to the end of their block. -/
def ReadBackAll (config : Config) (stmts : List Stmt) : Prop :=
  ∀ ⦃depth : Nat⦄ ⦃others : List Stmt⦄ ⦃rest tail : List String⦄, UncommentedAll stmts →
    UncommentedAll others → Closes rest → Closes tail →
    (linesAll config depth stmts).map Line.text ++ rest =
      (linesAll config depth others).map Line.text ++ tail →
    RegroupedAll stmts others ∧ rest = tail

/-- The first lines of statements tell how far they are alike. -/
theorem alike_of_texts (legible : config.Legible) {one other : Stmt} {rest tail : List String}
    (uncommented : one.Uncommented) (otherUncommented : other.Uncommented)
    (same : (one.lines config depth).map Line.text ++ rest =
      (other.lines config depth).map Line.text ++ tail) :
    Alike one other ∧
      one.inner config depth ++ rest = other.inner config depth ++ tail := by
  rw [texts_eq_cons uncommented.written, texts_eq_cons otherUncommented.written] at same
  obtain ⟨headings, inners⟩ := List.cons.inj same
  exact ⟨heading_inj legible uncommented.written otherUncommented.written headings, inners⟩

theorem readBack_of_notLoop (legible : config.Legible) {stmt : Stmt}
    (notLoop : ∀ range body, stmt ≠ .loop range body) : stmt.ReadBack config := by
  intro depth other rest tail uncommented otherUncommented same
  obtain ⟨alike, inners⟩ := alike_of_texts legible uncommented otherUncommented same
  cases alike with
  | refl => exact ⟨.refl stmt, List.append_cancel_left inners⟩
  | loop range body => exact absurd rfl (notLoop range body)
  | wire component pin values => exact ⟨.wire component pin values, inners⟩
  | constrain target values => exact ⟨.constrain target values, inners⟩

theorem readBack_loop (legible : config.Legible) (range : LoopRange) {body : List Stmt}
    (bodyReadBack : ReadBackAll config body) : (loop range body).ReadBack config := by
  intro depth other rest tail uncommented otherUncommented same
  obtain ⟨alike, inners⟩ := alike_of_texts legible uncommented otherUncommented same
  cases alike with
  | refl => exact ⟨.refl _, List.append_cancel_left inners⟩
  | loop _ _ others =>
      have closes (rest : List String) : Closes (closing :: rest) := by simp [Closes]
      rw [inner, inner, List.append_assoc, List.append_assoc] at inners
      obtain ⟨bodies, rests⟩ :=
        bodyReadBack uncommented otherUncommented (closes rest) (closes tail) inners
      exact ⟨.loop range bodies, (List.cons.inj rests).2⟩

/-- The lines of a statement do not begin like the end of a block. -/
theorem Closes.ne_texts {rest : List String} (closes : Closes rest)
    (bare : config.annotate = false) {stmt : Stmt} (uncommented : stmt.Uncommented)
    (tail : List String) : rest ≠ (stmt.lines config depth).map Line.text ++ tail := by
  rw [texts_eq_cons uncommented.written]
  rintro rfl
  exact heading_ne_closing bare stmt (closes _ rfl)

theorem readBackAll_nil (legible : config.Legible) : ReadBackAll config [] := by
  intro depth others rest tail _ uncommented closes _ same
  cases others with
  | nil => exact ⟨.nil, same⟩
  | cons other others =>
      rw [linesAll_nil, linesAll_cons, List.map_append, List.append_assoc] at same
      exact absurd same (closes.ne_texts legible.bare (uncommentedAll_cons.1 uncommented).1 _)

theorem readBackAll_cons (legible : config.Legible) {stmt : Stmt} {stmts : List Stmt}
    (first : stmt.ReadBack config) (remaining : ReadBackAll config stmts) :
    ReadBackAll config (stmt :: stmts) := by
  intro depth others rest tail uncommented othersUncommented closes tailCloses same
  rw [uncommentedAll_cons] at uncommented
  rw [linesAll_cons, List.map_append, List.append_assoc] at same
  cases others with
  | nil => exact absurd same.symm (tailCloses.ne_texts legible.bare uncommented.1 _)
  | cons other others =>
      rw [uncommentedAll_cons] at othersUncommented
      rw [linesAll_cons, List.map_append, List.append_assoc] at same
      obtain ⟨regrouped, texts⟩ := first uncommented.1 othersUncommented.1 same
      obtain ⟨regroupedAll, rests⟩ :=
        remaining uncommented.2 othersUncommented.2 closes tailCloses texts
      exact ⟨.cons regrouped regroupedAll, rests⟩

mutual

theorem readBack (legible : config.Legible) : ∀ stmt : Stmt, stmt.ReadBack config
  | .loop range body => readBack_loop legible range (readBackAll legible body)
  | .declareComponents .. | .declareStates _ | .declareSum | .instantiate .. | .wire ..
  | .constrain .. | .comment _ | .blank => readBack_of_notLoop legible nofun

theorem readBackAll (legible : config.Legible) : ∀ stmts : List Stmt, ReadBackAll config stmts
  | [] => readBackAll_nil legible
  | stmt :: stmts => readBackAll_cons legible (readBack legible stmt) (readBackAll legible stmts)

end

end Stmt

/-! ## Programs -/

/-- A program without comments, at any depth, that does not end in a blank line. -/
structure Program.Legible (program : Program) : Prop where
  uncommented : ∀ text, .comment text ∉ program.leaves
  notBlank : program.statements.getLast? ≠ some .blank

theorem Program.Legible.ended {program : Program} (legible : program.Legible) :
    program.Ended := by
  intro last member
  constructor
  · rintro rfl
    exact legible.notBlank member
  · rintro text rfl
    obtain ⟨before, equal⟩ := List.getLast?_eq_some_iff.1 member
    apply legible.uncommented text
    rw [Program.leaves, equal, Stmt.leavesAll_append]
    simp [Stmt.leavesAll, Stmt.leaves]

/-- Two programs have the same text exactly when their statements differ in nothing but the
grouping of sums. -/
theorem Program.render_eq_iff_regrouped {config : Config} (configLegible : config.Legible)
    {first second : Program} (firstLegible : first.Legible) (secondLegible : second.Legible) :
    first.render config = second.render config ↔
      Stmt.RegroupedAll first.statements second.statements := by
  constructor
  · intro same
    have unbroken : '\n' ∉ config.window.toList := by
      intro member
      exact absurd (isWordChar_of_isName configLegible.window _ member) (by decide)
    have blank : ∀ char ∈ config.indent.toList, Text.isBlank char ∧ char ≠ '\n' := by
      intro char member
      rcases configLegible.margin char member with rfl | rfl <;> decide
    have texts := Program.texts_eq_of_render configLegible.body configLegible.bare unbroken blank
      firstLegible.ended secondLegible.ended same
    have closes : Stmt.Closes [] := nofun
    exact (Stmt.readBackAll configLegible first.statements firstLegible.uncommented
      secondLegible.uncommented closes closes (congrArg (· ++ []) texts)).1
  · intro regrouped
    rw [Program.render, Program.render, Program.chars, Program.chars,
      first.lines_of_body configLegible.body, second.lines_of_body configLegible.body,
      regrouped.linesAll_eq]

/-- A loop that constrains the running sum to a value, after an empty line. -/
def sumLoop (value : Expr) : Program where
  accept := [.loop (.windowInclusive 1) [.blank, .constrain (.sum .current) value]]

theorem sumLoop_legible (value : Expr) : (sumLoop value).Legible where
  uncommented := by simp [Program.leaves, Program.statements, sumLoop, Stmt.leavesAll, Stmt.leaves]
  notBlank := by simp [Program.statements, sumLoop]

theorem Program.render_eq_iff_regrouped_sumLoop :
    let left := sumLoop (.add (.add (.signal (.sum .previous)) .byte) (.const 1))
    let right := sumLoop (.add (.signal (.sum .previous)) (.add .byte (.const 1)))
    left.render {} = right.render {} ∧
      Stmt.RegroupedAll left.statements right.statements := by
  intro left right
  have legible : ({} : Config).Legible :=
    { body := rfl, bare := rfl, margin := by simp, window := rfl, notVariable := by decide }
  have same : left.render {} = right.render {} := rfl
  have legibleLeft : left.Legible := sumLoop_legible _
  have legibleRight : right.Legible := sumLoop_legible _
  exact ⟨same, (Program.render_eq_iff_regrouped legible legibleLeft legibleRight).1 same⟩

end ScanCircuit.Circuit
