import Mathlib.Logic.Function.Defs
import ScanCircuit.Proofs.Circuit.Lines

/-!
# Telling parts of a circuit apart

The parts of a statement are written in words and marks.  A word ends where no character of a
word follows, so the text of a part can be told from that of every other part and from
whatever follows it.  Sums are the exception: only their terms can be told apart.
-/

namespace ScanCircuit.Circuit

/-! ## Words -/

/-- A character of a name or a number. -/
def isWordChar (char : Char) : Bool :=
  char.isAlphanum || char = '_'

/-- A name: word characters, of which the first is not a digit. -/
def isName (name : String) : Bool :=
  match name.toList with
  | [] => false
  | first :: rest => (first.isAlpha || first = '_') && rest.all isWordChar

/-- No word goes on in these characters. -/
def stops : List Char → Bool
  | [] => true
  | char :: _ => !isWordChar char

/-- The texts of a family can be told from each other and from what follows them. -/
def Distinct {α : Type} (text : α → String) : Prop :=
  ∀ ⦃one other : α⦄ ⦃rest tail : List Char⦄, stops rest → stops tail →
    (text one).toList ++ rest = (text other).toList ++ tail → one = other ∧ rest = tail

theorem Distinct.of_words {α : Type} {text : α → String}
    (words : ∀ item, ∀ char ∈ (text item).toList, isWordChar char)
    (injective : Function.Injective text) : Distinct text := by
  intro one other rest tail restStops tailStops same
  have outside (chars : List Char) (stopped : stops chars) :
      ∀ char ∈ chars.head?, ¬ isWordChar char := by
    cases chars with
    | nil => nofun
    | cons => simpa [stops] using stopped
  obtain ⟨equal, rests⟩ := run_inj (isWordChar ·) (words one) (words other)
    (outside rest restStops) (outside tail tailStops) same
  exact ⟨injective (String.toList_inj.1 equal), rests⟩

variable {window : String} {rest tail : List Char}

/-! ## Numbers and arrays -/

theorem isDigit_of_mem_repr (value : Nat) : ∀ char ∈ value.repr.toList, char.isDigit := by
  rw [Nat.toList_repr]
  intro char member
  exact Nat.isDigit_of_mem_toDigits (by decide) (by decide) member

theorem isWordChar_of_mem_repr (value : Nat) : ∀ char ∈ value.repr.toList, isWordChar char := by
  intro char member
  simp [isWordChar, Char.isAlphanum, isDigit_of_mem_repr value char member]

theorem repr_injective : Function.Injective Nat.repr := by
  intro value other same
  have digits : Nat.toDigits 10 value = Nat.toDigits 10 other := by
    simpa using congrArg String.toList same
  calc
    value = Nat.ofDigitChars 10 (Nat.toDigits 10 value) 0 := Nat.ofDigitChars_ten_toDigits.symm
    _ = Nat.ofDigitChars 10 (Nat.toDigits 10 other) 0 := by rw [digits]
    _ = other := Nat.ofDigitChars_ten_toDigits

theorem distinct_repr : Distinct Nat.repr :=
  .of_words isWordChar_of_mem_repr repr_injective

theorem Kind.distinct_array : Distinct Kind.array := by
  apply Distinct.of_words
  · intro kind
    cases kind <;> exact List.all_eq_true.1 (by decide)
  · intro kind other same
    cases kind <;> cases other <;> simp [Kind.array] at same ⊢

theorem subscript_inj {index other : String} (fits : ']' ∉ index.toList)
    (otherFits : ']' ∉ other.toList)
    (same : (subscript index).toList ++ rest = (subscript other).toList ++ tail) :
    index = other ∧ rest = tail := by
  simp only [subscript, String.toList_append, List.append_assoc] at same
  obtain ⟨equal, rests⟩ := run_inj (· ≠ ']') (fun _ member => ne_of_mem_of_not_mem member fits)
    (fun _ member => ne_of_mem_of_not_mem member otherFits) (by simp) (by simp)
    (List.append_cancel_left same)
  exact ⟨String.toList_inj.1 equal, List.append_cancel_left rests⟩

theorem stops_subscript (index : String) (rest : List Char) :
    stops ((subscript index).toList ++ rest) := by
  simp only [subscript, String.toList_append, List.append_assoc]
  rfl

theorem bracket_notMem_repr (value : Nat) : ']' ∉ value.repr.toList := by
  intro member
  exact absurd (isWordChar_of_mem_repr value _ member) (by decide)

theorem subscript_repr_inj {index other : Nat}
    (same : (subscript index.repr).toList ++ rest = (subscript other.repr).toList ++ tail) :
    index = other ∧ rest = tail := by
  obtain ⟨equal, rests⟩ :=
    subscript_inj (bracket_notMem_repr index) (bracket_notMem_repr other) same
  exact ⟨repr_injective equal, rests⟩

/-! ## Components -/

theorem Component.distinct_text : Distinct Component.text := by
  intro one other rest tail _ _ same
  obtain ⟨kind, index⟩ := one
  obtain ⟨otherKind, otherIndex⟩ := other
  simp only [Component.text, String.toList_append, List.append_assoc] at same
  obtain ⟨rfl, indexed⟩ :=
    Kind.distinct_array (stops_subscript _ _) (stops_subscript _ _) same
  obtain ⟨rfl, ends⟩ := subscript_repr_inj indexed
  exact ⟨rfl, List.append_cancel_left ends⟩

theorem Template.distinct_text : Distinct Template.text := by
  intro one other rest tail _ _ same
  cases one <;> cases other <;> simp [Template.text, -Nat.toList_repr] at same ⊢
  case isEqual.isEqual | and.and => exact same
  case lessThan.lessThan | multiOr.multiOr =>
    obtain ⟨equal, rests⟩ := distinct_repr rfl rfl same
    exact ⟨equal, (List.cons.inj rests).2⟩

theorem Pin.distinct_text : Distinct Pin.text := by
  intro one other rest tail _ _ same
  cases one <;> cases other <;> simp [Pin.text] at same ⊢
  case a.a | b.b => exact same
  case input.input => exact subscript_repr_inj same

/-! ## The window -/

theorem isWordChar_of_isName (name : isName window) :
    ∀ char ∈ window.toList, isWordChar char := by
  unfold isName at name
  split at name
  next => cases name
  next first rest equal =>
    rw [Bool.and_eq_true, List.all_eq_true] at name
    rw [equal, List.forall_mem_cons]
    refine ⟨?_, name.2⟩
    rcases Bool.or_eq_true_iff.1 name.1 with letter | underscore
    · simp [isWordChar, Char.isAlphanum, letter]
    · simp [isWordChar, of_decide_eq_true underscore]

theorem repr_ne_of_isName (name : isName window) (value : Nat) : value.repr ≠ window := by
  rintro rfl
  unfold isName at name
  split at name
  next => cases name
  next first rest equal =>
    rw [Bool.and_eq_true, Bool.or_eq_true_iff] at name
    have digit := isDigit_of_mem_repr value first (by simp [equal])
    rcases name.1 with letter | underscore
    · delta Char.isAlpha Char.isUpper Char.isLower at letter
      rw [Char.isDigit] at digit
      grind
    · obtain rfl := of_decide_eq_true underscore
      cases digit

theorem Bound.distinct_text (name : isName window) : Distinct (Bound.text window) := by
  apply Distinct.of_words
  · intro bound
    cases bound with
    | const value => exact isWordChar_of_mem_repr value
    | window => exact isWordChar_of_isName name
  · intro bound other same
    cases bound <;> cases other
    case const.const => rw [repr_injective same]
    case const.window value => exact absurd same (repr_ne_of_isName name value)
    case window.const value => exact absurd same.symm (repr_ne_of_isName name value)
    case window.window => rfl

theorem LoopRange.distinct_text (name : isName window) : Distinct (LoopRange.text window) := by
  intro one other rest tail _ _ same
  obtain ⟨start, stop, inclusive⟩ := one
  obtain ⟨otherStart, otherStop, otherInclusive⟩ := other
  unfold LoopRange.text at same
  simp only [String.toList_append, List.append_assoc] at same
  obtain ⟨rfl, compared⟩ := Bound.distinct_text name rfl rfl (List.append_cancel_left same)
  have compared := List.append_cancel_left compared
  obtain ⟨rfl, stopped⟩ : inclusive = otherInclusive ∧
      (stop.text window).toList ++ ("; i++)".toList ++ rest) =
        (otherStop.text window).toList ++ ("; i++)".toList ++ tail) := by
    cases inclusive <;> cases otherInclusive <;> simp at compared ⊢
    case false.false | true.true => exact compared
  obtain ⟨rfl, rests⟩ := Bound.distinct_text name rfl rfl stopped
  exact ⟨rfl, List.append_cancel_left rests⟩

/-! ## Signals -/

theorem Row.text_injective (name : isName window) (notVariable : window ≠ "i") :
    Function.Injective (Row.text window) := by
  have different (text : String) (refused : isName text = false) : window ≠ text := by
    rintro rfl
    exact absurd name (by simp [refused])
  have zero := different "0" rfl
  have next := different "i+1" rfl
  have previous := different "i-1" rfl
  intro row other same
  cases row <;> cases other <;>
    simp [Row.text, zero, zero.symm, notVariable, notVariable.symm, next, next.symm, previous,
      previous.symm] at same ⊢

theorem Row.bracket_notMem_text (name : isName window) (row : Row) :
    ']' ∉ (row.text window).toList := by
  cases row with
  | last =>
      intro member
      exact absurd (isWordChar_of_isName name _ member) (by decide)
  | zero | current | next | previous => simp [Row.text]

theorem Column.text_injective : Function.Injective Column.text := by
  intro column other same
  cases column <;> cases other
  case node.node => rw [repr_injective same]
  case node.var id => exact absurd same (repr_ne_of_isName (by decide) id)
  case var.node id => exact absurd same.symm (repr_ne_of_isName (by decide) id)
  case var.var => rfl

theorem Column.bracket_notMem_text (column : Column) : ']' ∉ column.text.toList := by
  cases column with
  | node id => exact bracket_notMem_repr id
  | var => decide

theorem Signal.distinct_text (name : isName window) (notVariable : window ≠ "i") :
    Distinct (Signal.text window) := by
  have row_inj {row other : Row} {rest tail : List Char}
      (same : (subscript (row.text window)).toList ++ rest =
        (subscript (other.text window)).toList ++ tail) : row = other ∧ rest = tail := by
    obtain ⟨equal, rests⟩ :=
      subscript_inj (row.bracket_notMem_text name) (other.bracket_notMem_text name) same
    exact ⟨Row.text_injective name notVariable equal, rests⟩
  intro one other rest tail _ _ same
  cases one <;> cases other <;> simp [Signal.text] at same ⊢
  case out.out => exact same
  case sum.sum => exact row_inj same
  case state.state row column otherRow otherColumn =>
    obtain ⟨rfl, indexed⟩ := row_inj same
    obtain ⟨equal, rests⟩ :=
      subscript_inj column.bracket_notMem_text otherColumn.bracket_notMem_text indexed
    exact ⟨⟨rfl, Column.text_injective equal⟩, rests⟩

/-! ## Sums -/

namespace Expr

/-- The values that a sum adds up, in order. -/
def terms : Expr → List Expr
  | .add left right => left.terms ++ right.terms
  | value => [value]

/-- A value that is not a sum. -/
def isTerm : Expr → Bool
  | .add _ _ => false
  | _ => true

theorem isTerm_of_mem_terms (value : Expr) : ∀ term ∈ value.terms, term.isTerm := by
  induction value with
  | const | byte | signal | output => simp [terms, isTerm]
  | add left right leftTerms rightTerms =>
      rw [terms, List.forall_mem_append]
      exact ⟨leftTerms, rightTerms⟩

/-- Terms, each with a plus in front of it. -/
def plusAll (window : String) (terms : List Expr) : List Char :=
  terms.flatMap fun term => " + ".toList ++ (term.text window).toList

/-- A sum is written as its terms, with a plus in front of each but the first. -/
theorem plus_append_text (window : String) (value : Expr) :
    " + ".toList ++ (value.text window).toList = plusAll window value.terms := by
  induction value with
  | const | byte | signal | output => simp [terms, plusAll]
  | add left right leftText rightText =>
      rw [plusAll] at leftText rightText
      rw [plusAll, terms, List.flatMap_append, ← leftText, ← rightText, text,
        String.toList_append, String.toList_append, List.append_assoc, List.append_assoc]

/-- The sorts of terms. -/
inductive TermSort where
  | const
  | byte
  | signal
  | output

/-- The sort of a term, by the first character of its text. -/
def sortOf (first : Char) : TermSort :=
  if first.isDigit then .const
  else if first = 'i' then .byte
  else if first ∈ ['s', 'f', 'o'] then .signal
  else .output

/-- The sort of the first term of a value. -/
def sort : Expr → TermSort
  | .const _ => .const
  | .byte => .byte
  | .signal _ => .signal
  | .output _ => .output
  | .add left _ => left.sort

theorem sortOf_head (window : String) (value : Expr) (rest : List Char) :
    ((value.text window).toList ++ rest).head?.map sortOf = some value.sort := by
  induction value generalizing rest with
  | const value =>
      cases digits : value.repr.toList with
      | nil => exact absurd digits (by simp)
      | cons first others =>
          rw [text, digits, List.cons_append, List.head?_cons, Option.map_some, sortOf,
            if_pos (isDigit_of_mem_repr value first (by simp [digits])), sort]
  | byte => simp [text, sortOf, sort]
  | signal cell => cases cell <;> simp [text, Signal.text, sortOf, sort]
  | output component =>
      obtain ⟨kind, index⟩ := component
      cases kind <;> simp [text, Component.text, Kind.array, sortOf, sort]
  | add left right leftHead _ =>
      rw [text, String.toList_append, String.toList_append, List.append_assoc, List.append_assoc,
        leftHead, sort]

theorem term_inj (name : isName window) (notVariable : window ≠ "i") {one other : Expr}
    (isTerm : one.isTerm) (otherIsTerm : other.isTerm) (restStops : stops rest)
    (tailStops : stops tail)
    (same : (one.text window).toList ++ rest = (other.text window).toList ++ tail) :
    one = other ∧ rest = tail := by
  have sorts : one.sort = other.sort := by
    apply Option.some.inj
    rw [← sortOf_head window one rest, same, sortOf_head]
  cases one <;> cases other <;> cases isTerm <;> cases otherIsTerm <;> cases sorts
  case const.const =>
    obtain ⟨rfl, rests⟩ := distinct_repr restStops tailStops same
    exact ⟨rfl, rests⟩
  case byte.byte => exact ⟨rfl, List.append_cancel_left same⟩
  case signal.signal =>
    obtain ⟨rfl, rests⟩ := Signal.distinct_text name notVariable restStops tailStops same
    exact ⟨rfl, rests⟩
  case output.output =>
    simp only [text, String.toList_append, List.append_assoc] at same
    obtain ⟨rfl, rests⟩ := Component.distinct_text rfl rfl same
    exact ⟨rfl, List.append_cancel_left rests⟩

theorem stops_plusAll (terms : List Expr) : stops (plusAll window terms ++ ";".toList) := by
  cases terms <;> rfl

theorem plusAll_inj (name : isName window) (notVariable : window ≠ "i") {terms others : List Expr}
    (areTerms : ∀ term ∈ terms, term.isTerm) (othersAreTerms : ∀ term ∈ others, term.isTerm)
    (same : plusAll window terms ++ ";".toList = plusAll window others ++ ";".toList) :
    terms = others := by
  induction terms generalizing others with
  | nil =>
      cases others with
      | nil => rfl
      | cons => simp [plusAll] at same
  | cons term terms ih =>
      cases others with
      | nil => simp [plusAll] at same
      | cons other others =>
          rw [List.forall_mem_cons] at areTerms othersAreTerms
          simp only [plusAll, List.flatMap_cons, List.append_assoc] at same
          obtain ⟨rfl, rest⟩ := term_inj name notVariable areTerms.1 othersAreTerms.1
            (stops_plusAll terms) (stops_plusAll others) (List.append_cancel_left same)
          rw [ih areTerms.2 othersAreTerms.2 rest]

/-- The terms of a value are found again in its text. -/
theorem terms_eq_of_text (name : isName window) (notVariable : window ≠ "i") {one other : Expr}
    (same : (one.text window).toList ++ ";".toList = (other.text window).toList ++ ";".toList) :
    one.terms = other.terms := by
  apply plusAll_inj name notVariable one.isTerm_of_mem_terms other.isTerm_of_mem_terms
  rw [← plus_append_text, ← plus_append_text, List.append_assoc, same, List.append_assoc]

end Expr

end ScanCircuit.Circuit
