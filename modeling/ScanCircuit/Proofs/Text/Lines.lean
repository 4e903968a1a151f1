import ScanCircuit.Text.Blank

/-!
# The lines of a text

A text is cut into lines at its line feeds, so a text that ends in a line feed has an empty
line at its end.  Lines without a line feed in them are found again in the text that they make
up.

The content of a line is what follows the spaces and tabs in front of it.
-/

namespace ScanCircuit.Text

/-- The lines of a text, cut at its line feeds. -/
def lines (text : String) : List (List Char) :=
  text.toList.splitOn '\n'

/-- The text with the given lines. -/
def ofLines (rows : List (List Char)) : String :=
  String.ofList (['\n'].intercalate rows)

theorem lines_ofLines {rows : List (List Char)} (unbroken : ∀ row ∈ rows, '\n' ∉ row)
    (some : rows ≠ []) : lines (ofLines rows) = rows := by
  rw [lines, ofLines, String.toList_ofList, List.splitOn_intercalate _ unbroken some]

/-- A text in which every line is ended by a line feed. -/
theorem ofLines_concat_nil (rows : List (List Char)) :
    ofLines (rows ++ [[]]) = String.ofList (rows.flatMap (· ++ ['\n'])) := by
  apply congrArg String.ofList
  induction rows with
  | nil => rfl
  | cons row rest ih =>
      have more : rest ++ [[]] ≠ [] := by simp
      rw [List.cons_append, List.intercalate_cons_of_ne_nil more, ih, List.flatMap_cons]

/-- Whether a character is a space or a tab. -/
def isMargin (char : Char) : Bool :=
  char = ' ' || char = '\t'

theorem isBlank_of_isMargin {char : Char} (inMargin : isMargin char) : isBlank char := by
  rcases Bool.or_eq_true_iff.1 inMargin with space | tab
  · cases of_decide_eq_true space
    rfl
  · cases of_decide_eq_true tab
    rfl

theorem unbroken_of_isMargin {chars : List Char} (margin : ∀ char ∈ chars, isMargin char) :
    '\n' ∉ chars := by
  intro feed
  exact absurd (margin _ feed) (by decide)

/-- What follows the spaces and tabs in front of a line. -/
def content (line : List Char) : List Char :=
  line.dropWhile isMargin

/-- A line whose content begins with two slashes. -/
def isComment (line : List Char) : Bool :=
  ['/', '/'].isPrefixOf (content line)

/-- The content of a line begins where its margin ends. -/
theorem content_append {margin text : List Char} (inside : ∀ char ∈ margin, isMargin char)
    (start : ∀ char ∈ text.head?, isMargin char = false) : content (margin ++ text) = text := by
  have rest : text.dropWhile isMargin = text := by
    cases text with
    | nil => rfl
    | cons first text => rw [List.dropWhile_cons_of_neg]; simpa using start first rfl
  rw [content, List.dropWhile_append_of_pos inside, rest]

end ScanCircuit.Text
