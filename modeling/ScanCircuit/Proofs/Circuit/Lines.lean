import ScanCircuit.Proofs.Circuit.Writing

/-!
# The lines of a circuit

Where no comments are written, a line of a circuit has no line feed inside and no blank at
either end.  The lines can therefore be read back from the text up to their depth, and the
blanks that are dropped from the end of the text are never a part of a line.
-/

namespace ScanCircuit.Circuit

/-- A run of items of one sort ends where the sort ends. -/
theorem run_inj {α : Type} (sort : α → Prop) {run other rest others : List α}
    (inside : ∀ item ∈ run, sort item) (otherInside : ∀ item ∈ other, sort item)
    (outside : ∀ item ∈ rest.head?, ¬ sort item) (otherOutside : ∀ item ∈ others.head?, ¬ sort item)
    (same : run ++ rest = other ++ others) : run = other ∧ rest = others := by
  induction run generalizing other with
  | nil =>
      cases other with
      | nil => exact ⟨rfl, same⟩
      | cons item items =>
          rw [List.nil_append] at same
          exact absurd (otherInside item (by simp)) (outside item (by simp [same]))
  | cons item items ih =>
      cases other with
      | nil =>
          rw [List.nil_append] at same
          exact absurd (inside item (by simp)) (otherOutside item (by simp [← same]))
      | cons first tail =>
          obtain ⟨rfl, tails⟩ := List.cons.inj same
          obtain ⟨rfl, equal⟩ := ih (fun _ member => inside _ (.tail _ member))
            (fun _ member => otherInside _ (.tail _ member)) tails
          exact ⟨rfl, equal⟩

/-! ## Texts that fit on a line -/

/-- A text without a line feed in it and without a blank at either end. -/
structure Trimmed (text : String) : Prop where
  unbroken : '\n' ∉ text.toList
  start : ∀ char ∈ text.toList.head?, ¬ Text.isBlank char
  stop : ∀ char ∈ text.toList.getLast?, ¬ Text.isBlank char

section

variable {window : String}

@[simp] theorem toDigits_unbroken (value : Nat) : '\n' ∉ Nat.toDigits 10 value := by
  intro member
  have digit := Nat.isDigit_of_mem_toDigits (by decide) (by decide) member
  exact absurd digit (by decide)

@[simp] theorem Component.text_unbroken (component : Component) :
    '\n' ∉ component.text.toList := by
  obtain ⟨kind, index⟩ := component
  cases kind <;> simp [Component.text, Kind.array, subscript]

@[simp] theorem Template.text_unbroken (template : Template) : '\n' ∉ template.text.toList := by
  cases template <;> simp [Template.text]

@[simp] theorem Pin.text_unbroken (pin : Pin) : '\n' ∉ pin.text.toList := by
  cases pin <;> simp [Pin.text, subscript]

@[simp] theorem Column.text_unbroken (column : Column) : '\n' ∉ column.text.toList := by
  cases column <;> simp [Column.text]

theorem Row.text_unbroken (unbroken : '\n' ∉ window.toList) (row : Row) :
    '\n' ∉ (row.text window).toList := by
  cases row <;> simp [Row.text, unbroken]

theorem Signal.text_unbroken (unbroken : '\n' ∉ window.toList) (signal : Signal) :
    '\n' ∉ (signal.text window).toList := by
  cases signal <;> simp [Signal.text, subscript, Row.text_unbroken unbroken]

theorem Expr.text_unbroken (unbroken : '\n' ∉ window.toList) (value : Expr) :
    '\n' ∉ (value.text window).toList := by
  induction value with
  | const | byte | signal | output => simp [Expr.text, Signal.text_unbroken unbroken]
  | add left right leftUnbroken rightUnbroken =>
      simp [Expr.text, leftUnbroken, rightUnbroken]

theorem Bound.text_unbroken (unbroken : '\n' ∉ window.toList) (bound : Bound) :
    '\n' ∉ (bound.text window).toList := by
  cases bound <;> simp [Bound.text, unbroken]

theorem LoopRange.text_unbroken (unbroken : '\n' ∉ window.toList) (range : LoopRange) :
    '\n' ∉ (range.text window).toList := by
  have start := Bound.text_unbroken unbroken range.start
  have stop := Bound.text_unbroken unbroken range.stop
  unfold LoopRange.text
  split
  · simp [start, stop]
  · simp [start, stop]

end

/-! ## The lines of statements -/

/-- A text begins with a character that is not blank. -/
def Begins (text : String) : Prop :=
  ∃ first, text.toList.head? = some first ∧ ¬ Text.isBlank first

theorem Begins.append {text : String} (begins : Begins text) (other : String) :
    Begins (text ++ other) := by
  obtain ⟨first, head, fits⟩ := begins
  exact ⟨first, by rw [String.toList_append, List.head?_append, head, Option.some_or], fits⟩

theorem Component.text_begins (component : Component) : Begins component.text := by
  have array : Begins component.kind.array := by
    cases component.kind with
    | eq => exact ⟨'e', rfl, by decide⟩
    | lt => exact ⟨'l', rfl, by decide⟩
    | and => exact ⟨'a', rfl, by decide⟩
    | multiOr => exact ⟨'m', rfl, by decide⟩
  exact (array.append _).append _

theorem Signal.text_begins (window : String) (signal : Signal) : Begins (signal.text window) := by
  cases signal with
  | state => exact ⟨'s', by simp [Signal.text], by decide⟩
  | sum => exact ⟨'f', by simp [Signal.text], by decide⟩
  | out => exact ⟨'o', by simp [Signal.text], by decide⟩

theorem LoopRange.text_begins (window : String) (range : LoopRange) :
    Begins (range.text window) := by
  have keyword : Begins "for (var i = " := ⟨'f', rfl, by decide⟩
  exact (((((keyword.append _).append _).append _).append _).append _).append _

/-- A line that ends in a mark. -/
theorem Begins.trimmed {text mark : String} {last : Char} (begins : Begins text)
    (unbroken : '\n' ∉ (text ++ mark).toList) (marked : mark.toList.getLast? = some last)
    (fits : ¬ Text.isBlank last) : Trimmed (text ++ mark) where
  unbroken := unbroken
  start := by
    obtain ⟨first, head, firstFits⟩ := begins.append mark
    rw [head]
    rintro _ ⟨⟩
    exact firstFits
  stop := by
    rw [String.toList_append, List.getLast?_append, marked, Option.some_or]
    rintro _ ⟨⟩
    exact fits

theorem closing_trimmed : Trimmed closing :=
  ⟨by simp [closing], by simp [closing, Text.isBlank], by simp [closing, Text.isBlank]⟩

section

variable {config : Config}

mutual

/-- Every line of a statement is trimmed. -/
theorem Stmt.lines_trimmed (bare : config.annotate = false) (unbroken : '\n' ∉ config.window.toList)
    (depth : Nat) : ∀ stmt : Stmt, ∀ line ∈ stmt.lines config depth, Trimmed line.text
  | .declareComponents kind count => by
      rw [Stmt.lines_of_calls rfl, List.forall_mem_singleton]
      refine Begins.trimmed ⟨'c', by simp, by decide⟩ ?_ rfl (by decide)
      cases kind <;> simp [Kind.array, subscript, unbroken]
  | .declareStates nodes => by
      rw [Stmt.lines_of_calls rfl, List.forall_mem_singleton]
      exact Begins.trimmed ⟨'s', by simp, by decide⟩ (by simp [subscript, unbroken]) rfl (by decide)
  | .declareSum => by
      rw [Stmt.lines_of_calls rfl, List.forall_mem_singleton]
      exact Begins.trimmed ⟨'s', by simp, by decide⟩ (by simp [subscript, unbroken]) rfl (by decide)
  | .loop range body => by
      have header : Trimmed (opening (range.text config.window)) := by
        refine (range.text_begins _).trimmed ?_ rfl (by decide)
        simp [LoopRange.text_unbroken unbroken]
      rw [Stmt.lines_loop, List.forall_mem_cons, List.forall_mem_append, List.forall_mem_singleton]
      exact ⟨header, Stmt.linesAll_trimmed bare unbroken (depth + 1) body, closing_trimmed⟩
  | .instantiate component template => by
      rw [Stmt.lines_of_calls rfl, List.forall_mem_singleton]
      exact ((component.text_begins.append _).append _).trimmed (by simp) rfl (by decide)
  | .wire component pin value => by
      rw [Stmt.lines_of_calls rfl, List.forall_mem_singleton]
      refine ((((component.text_begins.append _).append _).append _).append _).trimmed ?_ rfl
        (by decide)
      simp [Expr.text_unbroken unbroken]
  | .constrain target value => by
      rw [Stmt.lines_of_calls rfl, List.forall_mem_singleton]
      refine (((target.text_begins _).append _).append _).trimmed ?_ rfl (by decide)
      simp [Expr.text_unbroken unbroken, Signal.text_unbroken unbroken]
  | .comment text => by
      simp [Stmt.lines_comment, bare]
  | .blank => by
      rw [Stmt.lines_of_calls rfl, List.forall_mem_singleton]
      exact ⟨by simp, by simp, by simp⟩

/-- Every line of several statements is trimmed. -/
theorem Stmt.linesAll_trimmed (bare : config.annotate = false)
    (unbroken : '\n' ∉ config.window.toList) (depth : Nat) :
    ∀ stmts : List Stmt, ∀ line ∈ Stmt.linesAll config depth stmts, Trimmed line.text
  | [] => nofun
  | stmt :: rest => by
      rw [Stmt.linesAll_cons, List.forall_mem_append]
      exact ⟨Stmt.lines_trimmed bare unbroken depth stmt,
        Stmt.linesAll_trimmed bare unbroken depth rest⟩

end

end

/-! ## Lines in a text -/

section

variable {indent : String} {line other : Line} {lines others : List Line} {rest tail : List Char}

/-- A line is its margin, its text and a line feed. -/
theorem Line.exists_margin (indent : String) (line : Line) :
    ∃ margin, (∀ char ∈ margin, char ∈ indent.toList) ∧
      line.chars indent = margin ++ line.text.toList ++ ['\n'] := by
  unfold Line.chars
  split
  next empty => exact ⟨[], nofun, by simp [empty]⟩
  next =>
    refine ⟨_, ?_, rfl⟩
    intro char member
    obtain ⟨unit, copy, inside⟩ := List.mem_flatten.1 member
    exact List.eq_of_mem_replicate copy ▸ inside

/-- A margin and a trimmed text are found again in the line that they make up. -/
theorem Line.chars_inj (blank : ∀ char ∈ indent.toList, Text.isBlank char ∧ char ≠ '\n')
    (trimmed : Trimmed line.text) (otherTrimmed : Trimmed other.text)
    (same : line.chars indent ++ rest = other.chars indent ++ tail) :
    line.text = other.text ∧ rest = tail := by
  obtain ⟨margin, inMargin, chars⟩ := line.exists_margin indent
  obtain ⟨otherMargin, inOtherMargin, otherChars⟩ := other.exists_margin indent
  have unbroken {margin : List Char} {text : String}
      (inMargin : ∀ char ∈ margin, char ∈ indent.toList) (trimmed : Trimmed text) :
      ∀ char ∈ margin ++ text.toList, char ≠ '\n' := by
    intro char member
    rcases List.mem_append.1 member with early | late
    · exact (blank char (inMargin char early)).2
    · exact ne_of_mem_of_not_mem late trimmed.unbroken
  rw [chars, otherChars, List.append_assoc, List.append_assoc _ ['\n']] at same
  -- The line feed ends the line, and the first character that is not blank begins its text.
  obtain ⟨first, feeds⟩ := run_inj (· ≠ '\n') (unbroken inMargin trimmed)
    (unbroken inOtherMargin otherTrimmed) (by simp) (by simp) same
  obtain ⟨-, text⟩ := run_inj (Text.isBlank ·)
    (fun char member => (blank char (inMargin char member)).1)
    (fun char member => (blank char (inOtherMargin char member)).1)
    trimmed.start otherTrimmed.start first
  exact ⟨String.toList_inj.1 text, (List.cons.inj feeds).2⟩

theorem Line.chars_ne_nil (indent : String) (line : Line) : line.chars indent ≠ [] := by
  obtain ⟨margin, -, chars⟩ := line.exists_margin indent
  simp [chars]

/-- The lines of a text are found again, apart from their depths. -/
theorem texts_eq_of_joinLines
    (blank : ∀ char ∈ indent.toList, Text.isBlank char ∧ char ≠ '\n')
    (trimmed : ∀ line ∈ lines, Trimmed line.text)
    (othersTrimmed : ∀ line ∈ others, Trimmed line.text)
    (same : joinLines indent lines = joinLines indent others) :
    lines.map Line.text = others.map Line.text := by
  induction lines generalizing others with
  | nil =>
      cases others with
      | nil => rfl
      | cons other _ => simp [joinLines, other.chars_ne_nil] at same
  | cons line lines ih =>
      cases others with
      | nil => simp [joinLines, line.chars_ne_nil] at same
      | cons other others =>
          rw [List.forall_mem_cons] at trimmed othersTrimmed
          obtain ⟨text, rest⟩ := Line.chars_inj blank trimmed.1 othersTrimmed.1 same
          rw [List.map_cons, List.map_cons, text, ih trimmed.2 othersTrimmed.2 rest]

/-- Only the line feed is dropped after a trimmed line. -/
theorem dropBlankEnd_joinLines (trimmed : Trimmed line.text) (nonempty : line.text ≠ "") :
    Text.dropBlankEnd (joinLines indent (lines ++ [line])) ++ ['\n'] =
      joinLines indent (lines ++ [line]) := by
  obtain ⟨margin, -, chars⟩ := line.exists_margin indent
  have written : line.text.toList ≠ [] := by simpa using nonempty
  obtain ⟨front, last, text⟩ := List.eq_nil_or_concat line.text.toList |>.resolve_left written
  have fits : ¬ Text.isBlank last := trimmed.stop last (by simp [text])
  have feed : Text.isBlank '\n' := by decide
  simp [joinLines, chars, text, Text.dropBlankEnd, fits, feed]

theorem Stmt.linesAll_append (config : Config) (depth : Nat) (first rest : List Stmt) :
    Stmt.linesAll config depth (first ++ rest) =
      Stmt.linesAll config depth first ++ Stmt.linesAll config depth rest := by
  induction first with
  | nil => rfl
  | cons stmt first ih =>
      rw [List.cons_append, Stmt.linesAll_cons, ih, Stmt.linesAll_cons, List.append_assoc]

/-- A statement that is written ends in a line that is not empty. -/
theorem Stmt.exists_lines_eq_append {stmt : Stmt} (config : Config) (depth : Nat)
    (notBlank : stmt ≠ .blank) (notComment : ∀ text, stmt ≠ .comment text) :
    ∃ front last, stmt.lines config depth = front ++ [last] ∧ last.text ≠ "" := by
  cases stmt with
  | declareComponents | declareStates | declareSum | instantiate | wire | constrain =>
      exact ⟨[], _, by rw [Stmt.lines_of_calls rfl, List.nil_append], by simp [flow]⟩
  | loop range body =>
      exact ⟨_ :: _, _, by rw [Stmt.lines_loop, List.cons_append], by simp [closing]⟩
  | comment text => exact absurd rfl (notComment text)
  | blank => exact absurd rfl notBlank

end

/-! ## The text of a program -/

/-- The last statement, if there is one, is written on a line of its own. -/
def Program.Ended (program : Program) : Prop :=
  ∀ last ∈ program.statements.getLast?, last ≠ .blank ∧ ∀ text, last ≠ .comment text

section

variable {config : Config} {first second : Program}

/-- The text of a program shows all its lines, or an empty line where there are none. -/
theorem Program.exists_shown (body : config.template = none) (bare : config.annotate = false)
    (unbroken : '\n' ∉ config.window.toList) {program : Program} (ended : program.Ended) :
    ∃ shown, program.chars config = joinLines config.indent shown ∧
      (∀ line ∈ shown, Trimmed line.text) ∧
      (Stmt.linesAll config 0 program.statements).map Line.text =
        if shown.map Line.text = [""] then [] else shown.map Line.text := by
  rw [Program.chars, program.lines_of_body body]
  rcases List.eq_nil_or_concat program.statements with none | ⟨before, last, some⟩
  · refine ⟨[⟨0, ""⟩], ?_, List.forall_mem_singleton.2 ⟨by simp, by simp, by simp⟩, ?_⟩
    · simp [none, Stmt.linesAll_nil, joinLines, Line.chars, Text.dropBlankEnd]
    · simp [none, Stmt.linesAll_nil]
  · obtain ⟨notBlank, notComment⟩ := ended last (by simp [some])
    obtain ⟨front, line, lines, nonempty⟩ :=
      Stmt.exists_lines_eq_append config 0 notBlank notComment
    have all : Stmt.linesAll config 0 program.statements =
        (Stmt.linesAll config 0 before ++ front) ++ [line] := by
      rw [some, List.concat_eq_append, Stmt.linesAll_append, Stmt.linesAll_cons, lines,
        Stmt.linesAll_nil, List.append_nil, List.append_assoc]
    have trimmed := Stmt.linesAll_trimmed bare unbroken 0 program.statements
    have written : (Stmt.linesAll config 0 program.statements).map Line.text ≠ [""] := by
      intro empty
      have member : line.text ∈ [""] := empty ▸ List.mem_map_of_mem (by simp [all])
      exact nonempty (List.mem_singleton.1 member)
    refine ⟨_, ?_, trimmed, (if_neg written).symm⟩
    rw [all] at trimmed ⊢
    exact dropBlankEnd_joinLines (trimmed line (by simp)) nonempty

/-- Programs with the same text have the same lines, apart from their depths. -/
theorem Program.texts_eq_of_render (body : config.template = none)
    (bare : config.annotate = false) (unbroken : '\n' ∉ config.window.toList)
    (blank : ∀ char ∈ config.indent.toList, Text.isBlank char ∧ char ≠ '\n')
    (firstEnded : first.Ended) (secondEnded : second.Ended)
    (same : first.render config = second.render config) :
    (Stmt.linesAll config 0 first.statements).map Line.text =
      (Stmt.linesAll config 0 second.statements).map Line.text := by
  obtain ⟨shown, chars, trimmed, texts⟩ := Program.exists_shown body bare unbroken firstEnded
  obtain ⟨others, otherChars, othersTrimmed, otherTexts⟩ :=
    Program.exists_shown body bare unbroken secondEnded
  have joined : joinLines config.indent shown = joinLines config.indent others := by
    rw [← chars, ← otherChars]
    exact String.ofList_injective same
  rw [texts, otherTexts, texts_eq_of_joinLines blank trimmed othersTrimmed joined]

end

end ScanCircuit.Circuit
