import Mathlib.Data.List.Basic
import Mathlib.Tactic.IntervalCases
import ScanCircuit.Proofs.Json.Grammar

/-!
# Reading what is written

The reader takes every text of the grammar and delivers the value that the text writes
down.  Inside a value this is said of runs of the machine: from the state before the text
to the state after it, whatever is open around it and whatever comes next.
-/

namespace ScanCircuit.Json

variable {stack outer middle : List Frame} {state next last : State} {text : List Char}

/-! ## Runs -/

/-- The machine takes a text from one state to another, whatever follows the text. -/
def Runs (stack : List Frame) (state : State) (text : List Char) (outer : List Frame)
    (last : State) : Prop :=
  ∀ offset rest, ∃ after, scan stack state offset (text ++ rest) = scan outer last after rest

theorem Runs.nil : Runs stack state [] stack state :=
  fun offset _ => ⟨offset, rfl⟩

/-- A run begins with a step. -/
theorem Runs.cons {char : Char} (first : step stack state char = .more middle next)
    (others : Runs middle next text outer last) : Runs stack state (char :: text) outer last := by
  intro offset rest
  obtain ⟨after, run⟩ := others (offset + char.utf8Size) rest
  refine ⟨after, ?_⟩
  rw [List.cons_append, scan, first]
  exact run

/-- Two runs make one. -/
theorem Runs.append {more : List Char} (first : Runs stack state text middle next)
    (second : Runs middle next more outer last) :
    Runs stack state (text ++ more) outer last := by
  intro offset rest
  obtain ⟨between, firstRun⟩ := first offset (more ++ rest)
  obtain ⟨after, secondRun⟩ := second between rest
  exact ⟨after, by rw [List.append_assoc, firstRun, secondRun]⟩

theorem Blank.isSpace {blank : List Char} (isBlank : Blank blank) {char : Char}
    (member : char ∈ blank) : isSpace char = true := by
  rcases isBlank char member with rfl | rfl | rfl | rfl <;> rfl

/-- Blanks change nothing between the parts of a value. -/
theorem Blank.runs {blank : List Char} (isBlank : Blank blank) {what : Expect} :
    Runs stack (.expect what) blank stack (.expect what) := by
  induction blank with
  | nil => exact .nil
  | cons char rest ih =>
      have space : Json.isSpace char = true := isBlank.isSpace (by simp)
      refine .cons ?_ (ih fun other member => isBlank other (by simp [member]))
      simp [step, stepExpect, space]

/-! ## Strings -/

theorem HexDigit.spec {value : Nat} {char : Char} (digit : HexDigit value char) :
    hexDigit? char = some value ∧ char.utf8Size = 1 := by
  cases digit with
  | lower small => interval_cases value <;> decide
  | upper small => interval_cases value <;> decide

/-- A digit of a code that is not the last. -/
theorem HexDigit.step {digit : Nat} {char : Char} (spelled : HexDigit digit char) {isKey : Bool}
    {chars : List Char} {bytes value : Nat} {leading : Option Nat} (early : bytes + 1 < 4) :
    step stack (.text isKey chars (.code bytes true value leading)) char =
      .more stack (.text isKey chars (.code (bytes + 1) true (value * 16 + digit) leading)) := by
  obtain ⟨read, width⟩ := spelled.spec
  simp [Json.step, stepText, read, width, early]

/-- Four digits after `\u` are read as their code. -/
theorem HexCode.runs {code : Nat} {digits : List Char} (spelled : HexCode code digits)
    {isKey : Bool} {chars : List Char} {leading : Option Nat}
    (closed : closeCode stack isKey chars code leading = .more outer last) :
    Runs stack (.text isKey chars (.code 0 true 0 leading)) digits outer last := by
  cases spelled with
  | digits first second third fourth =>
      refine .cons (first.step (by decide)) (.cons (second.step (by decide))
        (.cons (third.step (by decide)) (.cons ?_ .nil)))
      obtain ⟨read, width⟩ := fourth.spec
      simpa [step, stepText, read, width] using closed

/-- A letter after a backslash is read as what it stands for. -/
theorem simpleEscape?_of_mem {letter char : Char} (listed : (letter, char) ∈ shortEscapes) :
    letter ≠ 'u' ∧ simpleEscape? letter = some char := by
  have all : ∀ escape ∈ shortEscapes, escape.1 ≠ 'u' ∧ simpleEscape? escape.1 = some escape.2 := by
    decide
  exact all (letter, char) listed

/-- The code of a character is no surrogate. -/
theorem not_surrogate (char : Char) :
    isTrailing char.toNat = false ∧ isLeading char.toNat = false := by
  have valid : char.toNat < 0xD800 ∨ 0xDFFF < char.toNat ∧ char.toNat < 0x110000 := char.valid
  simp only [isTrailing, isLeading, Bool.and_eq_false_imp, decide_eq_true_eq,
    decide_eq_false_iff_not]
  omega

/-- A character of a string is read from each of its spellings. -/
theorem SpellsChar.runs {char : Char} {spelled : List Char} (spells : SpellsChar char spelled)
    {isKey : Bool} {chars : List Char} :
    Runs stack (.text isKey chars .closed) spelled stack
      (.text isKey (char :: chars) .closed) := by
  have backslash : step stack (.text isKey chars .closed) '\\' =
      .more stack (.text isKey chars .opened) := rfl
  have unicode : step stack (.text isKey chars .opened) 'u' =
      .more stack (.text isKey chars (.code 0 true 0 none)) := rfl
  cases spells with
  | plain noQuote noBackslash printable =>
      refine .cons ?_ .nil
      simp [step, stepText, noQuote, noBackslash, Nat.not_lt.2 printable]
  | short listed =>
      obtain ⟨notCode, escape⟩ := simpleEscape?_of_mem listed
      refine .cons backslash (.cons ?_ .nil)
      simp [step, stepText, notCode, escape]
  | code digits =>
      obtain ⟨notTrailing, notLeading⟩ := not_surrogate char
      refine .cons backslash (.cons unicode (digits.runs ?_))
      simp [closeCode, notTrailing, notLeading]
  | @pair _ leading trailing first second leadingSmall trailingSmall equal firstCode secondCode =>
      have isFirst : isLeading (0xD800 + leading) = true := by
        simp only [isLeading, Bool.and_eq_true, decide_eq_true_eq]
        omega
      have firstNot : isTrailing (0xD800 + leading) = false := by
        simp only [isTrailing, Bool.and_eq_false_imp, decide_eq_true_eq, decide_eq_false_iff_not]
        omega
      have isSecond : isTrailing (0xDC00 + trailing) = true := by
        simp only [isTrailing, Bool.and_eq_true, decide_eq_true_eq]
        omega
      have paired : pairedChar (0xD800 + leading) (0xDC00 + trailing) = char := by
        rw [pairedChar, Nat.add_sub_cancel_left, Nat.add_sub_cancel_left, ← equal,
          Char.ofNat_toNat]
      have opened : Runs stack (.text isKey chars (.leading (0xD800 + leading)))
          ('\\' :: 'u' :: second) stack (.text isKey (char :: chars) .closed) := by
        refine .cons rfl (.cons rfl (secondCode.runs ?_))
        simp [closeCode, isSecond, paired]
      refine .cons backslash (.cons unicode (.append (firstCode.runs ?_) opened))
      simp [closeCode, firstNot, isFirst]

theorem SpellsChars.runs {chars spelled : List Char} (spells : SpellsChars chars spelled)
    {isKey : Bool} {before : List Char} :
    Runs stack (.text isKey before .closed) spelled stack
      (.text isKey (chars.reverse ++ before) .closed) := by
  induction spells generalizing before with
  | nil => exact .nil
  | cons first others ih =>
      rw [List.reverse_cons, List.append_assoc]
      exact .append first.runs ih

/-- A key is read into the innermost object. -/
theorem SpellsText.runs_key {key : String} {spelled : List Char} (spells : SpellsText key spelled)
    {members : List (String × Value)} {old : String} {what : Expect}
    (expected : what = .firstKey ∨ what = .key) :
    Runs (.object members old :: stack) (.expect what) spelled
      (.object members key :: stack) (.expect .colon) := by
  cases spells with
  | @quoted body spelled =>
      have quote : step (.object members old :: stack) (.expect what) '"' =
          .more (.object members old :: stack) (.text true [] .closed) := by
        rcases expected with rfl | rfl <;> rfl
      have opened : Runs (.object members old :: stack) (.expect what) ('"' :: body)
          (.object members old :: stack) (.text true (key.toList.reverse ++ []) .closed) :=
        .cons quote spelled.runs
      refine opened.append (.cons ?_ .nil)
      simp [step, stepText, closeText]

/-! ## Delivered values -/

/-- What the machine does after it has read a value in a stack. -/
def resume (value : Value) : List Frame → Nat → List Char → Except Fault Reading
  | [], offset, rest => .ok ⟨value, offset, rest⟩
  | .array elements :: stack, offset, rest =>
      scan (.array (value :: elements) :: stack) (.expect .elementEnd) offset rest
  | .object members key :: stack, offset, rest =>
      scan (.object ((key, value) :: members) key :: stack) (.expect .memberEnd) offset rest

/-- A text cannot go on a number that stands before it. -/
def Ends (text : List Char) : Prop :=
  ∀ char ∈ text.head?, char.isDigit = false ∧ char ≠ '.' ∧ char ≠ 'e' ∧ char ≠ 'E'

/-- The machine reads a text as a value, whatever follows it, unless that goes on a number. -/
def Yields (stack : List Frame) (state : State) (text : List Char) (value : Value)
    (outer : List Frame) : Prop :=
  ∀ offset rest, Ends rest →
    ∃ after, scan stack state offset (text ++ rest) = resume value outer after rest

variable {value : Value}

theorem Runs.yields {more : List Char} (first : Runs stack state text middle next)
    (second : Yields middle next more value outer) :
    Yields stack state (text ++ more) value outer := by
  intro offset rest ends
  obtain ⟨between, firstRun⟩ := first offset (more ++ rest)
  obtain ⟨after, secondRun⟩ := second between rest ends
  exact ⟨after, by rw [List.append_assoc, firstRun, secondRun]⟩

theorem Yields.cons {char : Char} (first : step stack state char = .more middle next)
    (others : Yields middle next text value outer) :
    Yields stack state (char :: text) value outer :=
  (Runs.cons first .nil).yields others

/-- The machine goes on after the character that completes a value. -/
theorem scan_deliver {char : Char} (delivers : step stack state char = deliver value outer)
    (offset : Nat) (rest : List Char) :
    scan stack state offset (char :: rest) =
      resume value outer (offset + char.utf8Size) rest := by
  rw [scan, delivers]
  cases outer with
  | nil => rfl
  | cons frame _ => cases frame <;> rfl

theorem Yields.of_deliver {char : Char} (delivers : step stack state char = deliver value outer) :
    Yields stack state [char] value outer :=
  fun offset rest _ => ⟨offset + char.utf8Size, scan_deliver delivers offset rest⟩

/-- The states in which a value may begin. -/
def Expect.opensValue : Expect → Prop
  | .value | .firstElement | .element => True
  | _ => False

theorem step_opens {what : Expect} (opens : what.opensValue) {char : Char}
    (notSpace : isSpace char = false) (notClosing : char ≠ ']') :
    step stack (.expect what) char = startValue stack char := by
  cases what <;> simp_all [Expect.opensValue, step, stepExpect]

/-- A string is read as its text. -/
theorem SpellsText.yields {string : String} {spelled : List Char}
    (spells : SpellsText string spelled) {what : Expect} (opens : what.opensValue) :
    Yields stack (.expect what) spelled (.string string) stack := by
  cases spells with
  | @quoted body spelled =>
      have quote : step stack (.expect what) '"' = .more stack (.text false [] .closed) :=
        step_opens opens (by decide) (by decide)
      have opened : Runs stack (.expect what) ('"' :: body) stack
          (.text false (string.toList.reverse ++ []) .closed) :=
        .cons quote spelled.runs
      refine opened.yields (.of_deliver ?_)
      simp [step, stepText, closeText]

/-! ## Naturals -/

theorem digit?_of_isDigit {char : Char} (isDigit : char.isDigit) :
    Numeral.digit? char = some (char.toNat - '0'.toNat) := by
  simp [Numeral.digit?, isDigit]

/-- More digits do not make a number smaller. -/
theorem le_ofDigitChars (digits : List Char) (start : Nat) :
    start ≤ Nat.ofDigitChars 10 digits start := by
  induction digits generalizing start with
  | nil => exact Nat.le_refl start
  | cons char rest ih =>
      refine Nat.le_trans ?_ (ih (10 * start + (char.toNat - '0'.toNat)))
      omega

/-- Further digits are kept in the significand while it stays below the bound. -/
theorem runs_digits {digits : List Char} (isDigit : ∀ char ∈ digits, char.isDigit)
    {significand : Nat} (bounded : Nat.ofDigitChars 10 digits significand < naturalBound) :
    Runs stack (.numeral { phase := .whole, significand }) digits stack
      (.numeral { phase := .whole, significand := Nat.ofDigitChars 10 digits significand }) := by
  induction digits generalizing significand with
  | nil => exact .nil
  | cons char rest ih =>
      have digit := digit?_of_isDigit (isDigit char (by simp))
      have small : 10 * significand + (char.toNat - '0'.toNat) < naturalBound :=
        Nat.lt_of_le_of_lt (le_ofDigitChars rest _) bounded
      refine .cons ?_ (ih (fun other member => isDigit other (by simp [member])) bounded)
      rw [step, stepNumeral, Numeral.step, digit]
      simp only [Numeral.fits, Numeral.push, Nat.mul_comm significand, small, decide_true, if_true]

/-- The end of a natural is noticed at the character after it. -/
theorem yields_numeral {numeral : Numeral} (phase : numeral.phase = .zero ∨ numeral.phase = .whole)
    (positive : numeral.negative = false) :
    Yields stack (.numeral numeral) [] (.natural numeral.significand) stack := by
  intro offset rest ends
  have denotes : numeral.value = .ok (.natural numeral.significand) := by
    rcases phase with phase | phase <;> simp [Numeral.value, phase, positive]
  refine ⟨offset, ?_⟩
  cases rest with
  | nil =>
      cases stack with
      | nil => simp [scan, finish, denotes, resume, bind, Except.bind]
      | cons frame _ =>
          cases frame <;> simp [scan, finish, denotes, resume, Expect.eof, bind, Except.bind]
  | cons char rest =>
      obtain ⟨notDigit, notPoint, notLower, notUpper⟩ := ends char rfl
      have ended : numeral.step char = .ended := by
        rcases phase with phase | phase <;>
          simp [Numeral.step, phase, Numeral.digit?, notDigit, Numeral.afterWhole, notPoint,
            notLower, notUpper]
      cases stack with
      | nil => simp [scan, step, stepNumeral, ended, denotes, stepAfter, deliver, resume]
      | cons frame _ =>
          cases frame <;>
            simp [scan, step, stepNumeral, ended, denotes, stepAfter, deliver, resume]

/-- A digit begins a number. -/
theorem startValue_digit {char : Char} (isDigit : char.isDigit) :
    startValue stack char =
      .more stack (.numeral (Numeral.start false (char.toNat - '0'.toNat))) := by
  have other (letter : Char) (noDigit : letter.isDigit = false) : char ≠ letter := by
    rintro rfl
    simp [noDigit] at isDigit
  simp [startValue, digit?_of_isDigit isDigit, other '"' rfl, other '[' rfl, other '\x7b' rfl,
    other '-' rfl, other 'n' rfl, other 't' rfl, other 'f' rfl]

theorem isSpace_of_isDigit {char : Char} (isDigit : char.isDigit) : isSpace char = false := by
  by_contra space
  simp only [isSpace, Bool.or_eq_false_iff, decide_eq_false_iff_not, not_and_or, not_not] at space
  rcases space with ((rfl | rfl) | rfl) | rfl <;> cases isDigit

theorem SpellsNatural.yields {number : Nat} {digits : List Char}
    (spells : SpellsNatural number digits) (bounded : number < naturalBound) {what : Expect}
    (opens : what.opensValue) :
    Yields stack (.expect what) digits (.natural number) stack := by
  obtain ⟨⟨nonempty, isDigit, rfl⟩, noLeadingZero⟩ := spells
  cases digits with
  | nil => exact absurd rfl nonempty
  | cons char rest =>
      have charDigit := isDigit char (by simp)
      have notClosing : char ≠ ']' := by
        rintro rfl
        cases charDigit
      have first : step stack (.expect what) char =
          .more stack (.numeral (Numeral.start false (char.toNat - '0'.toNat))) := by
        rw [step_opens opens (isSpace_of_isDigit charDigit) notClosing, startValue_digit charDigit]
      by_cases zero : char = '0'
      · subst zero
        obtain rfl : rest = [] := by simpa using noLeadingZero rfl
        exact .cons first (yields_numeral (.inl rfl) rfl)
      · have positive : char.toNat - '0'.toNat ≠ 0 := by
          intro equal
          apply zero
          have bounds := Char.isDigit_iff_toNat.1 charDigit
          apply Char.toNat_inj.1
          omega
        have shifted : Nat.ofDigitChars 10 (char :: rest) 0 =
            Nat.ofDigitChars 10 rest (char.toNat - '0'.toNat) := by
          simp [Nat.ofDigitChars_cons]
        rw [Numeral.start, if_neg positive] at first
        rw [shifted] at bounded ⊢
        have others : Yields stack
            (.numeral { phase := .whole, significand := char.toNat - '0'.toNat }) (rest ++ [])
            (.natural (Nat.ofDigitChars 10 rest (char.toNat - '0'.toNat))) stack :=
          (runs_digits (fun other member => isDigit other (by simp [member])) bounded).yields
            (yields_numeral (.inr rfl) rfl)
        rw [List.append_nil] at others
        exact .cons first others

/-! ## Arrays and objects -/

theorem Ends.cons {char : Char} {rest : List Char} (notDigit : char.isDigit = false)
    (notPoint : char ≠ '.') (notLower : char ≠ 'e') (notUpper : char ≠ 'E') :
    Ends (char :: rest) := by
  intro first equal
  cases equal
  exact ⟨notDigit, notPoint, notLower, notUpper⟩

theorem Blank.ends_append {blank rest : List Char} (isBlank : Blank blank) (ends : Ends rest) :
    Ends (blank ++ rest) := by
  cases blank with
  | nil => exact ends
  | cons char _ =>
      rcases isBlank char (by simp) with rfl | rfl | rfl | rfl <;>
        exact .cons rfl (by decide) (by decide) (by decide)

/-- A value inside an array or object is read with the blanks around it. -/
theorem Element.Spaced.reads {element : Element} (spaced : element.Spaced) {frame : Frame}
    {what : Expect}
    (reads : Yields (frame :: stack) (.expect what) element.core element.value (frame :: stack))
    (offset : Nat) {rest : List Char} (ends : Ends rest) :
    ∃ after, scan (frame :: stack) (.expect what) offset (element.text ++ rest) =
      resume element.value (frame :: stack) after rest := by
  obtain ⟨between, read⟩ := (spaced.before.runs.yields reads) offset (element.after ++ rest)
    (spaced.after.ends_append ends)
  rw [Element.text, List.append_assoc, read]
  cases frame with
  | array elements => exact spaced.after.runs between rest
  | object members key => exact spaced.after.runs between rest

theorem commas_singleton (only : List Char) : commas [only] = only := by
  simp [commas]

theorem commas_cons_cons (first second : List Char) (rest : List (List Char)) :
    commas (first :: second :: rest) = first ++ ',' :: commas (second :: rest) := by
  simp [commas, List.intercalate_cons_cons]

/-- How the machine reads a list of items between brackets: the states before the first item,
before another one and after one, the closing bracket, and what a frame holds when some
items have been read. -/
structure Listing (ι : Type) where
  text : ι → List Char
  result : List ι → Value
  Holds : List ι → Frame → Prop
  first : Expect
  next : Expect
  last : Expect
  closing : Char
  separates : ∀ stack, step stack (.expect last) ',' = .more stack (.expect next)
  closes : ∀ {stack read frame what}, Holds read frame → what = first ∨ what = last →
    step (frame :: stack) (.expect what) closing = deliver (result read) stack
  ends : ∀ rest, Ends (closing :: rest)

/-- The elements of an array. -/
def Listing.array : Listing Element where
  text := Element.text
  result read := .array (read.map Element.value)
  Holds read frame := frame = .array (read.map Element.value).reverse
  first := .firstElement
  next := .element
  last := .elementEnd
  closing := ']'
  separates _ := rfl
  closes := by
    rintro stack read _ what rfl (rfl | rfl) <;> simp [step, stepExpect, isSpace, close]
  ends _ := .cons rfl (by decide) (by decide) (by decide)

/-- The members of an object. -/
def Listing.object : Listing Member where
  text := Member.text
  result read := .object (read.map Member.entry)
  Holds read frame := ∃ key, frame = .object (read.map Member.entry).reverse key
  first := .firstKey
  next := .key
  last := .memberEnd
  closing := '\x7d'
  separates _ := rfl
  closes := by
    rintro stack read _ what ⟨key, rfl⟩ (rfl | rfl) <;> simp [step, stepExpect, isSpace, close]
  ends _ := .cons rfl (by decide) (by decide) (by decide)

namespace Listing

variable {ι : Type} {listing : Listing ι}

/-- An item is read into every frame of the listing. -/
def Takes (listing : Listing ι) (stack : List Frame) (item : ι) : Prop :=
  ∀ {read frame what}, listing.Holds read frame → what = listing.first ∨ what = listing.next →
    ∀ offset rest, Ends rest → ∃ taken after, listing.Holds (read ++ [item]) taken ∧
      scan (frame :: stack) (.expect what) offset (listing.text item ++ rest) =
        scan (taken :: stack) (.expect listing.last) after rest

/-- Items between commas are read up to the closing bracket. -/
theorem scan_items {items : List ι} (takes : ∀ item ∈ items, listing.Takes stack item)
    {read : List ι} {frame : Frame} (held : listing.Holds read frame) {what : Expect}
    (expected : what = listing.first ∨ what = listing.next ∧ items ≠ []) (offset : Nat)
    (rest : List Char) :
    ∃ after, scan (frame :: stack) (.expect what) offset
        (commas (items.map listing.text) ++ listing.closing :: rest) =
      resume (listing.result (read ++ items)) stack after rest := by
  induction items generalizing read frame what offset with
  | nil =>
      obtain rfl | ⟨-, impossible⟩ := expected
      · rw [List.append_nil]
        exact ⟨_, scan_deliver (listing.closes held (.inl rfl)) offset rest⟩
      · exact absurd rfl impossible
  | cons item others ih =>
      have here := takes item (by simp) held (expected.imp_right And.left) offset
      rw [List.append_cons read item others]
      cases others with
      | nil =>
          obtain ⟨taken, between, held, run⟩ := here (listing.closing :: rest) (listing.ends rest)
          refine ⟨between + listing.closing.utf8Size, ?_⟩
          rw [List.append_nil, List.map_singleton, commas_singleton]
          exact run.trans (scan_deliver (listing.closes held (.inr rfl)) between rest)
      | cons second others =>
          obtain ⟨taken, between, held, run⟩ := here
            (',' :: commas ((second :: others).map listing.text) ++ listing.closing :: rest)
            (.cons rfl (by decide) (by decide) (by decide))
          obtain ⟨after, remaining⟩ := ih (fun other member => takes other (by simp [member])) held
            (.inr ⟨rfl, by simp⟩) (between + ','.utf8Size)
          refine ⟨after, ?_⟩
          rw [List.map_cons, List.map_cons, commas_cons_cons, List.append_assoc, ← List.map_cons]
          rw [run, List.cons_append, scan, listing.separates]
          exact remaining

/-- A bracket, blanks, and items between commas up to the closing bracket are a value. -/
theorem yields {items : List ι} (takes : ∀ item ∈ items, listing.Takes stack item) {frame : Frame}
    (held : listing.Holds [] frame) {bracket : Char} {what : Expect}
    (opened : step stack (.expect what) bracket = .more (frame :: stack) (.expect listing.first))
    {blank : List Char} (isBlank : Blank blank) :
    Yields stack (.expect what)
      (bracket :: blank ++ commas (items.map listing.text) ++ [listing.closing])
      (listing.result items) stack := by
  intro offset rest _
  obtain ⟨between, run⟩ := (Runs.cons opened isBlank.runs) offset
    (commas (items.map listing.text) ++ listing.closing :: rest)
  obtain ⟨after, remaining⟩ := scan_items takes held (.inl rfl) between rest
  exact ⟨after, by simpa using run.trans remaining⟩

end Listing

theorem takes_element {element : Element} (spaced : element.Spaced)
    (reads : ∀ frame what, Expect.opensValue what →
      Yields (frame :: stack) (.expect what) element.core element.value (frame :: stack)) :
    Listing.array.Takes stack element := by
  intro read frame what held expected offset rest ends
  have opens : what.opensValue := by
    rcases expected with rfl | rfl <;> trivial
  obtain ⟨after, run⟩ := spaced.reads (reads frame what opens) offset ends
  cases held
  exact ⟨_, after, by simp [Listing.array], run⟩

theorem takes_member {member : Member} (spaced : member.Spaced)
    (reads : ∀ frame what, Expect.opensValue what →
      Yields (frame :: stack) (.expect what) member.element.core member.element.value
        (frame :: stack)) :
    Listing.object.Takes stack member := by
  intro read frame what held expected offset rest ends
  obtain ⟨key, rfl⟩ := held
  have colon : step (.object (read.map Member.entry).reverse member.key :: stack)
      (.expect .colon) ':' =
        .more (.object (read.map Member.entry).reverse member.key :: stack) (.expect .value) := rfl
  have keyed : Runs (.object (read.map Member.entry).reverse key :: stack) (.expect what)
      (member.before ++ member.name ++ (member.after ++ [':']))
      (.object (read.map Member.entry).reverse member.key :: stack) (.expect .value) :=
    (spaced.before.runs.append (spaced.named.runs_key expected)).append
      (spaced.after.runs.append (.cons colon .nil))
  obtain ⟨between, keyRun⟩ := keyed offset (member.element.text ++ rest)
  obtain ⟨after, run⟩ := spaced.element.reads (reads _ .value trivial) between ends
  refine ⟨.object (member.entry :: (read.map Member.entry).reverse) member.key, after,
    ⟨member.key, by simp⟩, ?_⟩
  have parts : Listing.object.text member ++ rest =
      member.before ++ member.name ++ (member.after ++ [':']) ++ (member.element.text ++ rest) := by
    simp [Listing.object, Member.text]
  rw [parts, keyRun, run]
  rfl

/-- The reader takes every text of the grammar as the value that it writes down. -/
theorem Written.yields {depth : Nat} (written : Written depth value text) {what : Expect}
    (opens : what.opensValue) (room : stack.length + depth ≤ maxDepth) :
    Yields stack (.expect what) text value stack := by
  induction written generalizing stack what with
  | null =>
      refine .cons (step_opens opens rfl (by decide)) (.cons rfl (.cons rfl (.of_deliver rfl)))
  | isTrue =>
      refine .cons (step_opens opens rfl (by decide)) (.cons rfl (.cons rfl (.of_deliver rfl)))
  | isFalse =>
      refine .cons (step_opens opens rfl (by decide))
        (.cons rfl (.cons rfl (.cons rfl (.of_deliver rfl))))
  | natural bounded spells => exact spells.yields bounded opens
  | string spells => exact spells.yields opens
  | @array depth blank elements isBlank spaced _ ih =>
      have notFull : ¬ maxDepth ≤ stack.length := by omega
      have opened : step stack (.expect what) '[' =
          .more (.array [] :: stack) (.expect .firstElement) := by
        rw [step_opens opens rfl (by decide), startValue]
        simp [openFrame, notFull]
      refine Listing.yields (fun element member => takes_element (spaced element member) ?_) rfl
        opened isBlank
      intro frame what opens
      exact ih element member opens (by simp only [List.length_cons]; omega)
  | @object depth blank members isBlank spaced _ ih =>
      have notFull : ¬ maxDepth ≤ stack.length := by omega
      have opened : step stack (.expect what) '\x7b' =
          .more (.object [] "" :: stack) (.expect .firstKey) := by
        rw [step_opens opens rfl (by decide), startValue]
        simp [openFrame, notFull]
      refine Listing.yields (fun member listed => takes_member (spaced member listed) ?_)
        ⟨"", rfl⟩ opened isBlank
      intro frame what opens
      exact ih member listed opens (by simp only [List.length_cons]; omega)

/-! ## Documents -/

theorem checkRest_blank {blank : List Char} (isBlank : Blank blank) (offset : Nat) :
    checkRest offset blank = .ok () := by
  induction blank generalizing offset with
  | nil => rfl
  | cons char rest ih =>
      have space : isSpace char = true := isBlank.isSpace (by simp)
      rw [checkRest, if_pos space]
      exact ih (fun other member => isBlank other (by simp [member])) (offset + 1)

/-- A document is read as its value, and only blanks are left. -/
theorem Document.readValue (document : Document value text) :
    ∃ offset rest, readValue text = .ok ⟨value, offset, rest⟩ ∧
      ∀ offset, checkRest offset rest = .ok () := by
  cases document with
  | @spaced before core after isBefore written isAfter =>
      have ends : Ends after := by
        rw [← List.append_nil after]
        exact isAfter.ends_append (by simp [Ends])
      have reads : Yields [] (.expect .value) core value [] :=
        written.yields trivial (by simp)
      obtain ⟨offset, run⟩ := (isBefore.runs.yields reads) 0 after ends
      exact ⟨offset, after, run, checkRest_blank isAfter⟩

theorem Document.read (document : Document value text) : Json.read text = .ok value := by
  obtain ⟨offset, rest, read, clear⟩ := document.readValue
  simp [Json.read, read, clear offset, bind, Except.bind, pure, Except.pure]

end ScanCircuit.Json
