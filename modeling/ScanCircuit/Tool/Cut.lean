import ScanCircuit.Tool.Options

/-!
# `cut`

Print parts of lines: bytes by their places, or fields between delimiters. Places are given
as a list of ranges.

This is a part of the tools that a generator may call. They serve to run generators from
the command line only; no theorem depends on them.
-/

namespace ScanCircuit.Tool

open Shell

/-- What `cut` takes from each line. -/
inductive Cutting where
  | bytes
  | fields
  deriving DecidableEq, Repr

/-! ## Lists of ranges -/

/-- A range of places from one to another, counted from one; it may go on to the end. -/
structure Span where
  low : Nat
  high : Option Nat
  deriving DecidableEq, Repr

/-- Whether a place lies in a range. -/
def Span.holds (place : Nat) (span : Span) : Bool :=
  span.low ≤ place && span.high.all (place ≤ ·)

/-- Why a list of ranges cannot be used. -/
inductive SpanFault where
  | fromOne
  | decreasing
  | noEndpoint
  | twoDashes
  | tooLarge (digits : Bytes)
  | invalid (text : Bytes)
  deriving DecidableEq, Repr

/-- What is said about a list that cannot be used. -/
def SpanFault.message (cutting : Cutting) (fault : SpanFault) : Bytes :=
  let pick (bytes fields : String) : Bytes :=
    (match cutting with | .bytes => bytes | .fields => fields).toList
  match fault with
  | fromOne => pick "byte/character positions are numbered from 1" "fields are numbered from 1"
  | decreasing => "invalid decreasing range".toList
  | noEndpoint => "invalid range with no endpoint: -".toList
  | twoDashes => pick "invalid byte or character range" "invalid field range"
  | tooLarge digits =>
      pick "byte/character offset " "field number " ++ quotedWord digits ++
        " is too large".toList
  | invalid text => pick "invalid byte/character position " "invalid field value " ++
      quotedWord text

/-- A range of which a part has been read: the digits before its dash and those after it. -/
structure OpenSpan where
  first : Bytes := []
  dash : Bool := false
  last : Bytes := []

/-- The range that ends here. -/
def OpenSpan.close (reading : OpenSpan) : Except SpanFault Span :=
  let first := Bytes.toNat reading.first
  let last := Bytes.toNat reading.last
  if ¬reading.dash then if first = 0 then .error .fromOne else .ok ⟨first, some first⟩
  else
    let low := if reading.first = [] then 1 else first
    if reading.first = [] ∧ reading.last = [] then .error .noEndpoint
    else if reading.last = [] then .ok ⟨low, none⟩
    else if last < low then .error .decreasing
    else .ok ⟨low, some last⟩

/-- Read ranges between commas or blanks, going on with one of which a part has been read. -/
def Span.readFrom (reading : OpenSpan) : Bytes → Except SpanFault (List Span)
  | [] => do return [← reading.close]
  | char :: rest =>
      if char = '-' then
        if reading.dash then .error .twoDashes
        else if reading.first ≠ [] ∧ Bytes.toNat reading.first = 0 then .error .fromOne
        else Span.readFrom { reading with dash := true } rest
      else if char = ',' ∨ char = ' ' ∨ char = '\t' then do
        let span ← reading.close
        return span :: (← Span.readFrom {} rest)
      else if char.isDigit then
        let digits := (if reading.dash then reading.last else reading.first) ++ [char]
        if Bytes.toNat digits ≥ maxUnsigned then
          .error (.tooLarge (digits ++ rest.takeWhile Char.isDigit))
        else if reading.dash then Span.readFrom { reading with last := digits } rest
        else Span.readFrom { reading with first := digits } rest
      else .error (.invalid (char :: rest))

/-- Join a range with those of the ranges after it that overlap it. -/
def Span.joinOne (span : Span) : List Span → List Span
  | [] => [span]
  | next :: rest =>
      if span.high.all (next.low ≤ ·) then
        let high := do return max (← span.high) (← next.high)
        Span.joinOne { span with high } rest
      else span :: Span.joinOne next rest

/-- Ranges by where they begin, those that overlap joined. -/
def Span.joinAll (spans : List Span) : List Span :=
  match spans.mergeSort (·.low ≤ ·.low) with
  | [] => []
  | span :: rest => Span.joinOne span rest

/-- The places from a place on that no range holds. -/
def Span.gaps (place : Nat) : List Span → List Span
  | [] => [⟨place, none⟩]
  | span :: rest =>
      let before : List Span := if place < span.low then [⟨place, some (span.low - 1)⟩] else []
      match span.high with
      | none => before
      | some high => before ++ Span.gaps (high + 1) rest

/-! ## The program -/

/-- How `cut` has been called. -/
structure CutRequest where
  list : Option Bytes := none
  cutting : Cutting := .fields
  delimiter : Option Bytes := none
  between : Option Bytes := none
  onlyDelimited : Bool := false
  complement : Bool := false
  lineEnd : Char := '\n'

/-- The options of `cut`. The last two have no letters of their own. -/
def cutForms : List OptionForm :=
  [{ letter := 'b', name := "bytes".toList, takesValue := true },
   { letter := 'c', name := "characters".toList, takesValue := true },
   { letter := 'f', name := "fields".toList, takesValue := true },
   { letter := 'd', name := "delimiter".toList, takesValue := true },
   { letter := 'n' },
   { letter := 's', name := "only-delimited".toList },
   { letter := 'o', name := "output-delimiter".toList, takesValue := true, byLetter := false },
   { letter := 'x', name := "complement".toList, byLetter := false },
   { letter := 'z', name := "zero-terminated".toList }]

/-- What an option asks for. -/
def cutOption (start : Start) (request : CutRequest) (letter : Char) (value : Bytes) :
    Except Ran CutRequest :=
  match letter with
  | 'd' =>
      if value.length > 1 then
        .error (start.misuse 1 "the delimiter must be a single character".toList)
      else .ok { request with delimiter := some value }
  | 's' => .ok { request with onlyDelimited := true }
  | 'o' => .ok { request with between := some (if value = [] then ['\x00'] else value) }
  | 'x' => .ok { request with complement := true }
  | 'z' => .ok { request with lineEnd := '\x00' }
  | 'n' => .ok request
  | _ =>
      if request.list.isSome then
        .error (start.misuse 1 "only one list may be specified".toList)
      else
        .ok { request with
          list := some value, cutting := if letter = 'f' then .fields else .bytes }

/-- The places of a line that have been chosen, with whether a range begins there. -/
def chosen {α : Type} (spans : List Span) (values : List α) : List (α × Bool) :=
  values.zipIdx.filterMap fun (value, index) =>
    if spans.any (·.holds (index + 1)) then
      some (value, spans.any fun span => span.low = index + 1)
    else none

/-- The bytes chosen from a line. A text stands before each range but the first. -/
def cutBytes (between : Bytes) (spans : List Span) (line : Bytes) : Bytes :=
  match chosen spans line with
  | [] => []
  | (first, _) :: rest =>
      first :: rest.flatMap fun (char, begins) => if begins then between ++ [char] else [char]

/-- The fields chosen from a line. -/
def cutFields (between : Bytes) (spans : List Span) (fields : List Bytes) : Bytes :=
  Bytes.join between ((chosen spans fields).map Prod.fst)

/-- What stands between marks; the last mark ends the text. -/
def endedBy (mark : Char) (text : Bytes) : List Bytes :=
  let parts := Bytes.splitAt mark [] text
  if parts.getLast? = some [] then parts.dropLast else parts

/-- What is printed of a file. If lines end with the delimiter, they are the fields. -/
def cutText (request : CutRequest) (spans : List Span) (text : Bytes) : Bytes :=
  let lineEnd := request.lineEnd
  let lines := endedBy lineEnd text
  match request.cutting with
  | .bytes =>
      lines.flatMap fun line =>
        cutBytes (request.between.getD []) spans line ++ [lineEnd]
  | .fields =>
      let delimiter := ((request.delimiter.getD ['\t']).head?).getD '\x00'
      let between := request.between.getD [delimiter]
      let whole (line : Bytes) : Bytes :=
        if request.onlyDelimited then [] else line ++ [lineEnd]
      if delimiter = lineEnd then
        if text = [] then []
        else if ¬text.contains delimiter then whole text
        else if request.onlyDelimited ∧ lines.length = 1 ∧ chosen spans lines = [] then []
        else cutFields between spans lines ++ [lineEnd]
      else
        lines.flatMap fun line =>
          if line.contains delimiter then
            cutFields between spans (Bytes.splitAt delimiter [] line) ++ [lineEnd]
          else whole line

/-- Print parts of files. The standard input has nothing left the second time. -/
def cutFiles (start : Start) (change : Bytes → Bytes) (read : Bool) : List Bytes → Ran
  | [] => {}
  | name :: rest =>
      let (content, tookInput) := start.read name
      let content := if tookInput ∧ read then content.map fun _ => [] else content
      let first : Ran :=
        match content with
        | .error error => failing (start.fileComplaint name error) 1
        | .ok content => { writes := [.out (change content)], tookInput }
      first.then (cutFiles start change (read || tookInput) rest)

/-- The program `cut`. -/
def cut (start : Start) : Ran :=
  match start.request "cut" cutForms {} (cutOption start) with
  | .error ran => ran
  | .ok (request, names) =>
      match request.list with
      | none =>
          start.misuse 1 "you must specify a list of bytes, characters, or fields".toList
      | some list =>
          if request.cutting = .bytes ∧ request.delimiter.isSome then
            start.misuse 1
              "an input delimiter may be specified only when operating on fields".toList
          else if request.cutting = .bytes ∧ request.onlyDelimited then
            start.misuse 1
              ("suppressing non-delimited lines makes sense\n" ++
                "\tonly when operating on fields").toList
          else
            match Span.readFrom {} list with
            | .error fault => start.misuse 1 (fault.message request.cutting)
            | .ok spans =>
                let spans := Span.joinAll spans
                let spans := if request.complement then Span.gaps 1 spans else spans
                let names := if names = [] then [['-']] else names
                let ran := cutFiles start (cutText request spans) false names
                if names.contains ['-'] ∧ ¬start.isInputOpen then
                  ran.then (failing (start.fileComplaint ['-'] .badDescriptor) 1)
                else ran

end ScanCircuit.Tool
