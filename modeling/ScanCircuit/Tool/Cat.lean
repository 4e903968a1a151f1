import ScanCircuit.Tool.Options

/-!
# `cat`

Print files one after another. Options number lines, squeeze empty lines and show bytes
that are not printable.

This is a part of the tools that a generator may call. They serve to run generators from
the command line only; no theorem depends on them.
-/

namespace ScanCircuit.Tool

open Shell

/-- What the options of `cat` ask for. -/
structure CatStyle where
  number : Bool := false
  numberFull : Bool := false
  squeeze : Bool := false
  showEnds : Bool := false
  showTabs : Bool := false
  showOthers : Bool := false
  deriving DecidableEq, Repr

namespace CatStyle

/-- Whether bytes are printed as they are. -/
def isPlain (style : CatStyle) : Bool :=
  style = {}

/-- The style that a letter asks for. -/
def withLetter? (style : CatStyle) (letter : Char) : Option CatStyle :=
  match letter with
  | 'n' => some { style with number := true }
  | 'b' => some { style with numberFull := true }
  | 's' => some { style with squeeze := true }
  | 'E' => some { style with showEnds := true }
  | 'T' => some { style with showTabs := true }
  | 'v' => some { style with showOthers := true }
  | 'e' => some { style with showEnds := true, showOthers := true }
  | 't' => some { style with showTabs := true, showOthers := true }
  | 'A' => some { style with showEnds := true, showTabs := true, showOthers := true }
  | 'u' => some style
  | _ => none

end CatStyle

/-- The options of `cat`. -/
def catForms : List OptionForm :=
  [('b', "number-nonblank"), ('n', "number"), ('s', "squeeze-blank"), ('v', "show-nonprinting"),
   ('E', "show-ends"), ('T', "show-tabs"), ('A', "show-all"), ('e', ""), ('t', ""),
   ('u', "")].map fun (letter, name) => { letter, name := name.toList }

/-- A byte that is not printable, made visible. -/
def visibleByte (style : CatStyle) (char : Char) : Bytes :=
  let code := char.toNat
  if char = '\t' then if style.showTabs then "^I".toList else [char]
  else if ¬style.showOthers then [char]
  else if code < 32 then ['^', Char.ofNat (code + 64)]
  else if code < 127 then [char]
  else if code = 127 then "^?".toList
  else
    let low := code - 128
    "M-".toList ++
      (if low < 32 then ['^', Char.ofNat (low + 64)]
        else if low < 127 then [Char.ofNat low]
        else "^?".toList)

/-- What is known between two bytes: how many lines have been numbered, and how many empty lines
came last. -/
structure CatState where
  numbered : Nat := 0
  empties : Nat := 0
  atStart : Bool := true
  /-- Whether a carriage return waits for what comes after it. -/
  returned : Bool := false
  deriving DecidableEq, Repr

/-- The number of a line, to the right of six places. -/
def lineNumber (number : Nat) : Bytes :=
  let digits := Bytes.ofNat number
  List.replicate (6 - digits.length) ' ' ++ digits ++ ['\t']

/-- Print the remaining bytes in a style; the output so far is held last byte first. -/
def catBytes (style : CatStyle) (state : CatState) (out : Bytes) : Bytes → CatState × Bytes
  | [] => (state, out.reverse)
  | char :: rest =>
      let isEmptyLine := state.atStart && char = '\n'
      if isEmptyLine ∧ style.squeeze ∧ state.empties ≥ 1 then catBytes style state out rest
      else
        let numbers :=
          state.atStart && (if style.numberFull then !isEmptyLine else style.number)
        let numbered := if numbers then state.numbered + 1 else state.numbered
        let out := if numbers then (lineNumber numbered).reverse ++ out else out
        if char = '\n' then
          let empties := if isEmptyLine then state.empties + 1 else 0
          let out := if state.returned then 'M' :: '^' :: out else out
          let out := if style.showEnds then '$' :: out else out
          catBytes style { numbered, empties, atStart := true } ('\n' :: out) rest
        else
          let out := if state.returned then '\r' :: out else out
          let returned := char = '\r' && style.showEnds && !style.showOthers
          let shown := if returned then [] else visibleByte style char
          catBytes style { numbered, empties := 0, atStart := false, returned }
            (shown.reverse ++ out) rest

/-- Print files. -/
def catFiles (start : Start) (style : CatStyle) (state : CatState) (read : Bool) :
    List Bytes → Ran
  | [] => if state.returned then printing ['\r'] else {}
  | name :: rest =>
      let (content, tookInput) := start.read name
      -- The standard input has nothing left the second time.
      let content := if tookInput ∧ read then .ok [] else content
      let location := (start.entry name).map Prod.fst
      match content with
      | .error error =>
          let first : Ran := failing (start.fileComplaint name error) 1
          first.then (catFiles start style state read rest)
      | .ok content =>
          if start.target.isSome ∧ start.target = location ∧ content ≠ [] then
            let message := shellName true name ++ ": input file is output file".toList
            (failing (start.complaint message) 1).then (catFiles start style state read rest)
          else
            let (state, out) :=
              if style.isPlain then (state, content) else catBytes style state [] content
            let first : Ran := { writes := [.out out], tookInput }
            first.then (catFiles start style state (read || tookInput) rest)

/-- The program `cat`. -/
def cat (start : Start) : Ran :=
  let take (style : CatStyle) (letter : Char) (_ : Bytes) : Except Ran CatStyle :=
    .ok ((style.withLetter? letter).getD style)
  match start.request "cat" catForms {} take with
  | .error ran => ran
  | .ok (style, names) =>
      let names := if names = [] then [['-']] else names
      let ran := catFiles start style {} false names
      if names.contains ['-'] ∧ ¬start.isInputOpen then
        let message := "closing standard input: ".toList ++ OsError.badDescriptor.words.toList
        ran.then (failing (start.complaint message) 1)
      else ran

end ScanCircuit.Tool
