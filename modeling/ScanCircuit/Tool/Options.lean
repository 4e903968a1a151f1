import ScanCircuit.Tool.Basic

/-!
# Options of a tool

The words of a command line, told apart: options by letter, several in a word, options by
name, and all other words. Options may stand anywhere before `--`. A name may be cut short as
long as one option alone begins with it.

This is a part of the tools that a generator may call. They serve to run generators from
the command line only; no theorem depends on them.
-/

namespace ScanCircuit.Tool

open Shell

/-- An option of a tool: the letter by which the tool knows it, its long name, and whether it
takes a value. -/
structure OptionForm where
  letter : Char
  name : Bytes := []
  takesValue : Bool := false
  /-- Whether the letter may be written in the place of the name. -/
  byLetter : Bool := true
  deriving DecidableEq, Repr

/-- What a part of a command line says. -/
inductive Item where
  | option (letter : Char) (value : Bytes)
  | word (text : Bytes)
  | refused (ran : Ran)

/-- The options that ask a tool about itself. -/
def aboutForms : List OptionForm :=
  [{ letter := '?', name := "help".toList, byLetter := false },
   { letter := '!', name := "version".toList, byLetter := false }]

/-- The options that a name may mean. -/
def formsNamed (forms : List OptionForm) (name : Bytes) : List OptionForm :=
  let forms := forms.filter (·.name ≠ [])
  match forms.filter (·.name = name) with
  | [] => forms.filter fun form => name.isPrefixOf form.name
  | exact => exact

/-- An option whose value is the next word, with what is said if there is none. -/
structure Awaiting where
  letter : Char
  message : Bytes

/-- Read an option that is written by its name. -/
def Start.named (start : Start) (forms : List OptionForm) (arg : Bytes) :
    List Item × Option Awaiting :=
  let name := (arg.drop 2).takeWhile (· ≠ '=')
  let value? := if arg.contains '=' then some (arg.drop (name.length + 3)) else none
  match formsNamed forms name with
  | [] => ([.refused (start.unknownOption 1 arg)], none)
  | [form] =>
      let shown := "option '--".toList ++ form.name
      match form.takesValue, value? with
      | false, none => ([.option form.letter []], none)
      | false, some _ =>
          ([.refused (start.misuse 1 (shown ++ "' doesn't allow an argument".toList))], none)
      | true, some value => ([.option form.letter value], none)
      | true, none => ([], some ⟨form.letter, shown ++ "' requires an argument".toList⟩)
  | several =>
      let message := "option '".toList ++ arg ++ "' is ambiguous; possibilities:".toList ++
        several.flatMap fun form => " '--".toList ++ form.name ++ "'".toList
      ([.refused (start.misuse 1 message)], none)

/-- Read options that are written by their letters. The rest of the word is the value of the
first one that takes a value. -/
def Start.lettered (start : Start) (forms : List OptionForm) :
    Bytes → List Item × Option Awaiting
  | [] => ([], none)
  | letter :: rest =>
      match forms.find? fun form => form.byLetter && form.letter = letter with
      | none => ([.refused (start.unknownOption 1 [letter])], none)
      | some form =>
          if ¬form.takesValue then
            let (items, awaiting) := start.lettered forms rest
            (.option letter [] :: items, awaiting)
          else if rest ≠ [] then ([.option letter rest], none)
          else
            ([], some ⟨letter, "option requires an argument -- '".toList ++ [letter, '\'']⟩)

/-- Tell the words of a command line apart. -/
def Start.items (start : Start) (forms : List OptionForm) : Option Awaiting → List Bytes →
    List Item
  | none, [] => []
  | some awaiting, [] => [.refused (start.misuse 1 awaiting.message)]
  | some awaiting, value :: rest =>
      .option awaiting.letter value :: start.items forms none rest
  | none, arg :: rest =>
      match arg with
      | ['-', '-'] => rest.map .word
      | '-' :: '-' :: _ =>
          let (items, awaiting) := start.named forms arg
          items ++ start.items forms awaiting rest
      | '-' :: letter :: letters =>
          let (items, awaiting) := start.lettered forms (letter :: letters)
          items ++ start.items forms awaiting rest
      | _ => .word arg :: start.items forms none rest

/-- Read a command line from the left: `take` says what an option does to a request, and the
other words are returned in their order. -/
def readItems {Request : Type} (take : Request → Char → Bytes → Except Ran Request)
    (request : Request) : List Item → Except Ran (Request × List Bytes)
  | [] => .ok (request, [])
  | .refused ran :: _ => .error ran
  | .option letter value :: rest => do readItems take (← take request letter value) rest
  | .word text :: rest => do
      let (request, words) ← readItems take request rest
      return (request, text :: words)

/-- Read the command line of a tool that has some options and tells about itself. -/
def Start.request {Request : Type} (start : Start) (tool : String) (forms : List OptionForm)
    (request : Request) (take : Request → Char → Bytes → Except Ran Request) :
    Except Ran (Request × List Bytes) :=
  let takeAny (request : Request) (letter : Char) (value : Bytes) : Except Ran Request :=
    if letter = '?' then .error start.help
    else if letter = '!' then .error (version tool)
    else take request letter value
  readItems takeAny request (start.items (forms ++ aboutForms) none start.args)

end ScanCircuit.Tool
