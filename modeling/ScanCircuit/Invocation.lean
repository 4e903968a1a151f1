/-!
# Command lines

The words of a command line name a command and its arguments. A word that starts with
two dashes is a long option, one that starts with a single dash and has more
characters is a short option, and any other word is plain. After the word `--` every
word is plain.

The value of an option may be attached to it or follow as a plain word of its own. An
argument read from a plain word is settled when the next argument is met, so a word
that is no argument at all is reported before the argument in front of it is judged.
-/

namespace ScanCircuit

/-- Why a command line names nothing to do. -/
inductive UsageError where
  /-- Help is asked for. -/
  | displayHelp
  /-- There is nothing on the command line. -/
  | displayHelpOnMissing
  | invalidSubcommand
  | unknownArgument
  | invalidValue
  | tooManyValues
  | argumentConflict
  | missingRequiredArgument
  deriving DecidableEq, Repr

/-- The exit code after a usage error. Asking for help is no failure. -/
def UsageError.exitCode : UsageError → Nat
  | displayHelp => 0
  | _ => 2

/-- The words for a usage error. -/
def UsageError.message : UsageError → String
  | displayHelp | displayHelpOnMissing =>
      "usage: compile|check|lookup|stats [GRAPH | -p PATTERN --generator CMD] [OPTIONS]"
  | invalidSubcommand => "unrecognized command"
  | unknownArgument => "unexpected argument"
  | invalidValue => "a value is missing or empty"
  | tooManyValues => "unexpected value"
  | argumentConflict => "arguments exclude each other"
  | missingRequiredArgument => "a required argument is missing"

/-- Where a command reads its automaton from. File names are taken to be Unicode: the path of the
graph is a text. -/
structure Input where
  graph : Option String := none
  pattern : Option String := none
  generator : Option String := none
  deriving DecidableEq, Repr

/-- The arguments of the command that compiles. The paths of both outputs are texts too: their
names are taken to be Unicode. -/
structure CompileArgs where
  input : Input := {}
  output : Option String := none
  lookup : Option String := none
  template : Option String := none
  window : String := "num_bytes"
  annotate : Bool := false
  deriving DecidableEq, Repr

/-- A command with its arguments. -/
inductive Invocation where
  | compile (args : CompileArgs)
  | check (input : Input)
  | lookup (input : Input) (output : Option String)
  | stats (input : Input)
  deriving DecidableEq, Repr

namespace Invocation

/-- The commands. -/
inductive Command where
  | compile
  | check
  | lookup
  | stats
  deriving DecidableEq, Repr

/-- The options that take a value. -/
inductive Opt where
  | pattern
  | generator
  | output
  | lookup
  | template
  | window
  deriving DecidableEq, Repr

/-- The arguments of any command: an option, the flag, a call for help, or the graph. -/
inductive Switch where
  | option (opt : Opt)
  | annotate
  | help
  deriving DecidableEq, Repr

namespace Command

/-- The command of a name. -/
def ofName? (name : String) : Option Command :=
  if name = "compile" then some compile
  else if name = "check" then some check
  else if name = "lookup" then some lookup
  else if name = "stats" then some stats
  else none

/-- Whether a command has an option. -/
def hasOption : Command → Opt → Bool
  | _, .pattern | _, .generator => true
  | compile, _ => true
  | lookup, .output => true
  | _, _ => false

/-- The switch of a long name. -/
def long? (command : Command) (name : String) : Option Switch :=
  let switch :=
    if name = "help" then some Switch.help
    else if name = "annotate" then some .annotate
    else if name = "pattern" then some (.option .pattern)
    else if name = "generator" then some (.option .generator)
    else if name = "output" then some (.option .output)
    else if name = "lookup" then some (.option .lookup)
    else if name = "template" then some (.option .template)
    else if name = "window" then some (.option .window)
    else none
  switch.filter fun
    | .option opt => command.hasOption opt
    | .annotate => command = compile
    | .help => true

/-- The switch of a short name. -/
def short? (command : Command) (name : Char) : Option Switch :=
  let switch :=
    if name = 'h' then some Switch.help
    else if name = 'p' then some (.option .pattern)
    else if name = 'o' then some (.option .output)
    else none
  switch.filter fun
    | .option opt => command.hasOption opt
    | _ => true

end Command

/-- Whether the value of an option is a path, which must not be empty. -/
def Opt.isPath : Opt → Bool
  | .output | .lookup => true
  | _ => false

/-- What a word looks like. -/
inductive Word where
  /-- The word `--`. -/
  | separator
  | long (name : String) (value : Option String)
  | short (name : Char) (rest : List Char)
  | plain (text : String)
  deriving DecidableEq, Repr

/-- Split a long option at its first equals sign. -/
def splitLong (chars : List Char) : Word :=
  let name := String.ofList (chars.takeWhile (· ≠ '='))
  match chars.dropWhile (· ≠ '=') with
  | [] => .long name none
  | _ :: value => .long name (some (String.ofList value))

/-- What a word looks like. -/
def Word.ofString (text : String) : Word :=
  match text.toList with
  | ['-', '-'] => .separator
  | '-' :: '-' :: chars => splitLong chars
  | '-' :: name :: rest => .short name rest
  | _ => .plain text

/-- The value attached to a short option: the rest of the word without one equals sign. -/
def attached? : List Char → Option String
  | [] => none
  | '=' :: value => some (String.ofList value)
  | value => some (String.ofList value)

/-- The arguments that are settled. -/
structure Given where
  graph : Option String := none
  options : List (Opt × String) := []
  annotate : Bool := false
  deriving DecidableEq, Repr

/-- The value of an option. -/
def Given.get? (given : Given) (opt : Opt) : Option String :=
  given.options.lookup opt

/-- An argument that waits to be settled. -/
inductive Pending where
  | nothing
  /-- An option without its value. -/
  | bare (opt : Opt)
  /-- An option and the word after it. -/
  | valued (opt : Opt) (value : String)
  /-- A plain word. -/
  | graph (path : String)
  deriving DecidableEq, Repr

/-- Where the scan of a command line stands. -/
structure Scan where
  given : Given := {}
  pending : Pending := .nothing
  /-- Whether there was a plain word already. -/
  hasGraph : Bool := false
  /-- Whether the word `--` has been met. -/
  separated : Bool := false
  deriving DecidableEq, Repr

/-- Settle the value of an option, which may be given only once. -/
def Given.settle (given : Given) (opt : Opt) (value : String) : Except UsageError Given :=
  if (given.get? opt).isSome then .error .argumentConflict
  else if opt.isPath ∧ value = "" then .error .invalidValue
  else .ok { given with options := given.options ++ [(opt, value)] }

/-- Settle the argument that waits. -/
def Scan.settle (scan : Scan) : Except UsageError Given :=
  match scan.pending with
  | .nothing => .ok scan.given
  | .bare _ => .error .invalidValue
  | .valued opt value => scan.given.settle opt value
  | .graph path =>
      if path = "" then .error .invalidValue else .ok { scan.given with graph := some path }

/-- Take an option, with the value attached to it if there is one. -/
def Scan.option (scan : Scan) (opt : Opt) (attached : Option String) : Except UsageError Scan := do
  let given ← scan.settle
  match attached with
  | none => return { scan with given, pending := .bare opt }
  | some value => return { scan with given := ← given.settle opt value, pending := .nothing }

/-- Take a switch, with the value attached to it if there is one. -/
def Scan.switch (scan : Scan) (attached : Option String) : Switch → Except UsageError Scan
  | .option opt => scan.option opt attached
  | .annotate => do
      if attached.isSome then .error .tooManyValues
      let given ← scan.settle
      if given.annotate then .error .argumentConflict
      return { scan with given := { given with annotate := true }, pending := .nothing }
  | .help => do
      if attached.isSome then .error .tooManyValues
      let _ ← scan.settle
      .error .displayHelp

/-- Take a plain word that is no value. Only one is expected. -/
def Scan.positional (scan : Scan) (text : String) : Except UsageError Scan := do
  if scan.hasGraph then .error .unknownArgument
  let given ← scan.settle
  return { scan with given, pending := .graph text, hasGraph := true }

/-- Take a plain word, which is the value of an option that waits for one. -/
def Scan.plain (scan : Scan) (text : String) : Except UsageError Scan :=
  match scan.pending with
  | .bare opt => .ok { scan with pending := .valued opt text }
  | _ => scan.positional text

/-- Take one word. -/
def Scan.word (command : Command) (scan : Scan) (text : String) : Except UsageError Scan :=
  if scan.separated then scan.positional text
  else
    match Word.ofString text with
    | .separator => .ok { scan with separated := true }
    | .long name value =>
        match command.long? name with
        | none => .error .unknownArgument
        | some switch => scan.switch value switch
    | .short name rest =>
        match command.short? name with
        | none => .error .unknownArgument
        | some .help => scan.switch none .help
        | some switch => scan.switch (attached? rest) switch
    | .plain text => scan.plain text

/-- Take all words. -/
def Scan.words (command : Command) (scan : Scan) : List String → Except UsageError Scan
  | [] => .ok scan
  | text :: rest => do Scan.words command (← scan.word command text) rest

/-- The automaton comes from a graph or from a pattern, and a pattern needs a generator. -/
def Given.check (given : Given) : Except UsageError Unit :=
  if given.graph.isSome ∧ (given.get? .pattern).isSome then .error .argumentConflict
  else if (given.get? .pattern).isSome ∧ (given.get? .generator).isNone then
    .error .missingRequiredArgument
  else .ok ()

/-- Where the arguments say the automaton comes from. -/
def Given.input (given : Given) : Input where
  graph := given.graph
  pattern := given.get? .pattern
  generator := given.get? .generator

/-- The command with the arguments given to it. -/
def Command.withArguments (given : Given) : Command → Invocation
  | .compile =>
      .compile
        { input := given.input
          output := given.get? .output
          lookup := given.get? .lookup
          template := given.get? .template
          window := (given.get? .window).getD "num_bytes"
          annotate := given.annotate }
  | .check => .check given.input
  | .lookup => .lookup given.input (given.get? .output)
  | .stats => .stats given.input

/-- The invocation that the words after a command spell out. -/
def Command.parse (command : Command) (words : List String) : Except UsageError Invocation := do
  let scan ← Scan.words command {} words
  let given ← scan.settle
  given.check
  return command.withArguments given

/-- What the words after `help` ask for. -/
def helpError : List String → UsageError
  | [] => .displayHelp
  | [name] =>
      if name = "help" ∨ (Command.ofName? name).isSome then .displayHelp else .invalidSubcommand
  | _ => .invalidSubcommand

/-- What is wrong with a first word that is no command. -/
def wordError : Word → UsageError
  | .long "help" none => .displayHelp
  | .long "help" (some _) => .tooManyValues
  | .short 'h' _ => .displayHelp
  | .plain _ => .invalidSubcommand
  | _ => .unknownArgument

/-- What is wrong with the words after a leading `--`. -/
def separatedError : List String → UsageError
  | [] => .displayHelpOnMissing
  | name :: _ =>
      if name = "help" ∨ (Command.ofName? name).isSome then .unknownArgument
      else .invalidSubcommand

/-- The invocation that a command line spells out. -/
def parse : List String → Except UsageError Invocation
  | [] => .error .displayHelpOnMissing
  | first :: rest =>
      match Command.ofName? first with
      | some command => command.parse rest
      | none =>
          if first = "help" then .error (helpError rest)
          else if first = "--" then .error (separatedError rest)
          else .error (wordError (Word.ofString first))

end Invocation

end ScanCircuit
