import ScanCircuit.Shell.Words

/-!
# Reading commands

The grammar of commands. A script is read one complete line at a time, so that a line
takes effect before the next one is read; `Script.next` reads one.

This is a part of the shell that a generator may run in. It serves to run generators from
the command line only; no theorem depends on it.
-/

namespace ScanCircuit.Shell

/-- Whether a token ends a list of commands. -/
def Token.endsList : Token → Bool
  | .eof | .closing | .endCase => true
  | .keyword name =>
      ["do", "done", "elif", "else", "esac", "fi", "then", "\x7d"].any (·.toList = name)
  | _ => false

/-- Commands in a row. -/
def Command.row : List Command → Command
  | [only] => only
  | commands => .sequence commands

section Reading

variable (nested : Nested)

/-- Take a keyword. -/
def demand (name : String) : Reading Unit := do
  let token ← next nested .words
  if token.isKeyword name then return ()
  else unexpected token (some ("\"" ++ name ++ "\""))

/-- The target of a redirection. -/
def readTarget (sign : Sign) : Reading Redirect := do
  let look :=
    match sign with
    | .document _ _ => Look.mark
    | _ => .words
  match ← next nested look with
  | .word word quoted =>
      match sign with
      | .file fd mode => return .file fd mode word
      | .duplicate fd => return .duplicate fd word
      | .document fd strip =>
          let scanner ← get
          let doc : Awaited :=
            { id := scanner.nextDocument, mark := spelledText word, strip, verbatim := quoted }
          set { scanner with
            nextDocument := scanner.nextDocument + 1
            awaited := scanner.awaited ++ [doc] }
          return .document fd doc.id
  | token => unexpected token none

/-- What has been read of a simple command, last first. -/
structure Collected where
  assignments : List (Bytes × Word) := []
  words : List Word := []
  redirects : List Redirect := []

/-- The builtin commands that a function cannot be named after. -/
def specialBuiltins : List String :=
  [".", ":", "break", "continue", "eval", "exec", "exit", "export", "readonly", "return", "set",
    "shift", "times", "trap", "unset"]

/-- A function whose name has been read. -/
def readFunction (name : Word) : Reading Command := do
  let token ← next nested .words
  match token with
  | .closing =>
      match plainText? name with
      | some text =>
          if Bytes.isName text ∧ ¬specialBuiltins.contains (Bytes.key text) then
            let line := (← get).line
            pushBack (← next nested .commands)
            return .function line text (← nested.command)
          else refuse "Bad function name"
      | none => refuse "Bad function name"
  | _ => unexpected token (some "\")\"")

/-- A simple command, or the definition of a function. -/
def readSimple (line : Nat) (collected : Collected) : Nat → Reading Command
  | 0 => return finish collected
  | fuel + 1 => do
      match ← next nested (if collected.words.isEmpty then .aliases else .words) with
      | .word word _ =>
          match collected.words, assignment? word with
          | [], some found =>
              readSimple line { collected with assignments := found :: collected.assignments } fuel
          | _, _ =>
              readSimple line { collected with words := word :: collected.words } fuel
      | .keyword name =>
          readSimple line { collected with words := [.plain name] :: collected.words } fuel
      | .redirect sign =>
          let redirect ← readTarget nested sign
          readSimple line { collected with redirects := redirect :: collected.redirects } fuel
      | .opening =>
          match collected with
          | { assignments := [], words := [name], redirects := [] } => readFunction nested name
          | _ =>
              pushBack .opening
              return finish collected
      | token =>
          pushBack token
          return finish collected
where
  /-- The command that has been collected. -/
  finish (collected : Collected) : Command :=
    .simple line collected.assignments.reverse collected.words.reverse collected.redirects.reverse

/-- The redirections after a compound command. Only right after the command a word may be a
keyword. -/
def readRedirects (collected : List Redirect) : Nat → Reading (List Redirect)
  | 0 => return collected.reverse
  | fuel + 1 => do
      match ← next nested (if collected.isEmpty then .keywords else .words) with
      | .redirect sign =>
          let redirect ← readTarget nested sign
          readRedirects (redirect :: collected) fuel
      | token =>
          pushBack token
          return collected.reverse

/-- A command with the redirections after it. -/
def withRedirects (line : Nat) (command : Command) : Reading Command := do
  match ← readRedirects nested [] plenty with
  | [] => return command
  | redirects =>
      match command with
      | .subshell line body _ => return .subshell line body redirects
      | _ => return .redirected line command redirects

/-- The rest of a conditional after its first keyword. -/
def readBranch : Nat → Reading Command
  | 0 => return .sequence []
  | fuel + 1 => do
      let condition ← nested.list .block
      demand nested "then"
      let positive ← nested.list .block
      let token ← next nested .words
      if token.isKeyword "elif" then
        let negative ← readBranch fuel
        return .branch condition positive (some negative)
      else if token.isKeyword "else" then
        let negative ← nested.list .block
        demand nested "fi"
        return .branch condition positive (some negative)
      else if token.isKeyword "fi" then return .branch condition positive none
      else unexpected token (some "\"fi\"")

/-- Words up to the end of a line. -/
def readItems (items : List Word) : Nat → Reading (List Word)
  | 0 => return items.reverse
  | fuel + 1 => do
      match ← next nested .words with
      | .word word _ => readItems (word :: items) fuel
      | .newline | .semicolon => return items.reverse
      | token => unexpected token none

/-- The rest of a loop over words. -/
def readEach (line : Nat) : Reading Command := do
  match ← next nested .words with
  | .word word false =>
      match plainText? word with
      | some name =>
          if Bytes.isName name then
            let token ← next nested .commands
            let items ←
              if token.isKeyword "in" then readItems nested [] plenty
              else do
                match token with
                | .semicolon => pure ()
                | _ => pushBack token
                pure [[.parameter ['@'] .value true]]
            let token ← next nested .commands
            if token.isKeyword "do" then
              let body ← nested.list .block
              demand nested "done"
              return .each line name items body
            else unexpected token (some "\"do\"")
          else refuse "Bad for loop variable"
      | none => refuse "Bad for loop variable"
  | _ => refuse "Bad for loop variable"

/-- The word of a token, whatever its meaning. -/
def Token.asWord : Token → Word
  | .word found _ => found
  | .keyword name => [.plain name]
  | _ => []

/-- The patterns of an arm, of which the first has been read. -/
def readPatterns (patterns : List Word) : Nat → Reading (List Word)
  | 0 => return patterns.reverse
  | fuel + 1 => do
      match ← next nested .words with
      | .pipe =>
          let token ← next nested .words
          readPatterns (token.asWord :: patterns) fuel
      | .closing => return patterns.reverse
      | token => unexpected token (some "\")\"")

/-- The arms of a case distinction. -/
def readArms (arms : List (List Word × Option Command)) :
    Nat → Reading (List (List Word × Option Command))
  | 0 => return arms.reverse
  | fuel + 1 => do
      let token ← next nested .arms
      if token.isKeyword "esac" then return arms.reverse
      else
        let first ←
          match token with
          | .opening => next nested .words
          | _ => pure token
        let patterns ← readPatterns nested [first.asWord] plenty
        let body ← nested.list .loose
        let body :=
          match body with
          | .sequence [] => none
          | _ => some body
        let arms := (patterns, body) :: arms
        let token ← next nested .arms
        match token with
        | .endCase => readArms arms fuel
        | _ =>
            if token.isKeyword "esac" then return arms.reverse
            else unexpected token (some "\";;\"")

/-- A command. -/
def readCommand (look : Look) : Reading Command := do
  let token ← next nested look
  let line := (← get).line
  match token with
  | .word _ _ | .redirect _ =>
      pushBack token
      readSimple nested line {} plenty
  | .opening =>
      let body ← nested.list .block
      let token ← next nested .words
      match token with
      | .closing => withRedirects nested line (.subshell line body [])
      | _ => unexpected token (some "\")\"")
  | .keyword name =>
      match Bytes.key name with
      | "if" =>
          let command ← readBranch nested plenty
          withRedirects nested line command
      | "while" | "until" =>
          let condition ← nested.list .block
          demand nested "do"
          let body ← nested.list .block
          demand nested "done"
          withRedirects nested line (.loop (Bytes.key name = "while") condition body)
      | "for" =>
          let command ← readEach nested line
          withRedirects nested line command
      | "case" =>
          match ← next nested .words with
          | .word subject _ =>
              let token ← next nested .commands
              if token.isKeyword "in" then
                let arms ← readArms nested [] plenty
                withRedirects nested line (.cases line subject arms)
              else unexpected token (some "\"in\"")
          | token => unexpected token (some "word")
      | "\x7b" =>
          let body ← nested.list .block
          demand nested "\x7d"
          withRedirects nested line body
      | _ => unexpected token none
  | _ => unexpected token none

/-- The commands of a pipeline after the first. -/
def readPipes (commands : List Command) :
    Nat → Reading (List Command)
  | 0 => return commands.reverse
  | fuel + 1 => do
      match ← next nested .words with
      | .pipe =>
          let command ← readCommand nested .commands
          readPipes (command :: commands) fuel
      | token =>
          pushBack token
          return commands.reverse

/-- A pipeline. -/
def readPipeline (look : Look) : Reading Command := do
  let token ← next nested look
  let negated := token.isKeyword "!"
  if ¬negated then pushBack token
  let first ← readCommand nested .keywords
  let commands ← readPipes nested [first] plenty
  let command :=
    match commands with
    | [only] => only
    | _ => .pipeline commands
  return if negated then .negated command else command

/-- The pipelines of a condition after the first. -/
def readConditions (command : Command) : Nat → Reading Command
  | 0 => return command
  | fuel + 1 => do
      match ← next nested .words with
      | .andIf =>
          let second ← readPipeline nested .commands
          readConditions (.both command second) fuel
      | .orIf =>
          let second ← readPipeline nested .commands
          readConditions (.either command second) fuel
      | token =>
          pushBack token
          return command

/-- The commands of a list, last first. There are none at the end of a script. -/
def readList (extent : Extent) (started : Bool)
    (commands : List Command) : Nat → Reading (Option (List Command))
  | 0 => return some commands
  | fuel + 1 => do
      let token ← next nested (if extent = .line then .keywords else .commands)
      match token with
      | .newline =>
          readDocuments nested (← get).awaited
          return some commands
      | .eof =>
          readDocuments nested (← get).awaited
          pushBack .eof
          return if commands.isEmpty ∧ extent = .line then none else some commands
      | _ =>
          pushBack token
          if extent ≠ .line ∧ (started ∨ extent = .loose) ∧ token.endsList then
            return some commands
          else
            let first ← readPipeline nested .keywords
            let command ← readConditions nested first plenty
            let token ← next nested .words
            let command :=
              match token with
              | .ampersand => .background command
              | _ => command
            let commands := command :: commands
            match token with
            | .eof =>
                readDocuments nested (← get).awaited
                pushBack .eof
                return some commands
            | .newline =>
                pushBack .newline
                readList extent true commands fuel
            | .semicolon | .ampersand => readList extent true commands fuel
            | _ =>
                if extent = .line then unexpected token none
                else
                  pushBack token
                  return some commands

end Reading

/-- The readers of what stands inside commands, with so many levels of nesting. -/
def nestedReaders : Nat → Nested
  | 0 =>
      { parts := fun _ => refuse "nesting too deep"
        list := fun _ => refuse "nesting too deep"
        command := refuse "nesting too deep" }
  | depth + 1 =>
      let inner := nestedReaders depth
      { parts := fun zone => do readParts inner zone 0 [] plenty
        list := fun extent => do
          let commands ← readList inner extent false [] plenty
          return Command.row (commands.getD []).reverse
        command := readCommand inner .words }

/-- The commands of the next line of a script, unless the script has ended. -/
def Scanner.nextLine (scanner : Scanner) : Except SyntaxError (Option Command × Scanner) :=
  let nested := nestedReaders maxNesting
  let reading := readList nested .line false [] plenty
  match reading.run scanner with
  | .ok (commands, scanner) =>
      .ok (commands.map fun found => Command.row found.reverse, { scanner with pushed := none })
  | .error error => .error error

end ScanCircuit.Shell
