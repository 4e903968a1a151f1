import ScanCircuit.Shell.Redirection
import ScanCircuit.Shell.Search

/-!
# Running commands

A command is run by running the commands inside it. Here `run` stands for that: it is what
runs a command one level further down, told whether the status of the command is looked at
by what it stands in. A status other than zero that nothing looks at may end the shell.

This is a part of the shell that a generator may run in. It serves to run generators from
the command line only; no theorem depends on it.
-/

namespace ScanCircuit.Shell

/-- Run a command, told whether its status is looked at. -/
abbrev Runner := Bool → Command → Step Unit

section Running

variable (run : Runner)

/-- The lines of a script that have been read when so many bytes are left. -/
def Scanner.shownAt (scanner : Scanner) (left : Nat) : Bytes :=
  let taken := scanner.rest.take (scanner.rest.length - left)
  let others := scanner.rest.drop taken.length
  if taken.getLast? = some '\n' then taken
  else taken ++ others.takeWhile (· ≠ '\n') ++ (others.dropWhile (· ≠ '\n')).take 1

/-- Run the lines of a script one after another, and say whether there was a command. Each
line takes effect before the next one is read. `verbose` says whether lines can be shown as
they are read. -/
def runLines (verbose tested : Bool) : Nat → Bool → Scanner → Step Bool
  | 0, ran, _ => return ran
  | fuel + 1, ran, scanner => do
      let process ← get
      let scanner :=
        { scanner with
          documents := process.documents
          nextDocument := process.nextDocument
          aliases := process.aliases }
      match scanner.nextLine with
      | .error error =>
          if verbose ∧ process.has 'v' then emit 2 (scanner.shownAt error.left)
          setLine error.line
          fault ("Syntax error: ".toList ++ error.message.toList)
      | .ok (command, after) =>
          set { process with
            documents := after.documents
            nextDocument := after.nextDocument
            reached := after.line }
          if verbose ∧ process.has 'v' then
            emit 2 (scanner.rest.take (scanner.rest.length - after.rest.length))
          match command with
          | none => return ran
          | some (.sequence []) => runLines verbose tested fuel ran after
          | some command =>
              run tested command
              if (← get).skip.isSome then return true
              else runLines verbose tested fuel true after

/-- Run a script. Its status is zero if it holds no command. -/
def runScript (verbose tested : Bool) (script : Bytes) : Step Unit := do
  let reached := (← get).reached
  let ran ← runLines run verbose tested plenty false { rest := script }
  modify ({ · with reached })
  if ran then return () else setStatus 0

/-- Do something, and then what the shell has been asked to do at its end. -/
def withTrap (body : Step Unit) : Step Unit := fun process =>
  let (result, process) := body.run.run process
  match result, process.traps.lookup 0 with
  | .error .replaced, _ | .error .killed, _ | _, none => (.ok (), process)
  | _, some action =>
      let status := process.status
      let ending :=
        { process with
          traps := process.traps.filter (·.1 ≠ 0)
          skip := none
          loops := 0
          builtin := []
          ending := some status }
      match (runScript run false false action).run.run ending with
      | (.error _, process) => (.ok (), process)
      | (.ok (), process) => (.ok (), { process with status })

/-- The output of a command without the line ends after it. -/
def substitute (body : Command) : Step Bytes := do
  let process ← get
  let (number, world) := process.world.add (.sink [])
  set { process with world }
  let status ← apart (·.withDescriptor 1 number) (withTrap run (run false body))
  modify ({ · with substituted := status })
  let bytes := ((← get).world.collected number).filter (· ≠ '\x00')
  return (bytes.reverse.dropWhile (· = '\n')).reverse

/-! ## Programs -/

/-- Print what a tool has printed. The first output that cannot be written ends it. -/
def printAll (name : Bytes) : List Tool.Write → Step Bool
  | [] => return true
  | .err bytes :: rest => do
      emit 2 bytes
      printAll name rest
  | .out bytes :: rest => do
      let process ← get
      if bytes = [] then printAll name rest
      else
        match process.write 1 bytes with
        | .ok process =>
            set process
            printAll name rest
        | .error error =>
            emit 2 (name ++ ": write error: ".toList ++ error.words.toList ++ ['\n'])
            return false

/-- Run a tool. -/
def runTool (tool : Tool.Start → Tool.Ran) (name : Bytes) (args : List Bytes) : Step Unit := do
  let process ← get
  let ran := tool
    { name, args
      entry := process.entry
      readAt := process.readAt
      stdin := process.unread 0
      isInputOpen := (process.descriptors.lookup 0).isSome
      target := (process.descriptors.lookup 1).bind process.world.locationOf?
      environment := process.environment }
  let process :=
    if ran.tookInput then
      process.skipBytes 0 ((process.unread 0).toOption.map List.length |>.getD 0)
    else process
  set process
  let printed ← printAll name ran.writes
  setStatus (if printed then ran.status else max ran.status 1)

/-- The variables that a shell starts with, given the number of its parent. -/
def startBindings (parent : Nat) (environment : List (Bytes × Bytes)) :
    List (Bytes × Binding) :=
  [("IFS", " \t\n"), ("OPTIND", "1"), ("PPID", parent.repr), ("PS1", "# "), ("PS2", "> "),
   ("PS4", "+ ")].map
      (fun (name, value) => (name.toList, { value := some value.toList })) ++
    environment.map fun (name, value) => (name, { value := some value, exported := true })

/-- Run a script from a file. -/
def runFile (path : Bytes) : Step Unit := do
  match (← get).openInput spareDescriptor path with
  | .ok opened =>
      match opened.unread spareDescriptor with
      | .ok script =>
          let process := opened.skipBytes spareDescriptor script.length
          set (process.withoutDescriptor spareDescriptor)
          runScript run true false (script.filter (· ≠ '\x00'))
      | .error _ => return ()
  | .error _ => return ()

/-- What a shell does with its arguments. -/
def startShell (args : List Bytes) : Step Unit := do
  match (← get).request true args with
  | .error message => fault message
  | .ok request =>
      set request.process
      emit 1 request.output
      if request.script then
        match request.rest with
        | [] => fault "-c requires an argument".toList
        | script :: rest =>
            modify fun process =>
              { process with name := rest.head?.getD process.name, args := rest.drop 1 }
            runScript run false false script
      else
        match request.process.has 's', request.rest with
        | false, path :: rest =>
            match request.process.openInput 0 path with
            | .error error => fault (openFailure .read path error)
            | .ok _ =>
                modify fun process => { process with name := path, args := rest }
                runFile run path
        | _, rest =>
            let script := (request.process.unread 0).toOption.getD []
            modify fun process =>
              { (process.skipBytes 0 script.length).withOption 's' true with args := rest }
            runScript run true false script

/-- Run a shell as a program. -/
def runShell (name : Bytes) (args : List Bytes) : Step Unit := do
  let fresh (process : Process) : Process :=
    let place : Binding := { value := some (pathTo process.here), exported := true }
    let process : Process :=
      { world := process.world.start
        pid := process.world.started + 1
        here := process.here
        descriptors := process.descriptors
        name
        mask := process.mask
        bindings := startBindings process.pid process.environment }
    process.bind "PWD".toList (some place)
  let (status, ended) ← inCopy fresh (withTrap run (startShell run args)) fun copy =>
    (copy.status % 256, copy.ended)
  modify ({ · with status, ended })

/-- Run a program that has been found. -/
def runProgram (program : String) (name : Bytes) (args : List Bytes) : Step Unit := do
  if program = "sh" ∨ program = "dash" then runShell run name args
  else
    match Tool.shelf.lookup program with
    | some tool =>
        if program = "cat" ∧ ((← get).descriptors.lookup 1).isNone then
          emit 2 (name ++ ": standard output: Bad file descriptor\n".toList)
          setStatus 1
        else runTool tool name args
    | none => setStatus 127

/-- Look for a program and run it; say whether there is one. `becoming` says whether the shell
is to become that program. -/
def runNamed (becoming : Bool) (name : Bytes) (args : List Bytes) : Step Bool := do
  match (← get).program name with
  | .ok program =>
      track name
      runProgram run program name args
      return true
  | .error error =>
      let searched := !becoming && !name.contains '/'
      let (message, status) := programFailure searched name error
      warn message
      setStatus status
      return false

/-! ## Builtins that run other commands -/

/-- Run the words as a script. -/
def evalBuiltin (tested : Bool) (args : List Bytes) : Step Nat := do
  runScript run false tested (Bytes.join [' '] args)
  return (← get).status

/-- The file that a name stands for when it is read as a part of the script. -/
def Process.scriptPath (process : Process) (name : Bytes) : Option Bytes :=
  if name.contains '/' then some name
  else
    (process.candidates name).find? fun path =>
      match process.entryAt path with
      | .ok (_, .file _) | .ok (_, .program) => true
      | _ => false

/-- Read a file as a part of the script. -/
def dotBuiltin (args : List Bytes) : Step Nat := do
  let (_, args) ← lettersFrom [] none args
  match args with
  | [] => return 0
  | name :: _ =>
      let process ← get
      match process.scriptPath name with
      | none => fault (name ++ ": not found".toList)
      | some path =>
          match process.openInput 0 path with
          | .error error => fault (openFailure .read path error)
          | .ok _ =>
              set { process with builtin := path }
              runFile run path
              modify fun process =>
                if process.skip = some .leaveFunction then { process with skip := none }
                else process
              return (← get).status

/-- Become another program. -/
def execBuiltin (args : List Bytes) : Step Nat := do
  match args with
  | [] => return 0
  | name :: rest =>
      let found ← runNamed run true name rest
      throw (if found then .replaced else .exit)

/-- The builtin of a name. -/
def builtin? (tested : Bool) (name : Bytes) : Option Builtin :=
  match Bytes.key name with
  | "." => some (dotBuiltin run)
  | "eval" => some (evalBuiltin run tested)
  | "exec" => some (execBuiltin run)
  | "hash" => some hashBuiltin
  | "type" => some (describeAll true 0 [])
  | _ => (specialCommands ++ plainBuiltins).lookup name

/-! ## Simple commands -/

/-- The commands whose arguments may be assignments. -/
def assigningBuiltins : List Bytes :=
  ["alias", "export", "local", "readonly"].map String.toList

/-- Expand the words of a command. Assignments among the arguments of some builtins are not
split. -/
def expandCommand (fields : List Bytes) : List Word → Step (List Bytes)
  | [] => return fields
  | word :: rest => do
      let assigning := (fields.find? (· ≠ "command".toList)).any assigningBuiltins.contains
      let more ←
        match assigning, assignment? word with
        | true, some (name, value) => do
            let value ← expandValue (substitute run) value
            pure [name ++ '=' :: value]
        | _, _ => expandFields (substitute run) word
      expandCommand (fields ++ more) rest

/-- Expand assignments and carry them out one after another, and return their texts. `own`
says whether they are for one command only. -/
def assignAll (own exported : Bool) : List (Bytes × Word) → Step (List Bytes)
  | [] => return []
  | (name, word) :: rest => do
      let value ← expandValue (substitute run) word
      if own then modify (·.hide name)
      if exported then assignExported name value else assign name value
      return (name ++ '=' :: value) :: (← assignAll own exported rest)

/-- The most functions that run inside functions. -/
def maxCalls : Nat := 1000

/-- Call a function. The arguments come back also if the shell is about to end, so that they
are there for what it does at its end. -/
def callFunction (tested : Bool) (body : Command) (args : List Bytes) : Step Unit := do
  let before ← get
  if before.calls ≥ maxCalls then
    fault "Maximum function recursion depth (1000) reached".toList
  let leave (process : Process) : Process :=
    { process with
      args := before.args
      loops := before.loops
      calls := before.calls
      taken := before.taken
      skip := if process.skip = some .leaveFunction then none else process.skip }
  set { before with args, loops := 0, calls := before.calls + 1, taken := {} }
  leaving leave (run tested body)

/-- Run a builtin. A mistake in it ends the shell if it is a special one. -/
def callBuiltin (special : Bool) (builtin : Builtin) (name : Bytes) (args : List Bytes) :
    Step Unit := do
  let outer := (← get).builtin
  modify ({ · with builtin := name })
  let mending (stop : Stop) : Step Nat :=
    if stop = .fault ∧ ¬special then return 2 else throw stop
  let status ← tryCatch (builtin args) mending
  modify ({ · with builtin := outer, status })

/-- What `command` is asked for. -/
inductive CommandUse where
  /-- Run a command that is no function. -/
  | call (words : List Bytes)
  /-- Say what names stand for. -/
  | describe (verbose : Bool) (names : List Bytes)
  | bad (letter : Char)
  deriving DecidableEq, Repr

/-- What the words after `command` ask for. -/
def commandUse : List Bytes → CommandUse
  | ['-', '-'] :: rest => .call rest
  | ('-' :: letter :: letters) :: rest =>
      match (letter :: letters).find? fun letter => !"pvV".toList.contains letter with
      | some bad => .bad bad
      | none =>
          if (letter :: letters).contains 'V' then .describe true rest
          else if (letter :: letters).contains 'v' then .describe false rest
          else .call rest
  | words => .call words

/-- Drop `command` from the front of words. The answer says whether it was there. -/
def stripCommand (stripped : Bool) : List Bytes → Bool × List Bytes
  | word :: rest =>
      if word = "command".toList then
        match commandUse rest with
        | .call words =>
            if words.length < rest.length then (true, words)
            else stripCommand true rest
        | _ => (stripped, word :: rest)
      else (stripped, word :: rest)
  | [] => (stripped, [])

/-- Carry out `command` where it is not followed by a command to run. -/
def commandBuiltin : Builtin := fun args => do
  match commandUse args with
  | .call _ => return 0
  | .describe verbose names => describeAll verbose 0 [] (names.take 1)
  | .bad letter => fault ("Illegal option -".toList ++ [letter])

/-- Carry out expanded words. -/
def dispatch (tested plain : Bool) (name : Bytes) (args : List Bytes) : Step Unit := do
  let process ← get
  let function := if plain then none else process.functions.lookup name
  let special := isSpecialBuiltin name
  match special, function with
  | false, some body => callFunction run tested body args
  | _, _ =>
      match
        if name = "command".toList then some commandBuiltin else builtin? run tested name with
      | some builtin => callBuiltin (special && !plain) builtin name args
      | none =>
          let _ ← runNamed run false name args
          return ()

/-- Expand a text the way that here-documents are. Nothing is shown meanwhile. -/
def expandPrompt (text : Bytes) : Step Bytes := do
  match ((nestedReaders maxNesting).parts .document).run { rest := text } with
  | .ok (word, _) =>
      let process ← get
      set (process.withOption 'x' false)
      let expanded ← expandText (substitute run) word
      modify ({ · with options := process.options, status := process.status })
      return expanded
  | .error error =>
      warn ("Syntax error: ".toList ++ error.message.toList)
      return text

/-- Show a command before it is run, where complaints went before its redirections. -/
def trace (before : List (Nat × Nat)) (words : List Bytes) : Step Unit := do
  let process ← get
  if process.has 'x' then
    modify ({ · with descriptors := before })
    let sign ← expandPrompt run ((process.valueOf? "PS4".toList).getD [])
    emit 2 (sign ++ Bytes.join [' '] words ++ ['\n'])
    modify ({ · with descriptors := process.descriptors })
  else return ()

/-- Carry out a simple command whose redirections are in place. `before` is where its
complaints went without them. -/
def runCalled (tested plain special : Bool) (before : List (Nat × Nat))
    (assignments : List (Bytes × Word)) (fields : List Bytes) : List Bytes → Step Unit
  | [] => do
      let texts ← assignAll run false false assignments
      trace run before (texts ++ fields)
      modify fun process => { process with status := process.substituted }
  | name :: args => do
      let exported := !special || name = "exec".toList
      let texts ← assignAll run (!special) exported assignments
      trace run before (texts ++ fields)
      modify ({ · with ended := none })
      dispatch run tested plain name args

/-- Run a simple command. One that is no special builtin has a scope of its own. -/
def runSimple (tested : Bool) (line : Nat) (assignments : List (Bytes × Word))
    (words : List Word) (redirects : List Redirect) : Step Unit := do
  modify ({ · with line, substituted := 0 })
  let fields ← expandCommand run [] words
  let (plain, called) := stripCommand false fields
  let name := called.head?.getD []
  let special := called ≠ [] && isSpecialBuiltin name && !plain
  let scopes := (← get).hidden.length
  if called ≠ [] ∧ ¬special then modify Process.openScope
  let targets ← expandRedirects (substitute run) redirects
  let before := (← get).descriptors
  let carriedOut ← redirected (substitute run) targets fun succeeded => do
    if succeeded then
      runCalled run tested plain special before assignments fields called
      return some (← get).descriptors
    else
      setStatus 2
      if special then throw .fault else return none
  match carriedOut with
  | some descriptors =>
      -- What `exec` has redirected stays so.
      if name = "exec".toList then modify ({ · with descriptors })
      modify (·.closeScopes scopes)
      match (← get).ended with
      | some number => emit 2 (signalNotice number)
      | none => return ()
      modify ({ · with ended := none })
  | none => modify (·.closeScopes scopes)

/-! ## Compound commands -/

/-- After a round of a loop: whether the loop ends. -/
def endsLoop : Step Bool := do
  match (← get).skip with
  | none => return false
  | some (.leaveLoops count) =>
      modify ({ · with skip := if count ≤ 1 then none else some (.leaveLoops (count - 1)) })
      return true
  | some (.nextRound count) =>
      if count ≤ 1 then
        modify ({ · with skip := none })
        return false
      else
        modify ({ · with skip := some (.nextRound (count - 1)) })
        return true
  | some .leaveFunction => return true

/-- Run commands in a row until one asks to pass over the others. -/
def runRow (tested : Bool) : List Command → Step Unit
  | [] => return ()
  | command :: rest => do
      run tested command
      if (← get).skip.isSome then return () else runRow tested rest

/-- Run the body of a loop for each of some values. -/
def runEach (tested : Bool) (name : Bytes) (body : Command) : List Bytes → Step Unit
  | [] => return ()
  | value :: rest => do
      assign name value
      run tested body
      if ← endsLoop then return () else runEach tested name body rest

/-- Run the body of a loop while its condition answers as wanted. The status is that of the
last round. -/
def runLoop (tested positive : Bool) (condition body : Command) : Nat → Nat → Step Unit
  | 0, status => setStatus status
  | fuel + 1, status => do
      run true condition
      let answer := (← get).status
      let skip := (← get).skip
      let ended ← endsLoop
      if skip = some .leaveFunction then setStatus answer
      else if ended then setStatus status
      else if skip.isSome then runLoop tested positive condition body fuel status
      else if decide (answer = 0) ≠ positive then setStatus status
      else
        run tested body
        let status := (← get).status
        if ← endsLoop then setStatus status
        else runLoop tested positive condition body fuel status

/-- Do something inside one more loop. -/
def inLoop (body : Step Unit) : Step Unit := do
  modify fun process => { process with loops := process.loops + 1 }
  body
  modify fun process => { process with loops := process.loops - 1 }

/-- Whether one of some patterns matches. -/
def matchesAny (subject : Bytes) : List Word → Step Bool
  | [] => return false
  | word :: rest => do
      let glyphs ← expandGlyphs (substitute run) word
      if fits (patternOf glyphs) subject then return true else matchesAny subject rest

/-- Run the first arm with a pattern that matches. -/
def runArms (tested : Bool) (subject : Bytes) :
    List (List Word × Option Command) → Step Unit
  | [] => setStatus 0
  | (patterns, body) :: rest => do
      if ← matchesAny run subject patterns then
        match body with
        | some body => run tested body
        | none => setStatus 0
      else runArms tested subject rest

/-- Look for the program of a command that is to run in a shell of its own. -/
def foresee : Command → Step Unit
  | .simple _ _ ([.plain name] :: _) _ => do
      let process ← get
      if Bytes.isName name ∧ process.isSearched name ∧ (process.program name).isOk then track name
      else return ()
  | _ => return ()

/-- Run the commands of a pipeline, each on what the one before has printed. -/
def runPipeline (tested : Bool) (input : Option Bytes) : List Command → Step Unit
  | [] => return ()
  | command :: rest => do
      foresee command
      let process ← get
      let process :=
        match input with
        | some bytes => process.opening 0 (.source bytes)
        | none => process
      let (number, world) := process.world.add (.sink [])
      let before := (← get).descriptors
      let child := if rest.isEmpty then process else { process with world }.withDescriptor 1 number
      set child
      let status ← apart id (withTrap run (run tested command))
      modify ({ · with descriptors := before })
      let output := (← get).world.collected number
      if rest.isEmpty then setStatus status else runPipeline tested (some output) rest

/-- Run commands in a shell of their own. -/
def runSubshell (tested : Bool) (line : Nat) (body : Command) (redirects : List Redirect) :
    Step Unit := do
  setLine line
  let targets ← expandRedirects (substitute run) redirects
  let status ← apart id <| withTrap run do
    if ← redirectAll (substitute run) false [] targets then run tested body
    else
      setStatus 2
      throw .fault
  setStatus status

/-- End the shell if a status that nothing looks at is not zero and the shell insists. -/
def checkStatus (tested : Bool) : Step Unit := do
  let process ← get
  if process.has 'e' ∧ ¬tested ∧ process.status ≠ 0 then throw .exit else return ()

/-- Run a compound command with redirections around it. -/
def runRedirected (tested : Bool) (line : Nat) (body : Command) (redirects : List Redirect) :
    Step Unit := do
  setLine line
  let targets ← expandRedirects (substitute run) redirects
  redirected (substitute run) targets fun succeeded => do
    if succeeded then run tested body
    else
      setStatus 2
      checkStatus tested

/-- Answer signals, the lower numbers first. A signal without a trap ends the shell, unless it
does no harm. The status is the same afterwards. -/
def answerEach : List Nat → Step Unit
  | [] => return ()
  | number :: rest => do
      let process ← get
      match process.traps.lookup number, decide (number = 9) with
      | some action, false =>
          runScript run false false action
          match (← get).skip with
          | none =>
              setStatus process.status
              answerEach rest
          | some skip =>
              if skip ≠ .leaveFunction then setStatus process.status
              modify fun process =>
                let kept := rest.map (process.pid, ·)
                { process with world := { process.world with signals := kept } }
      | _, _ =>
          if isHarmlessSignal number then answerEach rest
          else
            modify ({ · with status := 128 + number, ended := some number })
            throw .killed

/-- Answer the signals that have been sent to the shell. Copies of it do not get them. -/
def answerSignals : Step Unit := do
  let process ← get
  let signals := process.world.signals
  if process.isCopy ∨ process.skip.isSome ∨ signals = [] then return ()
  else
    let own := (signals.filter (·.1 = process.pid)).map Prod.snd
    let others := signals.filter (·.1 ≠ process.pid)
    set { process with world := { process.world with signals := others } }
    answerEach run ((List.range 65).filter own.contains)

/-- Run a command. -/
def runCommand (tested : Bool) (command : Command) : Step Unit := do
  if (← get).has 'n' then return ()
  match command with
  | .simple line assignments words redirects =>
      runSimple run tested line assignments words redirects
      answerSignals run
      checkStatus tested
  | .sequence commands => runRow run tested commands
  | .pipeline commands =>
      runPipeline run tested none commands
      answerSignals run
      checkStatus tested
  | .background command => do
      modify fun process => { process with world := process.world.start }
      let job := (← get).world.started
      let status ← apart (·.opening 0 .null) (withTrap run (run false command))
      modify fun process =>
        { process with status := 0, jobs := ⟨job, status⟩ :: process.jobs }
  | .negated command =>
      run true command
      let process ← get
      if process.skip.isSome then return ()
      else setStatus (if process.status = 0 then 1 else 0)
  | .both first second =>
      run true first
      let process ← get
      if process.status = 0 ∧ process.skip.isNone then run tested second else return ()
  | .either first second =>
      run true first
      let process ← get
      if process.status ≠ 0 ∧ process.skip.isNone then run tested second else return ()
  | .branch condition positive negative =>
      run true condition
      let process ← get
      if process.skip.isSome then return ()
      else if process.status = 0 then run tested positive
      else
        match negative with
        | some negative => run tested negative
        | none => setStatus 0
  | .loop positive condition body =>
      inLoop (runLoop run tested positive condition body plenty 0)
  | .each line name words body =>
      setLine line
      match ← expandWords (substitute run) words with
      | [] => setStatus 0
      | values => inLoop (runEach run tested name body values)
  | .cases line subject arms =>
      setLine line
      let subject ← expandText (substitute run) subject
      runArms run tested subject arms
  | .subshell line body redirects =>
      runSubshell run tested line body redirects
      answerSignals run
      checkStatus tested
  | .redirected line body redirects => runRedirected run tested line body redirects
  | .function _ name body => do
      untrack name
      modify fun process =>
        { process with
          functions := (name, body) :: process.functions.filter (·.1 ≠ name)
          status := 0 }

end Running

/-- The most levels of commands that run inside commands. -/
def maxDepth : Nat := 20000

/-- Run commands with so many levels inside them. -/
def runner : Nat → Runner
  | 0 => fun _ _ => fault "nesting too deep".toList
  | depth + 1 => runCommand (runner depth)

end ScanCircuit.Shell
