import ScanCircuit.Shell.Arguments
import ScanCircuit.Shell.Signal

/-!
# Jobs

Commands in the background, which have ended by the time that the shell goes on, and signals
between processes.

This is a part of the shell that a generator may run in. It serves to run generators from
the command line only; no theorem depends on it.
-/

namespace ScanCircuit.Shell

/-- The job that a word after a percent sign stands for. -/
def Process.job? (process : Process) (word : Bytes) : Option Job :=
  match word with
  | '%' :: digits =>
      if digits ≠ [] ∧ digits.all Char.isDigit ∧ Bytes.toNat digits ≠ 0 then
        process.jobs.reverse[Bytes.toNat digits - 1]?
      else none
  | _ => none

/-- Refuse to do something with jobs, as there are none left. -/
def refuseJobs (letters : Bytes) (args : List Bytes) : Step Nat := do
  let (_, args) ← lettersFrom letters none args
  match args with
  | [] => fault "No current job".toList
  | word :: _ =>
      if word = ['%', '%'] ∨ word = ['%', '+'] ∨ word = ['%'] then fault "No current job".toList
      else fault ("No such job: ".toList ++ word)

/-- List the jobs that go on. -/
def jobsBuiltin (args : List Bytes) : Step Nat := do
  let (_, words) ← lettersFrom ['l', 'p'] none args
  if words = [] then return 0 else refuseJobs ['l', 'p'] args

/-- Wait for commands in the background. The status is that of the last one. -/
def waitAll (status : Nat) : List Bytes → Step Nat
  | [] => return status
  | word :: rest => do
      let process ← get
      if word.head? = some '%' then
        match process.job? word with
        | some job => waitAll job.status rest
        | none => fault ("No such job: ".toList ++ word)
      else
        let pid ← numberOf word
        let job := process.jobs.find? (·.pid = pid)
        waitAll ((job.map Job.status).getD status) rest

/-- Wait for commands in the background. -/
def waitBuiltin (args : List Bytes) : Step Nat := do
  let (_, args) ← lettersFrom [] none args
  waitAll (if args = [] then 0 else 127) args

/-- The number of a signal that can be sent. -/
def sentSignal? (word : Bytes) : Option Nat :=
  if word.map Char.toUpper = "EXIT".toList then none else signal? word

/-- The number of the signal that an option names. -/
def namedSignal (word : Bytes) : Step Nat :=
  match sentSignal? word with
  | some number => return number
  | none => fault ("invalid signal number or name: ".toList ++ word)

/-- What `kill` is asked for. -/
structure KillRequest where
  signal : Option Nat := none
  /-- Whether signals are to be listed. -/
  list : Bool := false
  /-- The processes, or the statuses to explain. -/
  targets : List Bytes := []
  deriving DecidableEq, Repr

/-- Read options by letters. -/
def killLetters (request : KillRequest) : Nat → List Bytes → Step KillRequest
  | 0, rest => return { request with targets := rest }
  | fuel + 1, args => do
      match args with
      | ['-', '-'] :: rest => return { request with targets := rest }
      | ['-', 's'] :: rest =>
          match rest with
          | [] => fault "No arg for -s option".toList
          | word :: rest =>
              let number ← namedSignal word
              killLetters { request with signal := some number } fuel rest
      | ('-' :: 's' :: word) :: rest =>
          let number ← namedSignal word
          killLetters { request with signal := some number } fuel rest
      | ['-', 'l'] :: rest => killLetters { request with list := true } fuel rest
      | ('-' :: 'l' :: letters) :: rest =>
          killLetters { request with list := true } fuel (('-' :: letters) :: rest)
      | ('-' :: letter :: _) :: _ => fault ("Illegal option -".toList ++ [letter])
      | rest => return { request with targets := rest }

/-- Read the arguments of `kill`. The first one may be a signal after a minus sign. -/
def killArguments (args : List Bytes) : Step KillRequest :=
  match args with
  | ('-' :: word) :: rest =>
      match sentSignal? word with
      | some number => return { signal := some number, targets := rest }
      | none => killLetters {} (args.flatten.length + args.length) args
  | _ => return { targets := args }

/-- Send a signal to a process. -/
def sendSignal (number : Nat) (word : Bytes) : Step Nat := do
  let missing : Step Nat := do
    warn "No such process\n".toList
    return 1
  match word with
  | '%' :: _ =>
      match (← get).job? word with
      | some _ => missing
      | none => fault ("No such job: ".toList ++ word)
  | '-' :: group =>
      let _ ← numberOf group
      missing
  | _ =>
      let pid ← numberOf word
      let process ← get
      if 1 < pid ∧ pid ≤ process.world.started then
        let world := process.world
        if number ≠ 0 then
          set { process with world := { world with signals := world.signals ++ [(pid, number)] } }
        return 0
      else missing

/-- Send a signal to processes. -/
def sendAll (number status : Nat) : List Bytes → Step Nat
  | [] => return status
  | word :: rest => do
      let sent ← sendSignal number word
      sendAll number (max status sent) rest

/-- List the signals, or say which one has led to a status. -/
def listSignals : List Bytes → Step Nat
  | [] => output (Bytes.join ['\n'] (['0'] :: signalNames.drop 1) ++ ['\n'])
  | word :: _ => do
      let status ← numberOf word
      let number := if status > 128 then status - 128 else status
      match signalNames[number]? with
      | some name =>
          if number = 0 then complain word else output (name ++ ['\n'])
      | none => complain word
where
  /-- No signal leads to a status. -/
  complain (word : Bytes) : Step Nat :=
    fault ("invalid signal number or exit status: ".toList ++ word)

/-- Send a signal, or list the signals. -/
def killBuiltin (args : List Bytes) : Step Nat := do
  let request ← killArguments args
  if request.list ∧ request.signal.isNone then listSignals request.targets
  else if request.list ∨ request.targets = [] then
    fault ("Usage: kill [-s sigspec | -signum | -sigspec] [pid | job]... or\n" ++
      "kill -l [exitstatus]").toList
  else sendAll (request.signal.getD 15) 0 request.targets

end ScanCircuit.Shell
