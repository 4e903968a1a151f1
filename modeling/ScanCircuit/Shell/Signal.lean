import ScanCircuit.Shell.State

/-!
# Traps

What a shell does on signals. The end of the shell counts as a signal with number zero.

This is a part of the shell that a generator may run in. It serves to run generators from
the command line only; no theorem depends on it.
-/

namespace ScanCircuit.Shell

/-- The names of the signals in the order of their numbers. Some have only a number. -/
def signalNames : List Bytes :=
  ["EXIT", "HUP", "INT", "QUIT", "ILL", "TRAP", "ABRT", "BUS", "FPE", "KILL", "USR1", "SEGV",
   "USR2", "PIPE", "ALRM", "TERM", "16", "CHLD", "CONT", "STOP", "TSTP", "TTIN", "TTOU", "URG",
   "XCPU", "XFSZ", "VTALRM", "PROF", "WINCH", "IO", "PWR", "SYS", "32", "33", "RTMIN"].map
      String.toList ++
    (List.range 15).map (fun place => "RTMIN+".toList ++ Bytes.ofNat (place + 1)) ++
    (List.range 14).map (fun place => "RTMAX-".toList ++ Bytes.ofNat (14 - place)) ++
    ["RTMAX".toList]

/-- What is said about a process that a signal has ended. -/
def signalWords : List String :=
  ["", "Hangup", "Interrupt", "Quit", "Illegal instruction", "Trace/breakpoint trap", "Aborted",
   "Bus error", "Floating point exception", "Killed", "User defined signal 1",
   "Segmentation fault", "User defined signal 2", "Broken pipe", "Alarm clock", "Terminated",
   "Stack fault", "Child exited", "Continued", "Stopped (signal)", "Stopped",
   "Stopped (tty input)", "Stopped (tty output)", "Urgent I/O condition",
   "CPU time limit exceeded", "File size limit exceeded", "Virtual timer expired",
   "Profiling timer expired", "Window changed", "I/O possible", "Power failure",
   "Bad system call"]

/-- What is said about a process that a signal has ended; nothing about some signals. -/
def signalNotice (number : Nat) : Bytes :=
  if number = 2 ∨ number = 13 then []
  else
    match signalWords[number]? with
    | some words => words.toList ++ ['\n']
    | none => "Real-time signal ".toList ++ Bytes.ofNat (number - 34) ++ ['\n']

/-- Whether a signal does nothing to a process that has no trap for it. -/
def isHarmlessSignal (number : Nat) : Bool :=
  [17, 18, 19, 20, 21, 22, 23, 28].contains number

/-- The number of a signal that a word spells with digits. -/
def signalNumber? (word : Bytes) : Option Nat :=
  if word ≠ [] ∧ word.all Char.isDigit ∧ Bytes.toNat word < 65 then some (Bytes.toNat word)
  else none

/-- The number of a signal. -/
def signal? (word : Bytes) : Option Nat :=
  (signalNumber? word).orElse fun _ => signalNames.findIdx? (· = word.map Char.toUpper)

/-- A text in quotes, as a shell reads it: single quotes stand in double quotes, and the rest
in single quotes. -/
def quotedFrom (collected : Bytes) (inDouble : Bool) : Bytes → Bytes
  | [] => close collected inDouble
  | char :: rest =>
      if (char = '\'') = inDouble then quotedFrom (char :: collected) inDouble rest
      else close collected inDouble ++ quotedFrom [char] (char = '\'') rest
where
  /-- The collected bytes, last first, in quotes. -/
  close (collected : Bytes) (inDouble : Bool) : Bytes :=
    let mark := if inDouble then '"' else '\''
    mark :: collected.reverse ++ [mark]

/-- A value in quotes, as a shell reads it. -/
def singleQuoted (value : Bytes) : Bytes :=
  quotedFrom [] false value

/-- The traps as commands that set them. -/
def Process.trapList (process : Process) : Bytes :=
  (List.range 65).flatMap fun number =>
    match process.traps.lookup number with
    | some action =>
        "trap -- ".toList ++ singleQuoted action ++ [' '] ++
          (signalNames[number]?).getD (Bytes.ofNat number) ++ ['\n']
    | none => []

/-- Set or reset the traps for some signals. -/
def setTraps (action : Option Bytes) : List Bytes → Step Nat
  | [] => return 0
  | word :: rest => do
      match signal? word with
      | none =>
          emit 2 ("trap: ".toList ++ word ++ ": bad trap\n".toList)
          return 1
      | some number =>
          modify fun process =>
            let others := process.traps.filter (·.1 ≠ number)
            { process with
              traps :=
                match action with
                | some action => (number, action) :: others
                | none => others }
          setTraps action rest

end ScanCircuit.Shell
