import ScanCircuit.Shell.State

/-!
# Options of a shell

The options that a shell is started with or that `set` changes: by letter, several in a
word, or by name after `-o`. A plus sign in the place of the minus sign turns an option
off.

This is a part of the shell that a generator may run in. It serves to run generators from
the command line only; no theorem depends on it.
-/

namespace ScanCircuit.Shell

/-- The names of the options, with their letters. The last two have none. -/
def optionNames : List (Bytes × Char) :=
  [("errexit", 'e'), ("noglob", 'f'), ("ignoreeof", 'I'), ("interactive", 'i'), ("monitor", 'm'),
   ("noexec", 'n'), ("stdin", 's'), ("xtrace", 'x'), ("verbose", 'v'), ("vi", 'V'),
   ("emacs", 'E'), ("noclobber", 'C'), ("allexport", 'a'), ("notify", 'b'), ("nounset", 'u'),
   ("privileged", 'p'), ("nolog", '\x00'), ("debug", '\x01')].map fun (name, letter) =>
    (name.toList, letter)

/-- A list of the options: for reading, or as commands that set them. -/
def Process.optionList (process : Process) (readable : Bool) : Bytes :=
  let line (name : Bytes) (letter : Char) : Bytes :=
    if readable then
      name ++ List.replicate (16 - name.length) ' ' ++
        (if process.has letter then "on\n" else "off\n").toList
    else (if process.has letter then "set -o " else "set +o ").toList ++ name ++ ['\n']
  (if readable then "Current option settings\n".toList else []) ++
    optionNames.flatMap fun (name, letter) => line name letter

/-- What the words of a command line ask of a shell. -/
structure Request where
  process : Process
  /-- Whether the script is one of the words. -/
  script : Bool := false
  /-- The words that are no options. -/
  rest : List Bytes := []
  /-- Whether the arguments are to be replaced even if no words are left. -/
  replace : Bool := false
  /-- What is to be printed. -/
  output : Bytes := []

/-- Take an option by its name. -/
def Request.named (request : Request) (on : Bool) (name : Bytes) : Except Bytes Request :=
  match optionNames.lookup name with
  | some letter => .ok { request with process := request.process.withOption letter on }
  | none => .error ("Illegal option -o ".toList ++ name)

/-- Take the letters of a word. An `o` takes the next word, so the words after it are
returned. `starting` says whether a shell is being started. -/
def Request.letters (starting on : Bool) (rest : List Bytes) (request : Request) :
    Bytes → Except Bytes (Request × List Bytes)
  | [] => .ok (request, rest)
  | letter :: letters =>
      if letter = 'c' ∧ starting then
        Request.letters starting on rest { request with script := true } letters
      else if letter = 'l' ∧ starting then
        -- A login shell has no profile to read here.
        Request.letters starting on rest request letters
      else if letter = 'o' then
        match rest with
        | [] =>
            Request.letters starting on rest
              { request with output := request.output ++ request.process.optionList on } letters
        | name :: rest => do
            let request ← request.named on name
            Request.letters starting on rest request letters
      else if letter.isAlpha ∧ optionNames.any (·.2 = letter) then
        Request.letters starting on rest
          { request with process := request.process.withOption letter on } letters
      else .error ("Illegal option -".toList ++ [letter])

/-- Take options from the front of the words. -/
def Request.take (starting : Bool) : Nat → Request → List Bytes → Except Bytes Request
  | 0, request, words => .ok { request with rest := words }
  | _ + 1, request, [] => .ok request
  | fuel + 1, request, word :: rest =>
      match word with
      | ['-'] =>
          let process :=
            if starting then request.process
            else (request.process.withOption 'x' false).withOption 'v' false
          .ok { request with process, rest }
      | ['-', '-'] => .ok { request with rest, replace := true }
      | '-' :: letters => do
          let (request, rest) ← request.letters starting true rest letters
          request.take starting fuel rest
      | '+' :: letters => do
          let (request, rest) ← request.letters starting false rest letters
          request.take starting fuel rest
      | _ => .ok { request with rest := word :: rest }

/-- What words ask of a shell that is being started or is running. -/
def Process.request (process : Process) (starting : Bool) (words : List Bytes) :
    Except Bytes Request :=
  Request.take starting (words.length + 1) { process } words

end ScanCircuit.Shell
