import Mathlib.Data.List.Forall2
import Mathlib.Data.List.Nodup
import ScanCircuit.Invocation

/-!
# Spellings of an invocation

The same invocation can be written on a command line in many ways: its arguments stand in any
order, and the value of an option is attached to it or follows as a word of its own.
`Invocation.SpelledOut` gathers these command lines, and `Invocation.parse_spelledOut` says that
each of them is read as the invocation.

A scan is followed argument by argument.  What counts of its state is `Scan.Reaches`: the
arguments that are given once the one that waits is settled.
-/

namespace ScanCircuit

namespace Invocation

/-! ## Spellings -/

/-- An argument of a command. -/
inductive Argument where
  | graph (path : String)
  | option (opt : Opt) (value : String)
  | annotate
  deriving DecidableEq

namespace Opt

/-- The name of an option after two dashes. -/
def longName : Opt → String
  | pattern => "pattern"
  | generator => "generator"
  | output => "output"
  | lookup => "lookup"
  | template => "template"
  | window => "window"

/-- The name of an option after a single dash, if it has one. -/
def shortName? : Opt → Option Char
  | pattern => some 'p'
  | output => some 'o'
  | _ => none

end Opt

/-- A word that is no option: a dash alone, or a word without a dash in front. -/
def Standalone (word : String) : Prop :=
  word = "-" ∨ word.toList.head? ≠ some '-'

/-- The words that an argument can be spelled with. -/
inductive Spells : Argument → List String → Prop where
  | long {opt : Opt} {value : String} :
      Standalone value → Spells (.option opt value) ["--" ++ opt.longName, value]
  | longAttached {opt : Opt} {value : String} :
      Spells (.option opt value) ["--" ++ opt.longName ++ "=" ++ value]
  | short {opt : Opt} {name : Char} {value : String} :
      opt.shortName? = some name → Standalone value →
      Spells (.option opt value) ["-" ++ String.singleton name, value]
  | shortAttached {opt : Opt} {name : Char} {value : String} :
      opt.shortName? = some name → value ≠ "" → value.toList.head? ≠ some '=' →
      Spells (.option opt value) ["-" ++ String.singleton name ++ value]
  | shortEquals {opt : Opt} {name : Char} {value : String} :
      opt.shortName? = some name → value ≠ "" →
      Spells (.option opt value) ["-" ++ String.singleton name ++ "=" ++ value]
  | annotate : Spells .annotate ["--annotate"]
  | graph {path : String} : Standalone path → Spells (.graph path) [path]

/-- The arguments that say where the automaton comes from. -/
def inputArguments (input : Input) : List Argument :=
  (input.graph.map .graph).toList ++ (input.pattern.map (.option .pattern)).toList ++
    (input.generator.map (.option .generator)).toList

/-- The arguments that give the parameters of an invocation. -/
def arguments : Invocation → List Argument
  | .compile args =>
      inputArguments args.input ++ (args.output.map (.option .output)).toList ++
        (args.lookup.map (.option .lookup)).toList ++
        (args.template.map (.option .template)).toList ++ [.option .window args.window] ++
        if args.annotate then [.annotate] else []
  | .check input | .stats input => inputArguments input
  | .lookup input output => inputArguments input ++ (output.map (.option .output)).toList

/-- Where the automaton of an invocation comes from. -/
def input : Invocation → Input
  | .compile args => args.input
  | .check input | .stats input | .lookup input _ => input

/-- The command of an invocation. -/
def command : Invocation → Command
  | .compile _ => .compile
  | .check _ => .check
  | .lookup _ _ => .lookup
  | .stats _ => .stats

/-- The name of a command. -/
def Command.name : Command → String
  | .compile => "compile"
  | .check => "check"
  | .lookup => "lookup"
  | .stats => "stats"

/-- The parameters agree with each other: the automaton comes from one place only, a pattern has
its generator, and no path is empty. -/
structure Coherent (invocation : Invocation) : Prop where
  oneSource : invocation.input.graph = none ∨ invocation.input.pattern = none
  generated : invocation.input.pattern ≠ none → invocation.input.generator ≠ none
  graphFilled : Argument.graph "" ∉ invocation.arguments
  pathsFilled : ∀ opt, opt.isPath → Argument.option opt "" ∉ invocation.arguments

/-- The arguments that are written, in any order.  A window with the default name may be left
out. -/
def Writes (invocation : Invocation) (written : List Argument) : Prop :=
  written.Perm invocation.arguments ∨
    written.Perm (invocation.arguments.erase (.option .window "num_bytes"))

/-- The words after the name of the command.  The graph may stand last, behind the separator. -/
inductive SpelledOut (invocation : Invocation) : List String → Prop where
  | plain {written : List Argument} {words : List (List String)} :
      invocation.Writes written → List.Forall₂ Spells written words →
      SpelledOut invocation words.flatten
  | separated {path : String} {written : List Argument} {words : List (List String)} :
      invocation.Writes (written ++ [.graph path]) → List.Forall₂ Spells written words →
      SpelledOut invocation (words.flatten ++ ["--", path])

/-! ## Single words -/

namespace Word

theorem ofString_standalone {word : String} (standalone : Standalone word) :
    ofString word = .plain word := by
  unfold ofString
  cases standalone with
  | inl dash =>
      subst dash
      rfl
  | inr other =>
      split
      · simp_all
      · simp_all
      · simp_all
      · rfl

theorem ofString_long {word : String} {char : Char} {chars : List Char}
    (spelled : word.toList = '-' :: '-' :: char :: chars) :
    ofString word = splitLong (char :: chars) := by
  simp only [ofString, spelled]

theorem ofString_short {word : String} {name : Char} {rest : List Char} (letter : name ≠ '-')
    (spelled : word.toList = '-' :: name :: rest) : ofString word = .short name rest := by
  unfold ofString
  rw [spelled]
  split <;> simp_all

end Word

/-- A long option is split at the first equals sign. -/
theorem splitLong_value {name : List Char} (plain : '=' ∉ name) (value : List Char) :
    splitLong (name ++ '=' :: value) =
      .long (String.ofList name) (some (String.ofList value)) := by
  have all : ∀ char ∈ name, decide (char ≠ '=') = true := by
    intro char member
    exact decide_eq_true fun equal => plain (equal ▸ member)
  rw [splitLong, List.takeWhile_append_of_pos all, List.dropWhile_append_of_pos all]
  simp

theorem ofString_longName (opt : Opt) :
    Word.ofString ("--" ++ opt.longName) = .long opt.longName none := by
  cases opt <;> decide

theorem ofString_longName_value (opt : Opt) (value : String) :
    Word.ofString ("--" ++ opt.longName ++ "=" ++ value) = .long opt.longName (some value) := by
  have plain : '=' ∉ opt.longName.toList := by cases opt <;> decide
  have split := splitLong_value plain value.toList
  rw [String.ofList_toList, String.ofList_toList] at split
  rw [← split]
  cases name : opt.longName.toList with
  | nil => cases opt <;> cases name
  | cons char chars =>
      apply Word.ofString_long
      simp [name]

theorem ofString_shortName {opt : Opt} {name : Char} (named : opt.shortName? = some name)
    (rest : String) :
    Word.ofString ("-" ++ String.singleton name ++ rest) = .short name rest.toList := by
  apply Word.ofString_short
  · cases opt <;> cases named <;> decide
  · simp

/-! ## Single arguments -/

theorem Command.long?_longName {command : Command} {opt : Opt} (has : command.hasOption opt) :
    command.long? opt.longName = some (.option opt) := by
  revert has
  cases opt <;> cases command <;> decide

theorem Command.ofName?_name (command : Command) :
    Command.ofName? command.name = some command := by
  cases command <;> decide

theorem Command.short?_shortName {command : Command} {opt : Opt} {name : Char}
    (has : command.hasOption opt) (named : opt.shortName? = some name) :
    command.short? name = some (.option opt) := by
  revert has
  cases opt <;> cases named <;> cases command <;> decide

/-- Once the argument that waits is settled, the given arguments are these. -/
structure Scan.Reaches (scan : Scan) (given : Given) : Prop where
  settles : scan.settle = .ok given
  counted : scan.hasGraph = given.graph.isSome
  unseparated : scan.separated = false

section Steps

variable {command : Command} {scan : Scan} {given : Given} {opt : Opt} {value : String}

theorem Scan.words_cons {word : String} {next : Scan} (taken : scan.word command word = .ok next)
    (rest : List String) :
    Scan.words command scan (word :: rest) = Scan.words command next rest := by
  rw [Scan.words, taken]
  rfl

theorem Scan.words_append {first : List String} {next : Scan}
    (taken : Scan.words command scan first = .ok next) (rest : List String) :
    Scan.words command scan (first ++ rest) = Scan.words command next rest := by
  induction first generalizing scan with
  | nil =>
      cases taken
      rfl
  | cons word words ih =>
      cases step : scan.word command word with
      | error error =>
          rw [Scan.words, step] at taken
          cases taken
      | ok between =>
          rw [words_cons step] at taken
          rw [List.cons_append, words_cons step]
          exact ih taken

theorem Given.settle_new (new : given.get? opt = none) (filled : opt.isPath → value ≠ "") :
    given.settle opt value =
      .ok { given with options := given.options ++ [(opt, value)] } := by
  have path : ¬ (opt.isPath = true ∧ value = "") := fun empty => filled empty.1 empty.2
  simp [Given.settle, new, path]

/-- A word that is no value stands for the option that it names. -/
theorem Scan.word_long (unseparated : scan.separated = false) (has : command.hasOption opt)
    {word : String} {attached : Option String}
    (named : Word.ofString word = .long opt.longName attached) :
    scan.word command word = scan.option opt attached := by
  simp [Scan.word, unseparated, named, Command.long?_longName has, Scan.switch]

theorem Scan.word_short (unseparated : scan.separated = false) (has : command.hasOption opt)
    {word : String} {name : Char} {rest : List Char} (letter : opt.shortName? = some name)
    (named : Word.ofString word = .short name rest) :
    scan.word command word = scan.option opt (attached? rest) := by
  simp [Scan.word, unseparated, named, Command.short?_shortName has letter, Scan.switch]

/-- An option is taken with the value attached to it. -/
theorem Scan.words_attached (reaches : scan.Reaches given) (new : given.get? opt = none)
    (filled : opt.isPath → value ≠ "") {word : String}
    (taken : scan.word command word = scan.option opt (some value)) :
    ∃ next, Scan.words command scan [word] = .ok next ∧
      next.Reaches { given with options := given.options ++ [(opt, value)] } := by
  let next : Scan := { scan with
    given := { given with options := given.options ++ [(opt, value)] }
    pending := .nothing }
  have settled : scan.option opt (some value) = .ok next := by
    simp [Scan.option, reaches.settles, Given.settle_new new filled, bind, Except.bind, pure,
      Except.pure, next]
  exact ⟨next, words_cons (taken.trans settled) [], rfl, reaches.counted, reaches.unseparated⟩

/-- An option without a value waits, and takes the next word if that is no option. -/
theorem Scan.words_detached (reaches : scan.Reaches given) (new : given.get? opt = none)
    (filled : opt.isPath → value ≠ "") (standalone : Standalone value) {word : String}
    (taken : scan.word command word = scan.option opt none) :
    ∃ next, Scan.words command scan [word, value] = .ok next ∧
      next.Reaches { given with options := given.options ++ [(opt, value)] } := by
  let waiting : Scan := { scan with given, pending := .bare opt }
  let next : Scan := { scan with given, pending := .valued opt value }
  have waits : scan.option opt none = .ok waiting := by
    simp [Scan.option, reaches.settles, bind, Except.bind, pure, Except.pure, waiting]
  have followed : waiting.word command value = .ok next := by
    simp [Scan.word, reaches.unseparated, Word.ofString_standalone standalone, Scan.plain, waiting,
      next]
  refine ⟨next, ?_, Given.settle_new new filled, reaches.counted, reaches.unseparated⟩
  rw [words_cons (taken.trans waits), words_cons followed]
  rfl

theorem attached?_of_ne {value : String} (filled : value ≠ "")
    (other : value.toList.head? ≠ some '=') : attached? value.toList = some value := by
  unfold attached?
  split
  next empty => exact absurd (String.toList_eq_nil_iff.1 empty) filled
  next equals => simp [equals] at other
  next => rw [String.ofList_toList]

/-- An option is taken with its value, however it is spelled. -/
theorem Scan.words_option (reaches : scan.Reaches given) (has : command.hasOption opt)
    (new : given.get? opt = none) (filled : opt.isPath → value ≠ "") {words : List String}
    (spells : Spells (.option opt value) words) :
    ∃ next, Scan.words command scan words = .ok next ∧
      next.Reaches { given with options := given.options ++ [(opt, value)] } := by
  have unseparated := reaches.unseparated
  cases spells with
  | long standalone =>
      exact words_detached reaches new filled standalone
        (word_long unseparated has (ofString_longName opt))
  | longAttached =>
      exact words_attached reaches new filled
        (word_long unseparated has (ofString_longName_value opt value))
  | short letter standalone =>
      have named := ofString_shortName letter ""
      rw [String.append_empty] at named
      exact words_detached reaches new filled standalone
        (word_short unseparated has letter named)
  | shortAttached letter nonempty other =>
      have taken := word_short unseparated has letter (ofString_shortName letter value)
      rw [attached?_of_ne nonempty other] at taken
      exact words_attached reaches new filled taken
  | shortEquals letter nonempty =>
      have taken := word_short unseparated has letter (ofString_shortName letter ("=" ++ value))
      have attached : attached? ("=" ++ value).toList = some value := by
        simp [attached?]
      rw [attached, ← String.append_assoc] at taken
      exact words_attached reaches new filled taken

theorem Scan.words_annotate (reaches : scan.Reaches given) (new : given.annotate = false) :
    ∃ next, Scan.words .compile scan ["--annotate"] = .ok next ∧
      next.Reaches { given with annotate := true } := by
  let next : Scan := { scan with given := { given with annotate := true }, pending := .nothing }
  have named : Word.ofString "--annotate" = .long "annotate" none := by decide
  have known : Command.compile.long? "annotate" = some .annotate := rfl
  have taken : scan.word .compile "--annotate" = .ok next := by
    simp [Scan.word, reaches.unseparated, named, known, Scan.switch, reaches.settles, new, bind,
      Except.bind, pure, Except.pure, next]
  exact ⟨next, words_cons taken [], rfl, reaches.counted, reaches.unseparated⟩

/-- The graph is taken from the first plain word that is no value. -/
theorem Scan.positional_new (settles : scan.settle = .ok given) (unseen : scan.hasGraph = false)
    (path : String) :
    scan.positional path = .ok { scan with given, pending := .graph path, hasGraph := true } := by
  simp [Scan.positional, unseen, settles, bind, Except.bind, pure, Except.pure]

theorem Scan.plain_of_settles (settles : scan.settle = .ok given) (word : String) :
    scan.plain word = scan.positional word := by
  unfold Scan.plain
  split
  next bare => simp [Scan.settle, bare] at settles
  next => rfl

theorem Scan.words_graph (reaches : scan.Reaches given) (new : given.graph = none)
    {path : String} (filled : path ≠ "") (standalone : Standalone path) :
    ∃ next, Scan.words command scan [path] = .ok next ∧
      next.Reaches { given with graph := some path } := by
  let next : Scan := { scan with given, pending := .graph path, hasGraph := true }
  have unseen : scan.hasGraph = false := by rw [reaches.counted, new]; rfl
  have taken : scan.word command path = .ok next := by
    simp only [Scan.word, reaches.unseparated, Word.ofString_standalone standalone]
    exact (plain_of_settles reaches.settles path).trans (positional_new reaches.settles unseen path)
  refine ⟨next, words_cons taken [], ?_, rfl, reaches.unseparated⟩
  simp [Scan.settle, filled, next]

/-- Behind the separator any word is plain. -/
theorem Scan.words_separated (reaches : scan.Reaches given) (new : given.graph = none)
    {path : String} (filled : path ≠ "") :
    ∃ next, Scan.words command scan ["--", path] = .ok next ∧
      next.settle = .ok { given with graph := some path } := by
  let parted : Scan := { scan with separated := true }
  let next : Scan := { parted with given, pending := .graph path, hasGraph := true }
  have unseen : parted.hasGraph = false := by
    change scan.hasGraph = false
    rw [reaches.counted, new]
    rfl
  have separator : Word.ofString "--" = .separator := by decide
  have parts : scan.word command "--" = .ok parted := by
    simp [Scan.word, reaches.unseparated, separator, parted]
  have settles : parted.settle = .ok given := reaches.settles
  have taken : parted.word command path = .ok next :=
    (if_pos rfl).trans (positional_new settles unseen path)
  refine ⟨next, ?_, ?_⟩
  · rw [words_cons parts, words_cons taken]
    rfl
  · simp [Scan.settle, filled, next]

end Steps

/-! ## All arguments -/

/-- The field that an argument gives. -/
inductive Slot where
  | graph
  | option (opt : Opt)
  | annotate
  deriving DecidableEq

namespace Argument

/-- The field that an argument gives. -/
def slot : Argument → Slot
  | graph _ => .graph
  | option opt _ => .option opt
  | annotate => .annotate

/-- The path of a graph. -/
def path? : Argument → Option String
  | graph path => some path
  | _ => none

/-- An option with its value. -/
def setting? : Argument → Option (Opt × String)
  | option opt value => some (opt, value)
  | _ => none

/-- The command has the argument, and its path is not empty. -/
def Suits (command : Command) : Argument → Prop
  | graph path => path ≠ ""
  | option opt value => command.hasOption opt ∧ (opt.isPath → value ≠ "")
  | annotate => command = .compile

end Argument

/-- What the arguments give. -/
def Given.ofArguments (written : List Argument) : Given where
  graph := written.findSome? Argument.path?
  options := written.filterMap Argument.setting?
  annotate := decide (Argument.annotate ∈ written)

section Written

variable {command : Command} {written : List Argument}

theorem Given.graph_ofArguments_eq_none (new : Slot.graph ∉ written.map Argument.slot) :
    (ofArguments written).graph = none := by
  rw [ofArguments, List.findSome?_eq_none_iff]
  intro argument member
  cases argument with
  | graph path => exact absurd (List.mem_map.2 ⟨_, member, rfl⟩) new
  | option _ _ | annotate => rfl

theorem Given.mem_options {opt : Opt} {value : String} :
    (opt, value) ∈ (ofArguments written).options ↔ .option opt value ∈ written := by
  simp only [ofArguments, List.mem_filterMap]
  constructor
  · rintro ⟨argument, member, setting⟩
    cases argument with
    | option _ _ =>
        cases setting
        exact member
    | graph _ | annotate => cases setting
  · intro member
    exact ⟨_, member, rfl⟩

theorem Given.get?_ofArguments_eq_none {opt : Opt}
    (new : Slot.option opt ∉ written.map Argument.slot) :
    (ofArguments written).get? opt = none := by
  rw [get?, List.lookup_eq_none_iff]
  rintro ⟨other, value⟩ member
  apply bne_iff_ne.2
  rintro rfl
  exact new (List.mem_map.2 ⟨_, mem_options.1 member, rfl⟩)

/-- Where no field is given twice, a field that is read from the arguments has the value that is
written. -/
theorem eq_some_iff_mem (single : (written.map Argument.slot).Nodup) {make : String → Argument}
    {read : Option String} {value : String} (injective : Function.Injective make)
    (field : ∀ text other, (make text).slot = (make other).slot)
    (listed : ∀ text, read = some text → make text ∈ written)
    (missed : read = none → make value ∉ written) :
    read = some value ↔ make value ∈ written := by
  constructor
  · exact listed value
  · intro member
    cases found : read with
    | none => exact absurd member (missed found)
    | some other =>
        have same := List.inj_on_of_nodup_map single (listed other found) member (field other value)
        rw [injective same]

theorem Given.get?_ofArguments (single : (written.map Argument.slot).Nodup) {opt : Opt}
    {value : String} :
    (ofArguments written).get? opt = some value ↔ .option opt value ∈ written := by
  apply eq_some_iff_mem single (fun _ _ equal => (Argument.option.inj equal).2) fun _ _ => rfl
  · intro text found
    obtain ⟨before, after, split, _⟩ := List.lookup_eq_some_iff.1 found
    exact mem_options.1 (by simp [split])
  · intro missing member
    have absent := List.lookup_eq_none_iff.1 missing _ (mem_options.2 member)
    simp at absent

theorem Given.graph_ofArguments (single : (written.map Argument.slot).Nodup) {path : String} :
    (ofArguments written).graph = some path ↔ .graph path ∈ written := by
  apply eq_some_iff_mem single (fun _ _ equal => Argument.graph.inj equal) fun _ _ => rfl
  · intro text found
    obtain ⟨argument, member, named⟩ := List.exists_of_findSome?_eq_some found
    cases argument with
    | graph _ =>
        cases named
        exact member
    | option _ _ | annotate => cases named
  · intro missing member
    cases List.findSome?_eq_none_iff.1 missing _ member

theorem Given.ofArguments_graph (absent : (ofArguments written).graph = none) (path : String) :
    ofArguments (written ++ [.graph path]) =
      { ofArguments written with graph := some path } := by
  have nothing : written.findSome? Argument.path? = none := absent
  simp [ofArguments, nothing, Argument.path?, Argument.setting?]

theorem Given.ofArguments_option (opt : Opt) (value : String) :
    ofArguments (written ++ [.option opt value]) =
      { ofArguments written with options := (ofArguments written).options ++ [(opt, value)] } := by
  simp [ofArguments, Argument.path?, Argument.setting?]

theorem Given.ofArguments_annotate :
    ofArguments (written ++ [.annotate]) = { ofArguments written with annotate := true } := by
  simp [ofArguments, Argument.path?, Argument.setting?]

/-- An argument that is spelled out is added to those that are given already. -/
theorem Scan.words_spells {argument : Argument} {scan : Scan} {words : List String}
    (reaches : scan.Reaches (.ofArguments written))
    (new : argument.slot ∉ written.map Argument.slot) (suits : argument.Suits command)
    (spells : Spells argument words) :
    ∃ next, Scan.words command scan words = .ok next ∧
      next.Reaches (.ofArguments (written ++ [argument])) := by
  cases argument with
  | graph path =>
      cases spells with
      | graph standalone =>
          have absent := Given.graph_ofArguments_eq_none new
          rw [Given.ofArguments_graph absent]
          exact words_graph reaches absent suits standalone
  | option opt value =>
      rw [Given.ofArguments_option]
      exact words_option reaches suits.1 (Given.get?_ofArguments_eq_none new) suits.2 spells
  | annotate =>
      cases spells with
      | annotate =>
          have absent : (Given.ofArguments written).annotate = false := by
            apply decide_eq_false
            intro member
            exact new (List.mem_map.2 ⟨_, member, rfl⟩)
          cases suits
          rw [Given.ofArguments_annotate]
          exact words_annotate reaches absent

/-- A scan takes all arguments that are spelled out, one after the other. -/
theorem Scan.words_written {rest : List Argument} {words : List (List String)} {scan : Scan}
    (spells : List.Forall₂ Spells rest words) (suits : ∀ argument ∈ rest, argument.Suits command)
    (single : ((written ++ rest).map Argument.slot).Nodup)
    (reaches : scan.Reaches (.ofArguments written)) :
    ∃ next, Scan.words command scan words.flatten = .ok next ∧
      next.Reaches (.ofArguments (written ++ rest)) := by
  induction spells generalizing written scan with
  | nil => exact ⟨scan, rfl, by simpa using reaches⟩
  | @cons argument _ _ _ spelled _ ih =>
      have new : argument.slot ∉ written.map Argument.slot := by
        intro member
        rw [List.map_append, List.map_cons] at single
        exact (List.nodup_append.1 single).2.2 _ member _ (by simp) rfl
      obtain ⟨between, taken, reached⟩ :=
        words_spells reaches new (suits argument (by simp)) spelled
      obtain ⟨next, finished, final⟩ := ih (fun other member => suits other (by simp [member]))
        (by simpa using single) reached
      refine ⟨next, ?_, by simpa using final⟩
      rw [List.flatten_cons, words_append taken, finished]

theorem Scan.words_flatten {words : List (List String)} (spells : List.Forall₂ Spells written words)
    (suits : ∀ argument ∈ written, argument.Suits command)
    (single : (written.map Argument.slot).Nodup) :
    ∃ next, Scan.words command {} words.flatten = .ok next ∧
      next.Reaches (.ofArguments written) := by
  have start : Scan.Reaches {} (.ofArguments []) := ⟨rfl, rfl, rfl⟩
  exact words_written spells suits (by simpa using single) start

end Written

/-! ## Whole command lines -/

section Lines

variable {invocation : Invocation} {written : List Argument}

/-- An argument that may be missing gives its field at most once. -/
theorem slots_optional {make : String → Argument} (slot : Slot)
    (named : ∀ text, (make text).slot = slot) (value : Option String) :
    ((value.map make).toList.map Argument.slot).Sublist [slot] := by
  cases value with
  | none => simp
  | some text => simp [named]

theorem slots_inputArguments (input : Input) :
    ((inputArguments input).map Argument.slot).Sublist
      [.graph, .option .pattern, .option .generator] := by
  have graph := slots_optional .graph (fun text => (rfl : (Argument.graph text).slot = _))
    input.graph
  have option (opt : Opt) := slots_optional (.option opt)
    fun text => (rfl : (Argument.option opt text).slot = _)
  simp only [inputArguments, List.map_append]
  exact (graph.append (option .pattern input.pattern)).append (option .generator input.generator)

/-- An invocation gives no field twice. -/
theorem nodup_slots (invocation : Invocation) :
    (invocation.arguments.map Argument.slot).Nodup := by
  have option (opt : Opt) := slots_optional (.option opt)
    fun text => (rfl : (Argument.option opt text).slot = _)
  cases invocation with
  | compile args =>
      have flag : ((if args.annotate then [Argument.annotate] else []).map Argument.slot).Sublist
          [.annotate] := by
        cases args.annotate <;> simp [Argument.slot]
      have window : ([Argument.option .window args.window].map Argument.slot).Sublist
          [.option .window] := .refl _
      have paths := ((slots_inputArguments args.input).append (option .output args.output)).append
        (option .lookup args.lookup)
      have all := ((paths.append (option .template args.template)).append window).append flag
      simp only [arguments, List.map_append]
      exact all.nodup (by decide)
  | check input => exact (slots_inputArguments input).nodup (by decide)
  | stats input => exact (slots_inputArguments input).nodup (by decide)
  | lookup input output =>
      simp only [arguments, List.map_append]
      exact ((slots_inputArguments input).append (option .output output)).nodup (by decide)

theorem graph_mem_arguments {path : String} :
    .graph path ∈ invocation.arguments ↔ invocation.input.graph = some path := by
  cases invocation <;> simp [arguments, inputArguments, input]

theorem pattern_mem_arguments {pattern : String} :
    .option .pattern pattern ∈ invocation.arguments ↔
      invocation.input.pattern = some pattern := by
  cases invocation <;> simp [arguments, inputArguments, input]

theorem generator_mem_arguments {generator : String} :
    .option .generator generator ∈ invocation.arguments ↔
      invocation.input.generator = some generator := by
  cases invocation <;> simp [arguments, inputArguments, input]

/-- A command has the arguments of its invocations. -/
theorem Coherent.suits (coherent : invocation.Coherent) {argument : Argument}
    (member : argument ∈ invocation.arguments) : argument.Suits invocation.command := by
  cases argument with
  | graph path =>
      rintro rfl
      exact coherent.graphFilled member
  | option opt value =>
      constructor
      · revert member
        cases invocation <;> cases opt <;> simp [arguments, inputArguments, command,
          Command.hasOption]
      · rintro isPath rfl
        exact coherent.pathsFilled opt isPath member
  | annotate =>
      revert member
      cases invocation <;> simp [arguments, inputArguments, command, Argument.Suits]

theorem Writes.mem (writes : invocation.Writes written) {argument : Argument}
    (member : argument ∈ written) : argument ∈ invocation.arguments := by
  cases writes with
  | inl all => exact all.mem_iff.1 member
  | inr others => exact List.mem_of_mem_erase (others.mem_iff.1 member)

/-- Only the window can be left out. -/
theorem Writes.mem_iff (writes : invocation.Writes written) {argument : Argument}
    (other : argument ≠ .option .window "num_bytes") :
    argument ∈ written ↔ argument ∈ invocation.arguments := by
  cases writes with
  | inl all => exact all.mem_iff
  | inr others => exact others.mem_iff.trans (List.mem_erase_of_ne other)

theorem Writes.single (writes : invocation.Writes written) :
    (written.map Argument.slot).Nodup := by
  cases writes with
  | inl all => exact (all.map _).nodup_iff.2 invocation.nodup_slots
  | inr others =>
      apply (others.map _).nodup_iff.2
      exact (List.erase_sublist.map _).nodup invocation.nodup_slots

theorem Writes.get? (writes : invocation.Writes written) (opt : Opt) (other : opt ≠ .window)
    {value : Option String}
    (holds : ∀ text, .option opt text ∈ invocation.arguments ↔ value = some text) :
    (Given.ofArguments written).get? opt = value := by
  apply Option.ext
  intro text
  rw [Given.get?_ofArguments writes.single, writes.mem_iff (by simp [other]), holds]

theorem Writes.input (writes : invocation.Writes written) :
    (Given.ofArguments written).input = invocation.input := by
  have graph : (Given.ofArguments written).graph = invocation.input.graph := by
    apply Option.ext
    intro path
    rw [Given.graph_ofArguments writes.single, writes.mem_iff (by simp), graph_mem_arguments]
  have pattern := writes.get? .pattern (by simp) fun _ => pattern_mem_arguments
  have generator := writes.get? .generator (by simp) fun _ => generator_mem_arguments
  rw [Given.input, graph, pattern, generator]

/-- A window that is left out has the default name. -/
theorem Writes.window {args : CompileArgs} (writes : (compile args).Writes written) :
    ((Given.ofArguments written).get? .window).getD "num_bytes" = args.window := by
  have named {text : String} : .option .window text ∈ (compile args).arguments ↔
      text = args.window := by
    simp [arguments, inputArguments]
  cases found : (Given.ofArguments written).get? .window with
  | none =>
      by_contra different
      have default : Argument.option .window args.window ≠ .option .window "num_bytes" := by
        simpa [eq_comm] using different
      have member := (writes.mem_iff default).2 (named.2 rfl)
      rw [(Given.get?_ofArguments writes.single).2 member] at found
      cases found
  | some text =>
      have member := writes.mem ((Given.get?_ofArguments writes.single).1 found)
      exact named.1 member

theorem Writes.annotate {args : CompileArgs} (writes : (compile args).Writes written) :
    (Given.ofArguments written).annotate = args.annotate := by
  have member : .annotate ∈ written ↔ args.annotate = true := by
    rw [writes.mem_iff (by simp)]
    simp [arguments, inputArguments]
  rw [Bool.eq_iff_iff, ← member]
  exact decide_eq_true_iff

/-- The arguments of an invocation give its parameters back. -/
theorem Writes.withArguments (writes : invocation.Writes written) :
    invocation.command.withArguments (.ofArguments written) = invocation := by
  have input := writes.input
  cases invocation with
  | compile args =>
      have output : (Given.ofArguments written).get? .output = args.output :=
        writes.get? .output (by simp) fun _ => by simp [arguments, inputArguments]
      have lookup : (Given.ofArguments written).get? .lookup = args.lookup :=
        writes.get? .lookup (by simp) fun _ => by simp [arguments, inputArguments]
      have template : (Given.ofArguments written).get? .template = args.template :=
        writes.get? .template (by simp) fun _ => by simp [arguments, inputArguments]
      simp only [command, Command.withArguments, input, output, lookup, template, writes.window,
        writes.annotate]
      rfl
  | check _ => exact congrArg Invocation.check input
  | stats _ => exact congrArg Invocation.stats input
  | lookup source dest =>
      have output : (Given.ofArguments written).get? .output = dest :=
        writes.get? .output (by simp) fun _ => by simp [arguments, inputArguments]
      simp only [command, Command.withArguments, input, output]
      rfl

/-- Parameters that agree with each other pass the last check. -/
theorem Coherent.check (coherent : invocation.Coherent) {given : Given}
    (same : given.input = invocation.input) : given.check = .ok () := by
  have graph : given.graph = invocation.input.graph := congrArg Input.graph same
  have pattern : given.get? .pattern = invocation.input.pattern := congrArg Input.pattern same
  have generator : given.get? .generator = invocation.input.generator :=
    congrArg Input.generator same
  rw [Given.check, graph, pattern, generator, if_neg, if_neg]
  · rintro ⟨isPattern, missing⟩
    exact coherent.generated (Option.isSome_iff_ne_none.1 isPattern)
      (Option.isNone_iff_eq_none.1 missing)
  · rintro ⟨isGraph, isPattern⟩
    cases coherent.oneSource with
    | inl noGraph => simp [noGraph] at isGraph
    | inr noPattern => simp [noPattern] at isPattern

/-- A scan that ends with the written arguments gives the invocation. -/
theorem Coherent.parse (coherent : invocation.Coherent) (writes : invocation.Writes written)
    {words : List String} {scan : Scan}
    (taken : Scan.words invocation.command {} words = .ok scan)
    (settles : scan.settle = .ok (.ofArguments written)) :
    invocation.command.parse words = .ok invocation := by
  have checked := coherent.check writes.input
  simp only [Command.parse, taken, settles, checked, writes.withArguments, bind, Except.bind, pure,
    Except.pure]

end Lines

/-- Every command line that spells out an invocation is read as that invocation. -/
theorem parse_spelledOut {invocation : Invocation} {words : List String}
    (coherent : invocation.Coherent) (spelled : invocation.SpelledOut words) :
    Invocation.parse (invocation.command.name :: words) = .ok invocation := by
  rw [Invocation.parse, Command.ofName?_name]
  cases spelled with
  | @plain written _ writes spells =>
      have suits : ∀ argument ∈ written, argument.Suits invocation.command :=
        fun _ member => coherent.suits (writes.mem member)
      obtain ⟨scan, taken, reached⟩ := Scan.words_flatten spells suits writes.single
      exact coherent.parse writes taken reached.settles
  | @separated path written _ writes spells =>
      have suits : ∀ argument ∈ written, argument.Suits invocation.command :=
        fun _ member => coherent.suits (writes.mem (by simp [member]))
      have listed : .graph path ∈ invocation.arguments := writes.mem (by simp)
      have filled : path ≠ "" := coherent.suits listed
      have single := writes.single
      rw [List.map_append, List.nodup_append] at single
      have absent : (Given.ofArguments written).graph = none := by
        apply Given.graph_ofArguments_eq_none
        intro member
        exact single.2.2 _ member _ (by simp [Argument.slot]) rfl
      obtain ⟨between, taken, reached⟩ := Scan.words_flatten spells suits single.1
      obtain ⟨scan, parted, settles⟩ := Scan.words_separated reached absent filled
      rw [← Given.ofArguments_graph absent] at settles
      exact coherent.parse writes ((Scan.words_append taken _).trans parted) settles

/-- Values that look like options, an empty value, and a window by its default name. -/
def dashedArgs : CompileArgs where
  input.graph := some "-g"
  output := some "=x"
  lookup := some "--"
  template := some ""
  annotate := true

theorem parse_spelledOut_dashed :
    parse ["compile", "--template", "", "-o==x", "--annotate", "--lookup=--", "--", "-g"] =
      .ok (.compile dashedArgs) := by
  have coherent : (compile dashedArgs).Coherent := by
    refine ⟨.inr rfl, fun given => absurd rfl given, by decide, ?_⟩
    intro opt
    cases opt <;> decide
  have output : Opt.output.shortName? = some 'o' := rfl
  have spells : List.Forall₂ Spells
      [.option .template "", .option .output "=x", .annotate, .option .lookup "--"]
      [["--template", ""], ["-o==x"], ["--annotate"], ["--lookup=--"]] :=
    .cons (.long (.inr (by decide))) (.cons (.shortEquals output (by decide))
      (.cons .annotate (.cons .longAttached .nil)))
  have writes : (compile dashedArgs).Writes
      ([.option .template "", .option .output "=x", .annotate, .option .lookup "--"] ++
        [.graph "-g"]) :=
    .inr (by decide)
  exact parse_spelledOut coherent (.separated writes spells)

end Invocation

end ScanCircuit
