import ScanCircuit.Proofs.Files.Effects
import Mathlib.Data.List.TakeWhile

/-!
# Hidden files

The hidden file in which an output is prepared lies in the same directory as the output
and has a longer name. So it is never the output itself, and outputs with the same hidden
file are the same file.
-/

namespace ScanCircuit

namespace Path

variable {path : Path} {name : String}

theorem length_stagingName (name : String) : (stagingName name).length = name.length + 5 := by
  have dots : ".".length + ".tmp".length = 5 := rfl
  simp only [stagingName, String.length_append]
  omega

theorem stagingName_ne {name other : String} (short : other.length < 5) :
    stagingName name ≠ other := by
  intro equal
  have lengths := congrArg String.length equal
  rw [length_stagingName] at lengths
  omega

theorem stagingName_ne_self (name : String) : stagingName name ≠ name := by
  intro equal
  have lengths := congrArg String.length equal
  rw [length_stagingName] at lengths
  omega

theorem stagingName_injective {left right : String} (equal : stagingName left = stagingName right) :
    left = right := by
  simpa [stagingName, ← String.toList_inj] using equal

/-- A path that does not end with a slash ends with its last name. -/
theorem segments_of_names (last : path.names.getLast? = some name) (ended : path.slash = false) :
    ∃ before, path.segments = before ++ [name] ∧ name ≠ "" := by
  cases List.eq_nil_or_concat' path.segments with
  | inl empty => simp [names, empty] at last
  | inr split =>
      obtain ⟨before, final, split⟩ := split
      by_cases blank : final = ""
      · subst blank
        cases before with
        | nil => simp [names, split] at last
        | cons first rest => simp [slash, split, List.getLast?_cons] at ended
      · simp [names, split, List.filter_append, blank] at last
        exact ⟨before, last ▸ split, last ▸ blank⟩

theorem trimmed_append (before : List String) (filled : name ≠ "") (dot : name ≠ ".") :
    trimmed (before ++ [name]) = before ++ [name] := by
  cases before with
  | nil => rfl
  | cons first rest => simp [trimmed, filled, dot]

/-- The hidden file of a path lies beside the file that it names. -/
theorem staging_of_segments {before : List String} (split : path.segments = before ++ [name])
    (filled : name ≠ "") (dot : name ≠ ".") (dots : name ≠ "..") :
    path.staging = ⟨trimmed before ++ [stagingName name]⟩ := by
  have fileName : path.fileName? = some name := by
    simp [fileName?, split, trimmed_append before filled dot, filled, dot, dots, Option.filter_some]
  simp [staging, fileName, split, trimmed_append before filled dot]

theorem exists_staging (path : Path) :
    ∃ before name, path.staging = ⟨before ++ [stagingName name]⟩ := by
  unfold staging
  cases path.fileName? with
  | none => exact ⟨_, "", rfl⟩
  | some name => exact ⟨_, name, rfl⟩

theorem names_append (before : List String) (filled : name ≠ "") :
    (Path.mk (before ++ [name])).names = (Path.mk before).names ++ [name] := by
  simp [names, List.filter_append, filled]

/-- Trimming leaves out nothing but names that lead nowhere. -/
theorem names_trimmed (segments : List String) :
    ∃ dropped, (Path.mk segments).names = (Path.mk (trimmed segments)).names ++ dropped ∧
      ∀ name ∈ dropped, name = "." := by
  cases segments with
  | nil => exact ⟨[], by simp [trimmed]⟩
  | cons first rest =>
      let idle : String → Bool := fun segment => segment = "" || segment = "."
      have split : (rest.reverse.dropWhile idle).reverse ++
          (rest.reverse.takeWhile idle).reverse = rest := by
        rw [← List.reverse_append, List.takeWhile_append_dropWhile, List.reverse_reverse]
      refine ⟨(Path.mk (rest.reverse.takeWhile idle).reverse).names, ?_, ?_⟩
      · unfold names
        rw [← List.filter_append]
        simp only [trimmed, List.cons_append]
        rw [split]
      · intro name mem
        simp only [names, List.mem_filter, List.mem_reverse, decide_eq_true_eq] at mem
        have stays := List.mem_takeWhile_imp mem.1
        simp only [idle, Bool.or_eq_true, decide_eq_true_eq] at stays
        exact stays.resolve_left mem.2

theorem absolute_trimmed (before : List String) (name other : String) :
    (Path.mk (trimmed before ++ [other])).absolute = (Path.mk (before ++ [name])).absolute := by
  cases before with
  | nil => simp [absolute, trimmed]
  | cons first rest => simp [absolute, trimmed]

theorem slash_append {before : List String} (filled : name ≠ "") :
    (Path.mk (before ++ [name])).slash = false := by
  simp [slash, filled]

end Path

namespace FileTree

variable {tree : FileTree} {here : Location} {path : Path}

theorem walk_append (tree : FileTree) (here : Location) (first second : List String) :
    tree.walk here (first ++ second) =
      (tree.walk here first).bind fun place => tree.walk place second := by
  induction first generalizing here with
  | nil => rfl
  | cons name rest ih =>
      simp only [List.cons_append, walk]
      split
      · exact ih _
      · split
        · exact ih _
        · split
          · rfl
          · rfl
          · exact ih _
          · rfl

theorem walk_idle {names : List String} (idle : ∀ name ∈ names, name = ".") :
    tree.walk here names = .ok here := by
  induction names with
  | nil => rfl
  | cons name rest ih =>
      rw [idle name (by simp), walk, if_pos rfl]
      exact ih fun other mem => idle other (by simp [mem])

/-- The hidden file of a path lies in the same directory as the file that it names. -/
theorem locate_staging {parent : Location} {name : String}
    (located : tree.locate here path = .ok (.named parent name false))
    (short : path.staging.size < maxPath) :
    tree.locate here path.staging = .ok (.named parent (Path.stagingName name) false) := by
  obtain ⟨_, isLast, walked, dot, dots, ended⟩ := locate_eq_named.1 located
  obtain ⟨before, split, filled⟩ := Path.segments_of_names isLast ended
  have whole : path = ⟨before ++ [name]⟩ := by rw [← split]
  have blank : Path.stagingName name ≠ "" := Path.stagingName_ne (by decide)
  obtain ⟨dropped, names, idle⟩ := Path.names_trimmed before
  rw [Path.staging_of_segments split filled dot dots] at short ⊢
  apply locate_eq_named.2
  refine ⟨short, ?_, ?_, Path.stagingName_ne (by decide), Path.stagingName_ne (by decide),
    Path.slash_append blank⟩
  · simp [Path.names_append _ blank]
  · -- The names that trimming leaves out are dots, which lead nowhere.
    rw [whole, Path.names_append before filled, List.dropLast_concat, names, walk_append] at walked
    rw [Path.names_append _ blank, List.dropLast_concat, Path.absolute_trimmed before name]
    cases reached : tree.walk (if (Path.mk (before ++ [name])).absolute then [] else here)
        (Path.mk (Path.trimmed before)).names with
    | error error => simp [reached, Except.bind] at walked
    | ok place => simpa [reached, Except.bind, walk_idle idle] using walked

/-- The spot of a hidden file, beside that of the file that its path names. -/
theorem spot?_staging {place hidden : Location} (spot : tree.spot? here path = some place)
    (staged : tree.spot? here path.staging = some hidden) :
    ∃ parent name, place = parent ++ [name] ∧ hidden = parent ++ [Path.stagingName name] := by
  obtain ⟨parent, name, located, _, _, rfl⟩ := spot?_eq_some.1 spot
  obtain ⟨home, last, relocated, _, _, rfl⟩ := spot?_eq_some.1 staged
  have beside := locate_staging located (locate_eq_ok.1 relocated).1
  rw [beside] at relocated
  cases relocated
  exact ⟨parent, name, rfl, rfl⟩

theorem spot?_staging_ne {place hidden : Location} (spot : tree.spot? here path = some place)
    (staged : tree.spot? here path.staging = some hidden) : hidden ≠ place := by
  obtain ⟨parent, name, rfl, rfl⟩ := spot?_staging spot staged
  simp [Path.stagingName_ne_self]

/-- Paths with the same hidden file name the same file. -/
theorem spot?_eq_of_staging {other : Path} {place elsewhere hidden : Location}
    (spot : tree.spot? here path = some place) (otherSpot : tree.spot? here other = some elsewhere)
    (staged : tree.spot? here path.staging = some hidden)
    (otherStaged : tree.spot? here other.staging = some hidden) : place = elsewhere := by
  obtain ⟨parent, name, rfl, rfl⟩ := spot?_staging spot staged
  obtain ⟨home, last, rfl, same⟩ := spot?_staging otherSpot otherStaged
  obtain ⟨rfl, names⟩ := List.append_inj' same rfl
  rw [Path.stagingName_injective (List.singleton_injective names)]

/-- No device lies where a file may be staged. -/
def Plain (tree : FileTree) : Prop :=
  ∀ parent name device, tree.find? (parent ++ [Path.stagingName name]) ≠ some (.device device)

theorem plain_of_entries (stored : ∀ entry ∈ tree.entries, ∀ device, entry.2 ≠ .device device) :
    tree.Plain := by
  intro parent name device found
  have below : parent ++ [Path.stagingName name] ≠ [] := by simp
  rw [find?, if_neg below, List.lookup_eq_some_iff] at found
  obtain ⟨before, after, entries, _⟩ := found
  exact stored (parent ++ [Path.stagingName name], .device device) (by simp [entries]) device rfl

theorem Plain.staging (plain : tree.Plain) {hidden : Location}
    (staged : tree.spot? here path.staging = some hidden) (device : Device) :
    tree.find? hidden ≠ some (.device device) := by
  obtain ⟨parent, name, located, _, _, rfl⟩ := spot?_eq_some.1 staged
  obtain ⟨before, base, segments⟩ := path.exists_staging
  have blank : Path.stagingName base ≠ "" := Path.stagingName_ne (by decide)
  obtain ⟨_, last, _⟩ := locate_eq_named.1 located
  rw [segments, Path.names_append before blank, List.getLast?_concat] at last
  rw [← Option.some.inj last]
  exact plain parent base device

theorem Plain.put (plain : tree.Plain) {place : Location} (below : place ≠ [])
    (content : List UInt8) : (tree.put place (.file content)).Plain := by
  intro parent name device
  rw [find?_put _ below]
  split
  · simp
  · exact plain parent name device

end FileTree

end ScanCircuit
