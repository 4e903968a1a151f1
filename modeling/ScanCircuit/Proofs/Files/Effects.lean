import ScanCircuit.Files.Host
import Mathlib.Data.List.Basic

/-!
# Effects on file trees

Writing, moving and deleting a file leave the directories of a tree as they are, so every
path keeps leading to the same place. What changes is said by the locations that an
operation touches: a path that names none of them holds what it held before.
-/

namespace ScanCircuit

namespace FileTree

variable {tree left right : FileTree} {here : Location} {path : Path}

/-- The trees have the same directories. -/
def SameDirectories (left right : FileTree) : Prop :=
  ∀ location, left.find? location = some .directory ↔ right.find? location = some .directory

/-- The location of the file that can be written at a path. -/
def spot? (tree : FileTree) (here : Location) (path : Path) : Option Location :=
  (tree.spotAt here path).toOption.map Prod.fst

/-- What a path holds, which is nothing if it leads nowhere. -/
def held (tree : FileTree) (here : Location) (path : Path) : Option Entry :=
  (tree.entryAt here path).toOption.map Prod.snd

theorem SameDirectories.symm (same : SameDirectories left right) :
    SameDirectories right left :=
  fun location => (same location).symm

theorem SameDirectories.trans {middle : FileTree} (first : SameDirectories left middle)
    (second : SameDirectories middle right) : SameDirectories left right :=
  fun location => (first location).trans (second location)

/-- Names lead through directories only. -/
theorem SameDirectories.walk (same : SameDirectories left right) {names : List String}
    {place : Location} (walked : left.walk here names = .ok place) :
    right.walk here names = .ok place := by
  induction names generalizing here with
  | nil => exact walked
  | cons name rest ih =>
      unfold FileTree.walk child? at walked ⊢
      by_cases dot : name = "."
      · simp only [dot, if_true] at walked ⊢
        exact ih walked
      · by_cases dots : name = ".."
        · simp only [dots] at walked ⊢
          exact ih walked
        · simp only [dot, dots, if_false] at walked ⊢
          by_cases long : name.utf8ByteSize > maxName
          · simp [long] at walked
          · simp only [long, if_false] at walked ⊢
            cases found : left.find? (here ++ [name]) with
            | none => simp [found] at walked
            | some entry =>
                cases entry with
                | directory =>
                    simp only [found] at walked
                    simp only [(same _).1 found]
                    exact ih walked
                | file _ | device _ | program => simp [found] at walked

/-- Following a path is following all of its names but the last. -/
theorem locate_eq_ok {place : Place} :
    tree.locate here path = .ok place ↔
      path.size < maxPath ∧
        ((path.names.getLast? = none ∧ path.absolute ∧ place = .directory []) ∨
          ∃ name parent, path.names.getLast? = some name ∧
            tree.walk (if path.absolute then [] else here) path.names.dropLast = .ok parent ∧
            place = if name = "." then .directory parent
              else if name = ".." then .directory parent.dropLast
              else .named parent name path.slash) := by
  unfold locate
  by_cases long : path.size ≥ maxPath
  · simp [long, Nat.not_lt.2 long, bind, Except.bind]
  · have short : path.size < maxPath := Nat.lt_of_not_ge long
    simp only [long, short, if_false, true_and, bind, Except.bind, pure, Except.pure]
    cases last : path.names.getLast? with
    | none => by_cases absolute : path.absolute <;> simp [absolute, eq_comm]
    | some name =>
        cases tree.walk (if path.absolute then [] else here) path.names.dropLast with
        | error error => simp
        | ok parent =>
            by_cases dot : name = "."
            · simp [dot, @eq_comm Place]
            · by_cases dots : name = ".." <;> simp [dot, dots, @eq_comm Place]

theorem locate_eq_named {parent : Location} {name : String} {slash : Bool} :
    tree.locate here path = .ok (.named parent name slash) ↔
      path.size < maxPath ∧ path.names.getLast? = some name ∧
        tree.walk (if path.absolute then [] else here) path.names.dropLast = .ok parent ∧
        name ≠ "." ∧ name ≠ ".." ∧ path.slash = slash := by
  rw [locate_eq_ok]
  apply and_congr_right
  intro _
  constructor
  · intro ended
    obtain ⟨_, _, ended⟩ | ⟨last, home, isLast, walked, ended⟩ := ended
    · simp at ended
    · split_ifs at ended with dot dots
      simp only [Place.named.injEq] at ended
      obtain ⟨rfl, rfl, rfl⟩ := ended
      exact ⟨isLast, walked, dot, dots, rfl⟩
  · intro ⟨isLast, walked, dot, dots, ended⟩
    exact .inr ⟨name, parent, isLast, walked, by simp [dot, dots, ended]⟩

/-- Where a path ends depends on the directories of a tree only. -/
theorem SameDirectories.locate (same : SameDirectories left right) {place : Place}
    (located : left.locate here path = .ok place) : right.locate here path = .ok place := by
  rw [locate_eq_ok] at located ⊢
  refine located.imp_right (Or.imp_right ?_)
  intro ⟨name, parent, last, walked, ended⟩
  exact ⟨name, parent, last, same.walk walked, ended⟩

/-- A file can be written where a path names it, unless its name is too long or a directory
is in its place. -/
theorem spotAt_eq_ok {place : Location} {found : Option Entry} :
    tree.spotAt here path = .ok (place, found) ↔
      ∃ parent name, tree.locate here path = .ok (.named parent name false) ∧
        name.utf8ByteSize ≤ maxName ∧ tree.find? place ≠ some .directory ∧
        parent ++ [name] = place ∧ tree.find? place = found := by
  unfold spotAt
  cases tree.locate here path with
  | error error => simp [bind, Except.bind]
  | ok ended =>
      cases ended with
      | directory location => simp [bind, Except.bind]
      | named parent name slash =>
          simp only [bind, Except.bind, pure, Except.pure, child?, Except.ok.injEq,
            Place.named.injEq, and_assoc, exists_and_left, exists_eq_left']
          cases slash with
          | true => simp
          | false =>
              by_cases long : name.utf8ByteSize > maxName
              · simp [long, Nat.not_le.2 long]
              · cases there : tree.find? (parent ++ [name]) with
                | none => simp [long]; grind
                | some entry => cases entry <;> simp [long] <;> grind

theorem spot?_eq_some {place : Location} :
    tree.spot? here path = some place ↔
      ∃ parent name, tree.locate here path = .ok (.named parent name false) ∧
        name.utf8ByteSize ≤ maxName ∧ tree.find? place ≠ some .directory ∧
        parent ++ [name] = place := by
  have through : tree.spot? here path = some place ↔
      ∃ found, tree.spotAt here path = .ok (place, found) := by
    unfold spot?
    cases tree.spotAt here path with
    | error error => simp [Except.toOption]
    | ok pair => simp [Except.toOption, Prod.ext_iff]
  simp [through, spotAt_eq_ok]

theorem SameDirectories.spot? (same : SameDirectories left right) :
    left.spot? here path = right.spot? here path := by
  apply Option.ext
  intro place
  simp only [spot?_eq_some]
  constructor
  · intro ⟨parent, name, located, short, free, named⟩
    exact ⟨parent, name, same.locate located, short, mt (same place).2 free, named⟩
  · intro ⟨parent, name, located, short, free, named⟩
    exact ⟨parent, name, same.symm.locate located, short, mt (same place).1 free, named⟩

theorem held_of_directory {location : Location}
    (located : tree.locate here path = .ok (.directory location)) :
    tree.held here path = some .directory := by
  simp [held, entryAt, located, bind, Except.bind, pure, Except.pure, Except.toOption]

/-- A path that ends with a slash holds a directory or nothing. -/
theorem held_of_named {parent : Location} {name : String} {slash : Bool}
    (located : tree.locate here path = .ok (.named parent name slash)) :
    tree.held here path =
      if name.utf8ByteSize > maxName then none
      else (tree.find? (parent ++ [name])).filter fun entry => !slash || entry = .directory := by
  simp only [held, entryAt, located, bind, Except.bind, pure, Except.pure, child?]
  by_cases long : name.utf8ByteSize > maxName
  · simp [long, Except.toOption]
  · cases tree.find? (parent ++ [name]) with
    | none => simp [long, Except.toOption]
    | some entry =>
        cases entry <;> cases slash <;> simp [long, Except.toOption, Option.filter_some]

theorem held_eq_none_of_error {error : OsError} (failed : tree.locate here path = .error error) :
    tree.held here path = none := by
  simp [held, entryAt, failed, bind, Except.bind, Except.toOption]

/-- What a path holds is decided by the directories and by the file that it names. -/
theorem SameDirectories.held (same : SameDirectories left right)
    (kept : ∀ place, left.spot? here path = some place → left.find? place = right.find? place) :
    left.held here path = right.held here path := by
  cases located : left.locate here path with
  | error error =>
      cases relocated : right.locate here path with
      | error _ => rw [held_eq_none_of_error located, held_eq_none_of_error relocated]
      | ok place => simp [same.symm.locate relocated] at located
  | ok ended =>
      have relocated := same.locate located
      cases ended with
      | directory location => rw [held_of_directory located, held_of_directory relocated]
      | named parent name slash =>
          rw [held_of_named located, held_of_named relocated]
          cases slash with
          | true =>
              -- Only a directory passes, and the trees agree on those.
              congr 1
              apply Option.ext
              intro entry
              by_cases directory : entry = .directory
              · subst directory
                simpa [Option.filter_eq_some_iff] using same (parent ++ [name])
              · simp [Option.filter_eq_some_iff, directory]
          | false =>
              by_cases long : name.utf8ByteSize > maxName
              · simp [long]
              · by_cases directory : left.find? (parent ++ [name]) = some .directory
                · rw [directory, (same _).1 directory]
                · have short := Nat.le_of_not_lt long
                  rw [kept (parent ++ [name])]
                  exact spot?_eq_some.2 ⟨parent, name, located, short, directory, rfl⟩

theorem held_of_spot? {place : Location} (spot : tree.spot? here path = some place) :
    tree.held here path = tree.find? place := by
  obtain ⟨parent, name, located, short, _, rfl⟩ := spot?_eq_some.1 spot
  rw [held_of_named located, if_neg (Nat.not_lt.2 short)]
  cases tree.find? (parent ++ [name]) <;> simp [Option.filter_some]

theorem ne_root_of_spot? {place : Location} (spot : tree.spot? here path = some place) :
    place ≠ [] := by
  obtain ⟨parent, name, _, _, _, rfl⟩ := spot?_eq_some.1 spot
  simp

theorem free_of_spot? {place : Location} (spot : tree.spot? here path = some place) :
    tree.find? place ≠ some .directory := by
  obtain ⟨_, _, _, _, free, _⟩ := spot?_eq_some.1 spot
  exact free

/-! ## What operations change -/

/-- The trees have the same directories, and differ at the touched locations only. -/
structure Touches (touched : Location → Prop) (before after : FileTree) : Prop where
  directories : SameDirectories before after
  elsewhere : ∀ place, ¬ touched place → before.find? place = after.find? place

variable {touched : Location → Prop} {before between after : FileTree}

theorem Touches.refl (touched : Location → Prop) (tree : FileTree) :
    Touches touched tree tree :=
  ⟨fun _ => Iff.rfl, fun _ _ => rfl⟩

theorem Touches.trans (first : Touches touched before between)
    (second : Touches touched between after) : Touches touched before after where
  directories := first.directories.trans second.directories
  elsewhere place untouched :=
    (first.elsewhere place untouched).trans (second.elsewhere place untouched)

theorem Touches.mono {wider : Location → Prop} (change : Touches touched before after)
    (included : ∀ place, touched place → wider place) : Touches wider before after where
  directories := change.directories
  elsewhere place untouched := change.elsewhere place (mt (included place) untouched)

/-- A path that can name none of the touched files holds what it held. -/
theorem Touches.held (change : Touches touched before after)
    (untouched : ∀ place, before.spot? here path = some place → ¬ touched place) :
    before.held here path = after.held here path :=
  change.directories.held fun place spot => change.elsewhere place (untouched place spot)

theorem touches_put {place : Location} {entry : Entry} (below : place ≠ [])
    (old : tree.find? place ≠ some .directory) (new : entry ≠ .directory) :
    Touches (· = place) tree (tree.put place entry) where
  directories location := by
    rw [find?_put _ below]
    by_cases equal : location = place
    · simp [equal, old, new]
    · simp [equal]
  elsewhere location other := by rw [find?_put _ below, if_neg other]

theorem touches_erase {place : Location} (below : place ≠ [])
    (old : tree.find? place ≠ some .directory) :
    Touches (· = place) tree (tree.erase place) where
  directories location := by
    rw [find?_erase _ below]
    by_cases equal : location = place
    · simp [equal, old]
    · simp [equal]
  elsewhere location other := by rw [find?_erase _ below, if_neg other]

theorem touches_move {source dest : Path} {old new : Location} {entry : Entry}
    (leaving : tree.spot? here source = some old) (found : tree.find? old = some entry)
    (arriving : tree.spot? here dest = some new) (different : old ≠ new) :
    Touches (fun place => place = old ∨ place = new) tree ((tree.erase old).put new entry) := by
  have cleared := touches_erase (ne_root_of_spot? leaving) (free_of_spot? leaving)
  have free : (tree.erase old).find? new ≠ some .directory := by
    rw [← cleared.elsewhere new different.symm]
    exact free_of_spot? arriving
  have file : entry ≠ .directory := by
    intro directory
    exact free_of_spot? leaving (directory ▸ found)
  have filled := touches_put (ne_root_of_spot? arriving) free file
  exact (cleared.mono fun _ => .inl).trans (filled.mono fun _ => .inr)

/-- A file that is no device is written at the spot of its path, and whenever there is one. -/
theorem write_eq_ok {content : List UInt8} {written : Written}
    (plain : ∀ place device, tree.spot? here path = some place →
      tree.find? place ≠ some (.device device)) :
    tree.write here path content = .ok written ↔
      ∃ place, tree.spot? here path = some place ∧
        written = .stored (tree.put place (.file content)) := by
  unfold FileTree.write
  cases spot : tree.spotAt here path with
  | error error => simp [spot?, spot, Except.toOption, bind, Except.bind]
  | ok pair =>
      obtain ⟨place, found⟩ := pair
      obtain ⟨_, _, _, _, _, _, there⟩ := spotAt_eq_ok.1 spot
      have taken : tree.spot? here path = some place := by simp [spot?, spot, Except.toOption]
      cases found with
      | none => simp [taken, bind, Except.bind, pure, Except.pure, eq_comm]
      | some entry =>
          cases entry with
          | device device => exact absurd there (plain place device taken)
          | file _ | directory | program =>
              simp [taken, bind, Except.bind, pure, Except.pure, eq_comm]

/-- Moving between two named files. -/
theorem rename_of_named {source dest : Path} {oldParent newParent : Location}
    {oldName newName : String} {oldSlash newSlash : Bool}
    (leaving : tree.locate here source = .ok (.named oldParent oldName oldSlash))
    (arriving : tree.locate here dest = .ok (.named newParent newName newSlash)) :
    tree.rename here source dest = .ok after ↔
      (oldName.utf8ByteSize ≤ maxName ∧ oldSlash = false) ∧
        (newName.utf8ByteSize ≤ maxName ∧ newSlash = false) ∧
        tree.find? (newParent ++ [newName]) ≠ some .directory ∧
        ∃ entry, tree.find? (oldParent ++ [oldName]) = some entry ∧ entry ≠ .directory ∧
          after = if oldParent ++ [oldName] = newParent ++ [newName] then tree
            else (tree.erase (oldParent ++ [oldName])).put (newParent ++ [newName]) entry := by
  have short := (locate_eq_ok.1 arriving).1
  simp only [rename, leaving, arriving, child?, bind, Except.bind, pure, Except.pure,
    Nat.not_le.2 short, if_false]
  by_cases oldLong : oldName.utf8ByteSize > maxName
  · simp [oldLong, Nat.not_le.2 oldLong]
  · cases tree.find? (oldParent ++ [oldName]) with
    | none => simp [oldLong]
    | some entry =>
        by_cases newLong : newName.utf8ByteSize > maxName
        · simp [oldLong, newLong, Nat.not_le.2 newLong]
        · cases entry <;> cases oldSlash <;> cases newSlash <;>
            simp [oldLong, newLong, Nat.le_of_not_lt oldLong, Nat.le_of_not_lt newLong] <;>
            split_ifs <;> simp_all [eq_comm]

theorem named_of_rename {source dest : Path} (renamed : tree.rename here source dest = .ok after) :
    ∃ oldParent oldName oldSlash newParent newName newSlash,
      tree.locate here source = .ok (.named oldParent oldName oldSlash) ∧
        tree.locate here dest = .ok (.named newParent newName newSlash) := by
  unfold rename at renamed
  cases leaving : tree.locate here source with
  | error error => split at renamed <;> simp [leaving, bind, Except.bind] at renamed
  | ok oldEnd =>
      cases arriving : tree.locate here dest with
      | error error => split at renamed <;> simp [leaving, arriving, bind, Except.bind] at renamed
      | ok newEnd =>
          cases oldEnd <;> cases newEnd <;> split at renamed <;>
            simp [leaving, arriving, bind, Except.bind] at renamed ⊢

/-- A file is moved from the spot of one path to that of the other. -/
theorem rename_eq_ok {source dest : Path} :
    tree.rename here source dest = .ok after ↔
      ∃ old new entry, tree.spot? here source = some old ∧ tree.find? old = some entry ∧
        tree.spot? here dest = some new ∧
        after = if old = new then tree else (tree.erase old).put new entry := by
  constructor
  · intro renamed
    obtain ⟨oldParent, oldName, oldSlash, newParent, newName, newSlash, leaving, arriving⟩ :=
      named_of_rename renamed
    obtain ⟨⟨oldShort, rfl⟩, ⟨newShort, rfl⟩, newFree, entry, found, file, moved⟩ :=
      (rename_of_named leaving arriving).1 renamed
    refine ⟨_, _, entry, ?_, found, ?_, moved⟩
    · apply spot?_eq_some.2
      exact ⟨oldParent, oldName, leaving, oldShort, by simp [found, file], rfl⟩
    · exact spot?_eq_some.2 ⟨newParent, newName, arriving, newShort, newFree, rfl⟩
  · intro ⟨old, new, entry, leaving, found, arriving, moved⟩
    obtain ⟨oldParent, oldName, fromOld, oldShort, oldFree, rfl⟩ := spot?_eq_some.1 leaving
    obtain ⟨newParent, newName, toNew, newShort, newFree, rfl⟩ := spot?_eq_some.1 arriving
    have file : entry ≠ .directory := by
      intro directory
      exact oldFree (directory ▸ found)
    exact (rename_of_named fromOld toNew).2
      ⟨⟨oldShort, rfl⟩, ⟨newShort, rfl⟩, newFree, entry, found, file, moved⟩

/-- A file is deleted at the spot of its path. -/
theorem remove_eq_ok (removed : tree.remove here path = .ok after) :
    ∃ place, tree.spot? here path = some place ∧ after = tree.erase place := by
  unfold FileTree.remove entryAt at removed
  cases located : tree.locate here path with
  | error error => simp [located, bind, Except.bind] at removed
  | ok ended =>
      cases ended with
      | directory location =>
          simp [located, bind, Except.bind, pure, Except.pure] at removed
      | named parent name slash =>
          simp only [located, bind, Except.bind, pure, Except.pure, child?] at removed
          by_cases long : name.utf8ByteSize > maxName
          · simp [long] at removed
          · simp only [long, if_false] at removed
            refine ⟨parent ++ [name], ?_⟩
            rw [spot?_eq_some]
            cases found : tree.find? (parent ++ [name]) with
            | none => simp [found] at removed
            | some entry =>
                cases slash <;> cases entry <;> simp [found] at removed <;>
                  simp [located, Nat.le_of_not_lt long, removed.symm]

end FileTree

end ScanCircuit
